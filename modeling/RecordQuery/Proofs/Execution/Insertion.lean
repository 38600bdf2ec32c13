import RecordQuery.Execution.Statement
import RecordQuery.Proofs.Outcome
import RecordQuery.Proofs.Store.Writing

set_option autoImplicit false

/-!
# What insertions write

An insertion takes its rows in order. Each row is evaluated, its key is looked for, and a record
with that key is added at the end of the set; all this happens before the next row is looked at. So
an insertion that fails has written the rows before the one that failed, and nothing else. No record
that was there is changed.

## Main definitions

* `InsertPlan.content` — the key and the bins that a row asks for.
* `newcomers` — the rows whose keys are new.
* `Store.Extends` — a store with new records at the end of one of its sets.
* `InsertPlan.Refuses` — a row cannot be written.
* `InsertPlan.Writes` — what rows write that are not refused.

## Main results

* `InsertPlan.runRow_eq` — a row writes its content.
* `InsertPlan.exists_writes` — rows are written up to the first that is refused.
* `BoundStatement.execute_insert` — the same for the statement.
-/

namespace RecordQuery

open Outcome

/-! ## Content of a row -/

/-- The value of a column of a row. In the column of the key it has to be a key. -/
def InsertPlan.cell (p : InsertPlan) (params : List Value) (c : (String × Expr) × Nat) :
    Except QueryError (String × Value) := do
  let v ← c.1.2.eval params .empty
  if c.2 = p.keyIndex then
    let _ ← UserKey.ofValue? v
    return (c.1.1, v)
  else return (c.1.1, v)

/-- The bins that columns with values make: nulls are none, and the last value of a name counts. -/
def Bins.ofCells (cells : List (String × Value)) : Bins :=
  .ofInserts (cells.filter (fun c => !c.2.isNull))

/-- The key that a row asks for and the bins that go with it: the value in the column of the key,
and those of all other columns. -/
def InsertPlan.content (p : InsertPlan) (params : List Value) (values : List Expr) :
    Except QueryError (UserKey × Bins) := do
  let cells ← ((p.columns.zip values).zipIdx).mapM (p.cell params)
  match cells[p.keyIndex]? with
  | none => throw (.insertRowWithoutKey p.set)
  | some c => return (← UserKey.ofValue? c.2, .ofCells (cells.eraseIdx p.keyIndex))

section Content

variable {p : InsertPlan} {params : List Value}

/-- Bins with those of further columns written into them. -/
def writeCells (bins : Bins) (cells : List (String × Value)) : Bins :=
  (cells.filter (fun c => !c.2.isNull)).foldl (fun m c => m.insert c.1 c.2) bins

/-- One more column is written first. -/
lemma writeCells_cons (bins : Bins) (c : String × Value) (cells : List (String × Value)) :
    writeCells bins (c :: cells) =
      writeCells (if c.2.isNull then bins else bins.insert c.1 c.2) cells := by
  unfold writeCells
  cases hnull : c.2.isNull <;> simp [hnull]

/-- Behind the column of the key all columns go to the bins. -/
lemma fillRow_behind {i : Nat} (hi : p.keyIndex < i) (columns : List (String × Expr))
    (key : Option UserKey) (bins : Bins) :
    fillRow params p.keyIndex i columns (key, bins) = (do
      let cells ← (columns.zipIdx i).mapM (p.cell params)
      return (key, writeCells bins cells)) := by
  induction columns generalizing i bins with
  | nil => simp [fillRow, writeCells, pure, Except.pure]
  | cons c columns ih =>
    have hne : ¬ i = p.keyIndex := by omega
    rw [List.zipIdx_cons, List.mapM_cons, fillRow, InsertPlan.cell]
    cases hv : c.2.eval params .empty with
    | error e => simp
    | ok v =>
      simp only [ok_bind, if_neg hne, pure_bind, ih (i := i + 1) (by omega)]
      cases (columns.zipIdx (i + 1)).mapM (p.cell params) with
      | error e => rfl
      | ok cells => simp [writeCells_cons]

/-- **Filling a row** takes the key from its column and the bins from the others.

**Proof sketch.** Induction on the columns, with the distance `d` to that of the key. At distance
zero the key is taken from this column, and none of the columns behind it is that of the key
(`fillRow_behind`); at any other distance this column is written as a bin. -/
lemma fillRow_eq {i d : Nat} (hi : p.keyIndex = i + d) (columns : List (String × Expr))
    (bins : Bins) :
    fillRow params p.keyIndex i columns (none, bins) = (do
      let cells ← (columns.zipIdx i).mapM (p.cell params)
      match cells[d]? with
      | none => return (none, writeCells bins cells)
      | some c => return (some (← UserKey.ofValue? c.2), writeCells bins (cells.eraseIdx d))) := by
  induction columns generalizing i d bins with
  | nil => simp [fillRow, writeCells, pure, Except.pure]
  | cons c columns ih =>
    rw [List.zipIdx_cons, List.mapM_cons, fillRow, InsertPlan.cell]
    cases hv : c.2.eval params .empty with
    | error e => simp
    | ok v =>
      cases d with
      | zero =>
        -- This is the column of the key.
        have heq : i = p.keyIndex := by omega
        cases hk : UserKey.ofValue? v with
        | error e => simp [heq, hk]
        | ok k =>
          simp only [ok_bind, if_pos heq, hk, pure_bind,
            fillRow_behind (show p.keyIndex < i + 1 by omega)]
          cases (columns.zipIdx (i + 1)).mapM (p.cell params) with
          | error e => rfl
          | ok cells => simp [hk]
      | succ d =>
        have hne : ¬ i = p.keyIndex := by omega
        simp only [ok_bind, if_neg hne, pure_bind, ih (i := i + 1) (d := d) (by omega)]
        cases (columns.zipIdx (i + 1)).mapM (p.cell params) with
        | error e => rfl
        | ok cells =>
          simp only [ok_bind, pure_bind, List.getElem?_cons_succ, List.eraseIdx_cons_succ,
            writeCells_cons]

/-- **A row writes its content**, unless its key is there. -/
lemma InsertPlan.runRow_eq (p : InsertPlan) (params : List Value) (values : List Expr) :
    p.runRow params values = (do
      let c ← (liftM (p.content params values) : StoreM (UserKey × Bins))
      let written ← StoreM.put ⟨p.ns, p.set, c.1⟩ c.2 .create
      if !written && !p.ignore then throw (.keyExists c.1.display p.set)
      return written) := by
  unfold InsertPlan.runRow InsertPlan.content
  rw [fillRow_eq (Nat.zero_add p.keyIndex).symm]
  cases ((p.columns.zip values).zipIdx).mapM (p.cell params) with
  | error e => rfl
  | ok cells =>
    simp only [ok_bind]
    cases cells[p.keyIndex]? with
    | none => rfl
    | some c =>
      simp only
      cases UserKey.ofValue? c.2 with
      | error e => rfl
      | ok k => rfl

/-- No bin of a row is null. -/
lemma InsertPlan.isNull_of_content {values : List Expr} {c : UserKey × Bins}
    (h : p.content params values = .ok c) : ∀ e ∈ c.2.entries, e.2.isNull = false := by
  simp only [content, bind_eq_ok] at h
  obtain ⟨cells, -, h⟩ := h
  split at h
  · cases h
  · simp only [bind_eq_ok, pure_eq_ok] at h
    obtain ⟨k, -, rfl⟩ := h
    intro e he
    simpa using List.of_mem_filter (OrderedMap.mem_entries_ofInserts he)

end Content

/-! ## New records -/

/-- The rows whose key is neither among given ones nor that of an earlier row. -/
def newcomers (present : List UserKey) : List (UserKey × Bins) → List (UserKey × Bins)
  | [] => []
  | c :: rest =>
    if c.1 ∈ present then newcomers present rest else c :: newcomers (present ++ [c.1]) rest

/-- A store is another one with new records at the end of a set. -/
structure Store.Extends (ns set : String) (s : Store) (news : List (UserKey × Bins))
    (t : Store) : Prop extends s.AlikeBut ns set t where
  /-- The new records stand behind those that were there. -/
  entries : (t.recordSet ns set).entries = (s.recordSet ns set).entries ++ news
  /-- The set is known if it was known before or has new records. -/
  known : (ns, set) ∈ t.sets.keys ↔ (ns, set) ∈ s.sets.keys ∨ news ≠ []
  /-- Nothing is read. -/
  counts : t.counts = s.counts

namespace Store

variable {s t u : Store} {ns set : String} {news others : List (UserKey × Bins)}

/-- Nothing is added. -/
lemma Extends.refl (ns set : String) (s : Store) : s.Extends ns set [] s :=
  { AlikeBut.refl ns set s with entries := by simp, known := by simp, counts := rfl }

/-- Records are added behind others. -/
lemma Extends.trans (h : s.Extends ns set news t) (h' : t.Extends ns set others u) :
    s.Extends ns set (news ++ others) u :=
  { h.toAlikeBut.trans h'.toAlikeBut with
    entries := by rw [h'.entries, h.entries, List.append_assoc]
    known := by
      rw [h'.known, h.known, or_assoc, ne_eq, ne_eq, ne_eq, List.append_eq_nil_iff, not_and_or]
    counts := h'.counts.trans h.counts }

/-- A new record is added behind those that are there. -/
lemma extends_withRecords {k : UserKey} (h : k ∉ (s.recordSet ns set).keys) (bins : Bins) :
    s.Extends ns set [(k, bins)]
      (s.withRecords ns set ((s.recordSet ns set).set k bins)) :=
  { alikeBut_withRecords s ns set _ with
    entries := by rw [recordSet_withRecords, OrderedMap.entries_set_of_not_mem h]
    known := by simp [mem_keys_withRecords]
    counts := rfl }

/-- The keys of the set afterwards. -/
lemma Extends.keys (h : s.Extends ns set news t) :
    (t.recordSet ns set).keys = (s.recordSet ns set).keys ++ news.map Prod.fst := by
  rw [OrderedMap.keys, h.entries, List.map_append]
  rfl

end Store

/-! ## Rows -/

namespace InsertPlan

variable {p : InsertPlan} {params : List Value} {s : Store} {values : List Expr}

/-- A row cannot be written, for a reason: its values or its key cannot be had, or the key is there
and may not be passed over. -/
def Refuses (p : InsertPlan) (params : List Value) (s : Store) (values : List Expr)
    (e : QueryError) : Prop :=
  p.content params values = .error e ∨
    ∃ c, p.content params values = .ok c ∧ c.1 ∈ (s.recordSet p.ns p.set).keys ∧
      p.ignore = false ∧ e = .keyExists c.1.display p.set

/-- A row that is refused writes nothing. -/
lemma runRow_of_refuses {e : QueryError} (h : p.Refuses params s values e) :
    p.runRow params values s = (.error e, s) := by
  rw [runRow_eq]
  rcases h with hc | ⟨c, hc, hkey, hignore, rfl⟩
  · rw [hc]
    rfl
  · have hput : StoreM.put ⟨p.ns, p.set, c.1⟩ c.2 .create s = (.ok false, s) := by
      rw [StoreM.put_run, Store.put_create_of_mem hkey]
    rw [hc, hignore]
    exact (StoreM.bind_of_ok (a := c) rfl).trans (StoreM.bind_of_ok hput)

/-- A row whose key is there is passed over, if it may be. -/
lemma runRow_of_mem {c : UserKey × Bins} (hc : p.content params values = .ok c)
    (hkey : c.1 ∈ (s.recordSet p.ns p.set).keys) (hignore : p.ignore = true) :
    p.runRow params values s = (.ok false, s) := by
  have hput : StoreM.put ⟨p.ns, p.set, c.1⟩ c.2 .create s = (.ok false, s) := by
    rw [StoreM.put_run, Store.put_create_of_mem hkey]
  rw [runRow_eq, hc, hignore]
  exact (StoreM.bind_of_ok (a := c) rfl).trans (StoreM.bind_of_ok hput)

/-- **A row whose key is new is added** behind the records that are there. -/
lemma exists_runRow_of_not_mem {c : UserKey × Bins} (hc : p.content params values = .ok c)
    (hkey : c.1 ∉ (s.recordSet p.ns p.set).keys) :
    ∃ t, p.runRow params values s = (.ok true, t) ∧ s.Extends p.ns p.set [c] t := by
  refine ⟨_, ?_, Store.extends_withRecords hkey c.2⟩
  have hput : StoreM.put ⟨p.ns, p.set, c.1⟩ c.2 .create s =
      (.ok true, s.withRecords p.ns p.set ((s.recordSet p.ns p.set).set c.1 c.2)) := by
    rw [StoreM.put_run, Store.put_of_not_mem hkey, Store.storedBins_eq (isNull_of_content hc)]
  rw [runRow_eq, hc]
  exact (StoreM.bind_of_ok (a := c) rfl).trans (StoreM.bind_of_ok hput)

/-! ## Runs -/

/-- Rows are all written or passed over. What is written is a new record for each row whose key is
neither in the set nor that of an earlier row; without leave to pass over rows these are all. -/
structure Writes (p : InsertPlan) (params : List Value) (rows : List (List Expr)) (s : Store)
    (contents : List (UserKey × Bins)) (t : Store) : Prop where
  /-- What the rows ask for. -/
  contents_eq : rows.mapM (p.content params) = .ok contents
  /-- The new records stand at the end of the set. -/
  added : s.Extends p.ns p.set (newcomers (s.recordSet p.ns p.set).keys contents) t
  /-- Without leave to pass over rows every row is new. -/
  all_new : p.ignore = false → newcomers (s.recordSet p.ns p.set).keys contents = contents
  /-- Writing the rows returns the number of new records. -/
  run : p.runRows params rows s =
    (.ok (newcomers (s.recordSet p.ns p.set).keys contents).length, t)

variable {rows : List (List Expr)} {contents : List (UserKey × Bins)} {c : UserKey × Bins}
  {t u : Store}

/-- Without rows nothing is written. -/
lemma Writes.nil (p : InsertPlan) (params : List Value) (s : Store) :
    p.Writes params [] s [] s := ⟨rfl, .refl _ _ s, fun _ => rfl, rfl⟩

/-- A row that is passed over and further rows. -/
lemma Writes.pass (h : p.Writes params rows s contents t) (hc : p.content params values = .ok c)
    (hkey : c.1 ∈ (s.recordSet p.ns p.set).keys) (hignore : p.ignore = true) :
    p.Writes params (values :: rows) s (c :: contents) t := by
  have hnews : newcomers (s.recordSet p.ns p.set).keys (c :: contents) =
      newcomers (s.recordSet p.ns p.set).keys contents := if_pos hkey
  refine ⟨?_, by rw [hnews]; exact h.added, fun hnot => ?_, ?_⟩
  · rw [List.mapM_cons, hc, h.contents_eq]
    rfl
  · rw [hignore] at hnot
    cases hnot
  · refine (StoreM.bind_of_ok (runRow_of_mem hc hkey hignore)).trans ?_
    refine (StoreM.bind_of_ok h.run).trans ?_
    rw [hnews, if_neg Bool.false_ne_true, Nat.zero_add]
    rfl

/-- A row that is added and further rows. -/
lemma Writes.add (h : p.Writes params rows t contents u) (hc : p.content params values = .ok c)
    (hkey : c.1 ∉ (s.recordSet p.ns p.set).keys) (hrow : p.runRow params values s = (.ok true, t))
    (hadded : s.Extends p.ns p.set [c] t) :
    p.Writes params (values :: rows) s (c :: contents) u := by
  -- From now on the key of the row is in the set.
  have hkeys : (t.recordSet p.ns p.set).keys = (s.recordSet p.ns p.set).keys ++ [c.1] := hadded.keys
  have hnews : newcomers (s.recordSet p.ns p.set).keys (c :: contents) =
      c :: newcomers (t.recordSet p.ns p.set).keys contents := by
    rw [hkeys]
    exact if_neg hkey
  refine ⟨?_, by rw [hnews]; exact hadded.trans h.added, fun hignore => ?_, ?_⟩
  · rw [List.mapM_cons, hc, h.contents_eq]
    rfl
  · rw [hnews, h.all_new hignore]
  · refine (StoreM.bind_of_ok hrow).trans ?_
    refine (StoreM.bind_of_ok h.run).trans ?_
    rw [hnews, if_pos rfl, List.length_cons, Nat.add_comm]
    rfl

/-- What rows do does not depend on the other rows of the insertion. -/
lemma runRows_withRows (p : InsertPlan) (others : List (List Expr)) (params : List Value)
    (rows : List (List Expr)) :
    ({ p with rows := others } : InsertPlan).runRows params rows = p.runRows params rows := by
  induction rows with
  | nil => rfl
  | cons values rows ih =>
    rw [runRows, runRows, ih]
    rfl

/-- **Rows are written up to the first that is refused.**

**Proof sketch.** By induction on the rows. The first row is refused, passed over or added; in the
last case its key belongs to the set from then on, so that later rows with that key are no
newcomers. -/
theorem exists_writes (p : InsertPlan) (params : List Value) (rows : List (List Expr))
    (s : Store) :
    ∃ done contents t, p.Writes params (rows.take done) s contents t ∧
      (done = rows.length ∨ ∃ values e, rows[done]? = some values ∧
        p.Refuses params t values e ∧ p.runRows params rows s = (.error e, t)) := by
  induction rows generalizing s with
  | nil => exact ⟨0, [], s, .nil p params s, .inl rfl⟩
  | cons values rows ih =>
    by_cases hrefused : ∃ e, p.Refuses params s values e
    · obtain ⟨e, he⟩ := hrefused
      exact ⟨0, [], s, .nil p params s,
        .inr ⟨values, e, rfl, he, StoreM.bind_of_error (runRow_of_refuses he)⟩⟩
    · obtain ⟨c, hc⟩ : ∃ c, p.content params values = .ok c := by
        cases hc : p.content params values with
        | error e => exact absurd ⟨e, .inl hc⟩ hrefused
        | ok c => exact ⟨c, rfl⟩
      by_cases hkey : c.1 ∈ (s.recordSet p.ns p.set).keys
      · have hignore : p.ignore = true := by
          by_contra hnot
          exact hrefused ⟨_, .inr ⟨c, hc, hkey, Bool.eq_false_iff.mpr hnot, rfl⟩⟩
        have hrow := runRow_of_mem hc hkey hignore
        obtain ⟨done, contents, t, hwrites, hend⟩ := ih s
        refine ⟨done + 1, c :: contents, t, hwrites.pass hc hkey hignore, ?_⟩
        rcases hend with rfl | ⟨values', e, hvalues, hrefuses, hrun⟩
        · exact .inl rfl
        · exact .inr ⟨values', e, hvalues, hrefuses,
            (StoreM.bind_of_ok hrow).trans (StoreM.bind_of_error hrun)⟩
      · obtain ⟨mid, hrow, hadded⟩ := exists_runRow_of_not_mem hc hkey
        obtain ⟨done, contents, t, hwrites, hend⟩ := ih mid
        refine ⟨done + 1, c :: contents, t, hwrites.add hc hkey hrow hadded, ?_⟩
        rcases hend with rfl | ⟨values', e, hvalues, hrefuses, hrun⟩
        · exact .inl rfl
        · exact .inr ⟨values', e, hvalues, hrefuses,
            (StoreM.bind_of_ok hrow).trans (StoreM.bind_of_error hrun)⟩

end InsertPlan

/-! ## Statements -/

/-- **An insertion writes a prefix of its rows and changes no record that is there.** It gets as far
as its first row that is refused, or through all of them. The store that it leaves is the one that
the rows before that row leave: the one before with new records at the end of the set, in the order
of the rows, one for each row whose key is neither in the set nor that of an earlier row. If no row
is refused, their number is what the statement returns; otherwise it fails for the reason of that
row. Without leave to pass over rows none was passed over.

**Proof sketch.** The rows are written one after the other up to the first that is refused
(`InsertPlan.exists_writes`). An insertion of the rows before that one is a run of the same plan
with fewer rows (`hrun`). -/
theorem BoundStatement.execute_insert (p : InsertPlan) (params : List Value) (config : Config)
    (s : Store) :
    ∃ done contents t,
      (p.rows.take done).mapM (p.content params) = .ok contents ∧
      s.Extends p.ns p.set (newcomers (s.recordSet p.ns p.set).keys contents) t ∧
      (p.ignore = false → newcomers (s.recordSet p.ns p.set).keys contents = contents) ∧
      (BoundStatement.mk (.insert { p with rows := p.rows.take done }) params config).execute s =
        (.ok (.affected (newcomers (s.recordSet p.ns p.set).keys contents).length), t) ∧
      ((done = p.rows.length ∧ (BoundStatement.mk (.insert p) params config).execute s =
          (.ok (.affected (newcomers (s.recordSet p.ns p.set).keys contents).length), t)) ∨
        ∃ values e, p.rows[done]? = some values ∧ p.Refuses params t values e ∧
          (BoundStatement.mk (.insert p) params config).execute s = (.error e, t)) := by
  obtain ⟨done, contents, t, hwrites, hend⟩ := p.exists_writes params p.rows s
  have hrun : ∀ rows n last, p.runRows params rows s = (.ok n, last) →
      (BoundStatement.mk (.insert { p with rows }) params config).execute s =
        (.ok (.affected n), last) := by
    intro rows n last h
    rw [← p.runRows_withRows rows] at h
    exact StoreM.map_of_ok _ h
  refine ⟨done, contents, t, hwrites.contents_eq, hwrites.added, hwrites.all_new,
    hrun _ _ _ hwrites.run, ?_⟩
  rcases hend with rfl | ⟨values, e, hvalues, hrefuses, hfails⟩
  · have hall := hwrites.run
    rw [List.take_length] at hall
    exact .inl ⟨rfl, hrun _ _ _ hall⟩
  · exact .inr ⟨values, e, hvalues, hrefuses, StoreM.bind_of_error hfails⟩

end RecordQuery
