import RecordQuery.Proofs.Cursor.Complete
import RecordQuery.Proofs.Execution.Fault
import RecordQuery.Proofs.Pipeline.Reading

set_option autoImplicit false

/-!
# Selected records

Updates and deletions first select all their records: those that the strategy of the selection
finds, of these the ones that pass its row filter, and of these the first ones up to a limit. They
are records of one set, none of them twice.

## Main definitions

* `firstAccepted` — the first elements of a list that pass a test.
* `selectedRecords` — the records that an update or a deletion selects.
* `Store.Lists` — records of a set, none of them twice.

## Main results

* `firstAccepted_eq_ok` — what the first accepted elements are.
* `reads_selectedRows` — the selected rows show the selected records.
* `lists_selectedRecords` — selected records are records of the set of the selection.
-/

namespace RecordQuery

open Outcome

/-! ## The first records that pass a test -/

section FirstAccepted

variable {α : Type} {keep : α → Except QueryError Bool}

/-- The first elements that pass a test, up to a limit. None is tested behind the last of them. -/
def firstAccepted (keep : α → Except QueryError Bool) :
    Option Nat → List α → Except QueryError (List α)
  | some 0, _ => .ok []
  | _, [] => .ok []
  | limit, a :: as => do
    if ← keep a then return a :: (← firstAccepted keep (limit.map (· - 1)) as)
    else firstAccepted keep limit as

/-- The elements of a list up to a limit. -/
def takeUpTo (limit : Option Nat) (as : List α) : List α :=
  match limit with
  | some n => as.take n
  | none => as

/-- Without elements none is accepted. -/
@[simp]
lemma firstAccepted_nil (limit : Option Nat) : firstAccepted keep limit [] = .ok [] := by
  rcases limit with _ | _ | n <;> rfl

/-- An element is looked at as long as the limit is not reached. -/
lemma firstAccepted_cons {limit : Option Nat} (hlimit : limit ≠ some 0) (a : α) (as : List α) :
    firstAccepted keep limit (a :: as) = (do
      if ← keep a then return a :: (← firstAccepted keep (limit.map (· - 1)) as)
      else firstAccepted keep limit as) := by
  rcases limit with _ | _ | n
  · rfl
  · exact absurd rfl hlimit
  · rfl

/-- **The first accepted elements** are those that pass the test, up to the limit.

**Proof sketch.** Induction on the elements, with the limit that is left. Without room left nothing
is looked at; an accepted element takes one place, and a rejected one none. -/
lemma firstAccepted_eq_ok {limit : Option Nat} {as bs : List α}
    (h : firstAccepted keep limit as = .ok bs) :
    bs = takeUpTo limit (as.filter (fun a => (keep a).toOption.getD false)) := by
  induction as generalizing limit bs with
  | nil =>
    obtain rfl := Except.ok.inj ((firstAccepted_nil limit).symm.trans h)
    rcases limit with _ | n <;> simp [takeUpTo]
  | cons a as ih =>
    by_cases hlimit : limit = some 0
    · subst hlimit
      obtain rfl := Except.ok.inj h
      simp [takeUpTo]
    · rw [firstAccepted_cons hlimit] at h
      obtain ⟨b, hb, h⟩ := bind_eq_ok.mp h
      cases b with
      | false =>
        rw [ih h, List.filter_cons, hb]
        rfl
      | true =>
        obtain ⟨rest, hrest, h⟩ := bind_eq_ok.mp h
        obtain rfl := Except.ok.inj h
        rw [ih hrest, List.filter_cons, hb]
        rcases limit with _ | _ | n
        · rfl
        · exact absurd rfl hlimit
        · rfl

/-- The first accepted elements stand in their order. -/
lemma sublist_firstAccepted {limit : Option Nat} {as bs : List α}
    (h : firstAccepted keep limit as = .ok bs) : bs.Sublist as := by
  rw [firstAccepted_eq_ok h]
  rcases limit with _ | n
  · exact List.filter_sublist
  · exact (List.take_sublist n _).trans List.filter_sublist

end FirstAccepted

namespace Listing

variable {α : Type} {keep : Row → Except QueryError Bool}

/-- A test of one more row. -/
lemma filter_cons (row : Row) (rows : List Row) :
    (ofRows (row :: rows)).filter keep =
      match keep row with
      | .error e => failed e
      | .ok true => .cons row ((ofRows rows).filter keep)
      | .ok false => (ofRows rows).filter keep := by
  change expandRows (passing keep) none (row :: rows) = _
  rw [expandRows, passing]
  cases keep row with
  | error e => rfl
  | ok b => cases b <;> rfl

/-- A test that every row passes. -/
lemma filter_true (rows : List Row) :
    (ofRows rows).filter (fun _ => .ok true) = ofRows rows := by
  induction rows with
  | nil => rfl
  | cons row rows ih =>
    rw [filter_cons, ih]
    rfl

/-- The first row of a window that lets rows through. -/
lemma complete_window_cons {limit : Option Nat} (hlimit : limit ≠ some 0) (row : Row)
    (l : Listing) :
    ((cons row l).window 0 limit).complete =
      (do return row :: (← (l.window 0 (limit.map (· - 1))).complete)) := by
  obtain ⟨rows, failure⟩ := l
  rcases limit with _ | _ | n
  · cases failure <;> rfl
  · exact absurd rfl hlimit
  · simp only [cons, window, complete, List.drop_zero, List.take_succ_cons, List.length_cons,
      Nat.add_le_add_iff_right, Option.map_some, Nat.add_sub_cancel]
    split <;> rfl

/-- **Testing rows and returning the first ones** returns the first accepted ones.

**Proof sketch.** Induction on the elements, with the limit that is left, in step with
`firstAccepted`: the window that is used up reads nothing, and a row that fails its test fails the
whole. -/
lemma complete_window_filter (show_ : α → Row) (limit : Option Nat) (as : List α) :
    (((ofRows (as.map show_)).filter keep).window 0 limit).complete =
      (do return (← firstAccepted (fun a => keep (show_ a)) limit as).map show_) := by
  induction as generalizing limit with
  | nil =>
    rw [firstAccepted_nil]
    rcases limit with _ | _ | n <;> rfl
  | cons a as ih =>
    by_cases hlimit : limit = some 0
    · subst hlimit
      rw [window]
      simp only [List.take_zero, Nat.zero_le, if_true]
      rfl
    · rw [firstAccepted_cons hlimit, List.map_cons, filter_cons]
      cases hkeep : keep (show_ a) with
      | error e =>
        rcases limit with _ | _ | n
        · rfl
        · exact absurd rfl hlimit
        · rfl
      | ok b =>
        cases b with
        | false => exact ih limit
        | true =>
          simp only [complete_window_cons hlimit, ih, ok_bind, if_true, bind_assoc, pure_bind,
            List.map_cons]

end Listing

/-! ## Selections -/

/-- The row filter of a plan on the row of a record. -/
def QueryPlan.keeps (p : QueryPlan) (params : List Value) (r : Record) : Except QueryError Bool :=
  match p.rowFilter with
  | some e => e.holdsOn params (Row.ofRecord r p.needsDigest)
  | none => .ok true

/-- The records that a prepared plan selects: those that its strategy finds, of these the ones that
pass the row filter, and of these the first ones up to a limit. -/
def QueryPlan.chosen (q : QueryPlan) (params : List Value) (K : Store) (limit : Option RowBound) :
    Except QueryError (List Record) := do
  let access ← TableAccess.ofPlan q.toTablePlan
  let limit ← limit.mapM RowBound.value
  firstAccepted (q.keeps params) (limit.map UInt64.toNat) (← access.records K)

/-- **The records that an update or a deletion selects** on a store, once the sub-queries of its
selection have run. -/
def selectedRecords (env : ExecutionEnv) (K : Store) (p : QueryPlan) (limit : Option RowBound) :
    Except QueryError (List Record) := do
  (← (p.prepare env K).1).chosen env.params K limit

section Selections

variable {env : ExecutionEnv} {K : Store} {p q : QueryPlan} {limit : Option RowBound}

/-- Two plans read the same set in the same form. -/
structure QueryPlan.SameTarget (p q : QueryPlan) : Prop where
  /-- The namespace. -/
  ns : q.ns = p.ns
  /-- The set. -/
  set : q.set = p.set
  /-- Whether rows carry the digest of the key. -/
  needsDigest : q.needsDigest = p.needsDigest

/-- A choice of strategy keeps the set. -/
lemma QueryPlan.sameTarget_chooseStrategy (h : p.chooseStrategy = .ok q) : p.SameTarget q := by
  obtain ⟨s, rfl⟩ := eq_of_chooseStrategy h
  exact ⟨rfl, rfl, rfl⟩

/-- A settled plan that reads records looks up no key twice. -/
lemma QueryPlan.isProper_of_isSettled (hsettled : p.isSettled) (hdirect : p.IsDirect)
    {a : TableAccess} (ha : TableAccess.ofPlan p.toTablePlan = .ok a) : a.strategy.isProper := by
  obtain ⟨s, hs, htable⟩ := hsettled.exists_strategy (by rw [hdirect.source]; rfl)
  rw [QueryPlan.strategyFor, hdirect.reduction] at hs
  rw [htable, TableAccess.ofPlan] at ha
  split at ha
  · cases ha
  · cases ha
  · rename_i hstrategy
    obtain rfl := Except.ok.inj ha
    obtain rfl := Option.some.inj hstrategy
    exact TablePlan.isProper_of_readingStrategy hs

/-- **Preparing a selection** keeps its set and settles it. -/
lemma QueryPlan.readsOnly_prepare_direct (env : ExecutionEnv) (K : Store) (hdirect : p.IsDirect)
    (hsettled : p.isSettled) :
    (p.prepare env).ReadsOnly K fun q => p.SameTarget q ∧ q.IsDirect ∧ q.isSettled := by
  cases p
  obtain rfl := hdirect.source
  rw [QueryPlan.prepare, prepareSource, pure_bind, QueryPlan.resolve]
  split
  · exact .pure ⟨⟨rfl, rfl, rfl⟩, hdirect, hsettled⟩
  · refine (readsOnly_slotResults (readsOnly_slotRuns _)).bind fun rs _ => .lift ?_
    intro q hq
    unfold QueryPlan.substitute at hq
    obtain ⟨c, -, hq⟩ := bind_eq_ok.mp hq
    obtain ⟨k, -, hq⟩ := bind_eq_ok.mp hq
    have htable := QueryPlan.sameTarget_chooseStrategy hq
    have hframe := QueryPlan.sameFrame_chooseStrategy hq
    exact ⟨⟨htable.ns, htable.set, htable.needsDigest⟩,
      ⟨hframe.source, hframe.reduction.trans hdirect.reduction⟩,
      QueryPlan.isSettled_of_chooseStrategy hq⟩

/-- The rows of records that pass a row filter, up to a limit.

**Proof sketch.** The listing of the pipeline is the filtered listing of the records that are found
(`hlisting`), with or without a row filter, and `Listing.complete_window_filter` says which of these
come out. -/
lemma complete_listing_filtered (env : ExecutionEnv) (K : Store) (q : QueryPlan)
    {access : TableAccess} (hdigest : access.withDigest = q.needsDigest) (limit : Option Nat) :
    ((((Pipeline.fetch access).filtered q.rowFilter).listing env K).map (.window 0 limit) >>=
      Listing.complete) = (do
        let chosen ← firstAccepted (q.keeps env.params) limit (← access.records K)
        return access.rowsOf chosen) := by
  have hlisting : ((Pipeline.fetch access).filtered q.rowFilter).listing env K =
      (access.records K).map (fun found => (Listing.ofRows (access.rowsOf found)).filter
        (fun row => match q.rowFilter with
          | some e => e.holdsOn env.params row
          | none => .ok true)) := by
    cases q.rowFilter with
    | none =>
      simp only [Listing.filter_true]
      cases hfound : access.records K <;> simp [Pipeline.filtered, Pipeline.listing,
        TableAccess.found, hfound, Except.map, pure, Except.pure]
    | some e =>
      cases hfound : access.records K <;> simp [Pipeline.filtered, Pipeline.listing,
        TableAccess.found, hfound, Except.map, pure, Except.pure]
  rw [hlisting]
  cases access.records K with
  | error e => rfl
  | ok found =>
    change (((Listing.ofRows (found.map fun r => Row.ofRecord r access.withDigest)).filter
      _).window 0 limit).complete = _
    rw [Listing.complete_window_filter, hdigest, ok_bind]
    rw [show access.rowsOf = List.map (fun r => Row.ofRecord r q.needsDigest) by
      funext rs; rw [TableAccess.rowsOf, hdigest]]
    rfl

/-- What gives access to a set gives it in the form of the plan. -/
lemma TableAccess.of_ofPlan {t : TablePlan} {a : TableAccess} (h : ofPlan t = .ok a) :
    a.ns = t.ns ∧ t.set = some a.set ∧ a.withDigest = t.needsDigest := by
  unfold ofPlan at h
  split at h
  · cases h
  · cases h
  · rename_i hset _
    obtain rfl := Except.ok.inj h
    exact ⟨rfl, hset, rfl⟩

/-- **The selected rows show the selected records.** Selecting them only reads.

**Proof sketch.** Preparing a direct plan only reads (`QueryPlan.readsOnly_prepare_direct`). Then
records are read by the strategy, filtered and limited, which is `complete_listing_filtered`, and
draining the pipeline reads its listing (`Pipeline.reads_drain`). -/
theorem reads_selectedRows (env : ExecutionEnv) (K : Store) (hdirect : p.IsDirect)
    (hsettled : p.isSettled) (limit : Option RowBound) :
    (selectedRows env p limit).Reads K (do
      return (← selectedRecords env K p limit).map (fun r => Row.ofRecord r p.needsDigest)) := by
  obtain ⟨outcome, hreads, hprepared⟩ := p.readsOnly_prepare_direct env K hdirect hsettled
  have houtcome : (p.prepare env K).1 = outcome := by
    obtain ⟨st', hst', -⟩ := hreads K (.refl K)
    rw [hst']
  rw [selectedRecords, houtcome, bind_assoc]
  refine hreads.bind fun q hq => ?_
  obtain ⟨htable, -, -⟩ := hprepared q hq
  rw [QueryPlan.chosen, bind_assoc]
  refine (StoreM.Reads.lift _).bind fun access haccess => ?_
  have hlimit : (limit.mapM (fun b => (liftM b.value : StoreM UInt64))).Reads K
      (limit.mapM RowBound.value) := by
    cases limit with
    | none => exact .pure none
    | some b => exact (StoreM.Reads.lift b.value).map some
  rw [bind_assoc]
  refine hlimit.bind fun bound _ => ?_
  have hdigest := (TableAccess.of_ofPlan haccess).2.2
  have hrows : access.rowsOf = List.map (fun r => Row.ofRecord r p.needsDigest) := by
    funext rs
    rw [TableAccess.rowsOf, hdigest, htable.needsDigest]
  have hlisting := complete_listing_filtered env K q hdigest (bound.map UInt64.toNat)
  rw [hrows] at hlisting
  rw [bind_assoc, ← hlisting]
  cases bound with
  | none =>
    have hopen : ∀ l : Except QueryError Listing, l.map (.window 0 none) = l := by
      intro l
      cases l <;> rfl
    rw [Option.map_none, hopen]
    exact Pipeline.reads_drain env K _
  | some n => exact Pipeline.reads_drain env K (.window _ 0 (some n.toNat))

/-! ## What is selected -/

/-- A strategy that looks up no key twice finds no record twice.

**Proof sketch.** One case for each strategy. A scan goes through the records of the set, which are
different; a lookup of several keys finds different records because the keys are different. -/
lemma TableAccess.nodup_records {a : TableAccess} {rs : List Record}
    (hproper : a.strategy.isProper) (h : a.records K = .ok rs) : rs.Nodup := by
  unfold TableAccess.records at h
  cases hs : a.strategy with
  | pointLookup key residual =>
    simp only [hs] at h
    refine (sublist_filterExcept h).nodup ?_
    cases K.find? (a.keyOf key) <;> simp
  | batchLookup keys residual =>
    simp only [hs] at h
    rw [hs] at hproper
    exact (sublist_filterExcept h).nodup (Store.nodup_filterMap_find? hproper)
  | indexScan filter residual =>
    simp only [hs] at h
    exact (TableAccess.select_sublist h).nodup (Store.nodup_recordsOf K a.ns a.set)
  | fullScan residual keyPredicate =>
    simp only [hs] at h
    exact (TableAccess.select_sublist h).nodup (Store.nodup_recordsOf K a.ns a.set)
  | aggregation filter residual call =>
    simp only [hs] at h
    cases h

/-- Records of a set, none of them twice. -/
structure Store.Lists (K : Store) (ns set : String) (rs : List Record) : Prop where
  /-- They are records of the set. -/
  mem : ∀ r ∈ rs, r ∈ K.recordsOf ns set
  /-- No record is there twice. -/
  nodup : rs.Nodup

/-- No two of them have the same key. -/
lemma Store.Lists.nodup_keys {ns set : String} {rs : List Record} (h : K.Lists ns set rs) :
    (rs.map (fun r => r.key.user)).Nodup :=
  h.nodup.map_on fun r hr r' hr' heq =>
    List.inj_on_of_nodup_map (K.nodup_keys ns set) (h.mem r hr) (h.mem r' hr') heq

/-- **Selected records are records of the set of the selection**, none of them twice. -/
theorem lists_selectedRecords (hdirect : p.IsDirect) (hsettled : p.isSettled) {R : List Record}
    (h : selectedRecords env K p limit = .ok R) :
    ∃ set, p.set = some set ∧ K.Lists p.ns set R := by
  obtain ⟨outcome, hreads, hprepared⟩ := p.readsOnly_prepare_direct env K hdirect hsettled
  have houtcome : (p.prepare env K).1 = outcome := by
    obtain ⟨st', hst', -⟩ := hreads K (.refl K)
    rw [hst']
  rw [selectedRecords, houtcome] at h
  obtain ⟨q, hq, h⟩ := bind_eq_ok.mp h
  obtain ⟨htable, hdirect', hsettled'⟩ := hprepared q hq
  obtain ⟨access, haccess, h⟩ := bind_eq_ok.mp h
  obtain ⟨bound, -, h⟩ := bind_eq_ok.mp h
  obtain ⟨found, hfound, h⟩ := bind_eq_ok.mp h
  obtain ⟨hns, hset, -⟩ := TableAccess.of_ofPlan haccess
  have hsub := sublist_firstAccepted h
  refine ⟨access.set, by rw [← hset, htable.set], fun r hr => ?_, ?_⟩
  · rw [← htable.ns, ← hns]
    exact TableAccess.mem_recordsOf_of_records hfound (hsub.subset hr)
  · exact hsub.nodup (TableAccess.nodup_records
      (QueryPlan.isProper_of_isSettled hsettled' hdirect' haccess) hfound)

end Selections

end RecordQuery
