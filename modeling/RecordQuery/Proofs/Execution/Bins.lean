import RecordQuery.Proofs.Execution.Answer
import RecordQuery.Proofs.Execution.Change
import RecordQuery.Proofs.Execution.Insertion

set_option autoImplicit false

/-!
# Which bins statements leave

A store that is only written by statements holds no null, and no bin that no statement names. The
column of the key names no bin where it stands for the key: an insertion takes its first column of
that name for the key, and an update must not assign it. But an insertion that lists it again
writes a bin of that name, and then the rows of its records show this bin instead of their key.

## Main definitions

* `Store.AllBins` — all bins of a store satisfy a condition.
* `StoreM.Keeps` — a computation leaves such a store if it finds one.
* `Statement.binNames` — the bins that a statement names.
* `Request`, `Store.after` — statements that are carried out one after the other.

## Main results

* `InsertPlan.keeps_run`, `UpdatePlan.keeps_run`, `DeletePlan.keeps_run` — what each kind of write
  needs to keep a condition.
* `Statement.keeps_answer` — a statement keeps a condition that the bins it names satisfy.
* `Store.allBins_after` — what all bins satisfy after any statements.
-/

namespace RecordQuery

open Outcome

/-! ## Conditions on all bins -/

/-- All bins of all records of a store satisfy a condition on their name and value. -/
def Store.AllBins (Q : String → Value → Prop) (s : Store) : Prop :=
  ∀ ns set, ∀ r ∈ s.recordsOf ns set, ∀ e ∈ r.bins.entries, Q e.1 e.2

namespace Store

variable {Q : String → Value → Prop} {s t : Store} {ns set : String} {records : RecordSet}

/-- The condition is one on the sets alone. -/
lemma AllBins.of_sets (h : s.AllBins Q) (hsets : t.sets = s.sets) : t.AllBins Q := by
  intro ns set r hr
  rw [recordsOf, recordSet, hsets] at hr
  exact h ns set r hr

/-- A store without sets has no bins. -/
lemma allBins_empty : Store.empty.AllBins Q := fun _ _ _ hr => absurd hr List.not_mem_nil

/-- The condition on the entries of a set. -/
lemma AllBins.of_mem (h : s.AllBins Q) {x : UserKey × Bins}
    (hx : x ∈ (s.recordSet ns set).entries) : ∀ e ∈ x.2.entries, Q e.1 e.2 :=
  h ns set ⟨⟨ns, set, x.1⟩, x.2⟩ (List.mem_map_of_mem hx)

/-- Replacing the records of a set keeps a condition that the new ones satisfy. -/
lemma AllBins.withRecords (h : s.AllBins Q) (ns set : String)
    (hrecords : ∀ x ∈ records.entries, ∀ e ∈ x.2.entries, Q e.1 e.2) :
    (s.withRecords ns set records).AllBins Q := by
  intro ns' set' r hr
  by_cases hid : (ns', set') = (ns, set)
  · obtain ⟨rfl, rfl⟩ := Prod.mk.inj hid
    rw [mem_recordsOf, recordSet_withRecords] at hr
    exact hrecords _ hr.2.2
  · rw [← (alikeBut_withRecords s ns set records).recordsOf hid] at hr
    exact h ns' set' r hr

/-- A merged bin was there before, or it is one of the new ones and not null. -/
lemma mem_entries_mergeBins {old new : Bins} {e : String × Value}
    (h : e ∈ (mergeBins old new).entries) :
    e ∈ old.entries ∨ (e ∈ new.entries ∧ e.2.isNull = false) := by
  suffices hfold : ∀ (es : List (String × Value)) (bins : Bins),
      e ∈ (es.foldl mergeBin bins).entries →
        e ∈ bins.entries ∨ (e ∈ es ∧ e.2.isNull = false) from hfold new.entries old h
  intro es
  induction es with
  | nil => exact fun _ h => .inl h
  | cons f es ih =>
    intro bins h
    rcases ih _ h with h | ⟨he, hnull⟩
    · unfold mergeBin at h
      split at h
      · exact .inl (List.mem_of_mem_filter h)
      · rename_i hf
        rcases OrderedMap.mem_entries_insert h with h | rfl
        · exact .inl h
        · exact .inr ⟨List.mem_cons_self, Bool.eq_false_iff.mpr hf⟩
    · exact .inr ⟨List.mem_cons_of_mem f he, hnull⟩

/-- **Writing a record** keeps a condition that the new bins satisfy, nulls apart.

**Proof sketch.** A record that is there is left alone by creating it, and merged otherwise: each of
its bins is an old one or a new one that is no null. A record that is not there gets the new bins
without nulls. -/
lemma AllBins.put (h : s.AllBins Q) {k : RecordKey} {bins : Bins}
    (hbins : ∀ e ∈ bins.entries, e.2.isNull = false → Q e.1 e.2) (mode : WriteMode) :
    (s.put k bins mode).2.AllBins Q := by
  by_cases hkey : k.user ∈ (s.recordSet k.ns k.set).keys
  · cases mode with
    | create => rwa [put_create_of_mem hkey]
    | merge =>
      obtain ⟨old, hold⟩ := Option.ne_none_iff_exists'.mp fun hnone =>
        OrderedMap.get?_eq_none_iff.mp hnone hkey
      rw [put_merge_of_get? hold]
      refine h.withRecords k.ns k.set fun x hx e he => ?_
      rcases OrderedMap.mem_entries_set hx with hx | rfl
      · exact h.of_mem hx e he
      · rcases mem_entries_mergeBins he with he | ⟨he, hnull⟩
        · exact h.of_mem (OrderedMap.get?_eq_some_iff.mp hold) e he
        · exact hbins e he hnull
  · rw [put_of_not_mem hkey]
    refine h.withRecords k.ns k.set fun x hx e he => ?_
    rcases OrderedMap.mem_entries_set hx with hx | rfl
    · exact h.of_mem hx e he
    · obtain ⟨he, hnull⟩ := List.mem_filter.mp he
      exact hbins e he (by simpa using hnull)

/-- Removing a record keeps every condition. -/
lemma AllBins.delete (h : s.AllBins Q) (k : RecordKey) : (s.delete k).2.AllBins Q := by
  simp only [Store.delete]
  split
  · exact AllBins.withRecords h k.ns k.set fun x hx =>
      h.of_mem (List.mem_of_mem_filter hx)
  · exact h

/-- Removing all records of a set keeps every condition. -/
lemma AllBins.truncate (h : s.AllBins Q) (ns set : String) : (s.truncate ns set).2.AllBins Q := by
  unfold Store.truncate
  split
  · exact AllBins.withRecords h ns set fun _ hx => absurd hx List.not_mem_nil
  · exact h

end Store

/-! ## Computations that keep a condition -/

namespace StoreM

variable {α β : Type} {Q : String → Value → Prop} {m : StoreM α} {f : α → StoreM β}

/-- If all bins satisfy a condition, they still do after a computation, whether it returns or
fails. -/
def Keeps (Q : String → Value → Prop) (m : StoreM α) : Prop :=
  ∀ s : Store, s.AllBins Q → (m s).2.AllBins Q

namespace Keeps

/-- A computation that only returns. -/
lemma pure (a : α) : Keeps Q (Pure.pure a : StoreM α) := fun _ hs => hs

/-- A computation without the store. -/
lemma lift (x : Except QueryError α) : Keeps Q (liftM x : StoreM α) := by
  intro s hs
  cases x with
  | error e => exact hs
  | ok a => exact hs

/-- **Sequences of computations.** -/
lemma bind (hm : Keeps Q m) (hf : ∀ a, Keeps Q (f a)) : Keeps Q (m >>= f) := by
  intro s hs
  have hmid := hm s hs
  change (ExceptT.bindCont f (m s).1 (m s).2).2.AllBins Q
  cases (m s).1 with
  | error e => exact hmid
  | ok a => exact hf a _ hmid

/-- A sequence that begins with a computation without the store. -/
lemma lift_bind {x : Except QueryError α} (hf : ∀ a, x = .ok a → Keeps Q (f a)) :
    Keeps Q (liftM x >>= f) := by
  intro s hs
  cases x with
  | error e => exact hs
  | ok a => exact hf a rfl s hs

/-- A computation that only reads. -/
lemma of_reads (h : ∀ K : Store, ∃ outcome, m.Reads K outcome) : Keeps Q m := by
  intro s hs
  obtain ⟨outcome, hreads⟩ := h s
  obtain ⟨t, hrun, hlike⟩ := hreads s (.refl s)
  rw [hrun]
  exact hs.of_sets hlike.sets

/-- Writing a record. -/
lemma put {bins : Bins} (h : ∀ e ∈ bins.entries, e.2.isNull = false → Q e.1 e.2) (k : RecordKey)
    (mode : WriteMode) : Keeps Q (StoreM.put k bins mode) := fun _ hs => hs.put h mode

/-- Removing a record. -/
lemma delete (k : RecordKey) : Keeps Q (StoreM.delete k) := fun _ hs => hs.delete k

/-- Removing all records of a set. -/
lemma truncate (ns set : String) : Keeps Q (StoreM.truncate ns set) :=
  fun _ hs => hs.truncate ns set

/-- Defining an index. -/
lemma createIndex (i : IndexDefinition) : Keeps Q (StoreM.createIndex i) := by
  intro s hs
  change (ExceptT.bindCont (fun t => (set t : StoreM PUnit)) (s.createIndex i) s).2.AllBins Q
  unfold Store.createIndex
  split
  · exact hs
  · exact hs.of_sets rfl

/-- Removing an index. -/
lemma dropIndex (ns name : String) : Keeps Q (StoreM.dropIndex ns name) := by
  intro s hs
  change (ExceptT.bindCont (fun t => (set t : StoreM PUnit)) (s.dropIndex ns name) s).2.AllBins Q
  unfold Store.dropIndex
  split
  · exact hs.of_sets rfl
  · exact hs

end Keeps

end StoreM

/-! ## Writes -/

section Writes

variable {Q : String → Value → Prop}

/-- The bins of an inserted row are named by its columns other than that of the key.

**Proof sketch.** The cells of a row are named by the columns, in order (`hnames`), and the bins are
what is left of the cells without that of the key and without nulls. So the name of a bin stands
among the columns at another place than that of the key. -/
lemma InsertPlan.name_of_content {p : InsertPlan} {params : List Value} {values : List Expr}
    {c : UserKey × Bins} (h : p.content params values = .ok c) :
    ∀ e ∈ c.2.entries, e.1 ∈ p.columns.eraseIdx p.keyIndex := by
  simp only [content, bind_eq_ok] at h
  obtain ⟨cells, hcells, h⟩ := h
  have hnames : cells.map Prod.fst = (p.columns.zip values).map Prod.fst := by
    rw [map_eq_map_of_mapM (g := Prod.fst ∘ Prod.fst) hcells fun c _ b hb => ?_]
    · rw [← List.map_map, List.zipIdx_map_fst]
    · unfold InsertPlan.cell at hb
      simp only [bind_eq_ok] at hb
      obtain ⟨v, -, hb⟩ := hb
      split at hb
      · simp only [bind_eq_ok, pure_eq_ok] at hb
        obtain ⟨k, -, rfl⟩ := hb
        rfl
      · obtain rfl := pure_eq_ok.mp hb
        rfl
  split at h
  · cases h
  · simp only [bind_eq_ok, pure_eq_ok] at h
    obtain ⟨k, -, rfl⟩ := h
    intro e he
    have hmem : e.1 ∈ (cells.eraseIdx p.keyIndex).map Prod.fst :=
      List.mem_map_of_mem (List.mem_of_mem_filter (OrderedMap.mem_entries_ofInserts he))
    rw [← List.eraseIdx_map, hnames, List.mem_eraseIdx_iff_getElem?] at hmem
    obtain ⟨i, hi, hname⟩ := hmem
    rw [List.getElem?_map, Option.map_eq_some_iff] at hname
    obtain ⟨c, hc, hname⟩ := hname
    rw [List.getElem?_zip_eq_some, hname] at hc
    exact List.mem_eraseIdx_iff_getElem?.mpr ⟨i, hi, hc.1⟩

/-- **An insertion keeps a condition** that its columns other than that of the key satisfy with all
values but nulls. -/
lemma InsertPlan.keeps_run {p : InsertPlan} (env : ExecutionEnv)
    (h : ∀ name ∈ p.columns.eraseIdx p.keyIndex, ∀ v : Value, v.isNull = false → Q name v) :
    StoreM.Keeps Q (p.run env) := by
  rw [run]
  generalize p.rows = rows
  induction rows with
  | nil => exact .pure 0
  | cons values rows ih =>
    have hrow : StoreM.Keeps Q (p.runRow env.params values) := by
      rw [runRow_eq]
      refine StoreM.Keeps.lift_bind fun c hc => ?_
      refine (StoreM.Keeps.put (fun e he => h e.1 (name_of_content hc e he) e.2) _ _).bind
        fun written => ?_
      split
      · exact .lift (.error _)
      · exact .pure written
    rw [runRows]
    exact hrow.bind fun _ => ih.bind fun _ => .pure _

/-- Selecting records keeps every condition, for it only reads. -/
lemma keeps_selectedRows (env : ExecutionEnv) (p : QueryPlan) (limit : Option RowBound) :
    StoreM.Keeps Q (selectedRows env p limit) := by
  refine .of_reads fun K => ?_
  have hlimit : StoreM.ReadsOnly K (fun _ => True)
      (limit.mapM (fun b => (liftM b.value : StoreM UInt64))) := by
    cases limit with
    | none => exact .pure trivial
    | some b => exact (StoreM.ReadsOnly.lift fun _ _ => trivial).bind fun _ _ => .pure trivial
  have hreads : StoreM.ReadsOnly K (fun _ => True) (selectedRows env p limit) := by
    refine (QueryPlan.readsOnly_prepare p).bind fun q _ => ?_
    refine StoreM.ReadsOnly.bind (P := fun _ => True) (.lift fun _ _ => trivial) fun access _ => ?_
    exact hlimit.bind fun _ _ => ⟨_, Pipeline.reads_drain env K _, fun _ _ => trivial⟩
  exact hreads.imp fun _ h => h.1

/-- **An update keeps a condition** that the bins it assigns satisfy with all values but nulls.

**Proof sketch.** The bins that a row is assigned are named by the assignments (`hnames`). Selecting
changes nothing, and each selected record is written with such bins; induction on the selected rows.
-/
lemma UpdatePlan.keeps_run {p : UpdatePlan} (env : ExecutionEnv)
    (h : ∀ name ∈ p.assignments.map Prod.fst, ∀ v : Value, v.isNull = false → Q name v) :
    StoreM.Keeps Q (p.run env) := by
  have hnames : ∀ {row : Row} {bins : Bins},
      assignedBins env.params row p.assignments .empty = .ok bins →
        ∀ e ∈ bins.entries, e.1 ∈ p.assignments.map Prod.fst := by
    intro row bins hbins e he
    rw [assignedBins_eq, bind_eq_ok] at hbins
    obtain ⟨values, hvalues, hbins⟩ := hbins
    obtain rfl := pure_eq_ok.mp hbins
    rw [← map_eq_map_of_mapM (k := Prod.fst) hvalues fun a _ b hb => ?_]
    · exact List.mem_map_of_mem (OrderedMap.mem_entries_ofInserts he)
    · simp only [bind_eq_ok, pure_eq_ok] at hb
      obtain ⟨v, -, rfl⟩ := hb
      rfl
  refine (keeps_selectedRows env p.selection p.limit).bind fun rows => ?_
  induction rows with
  | nil => exact .pure 0
  | cons row rows ih =>
    rw [runRows]
    refine StoreM.Keeps.lift_bind fun key _ => StoreM.Keeps.lift_bind fun bins hbins => ?_
    refine (StoreM.Keeps.put (fun e he => h e.1 (hnames hbins e he) e.2) _ _).bind fun _ => ?_
    exact ih.bind fun _ => .pure _

/-- **A deletion keeps every condition.** -/
lemma DeletePlan.keeps_run (p : DeletePlan) (env : ExecutionEnv) :
    StoreM.Keeps Q (p.run env) := by
  refine (keeps_selectedRows env p.selection p.limit).bind fun rows => ?_
  induction rows with
  | nil => exact .pure 0
  | cons row rows ih =>
    rw [runRows]
    refine StoreM.Keeps.lift_bind fun key _ => ?_
    exact (StoreM.Keeps.delete key).bind fun _ => ih.bind fun _ => .pure _

end Writes

/-! ## Statements -/

/-- The bins that a statement names. The first column of the key that an insertion lists is none of
them. An update that assigns the key is refused, so that it names none. -/
def Statement.binNames : Statement → List String
  | .insert s => s.columns.erase keyColumn
  | .update s => if keyColumn ∈ s.assignments.map Prod.fst then [] else s.assignments.map Prod.fst
  | _ => []

/-- The bins that a plan names. -/
def StatementPlan.binNames : StatementPlan → List String
  | insert p => p.columns.eraseIdx p.keyIndex
  | update p => p.assignments.map Prod.fst
  | _ => []

/-- Assignments that are checked leave the key alone. -/
lemma not_mem_of_checkAssignments {as : List (String × Expr)} (h : checkAssignments as = .ok ()) :
    keyColumn ∉ as.map Prod.fst := by
  induction as with
  | nil => exact List.not_mem_nil
  | cons a as ih =>
    unfold checkAssignments at h
    split at h
    · cases h
    · rename_i hne
      split at h
      · cases h
      · rw [List.map_cons, List.mem_cons, not_or]
        exact ⟨fun heq => hne heq.symm, ih h⟩

/-- The plan of an insertion has the bins of its statement. -/
lemma Insert.binNames_of_plan {env : CompileEnv} {s : Insert} {p : InsertPlan}
    (h : s.plan env = .ok p) : p.columns.eraseIdx p.keyIndex = s.columns.erase keyColumn := by
  unfold Insert.plan at h
  split at h
  · cases h
  · rename_i keyIndex hkey
    simp only [bind_eq_ok, pure_eq_ok] at h
    obtain ⟨-, -, rfl⟩ := h
    have hidx : s.columns.idxOf? keyColumn = some keyIndex := hkey
    rw [List.erase_eq_eraseIdx, hidx]

/-- **A statement that is compiled and bound** names the bins that it named.

**Proof sketch.** The compilation and the binding of each statement are taken apart. Binding changes
neither the columns of an insertion nor the names of assignments, and the check of the assignments
has refused the pseudo-columns. -/
lemma Statement.binNames_of_bind {config : Config} {catalog : IndexCatalog} {params : List Value}
    {s : Statement} {b : BoundStatement}
    (h : (s.compile config catalog >>= fun e => e.bind params) = .ok b) :
    b.plan.binNames = s.binNames := by
  obtain ⟨e, he, h⟩ := bind_eq_ok.mp h
  simp only [Statement.compile, bind_eq_ok, pure_eq_ok] at he
  obtain ⟨plan, hplan, rfl⟩ := he
  obtain ⟨-, bound, hbound, rfl⟩ := Executable.of_bind_eq_ok h
  cases s with
  | insert s =>
    simp only [Statement.plan, bind_eq_ok, pure_eq_ok] at hplan
    obtain ⟨p, hp, rfl⟩ := hplan
    obtain rfl := Except.ok.inj hbound
    exact Insert.binNames_of_plan hp
  | update s =>
    simp only [Statement.plan, Update.plan, bind_eq_ok, pure_eq_ok] at hplan
    obtain ⟨_, ⟨_, _, _, hchecked, _, _, rfl⟩, rfl⟩ := hplan
    simp only [StatementPlan.bind, bind_eq_ok, pure_eq_ok] at hbound
    obtain ⟨_, _, _, _, rfl⟩ := hbound
    exact (if_neg (not_mem_of_checkAssignments hchecked)).symm
  | query q =>
    simp only [Statement.plan, bind_eq_ok, pure_eq_ok] at hplan
    obtain ⟨n, -, rfl⟩ := hplan
    simp only [StatementPlan.bind, bind_eq_ok, pure_eq_ok] at hbound
    obtain ⟨m, -, rfl⟩ := hbound
    rfl
  | delete s =>
    simp only [Statement.plan, Delete.plan, bind_eq_ok, pure_eq_ok] at hplan
    obtain ⟨_, ⟨_, _, _, _, rfl⟩, rfl⟩ := hplan
    simp only [StatementPlan.bind, bind_eq_ok, pure_eq_ok] at hbound
    obtain ⟨_, _, _, _, rfl⟩ := hbound
    rfl
  | truncate _ | createIndex _ | dropIndex _ _ =>
    obtain rfl := Except.ok.inj hplan
    obtain rfl := Except.ok.inj hbound
    rfl

section Statements

variable {Q : String → Value → Prop}

/-- **What a plan does keeps a condition** that the bins it names satisfy with all values but nulls.

**Proof sketch.** One case for each statement. A query only reads (`RowStream.reads_answer`), so all
records are left; insertions and updates write bins that the plan names, and the other statements
write none. -/
lemma BoundStatement.keeps_answer (b : BoundStatement)
    (h : ∀ name ∈ b.plan.binNames, ∀ v : Value, v.isNull = false → Q name v) :
    StoreM.Keeps Q (b.execute >>= Outcome.answer) := by
  obtain ⟨plan, params, config⟩ := b
  cases plan with
  | query n =>
    refine .of_reads fun K => ?_
    have hreads : StoreM.ReadsOnly K (fun _ => True)
        ((⟨.query n, params, config⟩ : BoundStatement).execute >>= Outcome.answer) := by
      simp only [BoundStatement.execute, openQuery, bind_assoc, pure_bind]
      refine (QueryNode.readsOnly_prepare n).bind fun m _ => ?_
      refine StoreM.ReadsOnly.bind (P := fun _ => True) (.lift fun _ _ => trivial) fun P _ => ?_
      exact ⟨_, RowStream.reads_answer _ m.labels P K, fun _ _ => trivial⟩
    exact hreads.imp fun _ h => h.1
  | insert p =>
    simp only [BoundStatement.execute, bind_assoc, pure_bind]
    exact (InsertPlan.keeps_run _ h).bind fun n => .pure _
  | update p =>
    simp only [BoundStatement.execute, bind_assoc, pure_bind]
    exact (UpdatePlan.keeps_run _ h).bind fun n => .pure _
  | delete p =>
    simp only [BoundStatement.execute, bind_assoc, pure_bind]
    exact (DeletePlan.keeps_run p _).bind fun n => .pure _
  | truncate ns set =>
    simp only [BoundStatement.execute, bind_assoc]
    refine (StoreM.Keeps.truncate ns set).bind fun known => ?_
    split
    · exact .lift (.error _)
    · exact .pure _
  | createIndex i =>
    simp only [BoundStatement.execute, bind_assoc, pure_bind]
    exact (StoreM.Keeps.createIndex i).bind fun _ => .pure _
  | dropIndex ns name =>
    simp only [BoundStatement.execute, bind_assoc, pure_bind]
    exact (StoreM.Keeps.dropIndex ns name).bind fun _ => .pure _

/-- **A statement keeps a condition** that the bins it names satisfy with all values but nulls. -/
lemma Statement.keeps_answer (s : Statement) (config : Config) (catalog : IndexCatalog)
    (params : List Value) (h : ∀ name ∈ s.binNames, ∀ v : Value, v.isNull = false → Q name v) :
    StoreM.Keeps Q (s.answer config catalog params) := by
  refine StoreM.Keeps.lift_bind fun e he => StoreM.Keeps.lift_bind fun b hb => ?_
  refine b.keeps_answer ?_
  rw [Statement.binNames_of_bind (bind_eq_ok.mpr ⟨e, he, hb⟩)]
  exact h

end Statements

/-! ## Sequences of statements -/

/-- A statement and what it is carried out with. -/
structure Request where
  /-- The statement. -/
  statement : Statement
  /-- The settings. -/
  config : Config
  /-- The indexes that it is compiled for. -/
  catalog : IndexCatalog
  /-- The values of its parameters. -/
  params : List Value

/-- The store after statements that are carried out one after the other. One that fails does not
hold up the others, and what it has written stays. -/
def Store.after (K : Store) (requests : List Request) : Store :=
  requests.foldl (fun K q => (q.statement.answer q.config q.catalog q.params K).2) K

/-- **No statement leaves nulls, or bins that no statement names.** -/
lemma Store.allBins_after (requests : List Request) :
    (Store.empty.after requests).AllBins fun name v =>
      v.isNull = false ∧ ∃ q ∈ requests, name ∈ q.statement.binNames := by
  suffices h : ∀ (rest : List Request) (K : Store), (∀ q ∈ rest, q ∈ requests) →
      K.AllBins (fun name v => v.isNull = false ∧ ∃ q ∈ requests, name ∈ q.statement.binNames) →
        (K.after rest).AllBins fun name v =>
          v.isNull = false ∧ ∃ q ∈ requests, name ∈ q.statement.binNames from
    h requests .empty (fun _ hq => hq) Store.allBins_empty
  intro rest
  induction rest with
  | nil => exact fun _ _ hK => hK
  | cons q rest ih =>
    intro K hrest hK
    refine ih _ (fun r hr => hrest r (List.mem_cons_of_mem q hr)) ?_
    refine q.statement.keeps_answer _ _ _ (fun name hname v hv => ?_) K hK
    exact ⟨hv, q, hrest q List.mem_cons_self, hname⟩

/-- A statement names a bin like the key only if it is an insertion that lists the key again. -/
lemma Statement.keyColumn_mem_binNames {s : Statement} (h : keyColumn ∈ s.binNames) :
    ∃ i, s = .insert i ∧ 2 ≤ i.columns.count keyColumn := by
  cases s with
  | insert i =>
    refine ⟨i, rfl, ?_⟩
    have hcount : 0 < (i.columns.erase keyColumn).count keyColumn := List.count_pos_iff.mpr h
    rw [List.count_erase_self] at hcount
    omega
  | update u =>
    change keyColumn ∈ if keyColumn ∈ u.assignments.map Prod.fst then []
      else u.assignments.map Prod.fst at h
    split at h
    · cases h
    · rename_i hnot
      exact absurd h hnot
  | _ => cases h

/-- A bin that is in no record of a store is not found. -/
lemma Store.AllBins.bin?_eq_none {Q : String → Value → Prop} {K : Store} (h : K.AllBins Q)
    {ns set name : String} (hname : ∀ v, ¬ Q name v) :
    ∀ r ∈ K.recordsOf ns set, r.bin? name = none := by
  intro r hr
  rw [Record.bin?, OrderedMap.get?_eq_none_iff]
  intro hmem
  obtain ⟨e, he, rfl⟩ := List.mem_map.mp hmem
  exact hname e.2 (h ns set r hr e he)

/-- **Statements keep nulls out of the store, and bins that they do not name.** Let any statements
be carried out on the empty store one after the other, whether they return or fail. No bin that is
then in the store is null, and each is named by one of the statements.

If no insertion lists the key more than once, no bin is named like the key. So the row of every
record shows its key, and updates and deletions write to the records that they select. If no
statement names a bin like the digest of the key, then no bin has this name, and the rows that show
a digest show that of the key.

**Proof sketch.** Each statement keeps the condition that bins are not null and have one of these
names, and the empty store satisfies it; the rest is induction on the statements. -/
theorem Store.bins_after (requests : List Request) :
    (∀ ns set, ∀ r ∈ (Store.empty.after requests).recordsOf ns set, ∀ e ∈ r.bins.entries,
      e.2.isNull = false ∧ ∃ q ∈ requests, e.1 ∈ q.statement.binNames) ∧
    ((∀ q ∈ requests, ∀ i, q.statement = .insert i → i.columns.count keyColumn ≤ 1) →
      (∀ ns set, ∀ r ∈ (Store.empty.after requests).recordsOf ns set, r.bin? keyColumn = none ∧
        ∀ withDigest, (Row.ofRecord r withDigest).get? keyColumn = some r.key.user.toValue) ∧
      ∀ config catalog params (s : Statement) b,
        (s.compile config catalog >>= fun e => e.bind params) = .ok b →
          ∀ p ∈ b.plan.selections, ∀ limit R,
            selectedRecords b.env (Store.empty.after requests) p limit = .ok R →
              ∃ t, selectedRows b.env p limit (Store.empty.after requests) =
                  (.ok (R.map fun r => Row.ofRecord r p.needsDigest), t) ∧
                ∀ r ∈ R, recordKeyOf p (Row.ofRecord r p.needsDigest) = .ok r.key) ∧
    ((∀ q ∈ requests, digestColumn ∉ q.statement.binNames) →
      ∀ ns set, ∀ r ∈ (Store.empty.after requests).recordsOf ns set, r.bin? digestColumn = none ∧
        (Row.ofRecord r true).get? digestColumn = some (.blob r.key.digest)) := by
  have hall := Store.allBins_after requests
  refine ⟨hall, fun hinserts => ?_, fun hdigest ns set r hr => ?_⟩
  · have hnames : ∀ ns set, ∀ r ∈ (Store.empty.after requests).recordsOf ns set,
        r.bin? keyColumn = none := by
      refine fun ns set => hall.bin?_eq_none ?_
      rintro v ⟨-, q, hq, hname⟩
      obtain ⟨i, hi, htwo⟩ := Statement.keyColumn_mem_binNames hname
      have hone := hinserts q hq i hi
      omega
    refine ⟨fun ns set r hr => ⟨hnames ns set r hr, fun withDigest => ?_⟩, ?_⟩
    · have hne : keyColumn ≠ digestColumn := by decide
      rw [Row.get?_ofRecord, hnames ns set r hr]
      simp [hne]
    · intro config catalog params s b hb p hp limit R hR
      obtain ⟨-, hselections⟩ := Statement.isSelection_of_bind hb
      have hp := hselections p hp
      obtain ⟨set, hset, hlists⟩ := lists_selectedRecords hp.direct hp.settled hR
      obtain ⟨t, hrows, -⟩ := reads_selectedRows b.env (Store.empty.after requests) hp.direct
        hp.settled limit _ (.refl _)
      rw [hR] at hrows
      refine ⟨t, hrows, fun r hr => ?_⟩
      have hkey := Store.key_of_mem_recordsOf (hlists.mem r hr)
      exact recordKeyOf_ofRecord (hnames _ _ r (hlists.mem r hr)) (by rw [hkey])
        (by rw [hset, hkey])
  · have hnone : r.bin? digestColumn = none :=
      hall.bin?_eq_none (fun v ⟨_, q, hq, hname⟩ => hdigest q hq hname) r hr
    refine ⟨hnone, ?_⟩
    rw [Row.get?_ofRecord, hnone]
    simp

/-- A statement under the settings that apply where none are given. -/
def Request.standard (s : Statement) : Request := ⟨s, .standard, [], []⟩

/-- The insertion of rows of constants into the people. -/
def Statement.addPeople (columns : List String) (rows : List (List Literal)) : Statement :=
  .insert ⟨⟨none, "people"⟩, columns, rows.map fun row => row.map .literal, false⟩

/-- Two people are added, one without a name, and both grow a year old. Their bins are no nulls, and
their rows show their keys.

**Proof sketch.** The requests insert the key once and name no digest, which is evaluated; the rest
is `Store.bins_after` at these requests. -/
theorem Store.bins_after_birth :
    let requests := [
      .standard (.addPeople ["PK", "name"] [[.integer 1, .text "Ann"], [.integer 2, .null]]),
      Request.standard (.update ⟨⟨none, "people"⟩, [("age", .literal (.integer 1)),
        ("name", .column ⟨none, "name"⟩)], none, none⟩)]
    (∀ q ∈ requests, ∀ i, q.statement = .insert i → i.columns.count keyColumn ≤ 1) ∧
      (∀ q ∈ requests, digestColumn ∉ q.statement.binNames) ∧
      (Store.empty.after requests).size "test" "people" = 2 ∧
      ∀ r ∈ (Store.empty.after requests).recordsOf "test" "people",
        (∀ e ∈ r.bins.entries, e.2.isNull = false) ∧
          (Row.ofRecord r true).get? keyColumn = some r.key.user.toValue ∧
          (Row.ofRecord r true).get? digestColumn = some (.blob r.key.digest) := by
  intro requests
  have hinserts : ∀ q ∈ requests, ∀ i, q.statement = .insert i →
      i.columns.count keyColumn ≤ 1 := by
    intro q hq i hi
    rcases List.mem_cons.mp hq with rfl | hq
    · obtain rfl := Statement.insert.inj hi
      decide
    · obtain rfl := List.mem_singleton.mp hq
      cases hi
  have hdigest : ∀ q ∈ requests, digestColumn ∉ q.statement.binNames := by decide
  obtain ⟨hbins, hkey, hdigests⟩ := Store.bins_after requests
  refine ⟨hinserts, hdigest, by decide +kernel, fun r hr => ⟨fun e he => ?_, ?_, ?_⟩⟩
  · exact (hbins _ _ r hr e he).1
  · exact ((hkey hinserts).1 _ _ r hr).2 true
  · exact (hdigests hdigest _ _ r hr).2

/-- An insertion that lists the key twice writes a bin that is named like the key, and then the
deletion of the record one removes the record two. -/
example : ((Store.empty.after [
    .standard (.addPeople ["PK", "PK", "name"] [[.integer 1, .integer 2, .text "Ann"]]),
    .standard (.addPeople ["PK", "name"] [[.integer 2, .text "Bob"]]),
    .standard (.delete ⟨⟨none, "people"⟩,
      some (.binary (.compare .eq) (.column ⟨none, keyColumn⟩) (.literal (.integer 1))),
      none⟩)]).recordsOf "test" "people").map (fun r => r.key.user) = [.integer 1] := by
  decide +kernel

end RecordQuery
