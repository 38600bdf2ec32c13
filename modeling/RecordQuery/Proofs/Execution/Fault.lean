import RecordQuery.Execution.Statement
import RecordQuery.Proofs.Compile.Bindable
import RecordQuery.Proofs.Fault.Binding

set_option autoImplicit false

/-!
# Statements have no plan faults

A statement that compiles and is bound is fit to be carried out: whatever fails then is a matter of
the data, of the parameters or of limits. That holds for the sub-queries, for opening the rows and
for every row that is asked for, and for the records that an update or a deletion selects.

## Main definitions

* `StatementPlan.IsBindable` — what binding asks of a statement.
* `StatementPlan.IsReadyFor` — they are bound, and the parameters in expressions do not fail in a
  given way.
* `RowStream.Sound` — reading a stream does not end with a plan fault.

## Main results

* `Statement.plan_isBindable`, `StatementPlan.avoids_bind` — what compiled and bound statements may
  wait for.
* `BoundStatement.avoids_execute` — carrying out a statement does not fail in a given way if its
  parameters do not.
* `Statement.execute_faultless` — carrying out a statement has no plan fault.
-/

namespace RecordQuery

open Outcome

/-! ## Selections of updates and deletions -/

namespace QueryPlan

variable {p q : QueryPlan} {params : List Value}

/-- A selection reads records of a table of the store. -/
structure IsDirect (p : QueryPlan) : Prop where
  /-- It has no source. -/
  source : p.source = none
  /-- It reduces nothing. -/
  reduction : p.reduction = none

/-- A choice of strategy leaves a selection direct. -/
lemma IsDirect.chooseStrategy (h : p.IsDirect) (hq : p.chooseStrategy = .ok q) : q.IsDirect := by
  obtain ⟨s, rfl⟩ := eq_of_chooseStrategy hq
  exact ⟨h.source, h.reduction⟩

/-- Binding leaves a selection direct. -/
lemma IsDirect.bind (h : p.IsDirect) (hq : p.bind params = .ok q) : q.IsDirect := by
  rw [QueryPlan.bind_eq, h.source] at hq
  obtain ⟨source, hsource, hq⟩ := bind_eq_ok.mp hq
  obtain rfl := Except.ok.inj hsource
  obtain ⟨slots, -, hq⟩ := bind_eq_ok.mp hq
  have hsame := sameFrame_bindOwn hq
  exact ⟨hsame.source, hsame.reduction.trans h.reduction⟩

end QueryPlan

/-- The selection of an update or a deletion is direct.

**Proof sketch.** The plan begins as that of a table, a condition changes neither its source nor its
reduction (`compileMain_cases`), and neither does a strategy. -/
lemma compileSelection_isDirect {env : CompileEnv} {table : TableName} {condition : Option Expr}
    {p : QueryPlan} (h : compileSelection env table condition = .ok p) : p.IsDirect := by
  unfold compileSelection at h
  cases condition with
  | none => exact QueryPlan.IsDirect.chooseStrategy ⟨rfl, rfl⟩ h
  | some e =>
    obtain ⟨q, hq, h⟩ := bind_eq_ok.mp h
    refine QueryPlan.IsDirect.chooseStrategy ?_ h
    unfold compileWhere at hq
    obtain ⟨routed, -, hq⟩ := bind_eq_ok.mp hq
    simp only at hq
    split at hq
    · obtain ⟨main, hmain, hq⟩ := bind_eq_ok.mp hq
      obtain ⟨joins, -, hq⟩ := bind_eq_ok.mp hq
      obtain rfl := Except.ok.inj hq
      rcases compileMain_cases hmain with ⟨-, parts, slots, -, -, rfl⟩ | ⟨-, rfl⟩
      · exact ⟨rfl, rfl⟩
      · exact ⟨rfl, rfl⟩
    · obtain ⟨main, hmain, hq⟩ := bind_eq_ok.mp hq
      obtain ⟨joins, -, hq⟩ := bind_eq_ok.mp hq
      obtain rfl := Except.ok.inj hmain
      obtain rfl := Except.ok.inj hq
      exact ⟨rfl, rfl⟩

/-- **Records are selected without failing in a given way.**

**Proof sketch.** Preparing the plan keeps what it is supplied with (`QueryPlan.avoids_prepare`), a
direct plan reads its table safely, and the row filter, the limit and the drained cursor avoid what
the plan does. -/
lemma avoids_selectedRows {env : ExecutionEnv} {bad : QueryError → Bool} [QueryError.Grave bad]
    {p : QueryPlan} (hdirect : p.IsDirect)
    (h : p.All (QueryPlan.IsReadyFor bad env.params) (ChainPlan.IsSupplied bad env.params))
    {limit : Option RowBound} (hlimit : RowBound.IsSupplied bad limit) :
    (selectedRows env p limit).Avoids bad fun _ => True := by
  refine (QueryPlan.avoids_prepare h).bind fun q ⟨hq, hsupplied, hsource, hreduction, _⟩ => ?_
  rw [hdirect.source] at hsource
  have haccess := hq.safe_access hsource
  rw [hreduction, hdirect.reduction] at haccess
  refine (StoreM.Avoids.lift (.of_safe haccess)).bind fun a ha => ?_
  have hfetch : (Pipeline.fetch a).IsFit bad env.params := ha
  have hfit := hfetch.filtered hsupplied.rowFilter
  have hvalue : (limit.mapM (fun b => (liftM b.value : StoreM UInt64))).Avoids bad
      fun _ => True := by
    cases limit with
    | none => exact .pure trivial
    | some b =>
      rw [Option.mapM_some]
      exact (StoreM.Avoids.lift (hlimit b rfl)).map fun _ _ => trivial
  refine hvalue.bind fun bound _ => ?_
  cases bound with
  | none => exact hfit.avoids_cursor.drain
  | some n =>
    exact Pipeline.IsFit.avoids_cursor
      (P := ((Pipeline.fetch a).filtered q.rowFilter).window 0 (some n.toNat)) hfit |>.drain

/-! ## Writing -/

/-- The key of the record that a row shows. -/
lemma recordKeyOf_benign (p : QueryPlan) (row : Row) : Benign (recordKeyOf p row) := by
  unfold recordKeyOf
  simp only
  split
  · rfl
  · exact (UserKey.ofValue?_benign _).bind fun _ _ => .pure trivial

section Values

variable {bad : QueryError → Bool} [QueryError.Grave bad] {params : List Value}

/-- The key and the bins of an inserted row. -/
lemma fillRow_avoids (keyIndex i : Nat) {columns : List (String × Expr)}
    (h : ∀ c ∈ columns, c.2.AvoidsParams bad params) (filled : Option UserKey × Bins) :
    Avoids bad (fun _ => True) (fillRow params keyIndex i columns filled) := by
  induction columns generalizing i filled with
  | nil => trivial
  | cons c columns ih =>
    have hrest : ∀ d ∈ columns, d.2.AvoidsParams bad params := fun d hd => h d (by simp [hd])
    rw [fillRow]
    refine ((h c (by simp)).eval .empty).bind fun v _ => ?_
    split
    · exact (Avoids.of_safe (UserKey.ofValue?_benign v)).bind fun k _ => ih _ hrest _
    · exact ih _ hrest _

/-- The new values of bins. -/
lemma assignedBins_avoids (row : Row) {assignments : List (String × Expr)}
    (h : ∀ a ∈ assignments, a.2.AvoidsParams bad params) (bins : Bins) :
    Avoids bad (fun _ => True) (assignedBins params row assignments bins) := by
  induction assignments generalizing bins with
  | nil => trivial
  | cons a assignments ih =>
    exact ((h a (by simp)).eval row).bind fun v _ => ih (fun d hd => h d (by simp [hd])) _

end Values

/-- Writing a record never fails. -/
lemma StoreM.put_benign (k : RecordKey) (bins : Bins) (mode : WriteMode) :
    (StoreM.put k bins mode).Benign := fun _ => trivial

/-- Removing a record never fails. -/
lemma StoreM.delete_benign (k : RecordKey) : (StoreM.delete k).Benign := fun _ => trivial

/-- Removing the records of a set never fails. -/
lemma StoreM.truncate_benign (ns name : String) : (StoreM.truncate ns name).Benign :=
  fun _ => trivial

/-- Replacing the store by what is computed from it. -/
lemma StoreM.replace_benign {f : Store → Except QueryError Store}
    (h : ∀ st, Outcome.Benign (f st)) :
    StoreM.Benign (do
      let s ← f (← getThe Store)
      set s : StoreM Unit) := by
  intro st
  change Outcome.Benign (((liftM (f st) : StoreM Store) >>= fun s => set s) st).1
  have hset : ∀ s : Store, (set s : StoreM Unit).Benign := fun _ _ => trivial
  exact (StoreM.Avoids.lift (h st)).bind (fun s _ => hset s) st

/-- An index that is there already is a matter of the store. -/
lemma StoreM.createIndex_benign (i : IndexDefinition) : (StoreM.createIndex i).Benign := by
  refine StoreM.replace_benign (f := fun st => st.createIndex i) fun st => ?_
  unfold Store.createIndex
  split
  · rfl
  · trivial

/-- So is an index that is not there. -/
lemma StoreM.dropIndex_benign (ns name : String) : (StoreM.dropIndex ns name).Benign := by
  refine StoreM.replace_benign (f := fun st => st.dropIndex ns name) fun st => ?_
  unfold Store.dropIndex
  split
  · trivial
  · rfl

section Runs

variable {bad : QueryError → Bool} [QueryError.Grave bad] {params : List Value}

/-- Insertions. -/
lemma InsertPlan.runRows_avoids (p : InsertPlan) {rows : List (List Expr)}
    (h : ∀ values ∈ rows, ∀ e ∈ values, e.AvoidsParams bad params) :
    (p.runRows params rows).Avoids bad fun _ => True := by
  induction rows with
  | nil => exact .pure trivial
  | cons values rows ih =>
    have hrow : (p.runRow params values).Avoids bad fun _ => True := by
      refine (StoreM.Avoids.lift (fillRow_avoids p.keyIndex 0 (fun c hc =>
        h values (by simp) c.2 (List.of_mem_zip hc).2) (none, .empty))).bind fun ⟨key, bins⟩ _ => ?_
      cases key with
      | none => exact .of_safe (.throw rfl)
      | some key =>
        refine (StoreM.Avoids.of_safe (StoreM.put_benign ⟨p.ns, p.set, key⟩ bins .create)).bind
          fun written _ => ?_
        cases !written && !p.ignore
        · exact .pure trivial
        · exact StoreM.Avoids.bind (P := fun _ => True) (.of_safe (.throw rfl)) fun _ _ =>
            .pure trivial
    exact hrow.bind fun _ _ => (ih fun v hv => h v (by simp [hv])).map fun _ _ => trivial

/-- Updates of selected records. -/
lemma UpdatePlan.runRows_avoids {p : UpdatePlan}
    (h : ∀ a ∈ p.assignments, a.2.AvoidsParams bad params) (rows : List Row) :
    (p.runRows params rows).Avoids bad fun _ => True := by
  induction rows with
  | nil => exact .pure trivial
  | cons row rows ih =>
    refine (StoreM.Avoids.lift (.of_safe (recordKeyOf_benign p.selection row))).bind fun key _ => ?_
    refine (StoreM.Avoids.lift (assignedBins_avoids row h .empty)).bind fun bins _ => ?_
    exact (StoreM.Avoids.of_safe (StoreM.put_benign key bins .merge)).bind fun _ _ =>
      ih.map fun _ _ => trivial

/-- Deletions of selected records. -/
lemma DeletePlan.runRows_benign (p : DeletePlan) (rows : List Row) : (p.runRows rows).Benign := by
  induction rows with
  | nil => exact .pure trivial
  | cons row rows ih =>
    refine (StoreM.Avoids.lift (recordKeyOf_benign p.selection row)).bind fun key _ => ?_
    exact (StoreM.delete_benign key).bind fun _ _ => ih.map fun _ _ => trivial

end Runs

/-! ## Streams -/

/-- Reading a stream does not end in a given way, wherever the stream is and whatever has become of
the store; and neither does any pass of its cursor. -/
structure RowStream.Avoids (bad : QueryError → Bool) (r : RowStream) : Prop where
  /-- Reading does not. -/
  read : ∀ state n st, (({ r with state } : RowStream).read n st).1.Avoids bad
  /-- Passes do not. -/
  passes : ∀ state inits st,
    ∀ reading ∈ (r.pipeline.cursor r.env).passes inits state st, reading.Avoids bad

/-- Reading a stream does not end with a plan fault, wherever the stream is and whatever has become
of the store; and neither does any pass of its cursor. -/
structure RowStream.Sound (r : RowStream) : Prop where
  /-- Reading does not. -/
  read : ∀ state n st, (({ r with state } : RowStream).read n st).1.Sound
  /-- Passes do not. -/
  passes : ∀ state inits st,
    ∀ reading ∈ (r.pipeline.cursor r.env).passes inits state st, reading.Sound

section Streams

variable {bad : QueryError → Bool} {r : RowStream}

/-- A stream that has ended is not read. -/
lemma RowStream.read_of_ended (h : r.ended = true) (n : Nat) (st : Store) :
    (r.read n st).1.Avoids bad := by
  intro e he
  cases n with
  | zero => cases he
  | succ n =>
    rw [RowStream.read, RowStream.next, if_pos h] at he
    cases he

/-- A stream whose cursor does not fail in a given way.

**Proof sketch.** A stream that has ended reads nothing more. Otherwise induction on the number of
rows that are asked for, each of which is an answer of the cursor. -/
lemma RowStream.avoids_of_cursor (h : (r.pipeline.cursor r.env).Avoids bad) : r.Avoids bad := by
  refine ⟨fun state n st => ?_, fun state inits st => h.passes inits state st⟩
  by_cases hended : r.ended = true
  · exact read_of_ended (r := { r with state }) hended n st
  · have hread : ∀ (m : Nat) (state : (r.pipeline.cursor r.env).State) (st : Store),
        (({ r with state } : RowStream).read m st).1.Avoids bad := by
      intro m
      induction m with
      | zero =>
        intro state st e he
        cases he
      | succ m ih =>
        intro state st
        unfold RowStream.read RowStream.next
        rw [if_neg hended]
        simp only
        rcases hnext : (r.pipeline.cursor r.env).next state st with ⟨e | (_ | row), state', st'⟩
        · intro e' he'
          obtain rfl := Cursor.Ending.failed.inj he'
          exact h.of_next hnext
        · intro e he
          cases he
        · exact ih state' st'
    exact hread n state st

end Streams

/-- Reading what a statement did does not end in a given way. -/
def Outcome.ReadsWithout (bad : QueryError → Bool) : Outcome → Prop
  | rows r => r.Avoids bad
  | affected _ => True

/-- What a statement did is fit to be read. -/
def Outcome.IsFit : Outcome → Prop
  | rows r => r.Sound
  | affected _ => True

/-- **A query is opened without failing in a given way**, and so are its rows read. -/
theorem avoids_openQuery {env : ExecutionEnv} {n : QueryNode} {bad : QueryError → Bool}
    [QueryError.Grave bad]
    (h : n.All (QueryPlan.IsReadyFor bad env.params) (ChainPlan.IsSupplied bad env.params)) :
    StoreM.Avoids bad (RowStream.Avoids bad) (openQuery env n) := by
  refine (QueryNode.avoids_prepare h).bind fun m hm => ?_
  refine (StoreM.Avoids.lift hm).bind fun P hP => fun st => ?_
  have hcursor : (P.cursor env).Avoids bad := hP.avoids_cursor
  unfold RowStream.start
  rcases hinit : (P.cursor env).init (P.cursor env).start st with ⟨e | _, s, st'⟩
  · exact hcursor.of_init hinit
  · exact RowStream.avoids_of_cursor (r := ⟨m.labels, env, P, s, false⟩) hcursor

/-! ## Statements -/

/-- What binding asks of a statement: its parameters are given ones, its selections wait for nothing
but these and their own sub-queries, and those of updates and deletions are direct. -/
def StatementPlan.IsBindable (ok : Nat → Bool) : StatementPlan → Prop
  | query n => n.IsBindable ok
  | insert p => ∀ values ∈ p.rows, ∀ e ∈ values, ∀ i ∈ e.paramNumbers, ok i = true
  | update p =>
    p.selection.AreBindable ok ∧ p.selection.IsDirect ∧ RowBound.IsNumbered ok p.limit ∧
      ∀ a ∈ p.assignments, ∀ i ∈ a.2.paramNumbers, ok i = true
  | delete p =>
    p.selection.AreBindable ok ∧ p.selection.IsDirect ∧ RowBound.IsNumbered ok p.limit
  | _ => True

/-- **What a compiled statement may wait for**: its own parameters.

**Proof sketch.** One case for each statement; its plan is taken apart into parts that wait for the
parameters of the parts of the statement (`compileBelow_isBindable`,
`compileSelection_areBindable`). -/
theorem Statement.plan_isBindable {env : CompileEnv} {s : Statement} {p : StatementPlan}
    {ok : Nat → Bool} (hs : ∀ i ∈ s.paramNumbers, ok i = true) (h : s.plan env = .ok p) :
    p.IsBindable ok := by
  cases s with
  | query q =>
    simp only [Statement.plan, bind_eq_ok, pure_eq_ok] at h
    obtain ⟨n, hn, rfl⟩ := h
    exact compileBelow_isBindable hs hn
  | insert s =>
    simp only [Statement.plan, Insert.plan, bind_eq_ok, pure_eq_ok] at h
    obtain ⟨p, hp, rfl⟩ := h
    split at hp
    · simp at hp
    · obtain ⟨_, -, hp⟩ := bind_eq_ok.mp hp
      obtain rfl := Except.ok.inj hp
      exact fun values hvalues e he i hi => hs i
        (Expr.mem_paramNumbersExprs.mpr ⟨e, List.mem_flatten.mpr ⟨values, hvalues, he⟩, hi⟩)
  | update s =>
    simp only [Statement.paramNumbers, List.forall_mem_append] at hs
    obtain ⟨hassignments, hcondition, hlimit⟩ := hs
    simp only [Statement.plan, Update.plan, bind_eq_ok, pure_eq_ok] at h
    obtain ⟨p, ⟨selection, hselection, -, -, limit, hl, rfl⟩, rfl⟩ := h
    exact ⟨compileSelection_areBindable hcondition hselection,
      compileSelection_isDirect hselection, optionalRowBound_isNumbered hlimit hl,
      fun a ha i hi => hassignments i
        (Expr.mem_paramNumbersExprs.mpr ⟨a.2, List.mem_map_of_mem ha, hi⟩)⟩
  | delete s =>
    simp only [Statement.paramNumbers, List.forall_mem_append] at hs
    obtain ⟨hcondition, hlimit⟩ := hs
    simp only [Statement.plan, Delete.plan, bind_eq_ok, pure_eq_ok] at h
    obtain ⟨p, ⟨selection, hselection, limit, hl, rfl⟩, rfl⟩ := h
    exact ⟨compileSelection_areBindable hcondition hselection,
      compileSelection_isDirect hselection, optionalRowBound_isNumbered hlimit hl⟩
  | truncate _ | createIndex _ | dropIndex _ _ =>
    obtain rfl := Except.ok.inj h
    trivial

/-- A statement is ready to be carried out: its selections are bound, and the parameters in its
expressions do not fail in a given way. -/
def StatementPlan.IsReadyFor (bad : QueryError → Bool) (params : List Value) : StatementPlan → Prop
  | query n => n.All (QueryPlan.IsReadyFor bad params) (ChainPlan.IsSupplied bad params)
  | insert p => ∀ values ∈ p.rows, ∀ e ∈ values, e.AvoidsParams bad params
  | update p =>
    p.selection.All (QueryPlan.IsReadyFor bad params) (ChainPlan.IsSupplied bad params) ∧
      p.selection.IsDirect ∧ RowBound.IsSupplied bad p.limit ∧
        ∀ a ∈ p.assignments, a.2.AvoidsParams bad params
  | delete p =>
    p.selection.All (QueryPlan.IsReadyFor bad params) (ChainPlan.IsSupplied bad params) ∧
      p.selection.IsDirect ∧ RowBound.IsSupplied bad p.limit
  | _ => True

/-- Binding a compiled selection from one table makes it ready, and it stays one. -/
lemma QueryPlan.avoids_bind_of_isDirect {bad : QueryError → Bool} [QueryError.Grave bad]
    {ok : Nat → Bool} {params : List Value} (hok : SuppliesParams bad ok params) {p : QueryPlan}
    (h : p.AreBindable ok) (hdirect : p.IsDirect) :
    Avoids bad (fun q => q.All (QueryPlan.IsReadyFor bad params)
      (ChainPlan.IsSupplied bad params) ∧ q.IsDirect) (p.bind params) := by
  cases hq : p.bind params with
  | error e => exact (QueryPlan.avoids_bind hok h).of_eq_error hq
  | ok q => exact ⟨(QueryPlan.avoids_bind hok h).of_eq_ok hq, hdirect.bind hq⟩

/-- **Binding a compiled statement** does not fail in a given way if its parameters do not, and
makes it ready.

**Proof sketch.** One case for each plan. Queries, selections and limits are bound without failing
in this way (`QueryNode.avoids_bind`, `QueryPlan.avoids_bind_of_isDirect`,
`RowBound.avoids_bind`); the expressions of insertions and assignments are left as they are and have their parameters. -/
theorem StatementPlan.avoids_bind {bad : QueryError → Bool} [QueryError.Grave bad]
    {ok : Nat → Bool} {params : List Value} (hok : SuppliesParams bad ok params)
    {p : StatementPlan} (h : p.IsBindable ok) :
    Avoids bad (StatementPlan.IsReadyFor bad params) (p.bind params) := by
  cases p with
  | query n => exact (QueryNode.avoids_bind hok h).bind fun _ hm => .pure hm
  | insert p => exact .ok fun values hvalues e he => hok.avoidsParams (h values hvalues e he)
  | update p =>
    obtain ⟨hselection, hdirect, hlimit, hassignments⟩ := h
    refine (QueryPlan.avoids_bind_of_isDirect hok hselection hdirect).bind
      fun q ⟨hq, hqdirect⟩ => ?_
    exact (RowBound.avoids_bind hok hlimit).bind fun limit hl =>
      .pure ⟨hq, hqdirect, hl, fun a ha => hok.avoidsParams (hassignments a ha)⟩
  | delete p =>
    obtain ⟨hselection, hdirect, hlimit⟩ := h
    refine (QueryPlan.avoids_bind_of_isDirect hok hselection hdirect).bind
      fun q ⟨hq, hqdirect⟩ => ?_
    exact (RowBound.avoids_bind hok hlimit).bind fun limit hl => .pure ⟨hq, hqdirect, hl⟩
  | truncate _ _ | createIndex _ | dropIndex _ _ => trivial

/-- **A statement that is ready is carried out without failing in the given way.**

**Proof sketch.** One case for each plan. Queries are opened (`avoids_openQuery`), insertions write
their rows, updates and deletions select records (`avoids_selectedRows`) and write or delete them;
the other statements fail in no way that is meant. -/
theorem BoundStatement.avoids_execute {bad : QueryError → Bool} [QueryError.Grave bad]
    {b : BoundStatement} (h : b.plan.IsReadyFor bad b.params) :
    StoreM.Avoids bad (Outcome.ReadsWithout bad) b.execute := by
  unfold BoundStatement.execute
  cases hplan : b.plan with
  | query n =>
    rw [hplan] at h
    exact (@avoids_openQuery b.env n bad _ h).map fun _ hr => hr
  | insert p =>
    rw [hplan] at h
    exact StoreM.Avoids.map (p.runRows_avoids h) fun _ _ => trivial
  | update p =>
    rw [hplan] at h
    obtain ⟨hselection, hdirect, hlimit, hassignments⟩ := h
    have hrun : (p.run b.env).Avoids bad fun _ => True :=
      (@avoids_selectedRows b.env bad _ p.selection hdirect hselection p.limit hlimit).bind
        fun rows _ => UpdatePlan.runRows_avoids hassignments rows
    exact hrun.map fun _ _ => trivial
  | delete p =>
    rw [hplan] at h
    obtain ⟨hselection, hdirect, hlimit⟩ := h
    have hrun : (p.run b.env).Avoids bad fun _ => True :=
      (@avoids_selectedRows b.env bad _ p.selection hdirect hselection p.limit hlimit).bind
        fun rows _ => .of_safe (p.runRows_benign rows)
    exact hrun.map fun _ _ => trivial
  | truncate ns set =>
    refine (StoreM.Avoids.of_safe (StoreM.truncate_benign ns set)).bind fun known _ => ?_
    split
    · exact .of_safe (.throw rfl)
    · exact .pure trivial
  | createIndex i =>
    exact (StoreM.Avoids.of_safe (StoreM.createIndex_benign i)).bind fun _ _ => .pure trivial
  | dropIndex ns name =>
    exact (StoreM.Avoids.of_safe (StoreM.dropIndex_benign ns name)).bind fun _ _ => .pure trivial

/-- **A statement that is ready is carried out without plan faults.** -/
theorem BoundStatement.sound_execute {b : BoundStatement}
    (h : b.plan.IsReadyFor QueryError.isPlanFault b.params) :
    StoreM.Sound Outcome.IsFit b.execute := by
  refine StoreM.Avoids.mono (avoids_execute h) fun outcome houtcome => ?_
  cases outcome with
  | rows r => exact ⟨houtcome.read, houtcome.passes⟩
  | affected n => trivial

/-- **What compiles and binds is carried out without plan faults**, on every store. A statement may
fail, and so may the reading of its rows, but never because its plan was left unfit: none of its
operands lacks a value, every predicate program comes to a result, every sub-query has run, and
every table has a strategy of the right sort. The rows may be read at any time, from any state of
the stream and in any number of passes.

**Proof sketch.** Compiling leaves only parameters, values of rows to join and slots of the plan's
own sub-queries open (`Statement.plan_isBindable`). Binding replaces the parameters and chooses the
strategies (`StatementPlan.avoids_bind`). Preparing puts the values of the sub-queries, which are
prepared and run first, into their slots (`QueryNode.avoids_prepare`), and every row fills in what a
joined table waits for (`Condition.safe_fillOuter`). The programs of conditions without unknowns
come to results. -/
theorem Statement.execute_faultless {config : Config} {catalog : IndexCatalog} {s : Statement}
    {e : Executable} {params : List Value} {b : BoundStatement}
    (hcompile : s.compile config catalog = .ok e) (hbind : e.bind params = .ok b) (st : Store) :
    (∀ err, (b.execute st).1 = .error err → err.isPlanFault = false) ∧
      ∀ r, (b.execute st).1 = .ok (.rows r) → r.Sound := by
  simp only [Statement.compile, bind_eq_ok, pure_eq_ok] at hcompile
  obtain ⟨plan, hplan, rfl⟩ := hcompile
  have hready : b.plan.IsReadyFor QueryError.isPlanFault b.params := by
    obtain ⟨-, bound, hbound, rfl⟩ := Executable.of_bind_eq_ok hbind
    have hok : SuppliesParams QueryError.isPlanFault (fun _ => true) params :=
      fun i _ => param?_faultless params i
    have hbindable : plan.IsBindable fun _ => true :=
      Statement.plan_isBindable (fun _ _ => rfl) hplan
    exact (StatementPlan.avoids_bind hok hbindable).of_eq_ok hbound
  have hexecute := BoundStatement.sound_execute hready st
  exact ⟨fun err herr => hexecute.of_eq_error herr, fun r hr => hexecute.of_eq_ok hr⟩

/-- Whether a statement returned rows. -/
def Outcome.isRows : Outcome → Bool
  | rows _ => true
  | affected _ => false

/-- A statement whose execution returned rows was compiled and bound before. -/
lemma Statement.exists_of_isRows {config : Config} {catalog : IndexCatalog} {s : Statement}
    {params : List Value} {st : Store}
    (h : ((s.compile config catalog >>= fun e =>
      e.bind params >>= fun b => (b.execute st).1).map Outcome.isRows).toOption = some true) :
    ∃ e b r, s.compile config catalog = .ok e ∧ e.bind params = .ok b ∧
      (b.execute st).1 = .ok (.rows r) := by
  obtain ⟨rows?, hrun, hrows⟩ := map_eq_ok.mp (eq_ok_of_toOption h)
  obtain ⟨e, he, hrun⟩ := bind_eq_ok.mp hrun
  obtain ⟨b, hb, hrun⟩ := bind_eq_ok.mp hrun
  cases rows? with
  | affected n => cases hrows
  | rows r => exact ⟨e, b, r, he, hb, hrun⟩

/-- The people of an age given by a parameter who are not banned, with their pets. -/
def Statement.owners : Statement :=
  .query ⟨.select ⟨false, [.all], .named ⟨none, "people"⟩ none,
    [⟨.left, .named ⟨none, "pets"⟩ none, some (.binary (.compare .eq)
      (.column ⟨some "pets", "owner"⟩) (.column ⟨some "people", "name"⟩))⟩],
    some (.andAlso (.binary (.compare .eq) (.column ⟨some "people", "age"⟩) (.param 1))
      (.inQuery (.column ⟨some "people", "name"⟩)
        ⟨.select ⟨false, [.expr (.column ⟨none, "name"⟩) none], .named ⟨none, "members"⟩ none, [],
          none, [], none⟩, [], none, none⟩ false)), [], none⟩, [], none, none⟩

/-- A store with one person, who is a member and has one pet. -/
def Store.household : Store :=
  let person : Bins := (OrderedMap.empty.set "name" (.text "Ada")).set "age" (.integer 36)
  { sets := ((OrderedMap.empty.set ("test", "people")
      (OrderedMap.empty.set (.integer 1) person)).set ("test", "members")
      (OrderedMap.empty.set (.integer 1) person)).set ("test", "pets")
      (OrderedMap.empty.set (.integer 1) (OrderedMap.empty.set "owner" (.text "Ada")))
    indexes := []
    counts := .zero }

/-- That statement returns rows of this store, and they are read without plan faults.

**Proof sketch.** That the statement compiles, binds and returns rows is evaluated; the rest is
`Statement.execute_faultless` at this store. -/
theorem Statement.execute_faultless_owners :
    ∃ (e : Executable) (b : BoundStatement) (r : RowStream),
      Statement.owners.compile ⟨"test", 5000, none⟩ [] = .ok e ∧ e.bind [.integer 36] = .ok b ∧
        (b.execute Store.household).1 = .ok (.rows r) ∧ r.Sound := by
  obtain ⟨e, b, r, he, hb, hr⟩ := @Statement.exists_of_isRows ⟨"test", 5000, none⟩ []
    Statement.owners [.integer 36] Store.household (by decide +kernel)
  exact ⟨e, b, r, he, hb, hr, (Statement.execute_faultless he hb Store.household).2 r hr⟩

end RecordQuery
