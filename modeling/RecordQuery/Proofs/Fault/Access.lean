import RecordQuery.Proofs.Fault.Stage
import RecordQuery.Proofs.Pipeline.Join
import RecordQuery.Proofs.Plan.Unknowns

set_option autoImplicit false

/-!
# Reading the store has no grave failures

A table whose conditions hold no unknowns gets a strategy all of whose programs come to a result on
every record, and it is read by it: by a strategy that finds records, or, for a reduction, by the
one that leaves it to the store. A joined table holds no unknowns once the values of a row are
filled in.

## Main definitions

* `Program.Decides` — a program comes to a result on every record.
* `AccessStrategy.CanFind`, `AccessStrategy.CanReduce` — a strategy of one of the two sorts whose
  programs do.

## Main results

* `TablePlan.canFind`, `TablePlan.canReduce` — the strategies of a table without unknowns.
* `TableAccess.found_benign`, `TableAccess.groups_benign` — reading by them.
* `JoinSpec.rowsFor_benign` — joining a row.
-/

namespace RecordQuery

open Outcome

/-! ## Programs -/

/-- A program comes to a result on every record. -/
def Program.Decides (p : Program) : Prop := ∀ r : Record, ∃ b, p.run r = .ok b

namespace Program

variable {p : Program}

/-- The empty program accepts everything. -/
lemma decides_nil : Decides [] := fun _ => ⟨true, rfl⟩

/-- The conjunction of programs that come to results comes to one. -/
lemma decides_conjunction {ps : List Program} (h : ∀ p ∈ ps, p.Decides) :
    (Program.conjunction ps).Decides :=
  fun r => ⟨_, Program.run_all fun p hp => h p hp r⟩

/-- A program that comes to a result has no grave failure. -/
lemma Decides.benign (h : p.Decides) (r : Record) : Benign (p.run r) := by
  obtain ⟨b, hb⟩ := h r
  rw [hb]
  trivial

end Program

/-- The program of a condition without unknowns comes to a result. -/
lemma Condition.decides_programOf {c : Option Condition}
    (h : c.all Condition.isResolved = true) : (Condition.programOf c).Decides :=
  fun r => ⟨_, Condition.run_programOf r ((Option.all_eq_true _ _).mp h)⟩

/-- The program of a condition on the key without unknowns comes to a result. -/
lemma KeyCondition.decides_program {c : KeyCondition} {p : Program}
    (hc : c.isWithin .none = true) (hp : c.program = .ok p) : p.Decides := by
  obtain ⟨q, hq, -, hrun⟩ :=
    KeyCondition.program_run .unknown (isComparable_of_program c hc p hp)
  obtain rfl := Except.ok.inj (hp.symm.trans hq)
  exact fun r => ⟨_, hrun r⟩

/-! ## Strategies -/

namespace AccessStrategy

/-- A strategy finds records, and its programs come to results. -/
def CanFind : AccessStrategy → Prop
  | pointLookup _ residual | batchLookup _ residual | indexScan _ residual => residual.Decides
  | fullScan residual keyPredicate => residual.Decides ∧ (keyPredicate.getD []).Decides
  | aggregation .. => False

/-- A strategy leaves a reduction to the store, and its program comes to a result. -/
def CanReduce : AccessStrategy → Prop
  | aggregation _ residual _ => residual.Decides
  | _ => False

end AccessStrategy

namespace TablePlan

variable {p : TablePlan}

/-- A condition without unknowns is one whose operands are known. -/
lemma isResolved_of_isWithin (h : p.isWithin .none = true) :
    p.condition.all Condition.isResolved = true := by
  rw [isWithin, Bool.and_eq_true, Option.all_eq_true] at h
  refine (Option.all_eq_true _ _).mpr fun c hc => ?_
  rw [Condition.isResolved, (Condition.isResolved_iff c).mpr (h.1 c hc)]
  rfl

/-- What an index leaves of a condition without unknowns comes to a result. -/
lemma decides_filterAndResidual (h : p.isWithin .none = true) :
    p.filterAndResidual.2.Decides := by
  have hresolved := isResolved_of_isWithin h
  cases hsplit : p.filterAndResidual with
  | mk filter residual =>
    cases filter with
    | none =>
      rw [residual_of_none hsplit]
      exact Condition.decides_programOf hresolved
    | some f =>
      obtain ⟨c, d, rest, hc, -, rfl, -, -, hrest⟩ := exists_of_filterAndResidual hsplit
      exact Condition.decides_programOf (hrest ((Option.all_eq_true _ _).mp hresolved c hc))

/-- **A table without unknowns gets a strategy that can find its records.**

**Proof sketch.** By the strategy that is chosen. Without unknowns the condition of the bins
decides, and so do the filter for the index and what it leaves over. The key condition decides as a
program. Each strategy carries one or two of these, and a missing program decides trivially. -/
theorem canFind {s : AccessStrategy} (h : p.isWithin .none = true)
    (hs : p.readingStrategy = .ok s) : s.CanFind := by
  have hbins := Condition.decides_programOf (isResolved_of_isWithin h)
  have hrest := decides_filterAndResidual h
  rw [isWithin, Bool.and_eq_true, Option.all_eq_true _ p.keyCondition] at h
  unfold readingStrategy at hs
  split at hs
  · obtain rfl := Except.ok.inj hs
    exact hbins
  · rename_i hkey
    split at hs
    · obtain rfl := Except.ok.inj hs
      exact hbins
    · simp only [bind_eq_ok, pure_eq_ok] at hs
      obtain ⟨q, hq, rfl⟩ := hs
      exact ⟨hbins, KeyCondition.decides_program (h.2 _ hkey) hq⟩
  · rename_i hkey
    simp only [bind_eq_ok, pure_eq_ok] at hs
    obtain ⟨q, hq, rfl⟩ := hs
    exact ⟨hbins, KeyCondition.decides_program (h.2 _ hkey) hq⟩
  · split at hs
    · rename_i hsplit
      obtain rfl := Except.ok.inj hs
      rw [hsplit] at hrest
      exact hrest
    · rename_i hsplit
      obtain rfl := Except.ok.inj hs
      rw [hsplit] at hrest
      exact ⟨hrest, Program.decides_nil⟩

/-- **A table without unknowns gets a strategy by which the store can reduce its records.** -/
theorem canReduce {call : ReducerCall} {s : AccessStrategy} (h : p.isWithin .none = true)
    (hs : p.reducingStrategy call = .ok s) : s.CanReduce := by
  have hrest := decides_filterAndResidual h
  rw [isWithin, Bool.and_eq_true, Option.all_eq_true _ p.keyCondition] at h
  unfold reducingStrategy at hs
  simp only at hs
  split at hs
  · rename_i c hkey
    simp only [bind_eq_ok, pure_eq_ok] at hs
    obtain ⟨q, hq, -, rfl, rfl⟩ := hs
    refine Program.decides_conjunction fun m hm => ?_
    rcases List.mem_pair.mp hm with rfl | rfl
    · exact hrest
    · exact KeyCondition.decides_program (h.2 c hkey) hq
  · simp only [bind_eq_ok, pure_eq_ok] at hs
    obtain ⟨ks, rfl, rfl⟩ := hs
    refine Program.decides_conjunction fun m hm => ?_
    rw [List.mem_singleton.mp hm]
    exact hrest

end TablePlan

/-! ## Reading -/

/-- Keeping what passes a test. -/
lemma filterExcept_benign {α : Type} {p : α → Except QueryError Bool} (as : List α)
    (h : ∀ a, Benign (p a)) : Benign (filterExcept p as) := by
  induction as with
  | nil => trivial
  | cons a as ih => exact (h a).bind fun _ _ => ih.bind fun _ _ => .pure trivial

/-- A scan whose program comes to results. -/
lemma Store.select_benign (K : Store) {q : ScanRequest} (h : q.program.Decides) :
    Benign (K.select q) := by
  unfold Store.select
  split
  · split
    · exact filterExcept_benign _ h.benign
    · rfl
  · exact filterExcept_benign _ h.benign

namespace TableAccess

variable {a : TableAccess}

/-- The access that a plan with a strategy has chosen. -/
lemma safe_ofPlan {p : TablePlan} {s : AccessStrategy} (h : p.strategy = some s) :
    Safe (fun a => a.strategy = s) (ofPlan p) := by
  unfold ofPlan
  rw [h]
  cases p.set with
  | none => rfl
  | some set => exact .ok rfl

/-- **Records are found without grave failures.**

**Proof sketch.** By the strategy. Lookups filter the records that are found with a program that
decides; scans select with programs that decide, alone or together; an aggregation finds no records
and is excluded by assumption. -/
lemma found_benign (h : a.strategy.CanFind) (K : Store) : Benign (a.found K) := by
  have hrecords : Benign (a.records K) := by
    unfold records
    cases hs : a.strategy with
    | pointLookup key residual =>
      rw [hs] at h
      exact filterExcept_benign _ (Program.Decides.benign h)
    | batchLookup keys residual =>
      rw [hs] at h
      exact filterExcept_benign _ (Program.Decides.benign h)
    | indexScan filter residual =>
      rw [hs] at h
      exact K.select_benign h
    | fullScan residual keyPredicate =>
      rw [hs] at h
      refine K.select_benign (Program.decides_conjunction fun m hm => ?_)
      rcases List.mem_pair.mp hm with rfl | rfl
      · exact h.1
      · exact h.2
    | aggregation filter residual call =>
      rw [hs] at h
      exact h.elim
  exact hrecords.bind fun _ _ => .pure trivial

/-- **Groups are formed without grave failures.** -/
lemma groups_benign (h : a.strategy.CanReduce) (mapping : OutputMapping) (K : Store) :
    Benign (a.groups mapping K) := by
  unfold groups
  cases hs : a.strategy with
  | aggregation filter residual call =>
    rw [hs] at h
    have hreduce : Benign (K.reduce ⟨a.ns, a.set, filter, residual⟩ call) :=
      (Reducer.ofCall?_benign call).bind fun _ _ =>
        (K.select_benign (q := ⟨a.ns, a.set, filter, residual⟩) h).bind fun _ _ => .pure trivial
    exact hreduce.bind fun _ _ => .pure trivial
  | pointLookup key residual | batchLookup keys residual | indexScan filter residual
  | fullScan residual keyPredicate =>
    rw [hs] at h
    exact h.elim

end TableAccess

/-! ## Joining -/

/-- The operand that a value is in a join is known. -/
lemma Value.safe_joinOperand (v : Value) : Safe (fun o => o.isResolved = true) v.joinOperand := by
  cases v <;> rfl

namespace Condition

mutual

/-- Replacing operands does not fail in a given way if it does not so for those in question. -/
theorem mapOperands_avoids {bad : QueryError → Bool} {u : Unknowns}
    {f : Operand → BinKind → Except QueryError (Operand × BinKind)}
    (hf : ∀ o kind, u.allows o = true → Avoids bad (fun _ => True) (f o kind)) :
    (c : Condition) → c.isWithin u = true → Avoids bad (fun _ => True) (c.mapOperands f)
  | compare _ kind _ o, h => (hf o kind h).bind fun _ _ => .pure trivial
  | inSlot .., _ => trivial
  | all cs, h | any cs, h => (mapOperandsList_avoids hf cs h).bind fun _ _ => .pure trivial

/-- Replacing operands in several conditions. -/
theorem mapOperandsList_avoids {bad : QueryError → Bool} {u : Unknowns}
    {f : Operand → BinKind → Except QueryError (Operand × BinKind)}
    (hf : ∀ o kind, u.allows o = true → Avoids bad (fun _ => True) (f o kind)) :
    (cs : List Condition) → areWithin u cs = true →
      Avoids bad (fun _ => True) (mapOperandsList f cs)
  | [], _ => trivial
  | c :: cs, h => by
    rw [areWithin, Bool.and_eq_true] at h
    exact (mapOperands_avoids hf c h.1).bind fun _ _ =>
      (mapOperandsList_avoids hf cs h.2).bind fun _ _ => .pure trivial

end

/-- **A row fills in all that a condition of a joined table waits for.** -/
lemma safe_fillOuter (row : Row) {c : Condition}
    (hc : c.isWithin ⟨fun _ => false, true, 0⟩ = true) :
    Safe (fun d => d.isWithin .none = true) (c.fillOuter row) := by
  have hoperand : ∀ (o : Operand) (kind : BinKind), Benign (o.fillOuter row kind) := by
    intro o kind
    unfold Operand.fillOuter
    split
    · split
      · trivial
      · exact (Value.safe_joinOperand _).bind fun _ _ => .pure trivial
    · trivial
  exact .of_returned (mapOperands_avoids (fun o kind _ => hoperand o kind) c hc)
    fun d hd => isWithin_fillOuter hd hc

end Condition

namespace JoinSpec

variable {j : JoinSpec}

/-- The plan that finds the partners of a row has no unknowns. -/
lemma isWithin_matchValue? {p q : TablePlan} {o : Operand} (hp : p.isWithin .none = true)
    (ho : o.isResolved = true) (h : j.matchValue? p o = some q) : q.isWithin .none = true := by
  unfold matchValue? at h
  split at h
  · split at h
    · obtain rfl := Option.some.inj h
      exact TablePlan.isWithin_addKeyCondition hp rfl
    · obtain rfl := Option.some.inj h
      exact TablePlan.isWithin_addKeyCondition hp rfl
    · cases h
  · obtain rfl := Option.some.inj h
    refine TablePlan.isWithin_addCondition hp ?_
    rw [Condition.ofOperand, Condition.isWithin, Unknowns.allows_none, ho]

/-- The plan that finds the partners of a row has a strategy that can find them.

**Proof sketch.** A row without a value to look up has no probe. Otherwise the condition is filled
from the row, after which nothing in the table is unknown. Matching the value keeps it so, and such
a table gets a strategy that can find its records. -/
lemma safe_probe? (hj : j.plan.isWithin ⟨fun _ => false, true, 0⟩ = true) (row : Row) :
    Safe (fun probe => ∀ p ∈ probe, ∃ s, p.strategy = some s ∧ s.CanFind) (j.probe? row) := by
  have hnone : ∀ p ∈ (none : Option TablePlan), ∃ s, p.strategy = some s ∧ s.CanFind :=
    fun p hp => by cases hp
  rw [TablePlan.isWithin, Bool.and_eq_true] at hj
  unfold probe?
  split
  · exact .ok hnone
  · exact .ok hnone
  · rename_i v _ _
    refine (Value.safe_joinOperand v).bind fun o ho => ?_
    refine (Avoids.mapM fun c hc => Condition.safe_fillOuter row
      ((Option.all_eq_true _ _).mp hj.1 c hc)).bind fun condition hcondition => ?_
    have hfilled : ({ j.plan with condition } : TablePlan).isWithin .none = true := by
      rw [TablePlan.isWithin, Bool.and_eq_true]
      exact ⟨(Option.all_eq_true _ _).mpr hcondition, (Option.all_eq_true _ _).mpr fun k hk =>
        KeyCondition.isWithin_of_le (Nat.le_refl 0) k ((Option.all_eq_true _ _).mp hj.2 k hk)⟩
    split
    · rename_i q hq
      have hq := isWithin_matchValue? hfilled ho hq
      refine (Avoids.of_returned q.chooseStrategy_benign fun p hp => hp).bind fun p hp => ?_
      obtain ⟨s, hs, rfl⟩ := TablePlan.chooseStrategy_eq_ok.mp hp
      refine .pure fun m hm => ?_
      obtain rfl := Option.some.inj hm
      exact ⟨s, rfl, TablePlan.canFind hq hs⟩
    · exact .pure hnone

/-- **A row is joined without grave failures.** -/
theorem rowsFor_benign (hj : j.plan.isWithin ⟨fun _ => false, true, 0⟩ = true) (K : Store)
    (row : Row) :
    Benign (j.rowsFor K row) := by
  have hfound : Benign (j.found K row) := by
    refine (safe_probe? hj row).bind fun probe hprobe => ?_
    cases probe with
    | none => exact .pure trivial
    | some p =>
      obtain ⟨s, hs, hfind⟩ := hprobe p rfl
      refine (TableAccess.safe_ofPlan hs).bind fun a ha => ?_
      exact a.found_benign (ha ▸ hfind) K
  exact hfound.bind fun _ _ => .pure trivial

end JoinSpec

end RecordQuery
