import Mathlib.Tactic.Common
import RecordQuery.Predicate.Condition
import RecordQuery.Proofs.Predicate.Program

set_option autoImplicit false

/-!
# Programs of conditions

A condition is a tree and the store runs it as a program in postfix order. The program of a
condition whose operands are known always comes to an end, and with the meaning of the tree.

## Main definitions

* `Condition.isResolved` — all operands of a condition are known.

## Main results

* `Condition.runFrom_program` — a program pushes the meaning of its condition and leaves the stack
  below as it is.
* `Condition.run_programOf` — running the program of a condition decides the condition.
-/

namespace RecordQuery

namespace Condition

/-- Whether all operands of a condition are known. -/
def isResolved (c : Condition) : Bool := c.unresolved?.isNone

/-- All of several conditions hold if each of them does. -/
lemma holdsAll_eq (r : Record) (cs : List Condition) :
    holdsAll r cs = (cs.map (holds r)).all id := by
  induction cs with
  | nil => rfl
  | cons c cs ih => simp [holdsAll, ih]

/-- One of several conditions holds if some of them does. -/
lemma holdsAny_eq (r : Record) (cs : List Condition) :
    holdsAny r cs = (cs.map (holds r)).any id := by
  induction cs with
  | nil => rfl
  | cons c cs ih => simp [holdsAny, ih]

/-- Conditions without unknowns, the first one and the others. -/
lemma isResolved_cons {c : Condition} {cs : List Condition}
    (h : unresolvedIn? (c :: cs) = none) :
    c.unresolved? = none ∧ unresolvedIn? cs = none := by
  simpa [unresolvedIn?, Option.or_eq_none_iff] using h

mutual

/-- **A program pushes the meaning of its condition** and leaves the stack below as it is.

**Proof sketch.** Induction on the condition. A comparison is three steps. The programs of the
parts of a conjunction or disjunction push one result each, and the last instruction combines
them. -/
theorem runFrom_program (r : Record) (stack : List StackItem) :
    (c : Condition) → c.unresolved? = none →
      Program.runFrom r stack c.program = .ok (.result (c.holds r) :: stack)
  | compare bin kind c o, h => by
    have ho : o.isResolved = true := by
      by_contra hne
      simp [unresolved?, hne] at h
    simp [program, Program.runFrom, Program.step, ho, holds]
  | inSlot bin kind slot, h => by simp [unresolved?] at h
  | all cs, h => by
    have hrun := runFrom_programs r stack cs h
    have hcombine := Program.combine_results (fun bs => bs.all id) (cs.map (holds r)) stack
    rw [List.length_map] at hcombine
    simp only [program, Program.runFrom_append, hrun, Program.runFrom, Program.step, hcombine,
      holds, holdsAll_eq]
  | any cs, h => by
    have hrun := runFrom_programs r stack cs h
    have hcombine := Program.combine_results (fun bs => bs.any id) (cs.map (holds r)) stack
    rw [List.length_map] at hcombine
    simp only [program, Program.runFrom_append, hrun, Program.runFrom, Program.step, hcombine,
      holds, holdsAny_eq]

/-- The programs of several conditions push their meanings one after the other. -/
theorem runFrom_programs (r : Record) (stack : List StackItem) :
    (cs : List Condition) → unresolvedIn? cs = none →
      Program.runFrom r stack (programs cs) =
        .ok (((cs.map (holds r)).map StackItem.result).reverse ++ stack)
  | [], _ => rfl
  | c :: cs, h => by
    obtain ⟨hc, hcs⟩ := isResolved_cons h
    have hfirst := runFrom_program r stack c hc
    have hrest := runFrom_programs r (.result (c.holds r) :: stack) cs hcs
    simp [programs, Program.runFrom_append, hfirst, hrest]

end

mutual

/-- A program that runs has no operand that is not known. -/
theorem unresolved?_of_runFrom (r : Record) :
    (c : Condition) → (stack next : List StackItem) →
      Program.runFrom r stack c.program = .ok next → c.unresolved? = none
  | compare bin kind c o, stack, next, h => by
    simp only [program, Program.runFrom, Program.step] at h
    split at h
    · rename_i hstep
      split at hstep
      · rename_i ho
        simp [unresolved?, ho]
      · cases hstep
    · cases h
  | inSlot bin kind slot, stack, next, h => by
    simp [program, Program.runFrom, Program.step, Operand.isResolved] at h
  | all cs, stack, next, h | any cs, stack, next, h => by
    rw [program, Program.runFrom_append] at h
    cases hrun : Program.runFrom r stack (programs cs) with
    | error e => simp [hrun] at h
    | ok mid => exact unresolvedIn?_of_runFrom r cs stack mid hrun

/-- Programs that run have no operand that is not known. -/
theorem unresolvedIn?_of_runFrom (r : Record) :
    (cs : List Condition) → (stack next : List StackItem) →
      Program.runFrom r stack (programs cs) = .ok next → unresolvedIn? cs = none
  | [], _, _, _ => rfl
  | c :: cs, stack, next, h => by
    rw [programs, Program.runFrom_append] at h
    cases hrun : Program.runFrom r stack c.program with
    | error e => simp [hrun] at h
    | ok mid =>
      simp only [hrun] at h
      rw [unresolvedIn?, unresolved?_of_runFrom r c stack mid hrun,
        unresolvedIn?_of_runFrom r cs mid next h]
      rfl

end

/-- A program that runs has no operand that is not known. -/
theorem isResolved_of_runFrom {r : Record} {c : Condition} {stack next : List StackItem}
    (h : Program.runFrom r stack c.program = .ok next) : c.isResolved = true := by
  rw [isResolved, unresolved?_of_runFrom r c stack next h]
  rfl

/-- The program of a condition has at least one instruction. -/
lemma program_ne_nil (c : Condition) : c.program ≠ [] := by
  cases c <;> simp [program]

/-- Running the program of a condition decides the condition. -/
theorem run_program (r : Record) {c : Condition} (h : c.isResolved = true) :
    c.program.run r = .ok (c.holds r) := by
  have hu : c.unresolved? = none := by simpa [isResolved] using h
  exact (Program.run_eq_ok_iff c.program_ne_nil).mpr (runFrom_program r [] c hu)

/-- Whether a record satisfies a condition that may be missing. -/
def holdsOn (r : Record) : Option Condition → Bool
  | some c => c.holds r
  | none => true

/-- Running the program of a condition that may be missing decides it. -/
theorem run_programOf (r : Record) {c : Option Condition} (h : ∀ d ∈ c, d.isResolved = true) :
    (programOf c).run r = .ok (holdsOn r c) := by
  cases c with
  | none => rfl
  | some c => exact run_program r (h c rfl)

end Condition

end RecordQuery
