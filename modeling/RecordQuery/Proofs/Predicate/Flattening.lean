import RecordQuery.Proofs.Predicate.Comparison
import RecordQuery.Proofs.Predicate.Condition

set_option autoImplicit false

/-!
# Conditions and their programs

A condition is a tree and its program is a list of instructions. Running the program gives what the
tree means, whatever its shape: it never stops half-way and no result is left over or missing. A
program with an operand that is not known fails, and since it evaluates all of its parts, from left
to right and whatever the results so far, it fails at the first of them.

## Main definitions

* `Condition.operands` — the operands of a condition, left to right.
* `Condition.Satisfied` — what the tree means.

## Main results

* `Condition.runFrom_program_error` — a program fails at the leftmost operand that is not known,
  above any stack.
* `Condition.program_meaning` — what running the program of a condition gives, in all cases.
-/

namespace RecordQuery

namespace Condition

/-! ## Operands -/

mutual

/-- The operands of a condition, left to right. The values of a sub-query stand for one that is not
known. -/
def operands : Condition → List Operand
  | compare _ _ _ o => [o]
  | inSlot _ _ slot => [.slot slot]
  | all cs => operandsIn cs
  | any cs => operandsIn cs

/-- The operands of several conditions, left to right. -/
def operandsIn : List Condition → List Operand
  | [] => []
  | c :: cs => operands c ++ operandsIn cs

end

mutual

/-- The leftmost operand that is not known is the first of those that are not. -/
lemma unresolved?_eq : (c : Condition) → c.unresolved? = c.operands.find? (fun o => !o.isResolved)
  | compare _ _ _ o => by cases o <;> rfl
  | inSlot _ _ _ => rfl
  | all cs => unresolvedIn?_eq cs
  | any cs => unresolvedIn?_eq cs

/-- The leftmost operand of several conditions that is not known. -/
lemma unresolvedIn?_eq : (cs : List Condition) →
    unresolvedIn? cs = (operandsIn cs).find? (fun o => !o.isResolved)
  | [] => rfl
  | c :: cs => by
    rw [unresolvedIn?, operandsIn, List.find?_append, unresolved?_eq c, unresolvedIn?_eq cs]

end

/-! ## Meaning -/

/-- What a condition says of a record, as a tree: a comparison is about the stored value of a bin
that is there, a conjunction about all of its parts, a disjunction about one of them. -/
inductive Satisfied (r : Record) : Condition → Prop
  /-- The bin is there and meets the comparison. -/
  | compare {bin : String} {kind : BinKind} {c : Comparison} {o : Operand} {v : Value} :
      r.bin? bin = some v → o.Meets kind c v → Satisfied r (.compare bin kind c o)
  /-- All parts are satisfied. -/
  | all {cs : List Condition} : (∀ c ∈ cs, Satisfied r c) → Satisfied r (.all cs)
  /-- One part is satisfied. -/
  | any {cs : List Condition} {c : Condition} : c ∈ cs → Satisfied r c → Satisfied r (.any cs)

variable {r : Record}

/-- A comparison is satisfied by a record whose bin is there and meets the operand. -/
lemma satisfied_compare_iff {bin : String} {kind : BinKind} {c : Comparison} {o : Operand} :
    Satisfied r (.compare bin kind c o) ↔ ∃ v, r.bin? bin = some v ∧ o.Meets kind c v :=
  ⟨fun | .compare hbin hv => ⟨_, hbin, hv⟩, fun ⟨_, hbin, hv⟩ => .compare hbin hv⟩

/-- A conjunction is satisfied if all its parts are. -/
lemma satisfied_all_iff {cs : List Condition} :
    Satisfied r (.all cs) ↔ ∀ c ∈ cs, Satisfied r c :=
  ⟨fun | .all h => h, .all⟩

/-- A disjunction is satisfied if one of its parts is. -/
lemma satisfied_any_iff {cs : List Condition} :
    Satisfied r (.any cs) ↔ ∃ c ∈ cs, Satisfied r c :=
  ⟨fun | .any hc h => ⟨_, hc, h⟩, fun ⟨_, hc, h⟩ => .any hc h⟩

mutual

/-- **The evaluation of a tree decides what it says.** -/
theorem holds_iff : (c : Condition) → (c.holds r = true ↔ c.Satisfied r)
  | compare bin kind c o => by
    rw [holds, Operand.accepts_iff, satisfied_compare_iff]
  | inSlot bin kind slot => by
    rw [holds]
    exact ⟨fun h => (Bool.false_ne_true h).elim, nofun⟩
  | all cs => by
    rw [holds, satisfied_all_iff, (holdsList_iff cs).1]
  | any cs => by
    rw [holds, satisfied_any_iff, (holdsList_iff cs).2]

/-- All or one of several conditions. -/
theorem holdsList_iff : (cs : List Condition) →
    (holdsAll r cs = true ↔ ∀ c ∈ cs, c.Satisfied r) ∧
      (holdsAny r cs = true ↔ ∃ c ∈ cs, c.Satisfied r)
  | [] => by simp [holdsAll, holdsAny]
  | c :: cs => by
    have hfirst := holds_iff c
    obtain ⟨hall, hany⟩ := holdsList_iff cs
    simp [holdsAll, holdsAny, hfirst, hall, hany]

end

/-! ## Failure -/

mutual

/-- **A program fails at the leftmost operand that is not known**, whatever is on the stack.

**Proof sketch.** Induction on the condition. A comparison pushes its bin and fails at its operand.
Of several parts, those before the first with such an operand push their results
(`runFrom_program`), and that one fails. -/
theorem runFrom_program_error (r : Record) {o : Operand} (stack : List StackItem) :
    (c : Condition) → c.unresolved? = some o →
      Program.runFrom r stack c.program = .error (.unresolvedValue o.describe)
  | compare bin kind c o', h => by
    by_cases ho : o'.isResolved = true
    · simp [unresolved?, ho] at h
    · obtain rfl : o' = o := by simpa [unresolved?, ho] using h
      simp [program, Program.runFrom, Program.step, ho]
  | inSlot bin kind slot, h => by
    obtain rfl : .slot slot = o := by simpa [unresolved?] using h
    rfl
  | all cs, h | any cs, h => by
    rw [program, Program.runFrom_append, runFrom_programs_error r stack cs h]

/-- Programs that run one after the other fail at the leftmost operand that is not known. -/
theorem runFrom_programs_error (r : Record) {o : Operand} (stack : List StackItem) :
    (cs : List Condition) → unresolvedIn? cs = some o →
      Program.runFrom r stack (programs cs) = .error (.unresolvedValue o.describe)
  | [], h => by cases h
  | c :: cs, h => by
    rw [programs, Program.runFrom_append]
    cases hc : c.unresolved? with
    | some o' =>
      obtain rfl : o' = o := by simpa [unresolvedIn?, hc] using h
      rw [runFrom_program_error r stack c hc]
    | none =>
      have hcs : unresolvedIn? cs = some o := by simpa [unresolvedIn?, hc] using h
      rw [runFrom_program r stack c hc]
      exact runFrom_programs_error r _ cs hcs

end

/-- The program of a condition with an operand that is not known fails at the leftmost. -/
lemma run_program_error {c : Condition} {o : Operand} (h : c.unresolved? = some o) :
    c.program.run r = .error (.unresolvedValue o.describe) := by
  have hempty : c.program.isEmpty = false := by simpa using c.program_ne_nil
  simp [Program.run, hempty, runFrom_program_error r [] c h]

/-- What the failure of an operand that is not known says. -/
lemma message_unresolvedValue (text : String) : (QueryError.unresolvedValue text).message =
    "Execution error: Unresolved predicate value " ++ text := by
  change "Execution error: " ++ ("Unresolved predicate value " ++ text) = _
  rw [← String.append_assoc]
  congr 1

/-- **Flattening a condition keeps its meaning.** If all operands are known, running the program of
a condition returns whether the tree is satisfied; otherwise it fails with a message that names the
leftmost operand that is not. In no case is the program malformed.

**Proof sketch.** The two cases are those of the leftmost operand that is not known
(`unresolved?_eq`). Without one the program pushes the meaning of the tree (`run_program`), which
the tree decides (`holds_iff`); with one it fails there (`run_program_error`). -/
theorem program_meaning (c : Condition) (r : Record) :
    (match c.operands.find? (fun o => !o.isResolved) with
      | none => ∃ b, c.program.run r = .ok b ∧ (b = true ↔ c.Satisfied r)
      | some o => ∃ e, c.program.run r = .error e ∧
          e.message = "Execution error: Unresolved predicate value " ++ o.describe) ∧
      ∀ fault, c.program.run r ≠ .error (.malformedProgram fault) := by
  rw [← unresolved?_eq]
  cases h : c.unresolved? with
  | none =>
    have hresolved : c.isResolved = true := by rw [isResolved, h]; rfl
    have hrun := run_program r hresolved
    refine ⟨⟨c.holds r, hrun, holds_iff c⟩, fun fault hfault => ?_⟩
    rw [hrun] at hfault
    cases hfault
  | some o =>
    have hrun := run_program_error (r := r) h
    refine ⟨⟨_, hrun, message_unresolvedValue _⟩, fun fault hfault => ?_⟩
    rw [hrun, Except.error.injEq] at hfault
    cases hfault

-- The first part of a disjunction holds, but the second one is evaluated all the same.
example (r : Record) : (any [all [], inSlot "owner" .unknown 3]).program.run r =
    .error (.unresolvedValue "Subquery(3)") := rfl

end Condition

end RecordQuery
