import RecordQuery.Predicate.Program

set_option autoImplicit false

/-!
# Conditions

Conditions on the bins of a record, as trees. A condition has a meaning of its own,
`Condition.holds`, and a program that the store runs, `Condition.program`.

## Main definitions

* `Condition` — the trees.
* `Condition.holds` — whether a record satisfies a condition whose operands are known.
* `Condition.program` — the program that decides it.
* `Condition.mapOperands` — replaces the operands of comparisons, left to right, or fails.
* `Condition.unresolved?` — the leftmost operand that is not known.
-/

namespace RecordQuery

/-- A condition on the bins of a record. -/
inductive Condition where
  /-- A comparison of a bin, read as a kind, with an operand. -/
  | compare (bin : String) (kind : BinKind) (c : Comparison) (o : Operand)
  /-- The bin equals one of the values of a sub-query. -/
  | inSlot (bin : String) (kind : BinKind) (slot : Nat)
  /-- All of several conditions. -/
  | all (cs : List Condition)
  /-- One of several conditions. -/
  | any (cs : List Condition)
  deriving Inhabited

namespace Condition

/-- The comparison of a bin with an operand, read as the operand's kind. -/
def ofOperand (bin : String) (c : Comparison) (o : Operand) : Condition := compare bin o.kind c o

mutual

/-- The program that decides a condition. -/
def program : Condition → Program
  | compare bin kind c o => [.bin bin kind, .value o, .compare c]
  | inSlot bin kind slot => [.bin bin kind, .value (.slot slot), .compare .eq]
  | all cs => programs cs ++ [.all cs.length]
  | any cs => programs cs ++ [.any cs.length]

/-- The programs of several conditions, one after the other. -/
def programs : List Condition → Program
  | [] => []
  | c :: cs => program c ++ programs cs

end

mutual

/-- Whether a record satisfies a condition. A sub-query that has not run yet satisfies none. -/
def holds (r : Record) : Condition → Bool
  | compare bin kind c o => o.accepts kind c (r.bin? bin)
  | inSlot .. => false
  | all cs => holdsAll r cs
  | any cs => holdsAny r cs

/-- Whether a record satisfies all of several conditions. -/
def holdsAll (r : Record) : List Condition → Bool
  | [] => true
  | c :: cs => holds r c && holdsAll r cs

/-- Whether a record satisfies one of several conditions. -/
def holdsAny (r : Record) : List Condition → Bool
  | [] => false
  | c :: cs => holds r c || holdsAny r cs

end

mutual

/-- The leftmost operand that is not known. -/
def unresolved? : Condition → Option Operand
  | compare _ _ _ o => if o.isResolved then none else some o
  | inSlot _ _ slot => some (.slot slot)
  | all cs => unresolvedIn? cs
  | any cs => unresolvedIn? cs

/-- The leftmost operand of several conditions that is not known. -/
def unresolvedIn? : List Condition → Option Operand
  | [] => none
  | c :: cs => (unresolved? c).or (unresolvedIn? cs)

end

mutual

/-- Replaces the operand and kind of every comparison, left to right. -/
def mapOperands (f : Operand → BinKind → Except QueryError (Operand × BinKind)) :
    Condition → Except QueryError Condition
  | compare bin kind c o => do
    let ok ← f o kind
    return compare bin ok.2 c ok.1
  | inSlot bin kind slot => return inSlot bin kind slot
  | all cs => return all (← mapOperandsList f cs)
  | any cs => return any (← mapOperandsList f cs)

/-- Replaces the operands of several conditions, left to right. -/
def mapOperandsList (f : Operand → BinKind → Except QueryError (Operand × BinKind)) :
    List Condition → Except QueryError (List Condition)
  | [] => return []
  | c :: cs => do
    let d ← mapOperands f c
    let ds ← mapOperandsList f cs
    return d :: ds

end

/-- The program of a condition that may be missing. -/
def programOf (c : Option Condition) : Program :=
  match c with
  | some c => c.program
  | none => []

end Condition

end RecordQuery
