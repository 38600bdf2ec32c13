import RecordQuery.Predicate.Program

set_option autoImplicit false

/-!
# Conditions on keys

Conditions on the key of a record. Those that name their keys outright lead to lookups instead of
scans, so a conjunction of two of them is kept in that form.

## Main definitions

* `KeyOperand`, `KeyCondition` — the conditions.
* `KeyCondition.namedKeys?` — the keys of a condition that names them.
* `KeyCondition.and` — conjunction.
* `KeyCondition.program` — the program by which a scan decides a condition.
-/

namespace RecordQuery

/-- A key in a condition. -/
inductive KeyOperand where
  /-- A known key. -/
  | key (k : UserKey)
  /-- A parameter, replaced when the statement is bound. -/
  | param (index : Nat)
  /-- The value of a sub-query, replaced once that has run. -/
  | slot (index : Nat)
  deriving DecidableEq, Inhabited

namespace KeyOperand

/-- Whether the key is known. -/
def isKey : KeyOperand → Bool
  | key _ => true
  | _ => false

/-- The key, if it is known. -/
def key? : KeyOperand → Option UserKey
  | key k => some k
  | _ => none

/-- The right side of the comparison with a key. The store does not compare keys of bytes. -/
def operand : KeyOperand → Except QueryError Operand
  | key (.integer i) => .ok (.integer i)
  | key (.text s) => .ok (.text s)
  | key (.blob _) => .error .blobKeyPredicate
  | param index => .ok (.param index)
  | slot index => .ok (.slot index)

end KeyOperand

/-- A condition on the key of a record. -/
inductive KeyCondition where
  /-- The key is this one. -/
  | equal (k : KeyOperand)
  /-- The key is among these. -/
  | among (ks : List KeyOperand)
  /-- The key is among the values of a sub-query. -/
  | inSlot (slot : Nat)
  /-- The key is not this one. -/
  | notEqual (k : KeyOperand)
  /-- The key lies between these two. -/
  | range (low high : KeyOperand)
  /-- All of several conditions. -/
  | all (cs : List KeyCondition)
  deriving Inhabited

namespace KeyCondition

/-- The condition that no key satisfies. -/
def none : KeyCondition := among []

/-- Whether a condition is the one that no key satisfies. -/
def isNone : KeyCondition → Bool
  | among [] => true
  | _ => false

/-- The keys of a condition that names all of them. -/
def namedKeys? : KeyCondition → Option (List KeyOperand)
  | equal k => if k.isKey then some [k] else .none
  | among ks => if ks.all KeyOperand.isKey then some ks else .none
  | _ => .none

/-- The first keys of `left` that are also in `right`, each once. -/
def intersect (left right : List KeyOperand) : List KeyOperand :=
  left.foldl (fun ks k => if k ∈ right ∧ k ∉ ks then ks ++ [k] else ks) []

/-- The condition that names the given keys. -/
def ofKeys : List KeyOperand → KeyCondition
  | [k] => equal k
  | ks => among ks

/-- The conditions whose conjunction a condition is. -/
def conjuncts : KeyCondition → List KeyCondition
  | all cs => cs
  | c => [c]

/-- The conjunction of two conditions. Named keys are intersected; other conditions stand side by
side. -/
def and (a b : KeyCondition) : KeyCondition :=
  if a.isNone then a
  else if b.isNone then b
  else
    match a.namedKeys?, b.namedKeys? with
    | some left, some right => ofKeys (intersect left right)
    | _, _ => all (a.conjuncts ++ b.conjuncts)

/-- The conjunction of several conditions, from the left; that of none has no conjuncts. -/
def conjunction : List KeyCondition → KeyCondition
  | [] => all []
  | c :: cs => cs.foldl and c

/-- The program that compares the key. -/
def compareProgram (c : Comparison) (k : KeyOperand) : Except QueryError Program := do
  let o ← k.operand
  return [.key o.kind, .value o, .compare c]

/-- The programs that compare the key with each of several for equality, one after the other. -/
def equalPrograms : List KeyOperand → Except QueryError Program
  | [] => return []
  | k :: ks => do
    let p ← compareProgram .eq k
    let q ← equalPrograms ks
    return p ++ q

mutual

/-- The program by which a scan decides a condition. -/
def program : KeyCondition → Except QueryError Program
  | equal k => compareProgram .eq k
  | notEqual k => compareProgram .ne k
  | inSlot slot => compareProgram .eq (.slot slot)
  | among ks => do return (← equalPrograms ks) ++ [.any ks.length]
  | range low high => do
    let p ← compareProgram .ge low
    let q ← compareProgram .le high
    return p ++ q ++ [.all 2]
  | all cs => do return (← programs cs) ++ [.all cs.length]

/-- The programs of several conditions, one after the other. -/
def programs : List KeyCondition → Except QueryError Program
  | [] => return []
  | c :: cs => do
    let p ← program c
    let q ← programs cs
    return p ++ q

end

end KeyCondition

end RecordQuery
