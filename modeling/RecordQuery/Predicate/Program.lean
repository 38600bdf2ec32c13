import RecordQuery.Expr.Basic
import RecordQuery.Record
import RecordQuery.Text.Quoted

set_option autoImplicit false

/-!
# Predicate programs

What the store decides a record by: a program in postfix order over a stack. A bin or the key is
pushed together with the kind as which it is read, then a value, then a comparison of the two;
logical operators combine the results of several comparisons. The empty program accepts every
record.

## Main definitions

* `BinKind`, `Operand`, `Instruction` — the instructions.
* `Operand.accepts` — the comparison of a stored value with an operand.
* `Program.step`, `Program.run` — what a program does.
* `Program.conjunction` — the program that accepts what all of several programs accept.

## Main results

* `Program.runFrom_append` — a program runs its parts one after the other.
-/

namespace RecordQuery

/-- The kind as which a stored value is read. Values of other kinds satisfy no comparison. -/
inductive BinKind where
  /-- An integer, or a truth value as `0` or `1`. -/
  | integer
  /-- A text. -/
  | text
  /-- Whatever kind the other side of the comparison has. -/
  | unknown
  deriving DecidableEq, Inhabited

/-- The right side of a comparison. -/
inductive Operand where
  /-- An integer. -/
  | integer (i : Int64)
  /-- A text. -/
  | text (s : String)
  /-- Null, which satisfies no comparison. -/
  | null
  /-- A parameter, replaced when the statement is bound. -/
  | param (index : Nat)
  /-- A value of the enclosing row in a join, replaced for every such row. -/
  | outer (label : String)
  /-- The result of a sub-query, replaced once that has run. -/
  | slot (index : Nat)
  deriving DecidableEq, Inhabited

namespace Operand

/-- Whether the value of an operand is known. -/
def isResolved : Operand → Bool
  | integer _ | text _ | null => true
  | param _ | outer _ | slot _ => false

/-- The kind as which a bin compared with an operand is read. -/
def kind : Operand → BinKind
  | integer _ => .integer
  | text _ => .text
  | _ => .unknown

/-- An operand in messages. -/
def describe : Operand → String
  | integer i => "Integer(" ++ intText i.toInt ++ ")"
  | text s => "String(" ++ Text.quoted s ++ ")"
  | null => "Null"
  | param index => "Placeholder(" ++ natText index ++ ")"
  | outer label => "OuterColumn(" ++ Text.quoted label ++ ")"
  | slot index => "Subquery(" ++ natText index ++ ")"

/-- The comparison of a stored value, read as a kind, with an operand. An absent value and a value
of another kind satisfy none. -/
def accepts (kind : BinKind) (c : Comparison) (stored : Option Value) (o : Operand) : Bool :=
  match stored, o with
  | some (.integer a), integer b => kind != .text && c.admits (compare a.toInt b.toInt)
  | some (.boolean a), integer b => kind != .text && c.admits (compare (boolInt a).toInt b.toInt)
  | some (.text s), text t => kind != .integer && c.admits (compare s t)
  | _, _ => false

end Operand

/-- One step of a predicate program. -/
inductive Instruction where
  /-- Pushes a bin. -/
  | bin (name : String) (kind : BinKind)
  /-- Pushes the key. -/
  | key (kind : BinKind)
  /-- Pushes the right side of a comparison. -/
  | value (o : Operand)
  /-- Compares a bin or key with the value above it. -/
  | compare (c : Comparison)
  /-- Pops so many results and pushes their conjunction. -/
  | all (n : Nat)
  /-- Pops so many results and pushes their disjunction. -/
  | any (n : Nat)
  deriving DecidableEq

/-- A predicate program. -/
abbrev Program := List Instruction

/-- An item of the stack. -/
inductive StackItem where
  /-- A stored value and the kind as which it is read. -/
  | stored (v : Option Value) (kind : BinKind)
  /-- The right side of a comparison. -/
  | operand (o : Operand)
  /-- A result. -/
  | result (b : Bool)

namespace Program

/-- The results among stack items, provided that all of them are results. -/
def results? : List StackItem → Option (List Bool)
  | [] => some []
  | .result b :: items => (results? items).map (b :: ·)
  | _ :: _ => none

/-- Replaces the topmost `n` results by a combination of them. -/
def combine (n : Nat) (f : List Bool → Bool) (stack : List StackItem) :
    Except QueryError (List StackItem) :=
  if stack.length < n then .error (.malformedProgram .missingOperand)
  else
    match results? (stack.take n).reverse with
    | some bs => .ok (.result (f bs) :: stack.drop n)
    | none => .error (.malformedProgram .nonBooleanOperand)

/-- The stack, topmost item first, after one instruction. -/
def step (r : Record) (stack : List StackItem) : Instruction → Except QueryError (List StackItem)
  | .bin name kind => .ok (.stored (r.bin? name) kind :: stack)
  | .key kind => .ok (.stored (some r.key.user.toValue) kind :: stack)
  | .value o =>
    if o.isResolved then .ok (.operand o :: stack) else .error (.unresolvedValue o.describe)
  | .compare c =>
    match stack with
    | .operand o :: .stored v kind :: rest => .ok (.result (o.accepts kind c v) :: rest)
    | _ => .error (.malformedProgram .comparison)
  | .all n => combine n (fun bs => bs.all id) stack
  | .any n => combine n (fun bs => bs.any id) stack

/-- The stack after a program. -/
def runFrom (r : Record) : List StackItem → Program → Except QueryError (List StackItem)
  | stack, [] => .ok stack
  | stack, i :: is =>
    match step r stack i with
    | .ok next => runFrom r next is
    | .error e => .error e

/-- Whether a program accepts a record. -/
def run (p : Program) (r : Record) : Except QueryError Bool :=
  if p.isEmpty then .ok true
  else
    match runFrom r [] p with
    | .ok [.result b] => .ok b
    | .ok _ => .error (.malformedProgram .resultCount)
    | .error e => .error e

/-- The program that accepts what all of the given programs accept. -/
def conjunction (ps : List Program) : Program :=
  let present := ps.filter (fun p => !p.isEmpty)
  present.flatten ++ (if 1 < present.length then [Instruction.all present.length] else [])

/-- A program runs its parts one after the other. -/
theorem runFrom_append (r : Record) (stack : List StackItem) (p q : Program) :
    runFrom r stack (p ++ q) =
      match runFrom r stack p with
      | .ok next => runFrom r next q
      | .error e => .error e := by
  induction p generalizing stack with
  | nil => rfl
  | cons i is ih =>
    simp only [List.cons_append, runFrom]
    cases step r stack i with
    | ok next => exact ih next
    | error e => rfl

end Program

end RecordQuery
