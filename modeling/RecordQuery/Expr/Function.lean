import RecordQuery.Error
import RecordQuery.Text.Blank
import RecordQuery.Text.Slice

set_option autoImplicit false

/-!
# Scalar functions

The functions that expressions can call. A null argument makes most of them null. Positions in
texts are counted in characters and from one.

## Main definitions

* `Function`, `Function.ofName?` — the functions and the names they are called by.
* `Function.apply` — the value of a call.
* `callFunction` — a call by name.
-/

namespace RecordQuery

/-- The scalar functions. -/
inductive Function where
  /-- The number of characters. -/
  | length
  /-- The upper case. -/
  | upper
  /-- The lower case. -/
  | lower
  /-- Without blanks at both ends. -/
  | trim
  /-- Without blanks at the start. -/
  | trimStart
  /-- Without blanks at the end. -/
  | trimEnd
  /-- All arguments joined, nulls left out. -/
  | concat
  /-- The first characters. -/
  | left
  /-- The last characters. -/
  | right
  /-- The characters from a position on, at most so many. -/
  | substring
  /-- The absolute value. -/
  | abs
  /-- The first argument that is not null. -/
  | coalesce
  /-- The first of two arguments that is not null. -/
  | ifNull
  /-- The order of two texts as `-1`, `0` or `1`. -/
  | compareTexts
  /-- The position of a text in another, zero if it does not occur. -/
  | indexOf
  /-- The characters in opposite order. -/
  | reverse
  deriving DecidableEq

namespace Function

/-- The function of a name in lower case. -/
def ofLowerName? : String → Option Function
  | "len" => some length
  | "length" => some length
  | "upper" => some upper
  | "ucase" => some upper
  | "lower" => some lower
  | "lcase" => some lower
  | "trim" => some trim
  | "ltrim" => some trimStart
  | "rtrim" => some trimEnd
  | "concat" => some concat
  | "left" => some left
  | "right" => some right
  | "substring" => some substring
  | "abs" => some abs
  | "coalesce" => some coalesce
  | "ifnull" => some ifNull
  | "strcmp" => some compareTexts
  | "instr" => some indexOf
  | "reverse" => some reverse
  | _ => none

/-- The function of a name, whatever its case. -/
def ofName? (name : String) : Option Function := ofLowerName? (Text.lowerAscii name)

/-- The name of a function in messages. -/
def name : Function → String
  | length => "length"
  | upper => "upper"
  | lower => "lower"
  | trim => "trim"
  | trimStart => "ltrim"
  | trimEnd => "rtrim"
  | concat => "concat"
  | left => "left"
  | right => "right"
  | substring => "substring"
  | abs => "abs"
  | coalesce => "coalesce"
  | ifNull => "ifnull"
  | compareTexts => "strcmp"
  | indexOf => "instr"
  | reverse => "reverse"

/-- The text of an argument that must be one. -/
def textArg (f : Function) (v : Value) : Except QueryError String :=
  match v.asText? with
  | some s => .ok s
  | none => .error (.argumentKind f.name "a string" v.kind)

/-- The integer of an argument that must be one. -/
def intArg (f : Function) (v : Value) : Except QueryError Int :=
  match v.asInt? with
  | some i => .ok i.toInt
  | none => .error (.argumentKind f.name "an integer" v.kind)

/-- The failure of a call with a wrong number of arguments. -/
def arityError (f : Function) (least most : Nat) (args : List Value) : Except QueryError Value :=
  .error (.arity f.name least most args.length)

/-- A function of one text. -/
def onText (f : Function) (g : String → Value) : List Value → Except QueryError Value
  | [.null] => .ok .null
  | [v] => do return g (← f.textArg v)
  | args => f.arityError 1 1 args

/-- The integer that stands for an order. -/
def orderingInt : Ordering → Int64
  | .lt => -1
  | .eq => 0
  | .gt => 1

/-- The characters of a text from a position on, counted from one; positions below one are the
first. -/
def fromPosition (position : Int) (s : String) : String := Text.drop (position - 1).toNat s

/-- The absolute value of a number. -/
def absOf : Value → Except QueryError Value
  | .null => .ok .null
  | .integer i =>
    if i = Int64.minValue then .error .overflow else .ok (.integer i.abs)
  | .float x => .ok (.float x.abs)
  | v => .error (.argumentKind (name abs) "a number" v.kind)

/-- The first value that is not null. -/
def firstPresent (vs : List Value) : Value := (vs.find? (fun v => !v.isNull)).getD .null

/-- A function of two arguments that is null when one of them is. -/
def onPair (f : Function) (g : Value → Value → Except QueryError Value) :
    List Value → Except QueryError Value
  | [v, w] => if v.isNull || w.isNull then .ok .null else g v w
  | args => f.arityError 2 2 args

/-- The value of a call. -/
def apply (f : Function) (args : List Value) : Except QueryError Value :=
  match f with
  | length => f.onText (fun s => .integer (Int64.ofNat (Text.length s))) args
  | upper => f.onText (fun s => .text (Text.upper s)) args
  | lower => f.onText (fun s => .text (Text.lower s)) args
  | trim => f.onText (fun s => .text (Text.trim s)) args
  | trimStart => f.onText (fun s => .text (Text.trimStart s)) args
  | trimEnd => f.onText (fun s => .text (Text.trimEnd s)) args
  | reverse => f.onText (fun s => .text (Text.reverse s)) args
  | concat =>
    .ok (.text (String.join ((args.filter (fun v => !v.isNull)).map Value.plainText)))
  | left => f.onPair (fun v w => do
      let s ← f.textArg v
      let n ← f.intArg w
      return .text (Text.take n.toNat s)) args
  | right => f.onPair (fun v w => do
      let s ← f.textArg v
      let n ← f.intArg w
      return .text (Text.takeEnd n.toNat s)) args
  | substring =>
    match args with
    | [v, w] =>
      if v.isNull || w.isNull then .ok .null
      else do
        let s ← f.textArg v
        let position ← f.intArg w
        return .text (fromPosition position s)
    | [v, w, x] =>
      if v.isNull || w.isNull || x.isNull then .ok .null
      else do
        let s ← f.textArg v
        let position ← f.intArg w
        let n ← f.intArg x
        return .text (Text.take n.toNat (fromPosition position s))
    | _ => f.arityError 2 3 args
  | abs =>
    match args with
    | [v] => absOf v
    | _ => f.arityError 1 1 args
  | coalesce => .ok (firstPresent args)
  | ifNull =>
    match args with
    | [_, _] => .ok (firstPresent args)
    | _ => f.arityError 2 2 args
  | compareTexts => f.onPair (fun v w => do
      let s ← f.textArg v
      let t ← f.textArg w
      return .integer (orderingInt (compare s t))) args
  | indexOf => f.onPair (fun v w => do
      let s ← f.textArg v
      let t ← f.textArg w
      match Text.indexOf? t s with
      | some n => return .integer (Int64.ofNat (n + 1))
      | none => return .integer 0) args

end Function

/-- The value of a call by name. -/
def callFunction (name : String) (args : List Value) : Except QueryError Value :=
  match Function.ofName? name with
  | some f => f.apply args
  | none => .error (.functionUnknown name)

end RecordQuery
