import RecordQuery.Expr.Basic

set_option autoImplicit false

/-!
# Text of expressions

Expressions written out. The text names computed columns, so it is part of what rows show.
Parentheses appear where the tree has them and nowhere else; queries are not written out.

## Main definitions

* `Expr.render` — an expression as text.
-/

namespace RecordQuery

/-- A text constant: between single quotes, a quote inside written twice. -/
def quoteText (s : String) : String :=
  String.ofList ('\'' :: (s.toList.flatMap (fun c => if c = '\'' then ['\'', '\''] else [c]) ++
    ['\'']))

/-- A constant as text. -/
def Literal.render : Literal → String
  | .null => "NULL"
  | .boolean b => boolText b
  | .integer i => intText i.toInt
  | .float x => x.toText
  | .text s => quoteText s

/-- The word that negates a predicate. -/
def notWord (negated : Bool) : String := if negated then " NOT" else ""

namespace Expr

mutual

/-- An expression as text. -/
def render : Expr → String
  | literal l => l.render
  | column c => c.text
  | param _ => "?"
  | binary op l r => render l ++ " " ++ op.symbol ++ " " ++ render r
  | negative e => "-" ++ render e
  | not e => "NOT " ++ render e
  | isNull e negated => render e ++ " IS" ++ notWord negated ++ " NULL"
  | between e low high negated =>
    render e ++ notWord negated ++ " BETWEEN " ++ render low ++ " AND " ++ render high
  | inList e items negated =>
    render e ++ notWord negated ++ " IN (" ++ commaSeparated (renderList items) ++ ")"
  | inQuery e _ negated => render e ++ notWord negated ++ " IN (SELECT ...)"
  | scalarQuery _ => "(SELECT ...)"
  | call name args distinct =>
    name ++ "(" ++ (if distinct then "distinct " else "") ++ commaSeparated (renderList args) ++ ")"
  | star => "*"
  | paren e => "(" ++ render e ++ ")"
  | array items => "[" ++ commaSeparated (renderList items) ++ "]"
  | element e key => render e ++ "[" ++ render key ++ "]"

/-- Several expressions as texts. -/
def renderList : List Expr → List String
  | [] => []
  | e :: es => render e :: renderList es

end

end Expr

end RecordQuery
