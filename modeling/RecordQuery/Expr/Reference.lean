import RecordQuery.Expr.Basic

set_option autoImplicit false

/-!
# What expressions refer to

The columns, parameters, aggregates and queries that occur in an expression.

## Main definitions

* `Expr.any` — whether a test holds somewhere in an expression, queries not entered.
* `Expr.columns` — the columns referred to, in order of first occurrence.
* `Expr.maxParam`, `Query.maxParam` — the highest parameter, queries entered.
* `Expr.depth`, `Query.depth` — how deeply queries are nested.
-/

namespace RecordQuery

/-- Whether a name is that of an aggregate, whatever its case. -/
def isAggregateName (name : String) : Bool :=
  ["count", "sum", "avg", "min", "max"].contains (Text.lowerAscii name)

namespace Expr

mutual

/-- Whether a test holds of an expression or of one below it. Queries are not entered. -/
def any (p : Expr → Bool) : Expr → Bool
  | e@(literal _) | e@(column _) | e@(param _) | e@(scalarQuery _) | e@star => p e
  | e@(binary _ l r) => p e || (any p l || any p r)
  | e@(negative a) | e@(not a) | e@(isNull a _) | e@(inQuery a _ _) | e@(paren a) => p e || any p a
  | e@(between a low high _) => p e || (any p a || (any p low || any p high))
  | e@(inList a items _) => p e || (any p a || anyList p items)
  | e@(call _ args _) => p e || anyList p args
  | e@(array items) => p e || anyList p items
  | e@(element a key) => p e || (any p a || any p key)

/-- Whether a test holds somewhere in one of several expressions. -/
def anyList (p : Expr → Bool) : List Expr → Bool
  | [] => false
  | e :: es => any p e || anyList p es

end

/-- Whether an expression is a query or asks for the values of one. -/
def isQuery : Expr → Bool
  | inQuery .. | scalarQuery _ => true
  | _ => false

/-- Whether an expression calls an aggregate. -/
def isAggregate : Expr → Bool
  | call name _ _ => isAggregateName name
  | _ => false

/-- Whether a query occurs in an expression. -/
def hasQuery (e : Expr) : Bool := e.any isQuery

/-- Whether an aggregate is called in an expression. -/
def hasAggregate (e : Expr) : Bool := e.any isAggregate

/-- Adds a column to those seen, unless it is among them. -/
def addColumn (seen : List ColumnRef) (c : ColumnRef) : List ColumnRef :=
  if c ∈ seen then seen else seen ++ [c]

mutual

/-- The columns seen so far and those of an expression. -/
def addColumns (seen : List ColumnRef) : Expr → List ColumnRef
  | column c => addColumn seen c
  | literal _ | param _ | scalarQuery _ | star => seen
  | binary _ l r => addColumns (addColumns seen l) r
  | negative e | not e | isNull e _ | inQuery e _ _ | paren e => addColumns seen e
  | between e low high _ => addColumns (addColumns (addColumns seen e) low) high
  | inList e items _ => addColumnsList (addColumns seen e) items
  | call _ args _ => addColumnsList seen args
  | array items => addColumnsList seen items
  | element e key => addColumns (addColumns seen e) key

/-- The columns seen so far and those of several expressions. -/
def addColumnsList (seen : List ColumnRef) : List Expr → List ColumnRef
  | [] => seen
  | e :: es => addColumnsList (addColumns seen e) es

end

/-- The columns that an expression refers to, in order of first occurrence. Queries are not
entered. -/
def columns (e : Expr) : List ColumnRef := addColumns [] e

end Expr

mutual

/-- The highest parameter of an expression, queries included. -/
def Expr.maxParam : Expr → Nat
  | .param index => index
  | .literal _ | .column _ | .star => 0
  | .binary _ l r => max l.maxParam r.maxParam
  | .negative e | .not e | .isNull e _ | .paren e => e.maxParam
  | .between e low high _ => max e.maxParam (max low.maxParam high.maxParam)
  | .inList e items _ => max e.maxParam (maxParamExprs items)
  | .inQuery e q _ => max e.maxParam q.maxParam
  | .scalarQuery q => q.maxParam
  | .call _ args _ => maxParamExprs args
  | .array items => maxParamExprs items
  | .element e key => max e.maxParam key.maxParam

/-- The highest parameter of several expressions. -/
def maxParamExprs : List Expr → Nat
  | [] => 0
  | e :: es => max e.maxParam (maxParamExprs es)

/-- The highest parameter of an expression that may be missing. -/
def maxParamOption : Option Expr → Nat
  | none => 0
  | some e => e.maxParam

/-- The highest parameter of a query. -/
def Query.maxParam : Query → Nat
  | ⟨body, orderBy, limit, offset⟩ =>
    max body.maxParam (max (maxParamOrder orderBy) (max (maxParamOption limit)
      (maxParamOption offset)))

/-- The highest parameter of a sort key. -/
def OrderItem.maxParam : OrderItem → Nat
  | ⟨e, _⟩ => e.maxParam

/-- The highest parameter of several sort keys. -/
def maxParamOrder : List OrderItem → Nat
  | [] => 0
  | o :: os => max o.maxParam (maxParamOrder os)

/-- The highest parameter of a query's body. -/
def QueryBody.maxParam : QueryBody → Nat
  | .select s => s.maxParam
  | .combine _ l r => max l.maxParam r.maxParam

/-- The highest parameter of a selection. Only the main table may be derived, so joined tables
contribute their conditions alone. -/
def Select.maxParam : Select → Nat
  | ⟨_, items, source, joins, condition, groupBy, having⟩ =>
    max (maxParamItems items) (max source.maxParam (max (maxParamJoins joins)
      (max (maxParamOption condition) (max (maxParamExprs groupBy) (maxParamOption having)))))

/-- The highest parameter of a selected item. -/
def SelectItem.maxParam : SelectItem → Nat
  | .all => 0
  | .expr e _ => e.maxParam

/-- The highest parameter of several selected items. -/
def maxParamItems : List SelectItem → Nat
  | [] => 0
  | i :: is => max i.maxParam (maxParamItems is)

/-- The highest parameter of a table. -/
def TableExpr.maxParam : TableExpr → Nat
  | .named .. => 0
  | .derived q _ => q.maxParam

/-- The highest parameter of a join's condition. -/
def Join.maxParam : Join → Nat
  | ⟨_, _, condition⟩ => maxParamOption condition

/-- The highest parameter of several joins' conditions. -/
def maxParamJoins : List Join → Nat
  | [] => 0
  | j :: js => max j.maxParam (maxParamJoins js)

end

mutual

/-- How deeply queries are nested in an expression. -/
def Expr.depth : Expr → Nat
  | .literal _ | .column _ | .param _ | .star => 0
  | .binary _ l r => max l.depth r.depth
  | .negative e | .not e | .isNull e _ | .paren e => e.depth
  | .between e low high _ => max e.depth (max low.depth high.depth)
  | .inList e items _ => max e.depth (depthExprs items)
  | .inQuery e q _ => max e.depth (q.depth + 1)
  | .scalarQuery q => q.depth + 1
  | .call _ args _ => depthExprs args
  | .array items => depthExprs items
  | .element e key => max e.depth key.depth

/-- How deeply queries are nested in several expressions. -/
def depthExprs : List Expr → Nat
  | [] => 0
  | e :: es => max e.depth (depthExprs es)

/-- How deeply queries are nested in an expression that may be missing. -/
def depthOption : Option Expr → Nat
  | none => 0
  | some e => e.depth

/-- How deeply other queries are nested in a query. -/
def Query.depth : Query → Nat
  | ⟨body, orderBy, limit, offset⟩ =>
    max body.depth (max (depthOrder orderBy) (max (depthOption limit) (depthOption offset)))

/-- How deeply queries are nested in a sort key. -/
def OrderItem.depth : OrderItem → Nat
  | ⟨e, _⟩ => e.depth

/-- How deeply queries are nested in several sort keys. -/
def depthOrder : List OrderItem → Nat
  | [] => 0
  | o :: os => max o.depth (depthOrder os)

/-- How deeply queries are nested in a query's body. -/
def QueryBody.depth : QueryBody → Nat
  | .select s => s.depth
  | .combine _ l r => max l.depth r.depth

/-- How deeply queries are nested in a selection. -/
def Select.depth : Select → Nat
  | ⟨_, items, source, joins, condition, groupBy, having⟩ =>
    max (depthItems items) (max source.depth (max (depthJoins joins)
      (max (depthOption condition) (max (depthExprs groupBy) (depthOption having)))))

/-- How deeply queries are nested in a selected item. -/
def SelectItem.depth : SelectItem → Nat
  | .all => 0
  | .expr e _ => e.depth

/-- How deeply queries are nested in several selected items. -/
def depthItems : List SelectItem → Nat
  | [] => 0
  | i :: is => max i.depth (depthItems is)

/-- How deeply queries are nested in a table. -/
def TableExpr.depth : TableExpr → Nat
  | .named .. => 0
  | .derived q _ => q.depth + 1

/-- How deeply queries are nested in a join. -/
def Join.depth : Join → Nat
  | ⟨_, table, condition⟩ => max table.depth (depthOption condition)

/-- How deeply queries are nested in several joins. -/
def depthJoins : List Join → Nat
  | [] => 0
  | j :: js => max j.depth (depthJoins js)

end

end RecordQuery
