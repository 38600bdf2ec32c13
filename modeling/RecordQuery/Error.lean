import RecordQuery.Value.Display

set_option autoImplicit false

/-!
# Failures

What can go wrong in compiling, binding and running a statement. Every constructor of `QueryError`
is one cause, with what its message names; the wording is in `QueryError.detail` and the class of
a cause in `QueryError.errorClass`, each in one place.

## Main definitions

* `QueryError` — the causes.
* `ErrorClass` — the classes of causes that callers tell apart, each with a name.
* `QueryError.message` — the text shown for a failure.
-/

namespace RecordQuery

/-- The classes of failures. -/
inductive ErrorClass where
  /-- A statement of a shape that cannot be compiled. -/
  | unsupportedConstruct
  /-- A value of a kind that the place does not admit. -/
  | typeMismatch
  /-- A join condition other than the equality of two columns. -/
  | unsupportedJoinCondition
  /-- A sub-query that returns other than one column. -/
  | wrongColumnCount
  /-- A sub-query in a comparison that returns more than one row. -/
  | tooManyRows
  /-- A second access strategy for one plan. -/
  | duplicatePlanStrategy
  /-- A table that nobody knows. -/
  | missingTable
  /-- Rows that do not have the columns expected of them. -/
  | projectionMismatch
  /-- A selected expression that cannot be a column. -/
  | unsupportedColumnExpression
  /-- A parameter without a value. -/
  | parameterNotFound
  /-- An inserted key that exists. -/
  | duplicateKey
  /-- A function that nobody knows. -/
  | unknownFunction
  /-- A refusal of the store. -/
  | storageError
  /-- A failure while rows are computed. -/
  | executionError
  /-- An operation that makes no sense where it stands. -/
  | invalidOperation
  /-- A result outside the 64-bit integers. -/
  | numericOverflow
  /-- A division by zero. -/
  | divisionByZero
  deriving DecidableEq

/-- The name under which callers tell a class of failures from the others. -/
def ErrorClass.name : ErrorClass → String
  | .unsupportedConstruct => "UnsupportedConstruct"
  | .typeMismatch => "TypeMismatch"
  | .unsupportedJoinCondition => "UnsupportedJoinCondition"
  | .wrongColumnCount => "WrongColumnCount"
  | .tooManyRows => "TooManyRows"
  | .duplicatePlanStrategy => "DuplicatePlanStrategy"
  | .missingTable => "MissingTable"
  | .projectionMismatch => "ProjectionMismatch"
  | .unsupportedColumnExpression => "UnsupportedColumnExpression"
  | .parameterNotFound => "ParameterNotFound"
  | .duplicateKey => "DuplicateKey"
  | .unknownFunction => "UnknownFunction"
  | .storageError => "StorageError"
  | .executionError => "ExecutionError"
  | .invalidOperation => "InvalidOperation"
  | .numericOverflow => "NumericOverflow"
  | .divisionByZero => "DivisionByZero"

/-- How a predicate program can be malformed. -/
inductive ProgramFault where
  /-- A comparison without a bin and a value before it. -/
  | comparison
  /-- Fewer results than a logical operator takes. -/
  | missingOperand
  /-- A logical operator over something that is not a result. -/
  | nonBooleanOperand
  /-- Other than one result at the end. -/
  | resultCount
  deriving DecidableEq

/-- The causes of failure. -/
inductive QueryError where
  /-- A sub-query stands in an expression over one row. -/
  | subqueryInRow
  /-- An insertion does not list the key column. -/
  | insertWithoutKey (set : String)
  /-- A sub-query stands among inserted values. -/
  | subqueryInValues
  /-- An update assigns the key. -/
  | keyAssigned
  /-- A sub-query stands in an assignment. -/
  | subqueryInSet
  /-- Joined rows are aggregated. -/
  | aggregateOverJoin
  /-- There is a group filter but no group. -/
  | havingWithoutGroup
  /-- A sub-query stands in a group filter. -/
  | subqueryInHaving
  /-- A row filter precedes an aggregation inside the store. -/
  | rowFilterBeforeReducer
  /-- A derived table is joined. -/
  | derivedTableJoined
  /-- Rows are grouped by something other than a column. -/
  | groupByExpression (text : String)
  /-- Rows are grouped by a key or a joined column. -/
  | groupByColumn (column : String)
  /-- Distinct rows of other than one bin are asked for. -/
  | distinctColumns
  /-- A sub-query stands in an ordering. -/
  | subqueryInOrderBy
  /-- A limit or an offset is neither a number nor a parameter. -/
  | rowBoundExpression (text : String)
  /-- A sub-query stands in a condition that only a row filter can decide. -/
  | subqueryInRowFilter (text : String)
  /-- A condition on a joined table cannot be decided by the store. -/
  | joinedCondition (table text : String)
  /-- All columns are asked for in an aggregation. -/
  | starInAggregation
  /-- A column is neither grouped nor aggregated. -/
  | columnNotGrouped (column : String)
  /-- An aggregate of distinct values is asked for. -/
  | distinctAggregate (name : String)
  /-- A key is aggregated. -/
  | aggregateOfKey (column : String)
  /-- Something other than a column is aggregated. -/
  | aggregateOfExpression (text : String)
  /-- An aggregate has more than one argument. -/
  | aggregateArity (name : String)
  /-- Whole rows are aggregated by something other than counting. -/
  | aggregateOfRows (name : String)
  /-- A reducer argument aggregates whole rows by something other than counting. -/
  | reducerOfRows (name : String)
  /-- A float parameter stands where only the store can compare. -/
  | floatParameter (index : Nat)
  /-- Sub-queries are nested beyond the depth that was measured. -/
  | nestingTooDeep
  /-- Two values have no order. -/
  | incomparable (left right : Kind)
  /-- A key is null. -/
  | nullKey
  /-- A key is a list. -/
  | listKey (text : String)
  /-- A value that is no number is negated. -/
  | negationOf (kind : Kind)
  /-- A value is indexed that is no list, or by no integer. -/
  | indexingOf (container key : Kind)
  /-- An arithmetic operator meets kinds it has no rule for. -/
  | operatorOn (symbol : String) (left right : Kind)
  /-- A function argument has the wrong kind. -/
  | argumentKind (function wanted : String) (found : Kind)
  /-- A key of bytes is compared by the store. -/
  | blobKeyPredicate
  /-- A range bound is no integer. -/
  | betweenBound (text : String)
  /-- A parameter bounding a range is no integer. -/
  | betweenParameter (index : Nat) (found : Kind)
  /-- A parameter for a limit or an offset is no natural number. -/
  | rowBoundParameter (index : Nat) (value : String)
  /-- The store cannot compare values of this kind. -/
  | predicateKind (kind : Kind)
  /-- A sub-query returns a float where only the store can compare. -/
  | floatSubquery
  /-- The store cannot join on values of this kind. -/
  | joinOn (kind : Kind)
  /-- A join condition is not the equality of two columns. -/
  | joinCondition (text : String)
  /-- A join has no condition. -/
  | joinWithoutCondition (table : String)
  /-- A sub-query returns this many columns instead of one. -/
  | columnCount (found : Nat)
  /-- A sub-query compared by this operator returns several rows. -/
  | tooManyRows (operator : String)
  /-- A plan already has a strategy. -/
  | strategyCommitted (existing added : String)
  /-- A table is not known. -/
  | unknownTable (name : String)
  /-- A sub-query does not return a column that is asked of it. -/
  | columnNotReturned (column : String)
  /-- The sides of a set operation have different widths. -/
  | setOperationWidths (left right : Nat)
  /-- An expression cannot be selected. -/
  | columnExpression (text : String)
  /-- A parameter has no value. -/
  | parameterUnbound (index : Nat)
  /-- An inserted key exists. -/
  | keyExists (key set : String)
  /-- A function is not known. -/
  | functionUnknown (name : String)
  /-- No index serves the filter of a scan. -/
  | noIndexFor (ns set bin : String)
  /-- An index of this name exists. -/
  | indexExists (name : String)
  /-- No index has this name. -/
  | indexUnknown (name : String)
  /-- A reducer is not known. -/
  | reducerUnknown (name : String)
  /-- Reading a source of rows failed. -/
  | readFailed
  /-- A row does not carry an aggregate that is asked of it. -/
  | aggregateMissing (text : String)
  /-- A predicate program compares with a value that is not known yet. -/
  | unresolvedValue (text : String)
  /-- A predicate program is malformed. -/
  | malformedProgram (fault : ProgramFault)
  /-- A sort received more rows than it may hold. -/
  | sortLimit (limit : Nat)
  /-- A plan without a strategy is run. -/
  | noStrategy (ns set : String)
  /-- The values of a sub-query are asked for before it ran. -/
  | subqueryNotRun (slot : Nat)
  /-- A selected row has no key. -/
  | rowWithoutKey (set : String)
  /-- A star stands outside a count. -/
  | starOutsideCount
  /-- A function has too few or too many arguments. -/
  | arity (function : String) (least most found : Nat)
  /-- The store is asked for the rows of a sub-query. -/
  | readsSubquery
  /-- The records of an aggregation are asked for. -/
  | readsReducer
  /-- A strategy that finds records is asked for groups. -/
  | cannotAggregate (strategy : String)
  /-- A reducer argument is malformed. -/
  | aggregateArgument (text : String)
  /-- A grouping reducer has no grouping column. -/
  | groupingWithoutColumn
  /-- An inserted row has another width than the column list. -/
  | insertWidth (columns values : Nat)
  /-- An inserted row has no value for the key. -/
  | insertRowWithoutKey (set : String)
  /-- An ordering names a position that no column has. -/
  | orderPosition (position : Int)
  /-- Rows are asked of a statement that has none. -/
  | noRows
  /-- A result is outside the 64-bit integers. -/
  | overflow
  /-- A divisor is zero. -/
  | divisionByZero
  deriving DecidableEq

namespace ProgramFault

/-- What is wrong with a malformed program. -/
def message : ProgramFault → String
  | comparison => "comparison expects a bin and a value"
  | missingOperand => "not enough operands for a logical operator"
  | nonBooleanOperand => "logical operator over a non-boolean operand"
  | resultCount => "program does not reduce to a single result"

end ProgramFault

namespace QueryError

/-- The class of a cause. -/
def errorClass : QueryError → ErrorClass
  | subqueryInRow | insertWithoutKey _ | subqueryInValues | keyAssigned | subqueryInSet
  | aggregateOverJoin | havingWithoutGroup | subqueryInHaving | rowFilterBeforeReducer
  | derivedTableJoined | groupByExpression _ | groupByColumn _ | distinctColumns
  | subqueryInOrderBy | rowBoundExpression _ | subqueryInRowFilter _ | joinedCondition ..
  | starInAggregation | columnNotGrouped _ | distinctAggregate _ | aggregateOfKey _
  | aggregateOfExpression _ | aggregateArity _ | aggregateOfRows _ | reducerOfRows _
  | floatParameter _ | nestingTooDeep => .unsupportedConstruct
  | incomparable .. | nullKey | listKey _ | negationOf _ | indexingOf .. | operatorOn ..
  | argumentKind .. | blobKeyPredicate | betweenBound _ | betweenParameter ..
  | rowBoundParameter .. | predicateKind _ | floatSubquery | joinOn _ => .typeMismatch
  | joinCondition _ | joinWithoutCondition _ => .unsupportedJoinCondition
  | columnCount _ => .wrongColumnCount
  | tooManyRows _ => .tooManyRows
  | strategyCommitted .. => .duplicatePlanStrategy
  | unknownTable _ => .missingTable
  | columnNotReturned _ | setOperationWidths .. => .projectionMismatch
  | columnExpression _ => .unsupportedColumnExpression
  | parameterUnbound _ => .parameterNotFound
  | keyExists .. => .duplicateKey
  | functionUnknown _ => .unknownFunction
  | noIndexFor .. | indexExists _ | indexUnknown _ | reducerUnknown _ | readFailed => .storageError
  | aggregateMissing _ | unresolvedValue _ | malformedProgram _ | sortLimit _ | noStrategy ..
  | subqueryNotRun _ | rowWithoutKey _ => .executionError
  | starOutsideCount | arity .. | readsSubquery | readsReducer | cannotAggregate _
  | aggregateArgument _ | groupingWithoutColumn | insertWidth .. | insertRowWithoutKey _
  | orderPosition _ | noRows => .invalidOperation
  | overflow => .numericOverflow
  | divisionByZero => .divisionByZero

/-- What a message says about its cause. -/
def detail : QueryError → String
  | subqueryInRow => "sub-query inside a row expression"
  | insertWithoutKey set => "INSERT into " ++ set ++ " requires the PK column"
  | subqueryInValues => "sub-queries are not allowed in VALUES"
  | keyAssigned => "the primary key cannot be updated"
  | subqueryInSet => "sub-queries are not allowed in SET"
  | aggregateOverJoin => "aggregation over joined tables is not supported"
  | havingWithoutGroup => "HAVING requires GROUP BY or an aggregate"
  | subqueryInHaving => "sub-queries are not allowed in HAVING"
  | rowFilterBeforeReducer =>
    "a WHERE clause evaluated row by row cannot be combined with store-side aggregation"
  | derivedTableJoined => "only tables can be joined, not sub-queries"
  | groupByExpression text => "GROUP BY supports plain columns only, got " ++ text
  | groupByColumn column => "cannot group by " ++ column
  | distinctColumns => "DISTINCT is supported for a single column only"
  | subqueryInOrderBy => "sub-queries are not allowed in ORDER BY"
  | rowBoundExpression text =>
    "LIMIT and OFFSET take a non-negative integer or a parameter, got " ++ text
  | subqueryInRowFilter text => "sub-queries cannot be evaluated row by row: " ++ text
  | joinedCondition table text =>
    "condition on joined table " ++ table ++ " must compile to a store predicate: " ++ text
  | starInAggregation => "* cannot be combined with aggregation"
  | columnNotGrouped column => "column " ++ column ++ " must appear in GROUP BY"
  | distinctAggregate name => name ++ "(DISTINCT ...) is not supported"
  | aggregateOfKey column => "cannot aggregate " ++ column
  | aggregateOfExpression text => "aggregate arguments must be plain columns, got " ++ text
  | aggregateArity name => name ++ " takes one argument"
  | aggregateOfRows name => name ++ "(*) is not supported"
  | reducerOfRows name => name ++ "(*)"
  | floatParameter index =>
    "parameter " ++ natText index ++ " is a float and cannot be compared natively here"
  | nestingTooDeep => "sub-queries are nested too deeply"
  | incomparable left right => "Cannot compare " ++ left.name ++ " with " ++ right.name
  | nullKey => "Primary key cannot be null"
  | listKey text => "Primary key must be an integer, string or blob, got " ++ text
  | negationOf kind => "Cannot negate " ++ kind.name
  | indexingOf container key => "Cannot index " ++ container.name ++ " with " ++ key.name
  | operatorOn symbol left right =>
    "Cannot apply " ++ symbol ++ " to " ++ left.name ++ " and " ++ right.name
  | argumentKind function wanted found =>
    function ++ " expects " ++ wanted ++ ", got " ++ found.name
  | blobKeyPredicate => "Blob keys can only be used for key lookups"
  | betweenBound text => "BETWEEN can be applied to integer values only, got " ++ text
  | betweenParameter index found =>
    "BETWEEN can be applied to integer values only, parameter " ++ natText index ++ " is " ++
      found.name
  | rowBoundParameter index value =>
    "LIMIT and OFFSET require a non-negative integer, parameter " ++ natText index ++ " is " ++
      value
  | predicateKind kind => kind.name ++ " values cannot be compared in a predicate"
  | floatSubquery => "Sub-query returned a float; compare it in a filter"
  | joinOn kind => "Cannot join on a " ++ kind.name ++ " value"
  | joinCondition text => text
  | joinWithoutCondition table => "JOIN " ++ table ++ " has no ON clause"
  | columnCount found => natText found
  | tooManyRows operator => operator
  | strategyCommitted existing added =>
    existing ++ " already committed, cannot add " ++ added
  | unknownTable name => name
  | columnNotReturned column => "column " ++ column ++ " is not returned by the sub-query"
  | setOperationWidths left right =>
    "set operation combines " ++ natText left ++ " columns with " ++ natText right ++ " columns"
  | columnExpression text => text
  | parameterUnbound index => natText index
  | keyExists key set => key ++ " already exists in " ++ set
  | functionUnknown name => name
  | noIndexFor ns set bin => "Index not found for " ++ ns ++ "." ++ set ++ "." ++ bin
  | indexExists name => "Index " ++ name ++ " already exists"
  | indexUnknown name => "Index " ++ name ++ " not found"
  | reducerUnknown name => "Unknown aggregation module '" ++ name ++ "'"
  | readFailed => "read failed"
  | aggregateMissing text => "Aggregate " ++ text ++ " is not available in this row"
  | unresolvedValue text => "Unresolved predicate value " ++ text
  | malformedProgram fault => "Malformed predicate program: " ++ fault.message
  | sortLimit limit => "Sort input exceeds the limit of " ++ natText limit ++ " rows"
  | noStrategy ns set => "No access strategy selected for " ++ ns ++ "." ++ set
  | subqueryNotRun slot => "Sub-query slot " ++ natText slot ++ " was never run"
  | rowWithoutKey set => "Selected row of " ++ set ++ " carries no key"
  | starOutsideCount => "'*' outside of count(*)"
  | arity function least most found =>
    function ++ " expects " ++ natText least ++ " to " ++ natText most ++ " arguments, got " ++
      natText found
  | readsSubquery => "plan reads a sub-query, not the store"
  | readsReducer => "aggregation plans are read through the reducer"
  | cannotAggregate strategy => strategy ++ " cannot feed an aggregation"
  | aggregateArgument text => "Malformed aggregate argument '" ++ text ++ "'"
  | groupingWithoutColumn => "groupby reducer requires at least one grouping column"
  | insertWidth columns values =>
    "INSERT lists " ++ natText columns ++ " columns but a row has " ++ natText values ++ " values"
  | insertRowWithoutKey set => "INSERT into " ++ set ++ " has no PK value"
  | orderPosition position => "ORDER BY position " ++ intText position ++ " is out of range"
  | noRows => "Statement does not return rows"
  | overflow => ""
  | divisionByZero => ""

/-- The text shown for a failure: its class in words, around the detail. -/
def message (e : QueryError) : String :=
  match e.errorClass with
  | .unsupportedConstruct => "Unsupported construct: " ++ e.detail
  | .typeMismatch => "Type mismatch: " ++ e.detail
  | .unsupportedJoinCondition => "Unsupported join condition: " ++ e.detail
  | .wrongColumnCount => "Inner query must return only one column, got " ++ e.detail
  | .tooManyRows => "Operator " ++ e.detail ++ " requires 1 parameter"
  | .duplicatePlanStrategy => "More than one queries have been created: " ++ e.detail
  | .missingTable => "Table not found: " ++ e.detail
  | .projectionMismatch => "Projection mismatch: " ++ e.detail
  | .unsupportedColumnExpression => "Unsupported column expression: " ++ e.detail
  | .parameterNotFound => "Parameter " ++ e.detail ++ " is not bound"
  | .duplicateKey => "Duplicate entries: " ++ e.detail
  | .unknownFunction => "Unknown function: " ++ e.detail
  | .storageError => "Storage error: " ++ e.detail
  | .executionError => "Execution error: " ++ e.detail
  | .invalidOperation => "Invalid operation: " ++ e.detail
  | .numericOverflow => "Numeric overflow"
  | .divisionByZero => "Division by zero"

end QueryError

end RecordQuery
