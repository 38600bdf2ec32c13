import RecordQuery.Binary64.Arithmetic
import RecordQuery.Binary64.Basic
import RecordQuery.Binary64.Decimal
import RecordQuery.Compile.Grouping
import RecordQuery.Compile.Ordering
import RecordQuery.Compile.Projection
import RecordQuery.Compile.Query
import RecordQuery.Compile.Scope
import RecordQuery.Compile.Statement
import RecordQuery.Compile.Where
import RecordQuery.Cursor.Basic
import RecordQuery.Cursor.Stage
import RecordQuery.Digest.Sha256
import RecordQuery.Error
import RecordQuery.Execution.RowStream
import RecordQuery.Execution.Statement
import RecordQuery.Execution.Write
import RecordQuery.Expr.Basic
import RecordQuery.Expr.Eval
import RecordQuery.Expr.Function
import RecordQuery.Expr.Reference
import RecordQuery.Expr.Render
import RecordQuery.OrderedMap
import RecordQuery.Pipeline.Access
import RecordQuery.Pipeline.Basic
import RecordQuery.Pipeline.Join
import RecordQuery.Pipeline.OfPlan
import RecordQuery.Pipeline.Projection
import RecordQuery.Plan.Access
import RecordQuery.Plan.Basic
import RecordQuery.Plan.Binding
import RecordQuery.Plan.Column
import RecordQuery.Plan.Strategy
import RecordQuery.Plan.Subquery
import RecordQuery.Predicate.Condition
import RecordQuery.Predicate.KeyCondition
import RecordQuery.Predicate.Program
import RecordQuery.Proofs.Compile.Agreement
import RecordQuery.Proofs.Compile.Catalog
import RecordQuery.Proofs.Compile.Closed
import RecordQuery.Proofs.Compile.Depth
import RecordQuery.Proofs.Compile.Bindable
import RecordQuery.Proofs.Compile.Growth
import RecordQuery.Proofs.Compile.Labels
import RecordQuery.Proofs.Compile.Native
import RecordQuery.Proofs.Compile.Side
import RecordQuery.Proofs.Compile.Twin
import RecordQuery.Proofs.Compile.Unknowns
import RecordQuery.Proofs.Compile.Where
import RecordQuery.Proofs.Cursor.Buffering
import RecordQuery.Proofs.Cursor.Expanding
import RecordQuery.Proofs.Cursor.Extension
import RecordQuery.Proofs.Cursor.Listing
import RecordQuery.Proofs.Cursor.Passes
import RecordQuery.Proofs.Cursor.Passing
import RecordQuery.Proofs.Cursor.Stage
import RecordQuery.Proofs.Execution.Answer
import RecordQuery.Proofs.Execution.Catalog
import RecordQuery.Proofs.Execution.Fault
import RecordQuery.Proofs.Execution.Lookup
import RecordQuery.Proofs.Execution.Parameters
import RecordQuery.Proofs.Execution.SetOperation
import RecordQuery.Proofs.Expr.Eval
import RecordQuery.Proofs.Expr.Occurrence
import RecordQuery.Proofs.Expr.Parameters
import RecordQuery.Proofs.Fault.Access
import RecordQuery.Proofs.Fault.Basic
import RecordQuery.Proofs.Fault.Binding
import RecordQuery.Proofs.Fault.Expr
import RecordQuery.Proofs.Fault.Pipeline
import RecordQuery.Proofs.Fault.Stage
import RecordQuery.Proofs.Outcome
import RecordQuery.Proofs.Pipeline.Access
import RecordQuery.Proofs.Pipeline.Catalog
import RecordQuery.Proofs.Pipeline.Fetch
import RecordQuery.Proofs.Pipeline.Join
import RecordQuery.Proofs.Pipeline.Labels
import RecordQuery.Proofs.Pipeline.Listing
import RecordQuery.Proofs.Pipeline.Passes
import RecordQuery.Proofs.Pipeline.Preparation
import RecordQuery.Proofs.Pipeline.Reading
import RecordQuery.Proofs.Pipeline.SetOperation
import RecordQuery.Proofs.Plan.Binding
import RecordQuery.Proofs.Plan.Index
import RecordQuery.Proofs.Plan.Kinds
import RecordQuery.Proofs.Plan.Related
import RecordQuery.Proofs.Plan.Strategy
import RecordQuery.Proofs.Plan.Unknowns
import RecordQuery.Proofs.Predicate.Condition
import RecordQuery.Proofs.Predicate.KeyCondition
import RecordQuery.Proofs.Predicate.Kinds
import RecordQuery.Proofs.Predicate.Program
import RecordQuery.Proofs.Predicate.Resolution
import RecordQuery.Proofs.Predicate.Unknowns
import RecordQuery.Proofs.Row
import RecordQuery.Proofs.Store.Reading
import RecordQuery.Proofs.Store.Records
import RecordQuery.Proofs.Value.Encoding
import RecordQuery.Record
import RecordQuery.Reducer.Aggregate
import RecordQuery.Reducer.Group
import RecordQuery.Row
import RecordQuery.StableSort
import RecordQuery.Statement
import RecordQuery.Store.Basic
import RecordQuery.Store.Index
import RecordQuery.Text.Blank
import RecordQuery.Text.CaseMapping
import RecordQuery.Text.CaseTables
import RecordQuery.Text.PrintTable
import RecordQuery.Text.Quoted
import RecordQuery.Text.Slice
import RecordQuery.Value.Basic
import RecordQuery.Value.Display
import RecordQuery.Value.Encoding
import RecordQuery.Value.Order
import RecordQuery.Proofs.Compile.Constant
import RecordQuery.Proofs.Compile.Comparison
import RecordQuery.Proofs.Compile.Substitution
import RecordQuery.Proofs.Execution.Substitution
import RecordQuery.Proofs.Compile.Parameters
import RecordQuery.Proofs.Pipeline.Partners
import RecordQuery.Proofs.Pipeline.Joined
import RecordQuery.Proofs.Plan.Distinct
import RecordQuery.Proofs.Reducer.Group
import RecordQuery.Proofs.Compile.Distinct
import RecordQuery.Proofs.Pipeline.Distinct
import RecordQuery.Proofs.Execution.Distinct
import RecordQuery.Proofs.Compile.Bound
import RecordQuery.Proofs.Pipeline.Matchings
import RecordQuery.Proofs.Store.Writing
import RecordQuery.Proofs.Execution.Insertion
import RecordQuery.Proofs.Execution.Selected
import RecordQuery.Proofs.Execution.Change
import RecordQuery.Proofs.Execution.Bins
import RecordQuery.Proofs.Reducer.Call
import RecordQuery.Proofs.Plan.Column
import RecordQuery.Proofs.Plan.Grouped
import RecordQuery.Proofs.Compile.Grouped
import RecordQuery.Proofs.Compile.Derived
import RecordQuery.Proofs.Pipeline.Grouped
import RecordQuery.Proofs.Execution.Grouped
import RecordQuery.Proofs.Binary64.Rounding
import RecordQuery.Proofs.StableSort
import RecordQuery.Proofs.Value.Order
import RecordQuery.Proofs.Pipeline.Paging
import RecordQuery.Proofs.Plan.Cargo
import RecordQuery.Proofs.Compile.Items
import RecordQuery.Proofs.Pipeline.Computed
import RecordQuery.Proofs.Pipeline.Records
import RecordQuery.Proofs.Execution.Items
import RecordQuery.Proofs.Execution.SelectList
import RecordQuery.Proofs.Predicate.Comparison
import RecordQuery.Proofs.Predicate.Flattening
import RecordQuery.Proofs.Plan.KeyCondition
import RecordQuery.Proofs.Compile.Literal
import RecordQuery.Proofs.Expr.Comparisons
import RecordQuery.Proofs.Plan.Conjuncts
import RecordQuery.Proofs.Predicate.Slots
import RecordQuery.Proofs.Plan.Subquery
import RecordQuery.Proofs.Reducer.Aggregate
import RecordQuery.Proofs.Reducer.Sum
import RecordQuery.Proofs.Value.PartialOrder
import RecordQuery.Proofs.Duplicates
import RecordQuery.Proofs.Reducer.Extreme
import RecordQuery.Proofs.Reducer.Partition
import RecordQuery.Proofs.Reducer.Average
import RecordQuery.Proofs.Pipeline.Unrepeated
import RecordQuery.Proofs.Pipeline.AllColumns
import RecordQuery.Proofs.Expr.Positions
import RecordQuery.Proofs.Expr.Exact
import RecordQuery.Proofs.Reducer.Decoding
import RecordQuery.Proofs.Digest
import RecordQuery.Proofs.Pipeline.Tuples
import RecordQuery.Proofs.Plan.Routing
import RecordQuery.Proofs.Pipeline.Products
import RecordQuery.Proofs.Pipeline.Where
import RecordQuery.Proofs.Execution.Where
