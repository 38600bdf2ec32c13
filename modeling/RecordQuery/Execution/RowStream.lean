import RecordQuery.Pipeline.Basic

set_option autoImplicit false

/-!
# Streams of rows

The rows of a query that runs. They are computed when they are asked for. A stream ends with its
last row or with the first failure, and after that yields nothing.

## Main definitions

* `RowStream` — a running query.
* `RowStream.start` — starts a pipeline.
* `RowStream.next`, `RowStream.read`, `RowStream.readAll` — ask for rows.
* `RowStream.close` — ends a stream.
-/

namespace RecordQuery

/-- The rows of a query that runs. -/
structure RowStream where
  /-- The labels of the columns; unknown ones of all columns are left out. -/
  labels : List String
  /-- What is known to the query. -/
  env : ExecutionEnv
  /-- How the rows are computed. -/
  pipeline : Pipeline
  /-- How far the computation is. -/
  state : (pipeline.cursor env).State
  /-- Whether the stream has ended. -/
  ended : Bool

namespace RowStream

/-- Starts a pipeline. -/
def start (env : ExecutionEnv) (labels : List String) (p : Pipeline) : StoreM RowStream := fun st =>
  match (p.cursor env).init (p.cursor env).start st with
  | (.ok (), s, st) => (.ok ⟨labels, env, p, s, false⟩, st)
  | (.error e, _, st) => (.error e, st)

/-- Ends a stream. -/
def close (r : RowStream) : RowStream :=
  if r.ended then r
  else { r with state := (r.pipeline.cursor r.env).close r.state, ended := true }

/-- Asks for a row; none if the stream has ended. -/
def next (r : RowStream) (st : Store) : Except QueryError (Option Row) × RowStream × Store :=
  if r.ended then (.ok none, r, st)
  else
    match (r.pipeline.cursor r.env).next r.state st with
    | (.ok (some row), s, st) => (.ok (some row), { r with state := s }, st)
    | (answer, s, st) => (answer, { r with state := s }.close, st)

/-- Reads up to so many rows. -/
def read : Nat → RowStream → Store → Cursor.Reading × RowStream × Store
  | 0, r, st => (⟨[], .more⟩, r, st)
  | n + 1, r, st =>
    match r.next st with
    | (.ok (some row), r, st) =>
      let (rest, r, st) := read n r st
      (⟨row :: rest.rows, rest.ending⟩, r, st)
    | (.ok none, r, st) => (⟨[], .finished⟩, r, st)
    | (.error e, r, st) => (⟨[], .failed e⟩, r, st)

/-- Reads all rows that are left. -/
def readAll (r : RowStream) (st : Store) : Cursor.Reading × RowStream × Store :=
  read ((r.pipeline.cursor r.env).remaining r.state st + 1) r st

end RowStream

end RecordQuery
