import RecordQuery.Row
import RecordQuery.Store.Basic

set_option autoImplicit false

/-!
# Cursors

A cursor yields rows one at a time. It is opened, asked for rows until there are none, and closed;
then it can be opened again. Cursors read the store only when they are opened or asked, so what a
cursor yields may depend on writes between two rows.

A cursor knows how many rows it may still yield. That number bounds every loop over its rows.

## Main definitions

* `Cursor` — a state and what opening, asking and closing do to it.
* `Cursor.find` — the next row that passes a test.
* `Cursor.fold` — all remaining rows, folded.
* `Cursor.read`, `Cursor.readAll` — some or all of the remaining rows, and how the reading ended.
* `Cursor.pass`, `Cursor.drain` — the rows between opening and closing.
-/

namespace RecordQuery

/-- What happens to a state and to the store, and the outcome. A failure keeps both as they are at
that moment. -/
abbrev Step (σ α : Type) := σ → Store → Except QueryError α × σ × Store

/-- A source of rows. -/
structure Cursor where
  /-- What the cursor remembers. -/
  State : Type
  /-- The state before it is opened. -/
  start : State
  /-- Opens the cursor at the first row. -/
  init : Step State Unit
  /-- Asks for a row; none if there are no more. -/
  next : Step State (Option Row)
  /-- Closes the cursor. -/
  close : State → State
  /-- A bound on the number of rows that the cursor still yields. -/
  remaining : State → Store → Nat

namespace Cursor

/-! ## Loops over the rows of a cursor -/

/-- The next row that passes a test, among so many. -/
def findWithin (c : Cursor) (keep : Row → Except QueryError Bool) : Nat → Step c.State (Option Row)
  | 0, s, st => (.ok none, s, st)
  | n + 1, s, st =>
    match c.next s st with
    | (.ok (some row), s, st) =>
      match keep row with
      | .ok true => (.ok (some row), s, st)
      | .ok false => findWithin c keep n s st
      | .error e => (.error e, s, st)
    | done => done

/-- The next row that passes a test. -/
def find (c : Cursor) (keep : Row → Except QueryError Bool) : Step c.State (Option Row) :=
  fun s st => c.findWithin keep (c.remaining s st + 1) s st

/-- The rows, up to so many, taken into an accumulator one by one. The first failure ends the
reading. -/
def foldWithin {β : Type} (c : Cursor) (f : β → Row → Except QueryError β) :
    Nat → β → Step c.State β
  | 0, b, s, st => (.ok b, s, st)
  | n + 1, b, s, st =>
    match c.next s st with
    | (.ok (some row), s, st) =>
      match f b row with
      | .ok b => foldWithin c f n b s st
      | .error e => (.error e, s, st)
    | (.ok none, s, st) => (.ok b, s, st)
    | (.error e, s, st) => (.error e, s, st)

/-- All remaining rows, taken into an accumulator one by one. -/
def fold {β : Type} (c : Cursor) (f : β → Row → Except QueryError β) (b : β) : Step c.State β :=
  fun s st => c.foldWithin f (c.remaining s st + 1) b s st

/-! ## Reading -/

/-- How a reading ended. -/
inductive Ending where
  /-- There may be more rows. -/
  | more
  /-- There are no more rows. -/
  | finished
  /-- Asking for a row failed. -/
  | failed (e : QueryError)

/-- Rows that were read, and how the reading ended. -/
structure Reading where
  /-- The rows, in order. -/
  rows : List Row
  /-- How the reading ended. -/
  ending : Ending

/-- The rows of a complete reading. -/
def Reading.complete (r : Reading) : Except QueryError (List Row) :=
  match r.ending with
  | .failed e => .error e
  | _ => .ok r.rows

/-- Reads up to so many rows. -/
def read (c : Cursor) : Nat → c.State → Store → Reading × c.State × Store
  | 0, s, st => (⟨[], .more⟩, s, st)
  | n + 1, s, st =>
    match c.next s st with
    | (.ok (some row), s, st) =>
      let (rest, s, st) := read c n s st
      (⟨row :: rest.rows, rest.ending⟩, s, st)
    | (.ok none, s, st) => (⟨[], .finished⟩, s, st)
    | (.error e, s, st) => (⟨[], .failed e⟩, s, st)

/-- Reads all remaining rows. -/
def readAll (c : Cursor) (s : c.State) (st : Store) : Reading × c.State × Store :=
  c.read (c.remaining s st + 1) s st

/-- Opens a cursor so many times in a row. -/
def initTimes (c : Cursor) : Nat → Step c.State Unit
  | 0, s, st => (.ok (), s, st)
  | n + 1, s, st =>
    match c.init s st with
    | (.ok (), s, st) => initTimes c n s st
    | failed => failed

/-- Opens a cursor so many times in a row, reads all rows and closes it. After a failure it stays
open. -/
def pass (c : Cursor) (inits : Nat) (s : c.State) (st : Store) : Reading × c.State × Store :=
  match c.initTimes inits s st with
  | (.error e, s, st) => (⟨[], .failed e⟩, s, st)
  | (.ok (), s, st) =>
    match c.readAll s st with
    | (⟨rows, .failed e⟩, s, st) => (⟨rows, .failed e⟩, s, st)
    | (reading, s, st) => (reading, c.close s, st)

/-- The rows of a cursor that is new. -/
def drain (c : Cursor) : StoreM (List Row) := fun st =>
  let (reading, _, st) := c.pass 1 c.start st
  (reading.complete, st)

end Cursor

end RecordQuery
