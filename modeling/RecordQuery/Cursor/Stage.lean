import RecordQuery.Cursor.Basic

set_option autoImplicit false

/-!
# Stages

Cursors made of other cursors. Every stage passes opening and closing on to the cursors below it
and keeps what it needs in its own part of the state.

## Main definitions

* `Cursor.ofRows`, `Cursor.ofLoad` — the cursors at the bottom.
* `Cursor.filter`, `Cursor.mapRows`, `Cursor.window`, `Cursor.distinct` — stages that pass rows on
  as they come.
* `Cursor.buffered`, `Cursor.grouped` — stages that need all rows first.
* `Cursor.append`, `Cursor.expand` — stages that yield more rows than one cursor does.
-/

namespace RecordQuery

namespace Cursor

/-! ## Sources -/

/-- The cursor over given rows. Asking for the row at a given position, the first being `0`,
fails. -/
def ofRows (rows : List Row) (failAt : Option Nat) : Cursor where
  State := Nat
  start := 0
  init _ st := (.ok (), 0, st)
  next i st :=
    if failAt = some i then (.error .readFailed, i, st)
    else
      match rows[i]? with
      | some row => (.ok (some row), i + 1, st)
      | none => (.ok none, i, st)
  close i := i
  remaining i _ := rows.length - i

/-- Takes the first of the rows that are held. -/
def pop : List Row → Option Row × List Row
  | [] => (none, [])
  | row :: rows => (some row, rows)

/-- Loads rows unless some are held already. -/
def loadOnce (load : StoreM (List Row)) : Step (Option (List Row)) Unit := fun held st =>
  match held with
  | some rows => (.ok (), some rows, st)
  | none =>
    match load st with
    | (.ok rows, st) => (.ok (), some rows, st)
    | (.error e, st) => (.error e, none, st)

/-- The cursor over rows that are loaded from the store when it is opened, or asked for a row, and
kept until it is closed. Opening it twice loads them once. -/
def ofLoad (load : StoreM (List Row)) (bound : Store → Nat) : Cursor where
  State := Option (List Row)
  start := none
  init := loadOnce load
  next held st :=
    match loadOnce load held st with
    | (.ok (), held, st) =>
      let (row, rest) := pop (held.getD [])
      (.ok row, some rest, st)
    | (.error e, held, st) => (.error e, held, st)
  close _ := none
  remaining held st :=
    match held with
    | some rows => rows.length
    | none => bound st

/-! ## Stages that pass rows on -/

/-- The rows that pass a test. -/
def filter (c : Cursor) (keep : Row → Except QueryError Bool) : Cursor :=
  { c with next := c.find keep }

/-- The rows, each of them changed. -/
def mapRows (c : Cursor) (f : Row → Except QueryError Row) : Cursor :=
  { c with
    next := fun s st =>
      match c.next s st with
      | (.ok (some row), s, st) => ((f row).map some, s, st)
      | done => done }

/-- Skips so many rows and asks for one more. Also tells how many rows are still to be skipped. -/
def skip (c : Cursor) :
    Nat → c.State → Store → Except QueryError (Option Row) × (c.State × Nat) × Store
  | 0, s, st =>
    match c.next s st with
    | (answer, s, st) => (answer, (s, 0), st)
  | n + 1, s, st =>
    match c.next s st with
    | (.ok (some _), s, st) => skip c n s st
    | (answer, s, st) => (answer, (s, n + 1), st)

/-- The rows after a number of others, up to a limit. At the limit nothing more is asked for. -/
def window (c : Cursor) (offset : Nat) (limit : Option Nat) : Cursor where
  State := (c.State × Nat) × Nat
  start := ((c.start, offset), 0)
  init s st :=
    match c.init s.1.1 st with
    | (answer, inner, st) => (answer, ((inner, offset), 0), st)
  next s st :=
    if limit.any (fun l => l ≤ s.2) then (.ok none, s, st)
    else
      match c.skip s.1.2 s.1.1 st with
      | (.ok (some row), skipped, st) => (.ok (some row), (skipped, s.2 + 1), st)
      | (answer, skipped, st) => (answer, (skipped, s.2), st)
  close s := ((c.close s.1.1, s.1.2), s.2)
  remaining s st := c.remaining s.1.1 st

/-- The rows whose values did not come before. -/
def distinct (c : Cursor) : Cursor where
  State := c.State × List (List UInt8)
  start := (c.start, [])
  init s st :=
    match c.init s.1 st with
    | (answer, inner, st) => (answer, (inner, []), st)
  next s st :=
    match c.find (fun row => .ok (!s.2.contains row.contentKey)) s.1 st with
    | (.ok (some row), inner, st) => (.ok (some row), (inner, row.contentKey :: s.2), st)
    | (answer, inner, st) => (answer, (inner, s.2), st)
  close s := (c.close s.1, [])
  remaining s st := c.remaining s.1 st

/-! ## Stages that need all rows first -/

/-- The rows that come of all rows together. These are asked for when the first row is, and are
taken into an accumulator one by one. -/
def buffered {β : Type} (c : Cursor) (f : β → Row → Except QueryError β) (b : β)
    (output : β → List Row) : Cursor where
  State := c.State × Option (List Row)
  start := (c.start, none)
  init s st :=
    match c.init s.1 st with
    | (answer, inner, st) => (answer, (inner, none), st)
  next s st :=
    match s.2 with
    | some rows =>
      let (row, rest) := pop rows
      (.ok row, (s.1, some rest), st)
    | none =>
      match c.fold f b s.1 st with
      | (.ok all, inner, st) =>
        let (row, rest) := pop (output all)
        (.ok row, (inner, some rest), st)
      | (.error e, inner, st) => (.error e, (inner, none), st)
  close s := (c.close s.1, none)
  remaining s st :=
    match s.2 with
    | some rows => rows.length
    | none => c.remaining s.1 st

/-- Opens the cursor below and reduces its rows, unless that is done already. The reducer has to be
known by then. -/
def reduceOnce (c : Cursor) (call : ReducerCall) (mapping : OutputMapping) :
    Step (c.State × Option (List Row)) Unit := fun s st =>
  match s.2 with
  | some _ => (.ok (), s, st)
  | none =>
    match c.init s.1 st with
    | (.error e, inner, st) => (.error e, (inner, none), st)
    | (.ok (), inner, st) =>
      match Reducer.ofCall? call with
      | .error e => (.error e, (inner, none), st)
      | .ok r =>
        match c.fold (fun gs row => .ok (Groups.feed r gs row.get?)) [] inner st with
        | (.error e, inner, st) => (.error e, (inner, none), st)
        | (.ok gs, inner, st) =>
          (.ok (), (inner, some ((r.output gs).map mapping.row)), st)

/-- A bound on the number of rows of a cursor that is opened first. -/
def remainingOpened (c : Cursor) (s : c.State) (st : Store) : Nat :=
  match c.init s st with
  | (_, s, st) => c.remaining s st

/-- The groups of the rows. They are formed when the cursor is opened, or asked for a row, and kept
until it is closed. -/
def grouped (c : Cursor) (call : ReducerCall) (mapping : OutputMapping) : Cursor where
  State := c.State × Option (List Row)
  start := (c.start, none)
  init := c.reduceOnce call mapping
  next s st :=
    match c.reduceOnce call mapping s st with
    | (.ok (), s, st) =>
      let (row, rest) := pop (s.2.getD [])
      (.ok row, (s.1, some rest), st)
    | (.error e, s, st) => (.error e, s, st)
  close s := (c.close s.1, none)
  remaining s st :=
    match s.2 with
    | some rows => rows.length
    | none => c.remainingOpened s.1 st + 1

/-! ## Stages that yield more -/

/-- Which of two cursors is being read. -/
inductive Turn where
  /-- The first one. -/
  | first
  /-- The second one. -/
  | second
  /-- Neither, both are exhausted. -/
  | neither
  deriving DecidableEq

/-- Asks the second of two cursors. -/
def nextSecond (c d : Cursor) (s : c.State × d.State) (st : Store) :
    Except QueryError (Option Row) × (c.State × d.State × Turn) × Store :=
  match d.next s.2 st with
  | (.ok none, t, st) => (.ok none, (s.1, t, .neither), st)
  | (answer, t, st) => (answer, (s.1, t, .second), st)

/-- The rows of one cursor and then those of another. -/
def append (c d : Cursor) : Cursor where
  State := c.State × d.State × Turn
  start := (c.start, d.start, .first)
  init s st :=
    match c.init s.1 st with
    | (.error e, inner, st) => (.error e, (inner, s.2.1, .first), st)
    | (.ok (), inner, st) =>
      match d.init s.2.1 st with
      | (answer, other, st) => (answer, (inner, other, .first), st)
  next s st :=
    match s.2.2 with
    | .first =>
      match c.next s.1 st with
      | (.ok none, inner, st) => nextSecond c d (inner, s.2.1) st
      | (answer, inner, st) => (answer, (inner, s.2.1, .first), st)
    | .second => nextSecond c d (s.1, s.2.1) st
    | .neither => (.ok none, s, st)
  close s := (c.close s.1, d.close s.2.1, s.2.2)
  remaining s st := c.remaining s.1 st + d.remaining s.2.1 st

/-- Asks for a row, among so many, of which there come some, and takes the first of these. -/
def expandWithin (c : Cursor) (f : Row → StoreM (List Row)) :
    Nat → c.State → Store → Except QueryError (Option Row) × (c.State × List Row) × Store
  | 0, s, st => (.ok none, (s, []), st)
  | n + 1, s, st =>
    match c.next s st with
    | (.ok (some row), s, st) =>
      match f row st with
      | (.ok [], st) => expandWithin c f n s st
      | (.ok (r :: rs), st) => (.ok (some r), (s, rs), st)
      | (.error e, st) => (.error e, (s, []), st)
    | (answer, s, st) => (answer, (s, []), st)

/-- The rows that come of each row. They are read from the store when they are asked for; there are
at most so many of each. -/
def expand (c : Cursor) (f : Row → StoreM (List Row)) (most : Store → Nat) : Cursor where
  State := c.State × List Row
  start := (c.start, [])
  init s st :=
    match c.init s.1 st with
    | (answer, inner, st) => (answer, (inner, []), st)
  next s st :=
    match s.2 with
    | r :: rs => (.ok (some r), (s.1, rs), st)
    | [] => c.expandWithin f (c.remaining s.1 st + 1) s.1 st
  close s := (c.close s.1, [])
  remaining s st := s.2.length + c.remaining s.1 st * most st

end Cursor

end RecordQuery
