import RecordQuery.Cursor.Basic
import RecordQuery.Proofs.Store.Reading

set_option autoImplicit false

/-!
# Listings

As long as nobody writes to the store, a cursor has a fixed list of rows ahead of it, and perhaps a
failure behind the last of them. That is all there is to know about it: what its state looks like
and how often the store is read does not matter. The bounds on loops over cursors are never reached.

## Main definitions

* `Listing` — rows, and the failure that follows the last one.
* `Cursor.Yields` — the listing ahead of a cursor in a state.
* `Cursor.Lists` — the listing of a cursor that is opened.

## Main results

* `Cursor.Yields.findWithin`, `Cursor.Yields.fold` — what loops over a cursor return.
* `Cursor.Lists.drain` — a new cursor is read to the end of its listing.
-/

namespace RecordQuery

/-- Rows, and the failure that follows the last one. -/
structure Listing where
  /-- The rows, in order. -/
  rows : List Row
  /-- The failure of the request after the last row. -/
  failure : Option QueryError

namespace Listing

/-- A listing without a failure. -/
def ofRows (rows : List Row) : Listing := ⟨rows, none⟩

/-- A failure before the first row. -/
def failed (e : QueryError) : Listing := ⟨[], some e⟩

/-- All rows of a listing, if it has no failure. -/
def complete (l : Listing) : Except QueryError (List Row) :=
  match l.failure with
  | some e => .error e
  | none => .ok l.rows

/-- A listing with one more row at the start. -/
def cons (row : Row) (l : Listing) : Listing := ⟨row :: l.rows, l.failure⟩

/-- The rows of a listing, taken into an accumulator one by one. -/
def fold {β : Type} (f : β → Row → Except QueryError β) (failure : Option QueryError) :
    β → List Row → Except QueryError β
  | b, [] =>
    match failure with
    | some e => .error e
    | none => .ok b
  | b, row :: rows => do fold f failure (← f b row) rows

end Listing

namespace Cursor

/-- The answer of a cursor after its last row. -/
def lastAnswer (failure : Option QueryError) : Except QueryError (Option Row) :=
  match failure with
  | some e => .error e
  | none => .ok none

/-- The rows and the failure ahead of a cursor in a state, on all stores that are like a given one.
There are never more rows than the cursor announces. -/
def Yields (c : Cursor) (K : Store) (failure : Option QueryError) : List Row → c.State → Prop
  | [], s => ∀ st : Store, st.Alike K →
      ∃ s' st', c.next s st = (lastAnswer failure, s', st') ∧ st'.Alike K
  | row :: rows, s => ∀ st : Store, st.Alike K → (row :: rows).length ≤ c.remaining s st ∧
      ∃ s' st', c.next s st = (.ok (some row), s', st') ∧ st'.Alike K ∧ Yields c K failure rows s'

/-- The listing of a cursor that is opened in a state, or the failure of opening it. -/
def Lists (c : Cursor) (K : Store) (s : c.State) (outcome : Except QueryError Listing) : Prop :=
  ∀ st : Store, st.Alike K → ∃ s' st', c.init s st = (outcome.map (fun _ => ()), s', st') ∧
    st'.Alike K ∧ ∀ l, outcome = .ok l → c.Yields K l.failure l.rows s'

namespace Yields

variable {c : Cursor} {K : Store} {failure : Option QueryError} {rows : List Row} {s : c.State}

/-- There are never more rows than the cursor announces. -/
lemma length_le (h : c.Yields K failure rows s) {st : Store} (hst : st.Alike K) :
    rows.length ≤ c.remaining s st := by
  cases rows with
  | nil => exact Nat.zero_le _
  | cons row rows => exact (h st hst).1

/-- The answer after the last row. -/
lemma next_nil (h : c.Yields K failure [] s) {st : Store} (hst : st.Alike K) :
    ∃ s' st', c.next s st = (lastAnswer failure, s', st') ∧ st'.Alike K := h st hst

/-- The answer before the last row. -/
lemma next_cons {row : Row} (h : c.Yields K failure (row :: rows) s) {st : Store}
    (hst : st.Alike K) :
    ∃ s' st', c.next s st = (.ok (some row), s', st') ∧ st'.Alike K ∧
      c.Yields K failure rows s' := (h st hst).2

end Yields

/-! ## Loops -/

section Loops

variable {c : Cursor} {K : Store} {failure : Option QueryError} {rows : List Row} {s : c.State}

/-- The first row that passes a test, and the rows after it; or the failure of the search. -/
def firstPassing (keep : Row → Except QueryError Bool) (failure : Option QueryError) :
    List Row → Except QueryError (Option (Row × List Row))
  | [] =>
    match failure with
    | some e => .error e
    | none => .ok none
  | row :: rows => do
    if ← keep row then return some (row, rows)
    firstPassing keep failure rows

/-- **A search finds the first row that passes the test**, if it may ask often enough.

**Proof sketch.** Induction on the rows, with the number of questions that are left. Each row ends
the search, by passing the test or by failing it with an error, or costs one question. -/
lemma Yields.findWithin {keep : Row → Except QueryError Bool} {n : Nat}
    (h : c.Yields K failure rows s) (hn : rows.length < n) {st : Store} (hst : st.Alike K) :
    ∃ s' st', c.findWithin keep n s st =
        ((firstPassing keep failure rows).map (Option.map Prod.fst), s', st') ∧ st'.Alike K ∧
      ∀ row rest, firstPassing keep failure rows = .ok (some (row, rest)) →
        c.Yields K failure rest s' := by
  induction rows generalizing n s st with
  | nil =>
    obtain ⟨s', st', hnext, hlike⟩ := h.next_nil hst
    refine ⟨s', st', ?_, hlike, ?_⟩
    · cases n with
      | zero => cases hn
      | succ n =>
        rw [Cursor.findWithin, hnext]
        cases failure <;> rfl
    · intro row rest hfirst
      cases failure <;> cases hfirst
  | cons row rows ih =>
    obtain ⟨s', st', hnext, hlike, hrest⟩ := h.next_cons hst
    cases n with
    | zero => cases hn
    | succ n =>
      rw [Cursor.findWithin, hnext]
      cases hkeep : keep row with
      | error e =>
        refine ⟨s', st', ?_, hlike, ?_⟩
        · simp [firstPassing, hkeep, Except.map]
        · intro row' rest hfirst
          simp [firstPassing, hkeep] at hfirst
      | ok b =>
        cases b with
        | true =>
          refine ⟨s', st', ?_, hlike, ?_⟩
          · simp [firstPassing, hkeep, Except.map, pure, Except.pure]
          · intro row' rest hfirst
            simp only [firstPassing, hkeep, Outcome.ok_bind, if_true, Outcome.pure_eq_ok,
              Option.some.injEq, Prod.mk.injEq] at hfirst
            rw [← hfirst.2]
            exact hrest
        | false =>
          have hlt : rows.length < n := by
            rw [List.length_cons] at hn
            omega
          obtain ⟨s'', st'', hfind, hlike', hyields⟩ := ih hrest hlt hlike
          refine ⟨s'', st'', ?_, hlike', ?_⟩
          · simp [firstPassing, hkeep, hfind]
          · intro row' rest hfirst
            refine hyields row' rest ?_
            simpa [firstPassing, hkeep] using hfirst

/-- A search finds the first row that passes the test. -/
lemma Yields.find (h : c.Yields K failure rows s) (keep : Row → Except QueryError Bool)
    {st : Store} (hst : st.Alike K) :
    ∃ s' st', c.find keep s st =
        ((firstPassing keep failure rows).map (Option.map Prod.fst), s', st') ∧ st'.Alike K ∧
      ∀ row rest, firstPassing keep failure rows = .ok (some (row, rest)) →
        c.Yields K failure rest s' :=
  h.findWithin (Nat.lt_succ_of_le (h.length_le hst)) hst

/-- Folding asks for all rows, if it may ask often enough.

**Proof sketch.** Induction on the rows, with the number of questions that are left and the value so
far. -/
lemma Yields.foldWithin {β : Type} {f : β → Row → Except QueryError β} {n : Nat} (b : β)
    (h : c.Yields K failure rows s) (hn : rows.length < n) {st : Store} (hst : st.Alike K) :
    ∃ s' st', c.foldWithin f n b s st = (Listing.fold f failure b rows, s', st') ∧
      st'.Alike K := by
  induction rows generalizing n b s st with
  | nil =>
    obtain ⟨s', st', hnext, hlike⟩ := h.next_nil hst
    refine ⟨s', st', ?_, hlike⟩
    cases n with
    | zero => cases hn
    | succ n =>
      rw [Cursor.foldWithin, hnext]
      cases failure <;> rfl
  | cons row rows ih =>
    obtain ⟨s', st', hnext, hlike, hrest⟩ := h.next_cons hst
    cases n with
    | zero => cases hn
    | succ n =>
      rw [Cursor.foldWithin, hnext, Listing.fold]
      cases hf : f b row with
      | error e =>
        simp only [hf, Outcome.error_bind]
        exact ⟨s', st', rfl, hlike⟩
      | ok b' =>
        have hlt : rows.length < n := by
          rw [List.length_cons] at hn
          omega
        simp only [hf, Outcome.ok_bind]
        exact ih b' hrest hlt hlike

/-- **Folding takes in all rows** up to the failure behind them. -/
lemma Yields.fold {β : Type} {f : β → Row → Except QueryError β} (b : β)
    (h : c.Yields K failure rows s) {st : Store} (hst : st.Alike K) :
    ∃ s' st', c.fold f b s st = (Listing.fold f failure b rows, s', st') ∧ st'.Alike K :=
  h.foldWithin b (Nat.lt_succ_of_le (h.length_le hst)) hst

/-- How a complete reading ends. -/
def lastEnding (failure : Option QueryError) : Ending :=
  match failure with
  | some e => .failed e
  | none => .finished

/-- Reading returns all rows, if it may ask often enough.

**Proof sketch.** Induction on the rows, with the number of questions that are left. -/
lemma Yields.read {n : Nat} (h : c.Yields K failure rows s) (hn : rows.length < n) {st : Store}
    (hst : st.Alike K) :
    ∃ s' st', c.read n s st = (⟨rows, lastEnding failure⟩, s', st') ∧ st'.Alike K := by
  induction rows generalizing n s st with
  | nil =>
    obtain ⟨s', st', hnext, hlike⟩ := h.next_nil hst
    refine ⟨s', st', ?_, hlike⟩
    cases n with
    | zero => cases hn
    | succ n =>
      rw [Cursor.read, hnext]
      cases failure <;> rfl
  | cons row rows ih =>
    obtain ⟨s', st', hnext, hlike, hrest⟩ := h.next_cons hst
    cases n with
    | zero => cases hn
    | succ n =>
      have hlt : rows.length < n := by
        rw [List.length_cons] at hn
        omega
      obtain ⟨s'', st'', hread, hlike'⟩ := ih hrest hlt hlike
      refine ⟨s'', st'', ?_, hlike'⟩
      simp [Cursor.read, hnext, hread]

/-- **Reading all rows** returns all rows. -/
lemma Yields.readAll (h : c.Yields K failure rows s) {st : Store} (hst : st.Alike K) :
    ∃ s' st', c.readAll s st = (⟨rows, lastEnding failure⟩, s', st') ∧ st'.Alike K :=
  h.read (Nat.lt_succ_of_le (h.length_le hst)) hst

end Loops

/-- **A new cursor is read to the end of its listing.** -/
theorem Lists.drain {c : Cursor} {K : Store} {outcome : Except QueryError Listing}
    (h : c.Lists K c.start outcome) :
    StoreM.Reads c.drain K (outcome >>= Listing.complete) := by
  intro st hst
  obtain ⟨s', st', hinit, hlike, hyields⟩ := h st hst
  cases outcome with
  | error e =>
    refine ⟨st', ?_, hlike⟩
    simp [Cursor.drain, Cursor.pass, Cursor.initTimes, hinit, Except.map, Reading.complete]
  | ok l =>
    obtain ⟨s'', st'', hread, hlike'⟩ := (hyields l rfl).readAll hlike
    refine ⟨st'', ?_, hlike'⟩
    cases hfailure : l.failure with
    | none =>
      simp [Cursor.drain, Cursor.pass, Cursor.initTimes, hinit, hread, hfailure, Except.map,
        lastEnding, Reading.complete, Listing.complete]
    | some e =>
      simp [Cursor.drain, Cursor.pass, Cursor.initTimes, hinit, hread, hfailure, Except.map,
        lastEnding, Reading.complete, Listing.complete]

end Cursor

end RecordQuery
