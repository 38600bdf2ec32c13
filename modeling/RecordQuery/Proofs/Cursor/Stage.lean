import RecordQuery.Cursor.Stage
import RecordQuery.Proofs.Cursor.Listing

set_option autoImplicit false

/-!
# Listings of stages

Every stage turns the listings of the cursors below it into one of its own. The operations on
listings are defined here, and the cursors at the bottom, which have their rows from elsewhere, are
shown to have the listings that they are given.

## Main definitions

* `Listing.expand`, `Listing.filter`, `Listing.mapRows`, `Listing.window`, `Listing.distinct`,
  `Listing.append`, `Listing.buffered` — what the stages do to listings.

## Main results

* `Cursor.lists_ofRows`, `Cursor.lists_ofLoad` — the listings at the bottom.
* `Cursor.Lists.of_yields` — a stage has the listing that it makes of the one below.
-/

namespace RecordQuery

namespace Listing

/-- The rows that come of each row, up to the first failure. -/
def expandRows (f : Row → Except QueryError (List Row)) (failure : Option QueryError) :
    List Row → Listing
  | [] => ⟨[], failure⟩
  | row :: rows =>
    match f row with
    | .error e => failed e
    | .ok out => ⟨out ++ (expandRows f failure rows).rows, (expandRows f failure rows).failure⟩

/-- The rows that come of each row of a listing. -/
def expand (f : Row → Except QueryError (List Row)) (l : Listing) : Listing :=
  expandRows f l.failure l.rows

/-- The row itself if it passes a test. -/
def passing (keep : Row → Except QueryError Bool) (row : Row) : Except QueryError (List Row) := do
  return if ← keep row then [row] else []

/-- The rows of a listing that pass a test. -/
def filter (keep : Row → Except QueryError Bool) (l : Listing) : Listing := l.expand (passing keep)

/-- The rows of a listing, each of them changed. -/
def mapRows (f : Row → Except QueryError Row) (l : Listing) : Listing :=
  l.expand (fun row => do return [← f row])

/-- The rows of a listing after a number of others, up to a limit. A failure after the limit does
not show. -/
def window (offset : Nat) (limit : Option Nat) (l : Listing) : Listing :=
  match limit with
  | none => ⟨l.rows.drop offset, l.failure⟩
  | some n =>
    ⟨(l.rows.drop offset).take n, if n ≤ (l.rows.drop offset).length then none else l.failure⟩

/-- The rows whose values are not among those seen and did not come before. -/
def distinctRows (seen : List (List UInt8)) : List Row → List Row
  | [] => []
  | row :: rows =>
    if seen.contains row.contentKey then distinctRows seen rows
    else row :: distinctRows (row.contentKey :: seen) rows

/-- The rows of a listing whose values did not come before. -/
def distinct (l : Listing) : Listing := ⟨distinctRows [] l.rows, l.failure⟩

/-- The rows of one listing and then those of another. -/
def append (l m : Listing) : Listing :=
  match l.failure with
  | some e => ⟨l.rows, some e⟩
  | none => ⟨l.rows ++ m.rows, m.failure⟩

/-- The groups of the rows of a listing. The reducer has to be known. -/
def grouped (call : ReducerCall) (mapping : OutputMapping) (l : Listing) :
    Except QueryError Listing := do
  let r ← Reducer.ofCall? call
  let gs ← fold (fun gs row => .ok (Groups.feed r gs row.get?)) l.failure [] l.rows
  return ofRows ((r.output gs).map mapping.row)

/-- Given rows. Asking for the row at a given position fails. -/
def ofGiven (items : List Row) (failAt : Option Nat) : Listing :=
  match failAt with
  | some n => if n ≤ items.length then ⟨items.take n, some .readFailed⟩ else ofRows items
  | none => ofRows items

/-- The rows that come of all rows together. -/
def buffered {β : Type} (f : β → Row → Except QueryError β) (b : β) (output : β → List Row)
    (l : Listing) : Listing :=
  match fold f l.failure b l.rows with
  | .ok all => ofRows (output all)
  | .error e => failed e

/-- Of rows that become at most one row each there come no more rows. -/
lemma length_expandRows_le {f : Row → Except QueryError (List Row)}
    (hf : ∀ row out, f row = .ok out → out.length ≤ 1) (failure : Option QueryError)
    (rows : List Row) : (expandRows f failure rows).rows.length ≤ rows.length := by
  induction rows with
  | nil => exact Nat.le_refl 0
  | cons row rows ih =>
    rw [expandRows]
    cases hrow : f row with
    | error e => exact Nat.zero_le _
    | ok out =>
      have hout := hf row out hrow
      simp only [List.length_append, List.length_cons]
      omega

/-- Rows that can all be changed. -/
lemma mapRows_ofRows {f : Row → Except QueryError Row} {g : Row → Row} (rows : List Row)
    (h : ∀ row, f row = .ok (g row)) : (ofRows rows).mapRows f = ofRows (rows.map g) := by
  unfold mapRows expand ofRows
  induction rows with
  | nil => rfl
  | cons row rows ih =>
    simp only [expandRows, h, Outcome.ok_bind] at ih ⊢
    change (⟨_ ++ _, _⟩ : Listing) = _
    rw [ih]
    rfl

/-- Changing rows keeps their number, up to the first failure. -/
lemma length_mapRows_le (f : Row → Except QueryError Row) (l : Listing) :
    (l.mapRows f).rows.length ≤ l.rows.length := by
  refine length_expandRows_le (fun row out hout => ?_) l.failure l.rows
  simp only [Outcome.bind_eq_ok, Outcome.pure_eq_ok] at hout
  obtain ⟨row', -, rfl⟩ := hout
  exact Nat.le_refl 1

/-- A test keeps at most as many rows. -/
lemma length_filter_le (keep : Row → Except QueryError Bool) (l : Listing) :
    (l.filter keep).rows.length ≤ l.rows.length := by
  refine length_expandRows_le (fun row out hout => ?_) l.failure l.rows
  simp only [passing, Outcome.bind_eq_ok, Outcome.pure_eq_ok] at hout
  obtain ⟨b, -, rfl⟩ := hout
  cases b <;> simp

/-- A window has at most as many rows as there are. -/
lemma length_window_le (offset : Nat) (limit : Option Nat) (l : Listing) :
    (l.window offset limit).rows.length ≤ l.rows.length := by
  cases limit <;> simp only [window, List.length_take, List.length_drop] <;> omega

end Listing

namespace Cursor

variable {K : Store}

/-! ## Sources -/

/-- The rows ahead of held rows that are not loaded again. -/
lemma yields_ofLoad (load : StoreM (List Row)) (bound : Store → Nat) (rows : List Row) :
    (ofLoad load bound).Yields K none rows (some rows) := by
  induction rows with
  | nil => exact fun st hst => ⟨some [], st, rfl, hst⟩
  | cons row rows ih => exact fun st hst => ⟨Nat.le_refl _, some rows, st, rfl, hst, ih⟩

/-- **Rows that are loaded** are the listing. -/
lemma lists_ofLoad {load : StoreM (List Row)} {outcome : Except QueryError (List Row)}
    (hload : load.Reads K outcome) (bound : Store → Nat) :
    (ofLoad load bound).Lists K none (outcome.map Listing.ofRows) := by
  intro st hst
  obtain ⟨st', hst', hlike⟩ := hload st hst
  cases outcome with
  | error e =>
    refine ⟨none, st', ?_, hlike, fun l hl => by cases hl⟩
    change loadOnce load none st = _
    rw [loadOnce, hst']
    rfl
  | ok rows =>
    refine ⟨some rows, st', ?_, hlike, fun l hl => ?_⟩
    · change loadOnce load none st = _
      rw [loadOnce, hst']
      rfl
    · obtain rfl := Except.ok.inj hl
      exact yields_ofLoad load bound rows

/-- The answer of given rows at a position. -/
lemma next_ofRows (items : List Row) (failAt : Option Nat) (i : Nat) (st : Store) :
    (ofRows items failAt).next i st =
      if failAt = some i then (.error .readFailed, i, st)
      else
        match items[i]? with
        | some row => (.ok (some row), i + 1, st)
        | none => (.ok none, i, st) := rfl

/-- The rows ahead of a position among given rows, up to another position.

**Proof sketch.** Induction on the number of rows up to the other position; each answer moves the
position by one. -/
lemma yields_ofRows (items : List Row) (failAt : Option Nat) (failure : Option QueryError)
    (k : Nat) (i : Nat) (hn : i + k ≤ items.length)
    (hfail : ∀ j, i ≤ j → j < i + k → failAt ≠ some j)
    (hlast : ∀ st, (ofRows items failAt).next (i + k) st = (lastAnswer failure, i + k, st)) :
    (ofRows items failAt).Yields K failure ((items.drop i).take k) i := by
  induction k generalizing i with
  | zero => exact fun st hst => ⟨i, st, hlast st, hst⟩
  | succ k ih =>
    have hlt : i < items.length := by omega
    rw [List.drop_eq_getElem_cons hlt, List.take_succ_cons]
    intro st hst
    refine ⟨?_, i + 1, st, ?_, hst, ?_⟩
    · change _ ≤ items.length - i
      simp only [List.length_cons, List.length_take, List.length_drop]
      omega
    · have hnot := hfail i (Nat.le_refl i) (by omega)
      rw [next_ofRows]
      simp only [hnot, if_false, List.getElem?_eq_getElem hlt]
      rfl
    · have heq : i + 1 + k = i + (k + 1) := by omega
      refine ih (i + 1) (by omega) (fun j hj hj' => hfail j (by omega) (by omega)) fun st => ?_
      rw [heq]
      exact hlast st

/-- **Given rows** are the listing.

**Proof sketch.** The position begins at zero. If reading fails at a position within the rows, the
rows before it are ahead, with that failure behind them; otherwise all rows are (`hall`). Both are
`yields_ofRows`. -/
lemma lists_ofRows (items : List Row) (failAt : Option Nat) (s : Nat) :
    (ofRows items failAt).Lists K s (.ok (.ofGiven items failAt)) := by
  intro st hst
  refine ⟨(0 : Nat), st, rfl, hst, fun l hl => ?_⟩
  obtain rfl := Except.ok.inj hl
  have hall : (∀ j, j ≤ items.length → failAt ≠ some j) →
      (ofRows items failAt).Yields K none items (0 : Nat) := by
    intro hfail
    have hyields := yields_ofRows (K := K) items failAt none items.length 0 (by omega)
      (fun j _ hj => hfail j (by omega)) fun st => by
        have hnot := hfail items.length (Nat.le_refl _)
        rw [Nat.zero_add, next_ofRows]
        simp only [hnot, if_false, List.getElem?_eq_none (Nat.le_refl items.length)]
        rfl
    simpa using hyields
  cases failAt with
  | none => exact hall fun j _ => by simp
  | some n =>
    by_cases hn : n ≤ items.length
    · simp only [Listing.ofGiven, if_pos hn]
      have hyields := yields_ofRows (K := K) items (some n) (some .readFailed) n 0 (by omega)
        (fun j _ hj heq => by simp at heq; omega) fun st => by
          rw [Nat.zero_add, next_ofRows]
          exact if_pos rfl
      simpa using hyields
    · simp only [Listing.ofGiven, if_neg hn]
      exact hall fun j hj heq => by
        simp at heq
        omega

/-! ## Stages -/

/-- A stage that opens the cursor below and asks it for more only when it is asked itself. -/
lemma Lists.of_yields {c d : Cursor} {outcome : Except QueryError Listing} {f : Listing → Listing}
    {s : c.State} {t : d.State} (h : c.Lists K s outcome)
    (hinit : ∀ (st : Store) (answer : Except QueryError Unit) (s' : c.State) (st' : Store),
      c.init s st = (answer, s', st') → ∃ t', d.init t st = (answer, t', st') ∧
        ∀ l : Listing, c.Yields K l.failure l.rows s' → d.Yields K (f l).failure (f l).rows t') :
    d.Lists K t (outcome.map f) := by
  intro st hst
  obtain ⟨s', st', hopen, hlike, hyields⟩ := h st hst
  obtain ⟨t', hopen', hstage⟩ := hinit st _ s' st' hopen
  refine ⟨t', st', ?_, hlike, fun l hl => ?_⟩
  · rw [hopen']
    cases outcome <;> rfl
  · cases outcome with
    | error e => cases hl
    | ok l' =>
      obtain rfl := Except.ok.inj hl
      exact hstage l' (hyields l' rfl)

end Cursor

end RecordQuery
