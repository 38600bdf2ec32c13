import Mathlib.Data.List.Basic
import RecordQuery.Proofs.Cursor.Stage

set_option autoImplicit false

/-!
# Listings that go further

A listing that ends with a failure is a part of one that goes further with the same rows; a listing
without a failure is complete. Stages keep this order: if what a stage does to a row may fail less
often, or its input goes further, then so does its output.

## Main definitions

* `Listing.Extends` — one listing goes further than another one, or is the same if that is complete.

## Main results

* `Listing.Extends.expand`, `Listing.Extends.window`, `Listing.Extends.distinct`,
  `Listing.Extends.append`, `Listing.Extends.buffered`, `Listing.Extends.grouped` — stages keep the
  order.
* `Listing.Extends.complete` — a complete reading stays as it is.
-/

namespace RecordQuery

open Outcome

namespace Listing

/-- The second listing is the first one if that has no failure, and begins with its rows if it
has. -/
def Extends (l m : Listing) : Prop :=
  match l.failure with
  | none => m = l
  | some _ => l.rows <+: m.rows

namespace Extends

variable {l l' m m' : Listing}

/-- A listing extends itself. -/
lemma refl (l : Listing) : l.Extends l := by
  unfold Extends
  split
  · rfl
  · exact List.prefix_refl _

/-- A listing without a failure is extended by itself only. -/
lemma eq_of_none (h : l.Extends m) (hl : l.failure = none) : m = l := by
  rw [Extends, hl] at h
  exact h

/-- A listing with a failure is extended by those that begin with its rows. -/
lemma prefix_of_some {e : QueryError} (h : l.Extends m) (hl : l.failure = some e) :
    l.rows <+: m.rows := by
  rw [Extends, hl] at h
  exact h

/-- A failure before the first row is extended by everything. -/
lemma failed (e : QueryError) (m : Listing) : (Listing.failed e).Extends m := List.nil_prefix

/-- Rows with a failure behind them are extended by all listings that begin with them. -/
lemma of_prefix {rows : List Row} {e : QueryError} (h : rows <+: m.rows) :
    (⟨rows, some e⟩ : Listing).Extends m := h

/-- A listing that extends one with a row in front. -/
lemma append_rows (out : List Row) (h : l.Extends m) :
    (⟨out ++ l.rows, l.failure⟩ : Listing).Extends ⟨out ++ m.rows, m.failure⟩ := by
  cases hl : l.failure with
  | none =>
    rw [h.eq_of_none hl, hl]
    exact .refl _
  | some e => exact of_prefix ((List.prefix_append_right_inj out).mpr (h.prefix_of_some hl))

/-- The rows that come of each row, if nothing fails that did not.

**Proof sketch.** Induction on the shorter listing. Its first row is the first of the longer one,
and it expands to the same block or fails in the shorter listing, which then may be continued in any
way. -/
lemma expandRows {g g' : Row → Except QueryError (List Row)}
    (hg : ∀ row, Follows Eq (g row) (g' row)) {failure failure' : Option QueryError}
    {rows rows' : List Row} (h : (⟨rows, failure⟩ : Listing).Extends ⟨rows', failure'⟩) :
    (Listing.expandRows g failure rows).Extends (Listing.expandRows g' failure' rows') := by
  induction rows generalizing rows' with
  | nil =>
    cases failure with
    | none =>
      obtain ⟨rfl, rfl⟩ := Listing.mk.inj (h.eq_of_none rfl)
      exact .refl _
    | some e => exact of_prefix List.nil_prefix
  | cons row rows ih =>
    obtain ⟨rest, hrows, hrest⟩ : ∃ rest, rows' = row :: rest ∧
        (⟨rows, failure⟩ : Listing).Extends ⟨rest, failure'⟩ := by
      cases failure with
      | none =>
        obtain ⟨rfl, rfl⟩ := Listing.mk.inj (h.eq_of_none rfl)
        exact ⟨rows, rfl, .refl _⟩
      | some e =>
        obtain ⟨t, ht⟩ := h.prefix_of_some rfl
        exact ⟨rows ++ t, ht.symm, of_prefix (List.prefix_append rows t)⟩
    subst hrows
    rw [Listing.expandRows, Listing.expandRows]
    cases hrow : g row with
    | error e => exact .failed e _
    | ok out =>
      obtain ⟨out', hout, rfl⟩ := hg row out hrow
      rw [hout]
      exact (ih hrest).append_rows out

/-- **The rows that come of each row**, if nothing fails that did not. -/
lemma expand {g g' : Row → Except QueryError (List Row)} (hg : ∀ row, Follows Eq (g row) (g' row))
    (h : l.Extends m) : (l.expand g).Extends (m.expand g') :=
  expandRows hg h

/-- The rows that pass a test. -/
lemma filter (keep : Row → Except QueryError Bool) (h : l.Extends m) :
    (l.filter keep).Extends (m.filter keep) :=
  h.expand fun _ => .of_eq _

/-- The rows, each of them changed. -/
lemma mapRows (f : Row → Except QueryError Row) (h : l.Extends m) :
    (l.mapRows f).Extends (m.mapRows f) :=
  h.expand fun _ => .of_eq _

/-- The rows in a window.

**Proof sketch.** A complete listing has only itself for an extension. An incomplete one is a
prefix, and so is what is left after an offset; a limit that the shorter listing reaches cuts both
at the same place. -/
lemma window (offset : Nat) (limit : Option Nat) (h : l.Extends m) :
    (l.window offset limit).Extends (m.window offset limit) := by
  cases hl : l.failure with
  | none =>
    rw [h.eq_of_none hl]
    exact .refl _
  | some e =>
    have hdrop : l.rows.drop offset <+: m.rows.drop offset := by
      obtain ⟨t, ht⟩ := h.prefix_of_some hl
      rw [← ht, List.drop_append]
      exact List.prefix_append _ _
    cases limit with
    | none =>
      simp only [Listing.window, hl]
      exact of_prefix hdrop
    | some n =>
      have htake : (l.rows.drop offset).take n <+: (m.rows.drop offset).take n := by
        obtain ⟨t, ht⟩ := hdrop
        rw [← ht, List.take_append]
        exact List.prefix_append _ _
      by_cases hn : n ≤ (l.rows.drop offset).length
      · have hm : n ≤ (m.rows.drop offset).length := Nat.le_trans hn hdrop.length_le
        have hsame : (m.rows.drop offset).take n = (l.rows.drop offset).take n := by
          obtain ⟨t, ht⟩ := hdrop
          rw [← ht, List.take_append_of_le_length hn]
        simp only [Listing.window, if_pos hn, if_pos hm, hsame]
        exact .refl _
      · simp only [Listing.window, if_neg hn, hl]
        exact of_prefix htake

/-- The rows without duplicates. -/
lemma distinct (h : l.Extends m) : l.distinct.Extends m.distinct := by
  have hprefixed : ∀ (rows t : List Row) (seen : List (List UInt8)),
      distinctRows seen rows <+: distinctRows seen (rows ++ t) := by
    intro rows t
    induction rows with
    | nil => exact fun seen => List.nil_prefix
    | cons row rows ih =>
      intro seen
      rw [List.cons_append, distinctRows, distinctRows]
      split
      · exact ih seen
      · exact List.cons_prefix_cons.mpr ⟨rfl, ih _⟩
  cases hl : l.failure with
  | none =>
    rw [h.eq_of_none hl]
    exact .refl _
  | some e =>
    obtain ⟨t, ht⟩ := h.prefix_of_some hl
    rw [Listing.distinct, hl, Listing.distinct, ← ht]
    exact of_prefix (hprefixed l.rows t [])

/-- The rows of two listings one after the other. -/
lemma append (h : l.Extends m) (h' : l'.Extends m') : (l.append l').Extends (m.append m') := by
  cases hl : l.failure with
  | none =>
    rw [h.eq_of_none hl, Listing.append, Listing.append, hl]
    exact h'.append_rows l.rows
  | some e =>
    rw [Listing.append, hl]
    refine of_prefix ((h.prefix_of_some hl).trans ?_)
    rw [Listing.append]
    cases m.failure with
    | some e => exact List.prefix_refl _
    | none => exact List.prefix_append _ _

/-- A computation on all rows fails if there is a failure behind them. -/
lemma fold_ne_ok {β : Type} {f : β → Row → Except QueryError β} {e : QueryError} {b all : β}
    {rows : List Row} : Listing.fold f (some e) b rows ≠ .ok all := by
  induction rows generalizing b with
  | nil => exact nofun
  | cons row rows ih =>
    rw [Listing.fold]
    intro h
    obtain ⟨b', -, hrest⟩ := bind_eq_ok.mp h
    exact ih hrest

/-- The rows that come of all rows together. -/
lemma buffered {β : Type} (f : β → Row → Except QueryError β) (b : β) (output : β → List Row)
    (h : l.Extends m) : (l.buffered f b output).Extends (m.buffered f b output) := by
  cases hl : l.failure with
  | none =>
    rw [h.eq_of_none hl]
    exact .refl _
  | some e =>
    unfold Listing.buffered
    rw [hl]
    cases hfold : Listing.fold f (some e) b l.rows with
    | ok all => exact absurd hfold fold_ne_ok
    | error e => exact .failed e _

/-- The groups of the rows. -/
lemma grouped (call : ReducerCall) (mapping : OutputMapping) (h : l.Extends m) :
    Follows Extends (l.grouped call mapping) (m.grouped call mapping) := by
  cases hl : l.failure with
  | none =>
    rw [h.eq_of_none hl]
    exact .refl fun _ _ => .refl _
  | some e =>
    intro k hk
    rw [Listing.grouped, hl] at hk
    obtain ⟨r, -, hk⟩ := bind_eq_ok.mp hk
    obtain ⟨gs, hgs, -⟩ := bind_eq_ok.mp hk
    exact absurd hgs fold_ne_ok

/-- **A complete reading stays as it is.** -/
lemma complete (h : l.Extends m) : Follows Eq l.complete m.complete := by
  cases hl : l.failure with
  | none =>
    rw [h.eq_of_none hl]
    exact .of_eq _
  | some e =>
    rw [Listing.complete, hl]
    exact .error e

end Extends

end Listing

end RecordQuery
