import RecordQuery.Proofs.Cursor.Stage

set_option autoImplicit false

/-!
# Complete listings

A listing without a failure comes of listings without failures: what every stage did to every row
can be told from it.

## Main results

* `Listing.eq_ofRows_of_complete` — a listing that is read to its end.
* `Listing.exists_of_expand`, `Listing.exists_of_mapRows`, `Listing.exists_of_filter` — the rows
  that a stage was given.
-/

namespace RecordQuery

open Outcome

section

variable {α β ε : Type} {f : α → Except ε β} {as : List α} {bs : List β}

/-- Elements that were all changed in a way that is known. -/
lemma Outcome.eq_map_of_mapM {g : α → β} (h : as.mapM f = .ok bs)
    (hf : ∀ a ∈ as, ∀ b, f a = .ok b → b = g a) : bs = as.map g := by
  simpa using map_eq_map_of_mapM (k := id) h hf

/-- Something changed comes of something. -/
lemma Outcome.exists_of_mem_mapM (h : as.mapM f = .ok bs) {b : β} (hb : b ∈ bs) :
    ∃ a ∈ as, f a = .ok b := by
  induction as generalizing bs with
  | nil =>
    obtain rfl := Except.ok.inj h
    cases hb
  | cons a as ih =>
    simp only [List.mapM_cons, bind_eq_ok, pure_eq_ok] at h
    obtain ⟨first, hfirst, rest, hrest, rfl⟩ := h
    rcases List.mem_cons.mp hb with rfl | hb
    · exact ⟨a, List.mem_cons_self, hfirst⟩
    · obtain ⟨c, hc, hfc⟩ := ih hrest hb
      exact ⟨c, List.mem_cons_of_mem a hc, hfc⟩

end

namespace Listing

variable {l : Listing} {rows : List Row}

/-- A listing that is read to its end has no failure. -/
lemma eq_ofRows_of_complete (h : l.complete = .ok rows) : l = .ofRows rows := by
  obtain ⟨all, failure⟩ := l
  cases failure with
  | some e => cases h
  | none => exact congrArg Listing.ofRows (Except.ok.inj h)

/-- **The rows of which there came others**, if there is no failure.

**Proof sketch.** Induction on the rows. If some row had failed, or the listing itself, the whole
would have failed; so every row has a block, and the blocks are put one after the other. -/
theorem exists_of_expand {g : Row → Except QueryError (List Row)} (h : l.expand g = .ofRows rows) :
    ∃ blocks, l = .ofRows l.rows ∧ l.rows.mapM g = .ok blocks ∧ rows = blocks.flatten := by
  obtain ⟨items, failure⟩ := l
  change expandRows g failure items = _ at h
  change ∃ blocks, (⟨items, failure⟩ : Listing) = ⟨items, none⟩ ∧ items.mapM g = .ok blocks ∧ _
  induction items generalizing rows with
  | nil =>
    obtain ⟨rfl, rfl⟩ := Listing.mk.inj h
    exact ⟨[], rfl, rfl, rfl⟩
  | cons row items ih =>
    rw [expandRows] at h
    cases hrow : g row with
    | error e =>
      rw [hrow] at h
      cases h
    | ok block =>
      rw [hrow] at h
      obtain ⟨hrows, hfailure⟩ := Listing.mk.inj h
      obtain ⟨blocks, hsame, hblocks, hrest⟩ :=
        @ih (expandRows g failure items).rows (by rw [ofRows, ← hfailure])
      refine ⟨block :: blocks, by rw [(Listing.mk.inj hsame).2], ?_, ?_⟩
      · simp only [List.mapM_cons, hrow, hblocks, ok_bind, pure, Except.pure]
      · rw [← hrows, hrest, List.flatten_cons]

/-- **The rows that were changed**, if there is no failure. -/
theorem exists_of_mapRows {f : Row → Except QueryError Row} (h : l.mapRows f = .ofRows rows) :
    l = .ofRows l.rows ∧ l.rows.mapM f = .ok rows := by
  obtain ⟨blocks, hsame, hblocks, rfl⟩ := exists_of_expand h
  refine ⟨hsame, ?_⟩
  have hsingle : ∀ (items : List Row) (blocks : List (List Row)),
      items.mapM (fun row => do return [← f row]) = .ok blocks →
        items.mapM f = .ok blocks.flatten := by
    intro items
    induction items with
    | nil =>
      intro blocks h
      obtain rfl := Except.ok.inj h
      rfl
    | cons row items ih =>
      intro blocks h
      simp only [List.mapM_cons, bind_eq_ok, pure_eq_ok] at h
      obtain ⟨_, ⟨out, hout, rfl⟩, rest, hrest, rfl⟩ := h
      simp only [List.mapM_cons, hout, ih rest hrest, ok_bind, pure, Except.pure,
        List.flatten_cons, List.singleton_append]
  exact hsingle l.rows blocks hblocks

/-- **The rows that were tested**, if there is no failure. -/
theorem exists_of_filter {keep : Row → Except QueryError Bool} (h : l.filter keep = .ofRows rows) :
    l = .ofRows l.rows ∧ filterExcept keep l.rows = .ok rows := by
  obtain ⟨blocks, hsame, hblocks, rfl⟩ := exists_of_expand h
  refine ⟨hsame, ?_⟩
  have hpassing : ∀ (items : List Row) (blocks : List (List Row)),
      items.mapM (passing keep) = .ok blocks → filterExcept keep items = .ok blocks.flatten := by
    intro items
    induction items with
    | nil =>
      intro blocks h
      obtain rfl := Except.ok.inj h
      rfl
    | cons row items ih =>
      intro blocks h
      simp only [List.mapM_cons, passing, bind_eq_ok, pure_eq_ok] at h
      obtain ⟨_, ⟨b, hb, rfl⟩, rest, hrest, rfl⟩ := h
      simp only [filterExcept, hb, ih rest hrest, ok_bind, pure, Except.pure, List.flatten_cons]
      cases b <;> rfl
  exact hpassing l.rows blocks hblocks

end Listing

end RecordQuery
