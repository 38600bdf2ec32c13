import RecordQuery.Proofs.Cursor.Stage

set_option autoImplicit false

/-!
# Stages that yield more rows

A stage that yields more rows than the cursor below has asks another cursor when the first one is
exhausted, or makes several rows of one and keeps those that are still pending.

## Main results

* `Cursor.Lists.append` — the rows of one cursor and then those of another.
* `Cursor.Lists.expand` — all rows that come of each row.
-/

namespace RecordQuery

namespace Cursor

variable {K : Store}

/-! ## One cursor after the other -/

section Appending

variable {c d : Cursor} {failure failure' : Option QueryError} {rows rows' : List Row}
  {s : c.State} {t : d.State}

/-- The rows ahead of two cursors of which the first is exhausted.

**Proof sketch.** Induction on the rows of the second cursor, which alone is asked. -/
lemma Yields.append_second (h : d.Yields K failure rows t) (s : c.State) :
    (c.append d).Yields K failure rows (s, t, .second) := by
  induction rows generalizing t with
  | nil =>
    intro st hst
    obtain ⟨t', st', hnext, hlike⟩ := h.next_nil hst
    cases failure with
    | none =>
      refine ⟨(s, t', .neither), st', ?_, hlike⟩
      change nextSecond c d (s, t) st = _
      rw [nextSecond, hnext]
      rfl
    | some e =>
      refine ⟨(s, t', .second), st', ?_, hlike⟩
      change nextSecond c d (s, t) st = _
      rw [nextSecond, hnext]
      rfl
  | cons row rows ih =>
    intro st hst
    obtain ⟨t', st', hnext, hlike, hrest⟩ := h.next_cons hst
    refine ⟨?_, (s, t', .second), st', ?_, hlike, ih hrest⟩
    · exact Nat.le_trans (h.length_le hst) (Nat.le_add_left _ _)
    · change nextSecond c d (s, t) st = _
      rw [nextSecond, hnext]
      rfl

/-- The answer of two cursors of which the first is being read. -/
lemma next_append_first (s : c.State) (t : d.State) (st : Store) :
    (c.append d).next (s, t, .first) st =
      match c.next s st with
      | (.ok none, inner, st) => nextSecond c d (inner, t) st
      | (answer, inner, st) => (answer, (inner, t, .first), st) := rfl

/-- Opening two cursors. -/
lemma init_append (s : c.State) (t : d.State) (turn : Turn) (st : Store) :
    (c.append d).init (s, t, turn) st =
      match c.init s st with
      | (.error e, inner, st) => (.error e, (inner, t, .first), st)
      | (.ok (), inner, st) =>
        match d.init t st with
        | (answer, other, st) => (answer, (inner, other, .first), st) := rfl

/-- The rows ahead of two cursors.

**Proof sketch.** If the first cursor fails, the second one is never reached; induction on the rows
of the first. Otherwise the induction ends where the first one has no row left: there the second one
is asked, from the store that the first one left (`hturn`), and its rows are ahead from then on
(`Yields.append_second`). -/
lemma Yields.append (h : c.Yields K failure rows s) (h' : d.Yields K failure' rows' t) :
    (c.append d).Yields K (Listing.append ⟨rows, failure⟩ ⟨rows', failure'⟩).failure
      (Listing.append ⟨rows, failure⟩ ⟨rows', failure'⟩).rows (s, t, .first) := by
  cases failure with
  | some e =>
    simp only [Listing.append]
    induction rows generalizing s with
    | nil =>
      intro st hst
      obtain ⟨s', st', hlast, hlike⟩ := h.next_nil hst
      exact ⟨(s', t, .first), st', by rw [next_append_first, hlast]; rfl, hlike⟩
    | cons row rows ih =>
      intro st hst
      obtain ⟨s', st', hrow, hlike, hrest⟩ := h.next_cons hst
      refine ⟨?_, (s', t, .first), st', by rw [next_append_first, hrow], hlike, ih hrest⟩
      exact Nat.le_trans (h.length_le hst) (Nat.le_add_right _ _)
  | none =>
    simp only [Listing.append]
    induction rows generalizing s with
    | nil =>
      -- The first answer comes from the second cursor, on the store that the first one left.
      have hturn : ∀ st : Store, st.Alike K → ∃ s' st', st'.Alike K ∧
          (c.append d).next (s, t, .first) st = (c.append d).next (s', t, .second) st' := by
        intro st hst
        obtain ⟨s', st', hlast, hlike⟩ := h.next_nil hst
        exact ⟨s', st', hlike, by rw [next_append_first, hlast]; rfl⟩
      cases hrows : rows' with
      | nil =>
        intro st hst
        obtain ⟨s', st', hlike, hsame⟩ := hturn st hst
        rw [hrows] at h'
        rw [hsame]
        exact (h'.append_second s').next_nil hlike
      | cons row rest =>
        intro st hst
        obtain ⟨s', st', hlike, hsame⟩ := hturn st hst
        rw [hrows] at h'
        refine ⟨Nat.le_trans (h'.length_le hst) (Nat.le_add_left _ _), ?_⟩
        rw [hsame]
        exact (h'.append_second s').next_cons hlike
    | cons row rows ih =>
      rw [List.cons_append]
      intro st hst
      obtain ⟨s', st', hrow, hlike, hrest⟩ := h.next_cons hst
      refine ⟨?_, (s', t, .first), st', by rw [next_append_first, hrow], hlike, ih hrest⟩
      have hle := h.length_le hst
      have hle' := h'.length_le hst
      change _ ≤ c.remaining s st + d.remaining t st
      simp only [List.length_cons, List.length_append] at hle ⊢
      omega

/-- **The rows of one cursor and then those of another.** Both are opened first. -/
lemma Lists.append {outcome outcome' : Except QueryError Listing} (h : c.Lists K s outcome)
    (h' : d.Lists K t outcome') (turn : Turn) :
    (c.append d).Lists K (s, t, turn) (do return (← outcome).append (← outcome')) := by
  intro st hst
  obtain ⟨s', st', hinit, hlike, hyields⟩ := h st hst
  rw [init_append, hinit]
  cases outcome with
  | error e => exact ⟨(s', t, .first), st', rfl, hlike, fun l hl => by cases hl⟩
  | ok l =>
    obtain ⟨t', st'', hinit', hlike', hyields'⟩ := h' st' hlike
    simp only [Except.map, hinit', Outcome.ok_bind]
    cases outcome' with
    | error e => exact ⟨(s', t', .first), st'', rfl, hlike', fun l hl => by cases hl⟩
    | ok m =>
      refine ⟨(s', t', .first), st'', rfl, hlike', fun n hn => ?_⟩
      obtain rfl := Except.ok.inj hn
      exact (hyields l rfl).append (hyields' m rfl)

end Appending

/-! ## Several rows for one -/

section Expanding

variable {c : Cursor} {failure : Option QueryError} {rows : List Row} {s : c.State}
  {f : Row → StoreM (List Row)} {g : Row → Except QueryError (List Row)} {most : Store → Nat}

/-- The rows that come of the first row of which there come some, and the rows after it; or the
failure of the search. -/
def firstExpanding (g : Row → Except QueryError (List Row)) (failure : Option QueryError) :
    List Row → Except QueryError (Option (Row × List Row × List Row))
  | [] =>
    match failure with
    | some e => .error e
    | none => .ok none
  | row :: rows =>
    match g row with
    | .error e => .error e
    | .ok [] => firstExpanding g failure rows
    | .ok (out :: outs) => .ok (some (out, outs, rows))

/-- The search for the first row of which there come some is the start of all rows that come.

**Proof sketch.** Induction on the rows. A row of which none come is passed over; the first one of
which some come, or that fails, ends the search. -/
lemma firstExpanding_eq (g : Row → Except QueryError (List Row)) (failure : Option QueryError)
    (rows : List Row) :
    match firstExpanding g failure rows with
    | .error e => Listing.expandRows g failure rows = .failed e
    | .ok none => Listing.expandRows g failure rows = .ofRows []
    | .ok (some (out, outs, rest)) =>
      Listing.expandRows g failure rows = .cons out
        ⟨outs ++ (Listing.expandRows g failure rest).rows,
        (Listing.expandRows g failure rest).failure⟩ ∧ rest.length < rows.length := by
  induction rows with
  | nil => cases failure <;> rfl
  | cons row rows ih =>
    rw [firstExpanding, Listing.expandRows]
    cases hrow : g row with
    | error e => rfl
    | ok out =>
      cases out with
      | nil =>
        simp only [List.nil_append]
        split at ih
        · exact ih
        · exact ih
        · exact ⟨ih.1, Nat.lt_succ_of_lt ih.2⟩
      | cons out outs => exact ⟨rfl, Nat.lt_succ_self _⟩

/-- **The search of a stage for the next row** finds the first row that comes of any, if it may ask
often enough.

**Proof sketch.** Induction on the rows, with the number of questions that are left. Every row that
is passed over costs one question, and there is one more than there are rows. -/
lemma Yields.expandWithin {n : Nat} (h : c.Yields K failure rows s) (hn : rows.length < n)
    (hf : ∀ row, (f row).Reads K (g row)) {st : Store} (hst : st.Alike K) :
    ∃ s' pending st', c.expandWithin f n s st =
        ((firstExpanding g failure rows).map (Option.map Prod.fst), (s', pending), st') ∧
      st'.Alike K ∧ ∀ out outs rest, firstExpanding g failure rows = .ok (some (out, outs, rest)) →
        pending = outs ∧ c.Yields K failure rest s' := by
  induction rows generalizing n s st with
  | nil =>
    obtain ⟨s', st', hnext, hlike⟩ := h.next_nil hst
    refine ⟨s', [], st', ?_, hlike, ?_⟩
    · cases n with
      | zero => cases hn
      | succ n =>
        rw [Cursor.expandWithin, hnext]
        cases failure <;> rfl
    · intro out outs rest hfirst
      cases failure <;> cases hfirst
  | cons row rows ih =>
    obtain ⟨s', st', hnext, hlike, hrest⟩ := h.next_cons hst
    cases n with
    | zero => cases hn
    | succ n =>
      obtain ⟨st'', hrow, hlike'⟩ := hf row st' hlike
      rw [Cursor.expandWithin, hnext]
      simp only [hrow, firstExpanding]
      cases hg : g row with
      | error e => exact ⟨s', [], st'', rfl, hlike', fun out outs rest hfirst => by cases hfirst⟩
      | ok out =>
        cases out with
        | nil =>
          have hlt : rows.length < n := by
            rw [List.length_cons] at hn
            omega
          exact ih hrest hlt hlike'
        | cons out outs =>
          refine ⟨s', outs, st'', rfl, hlike', fun out' outs' rest hfirst => ?_⟩
          obtain ⟨rfl, rfl, rfl⟩ : out = out' ∧ outs = outs' ∧ rows = rest := by simpa using hfirst
          exact ⟨rfl, hrest⟩

/-- There come no more rows than the bound on those of each row allows. -/
lemma length_expandRows_le_mul {m : Nat} (hm : ∀ row out, g row = .ok out → out.length ≤ m)
    (failure : Option QueryError) (rows : List Row) :
    (Listing.expandRows g failure rows).rows.length ≤ rows.length * m := by
  induction rows with
  | nil => exact Nat.zero_le _
  | cons row rows ih =>
    rw [Listing.expandRows]
    cases hrow : g row with
    | error e => exact Nat.zero_le _
    | ok out =>
      have hout := hm row out hrow
      simp only [List.length_append, List.length_cons, Nat.succ_mul]
      omega

/-- The rows ahead of a stage that yields the rows that come of each row and holds some already.

**Proof sketch.** Induction on the number of rows below, and within it on the rows that are held.
Held rows are answered first. If none is held, the search asks for the next row of which some come
(`Yields.expandWithin`); the rows behind it are fewer (`firstExpanding_eq`), so the induction goes
on with the others held. -/
lemma Yields.expand (h : c.Yields K failure rows s) (hf : ∀ row, (f row).Reads K (g row))
    (hmost : ∀ row out st, g row = .ok out → st.Alike K → out.length ≤ most st)
    (pending : List Row) :
    (c.expand f most).Yields K (Listing.expandRows g failure rows).failure
      (pending ++ (Listing.expandRows g failure rows).rows) (s, pending) := by
  have hlength : ∀ (rows pending : List Row) (s : c.State) (st : Store),
      c.Yields K failure rows s → st.Alike K →
      (pending ++ (Listing.expandRows g failure rows).rows).length ≤
        (c.expand f most).remaining (s, pending) st := by
    intro rows pending s st h hst
    have hle :=
      length_expandRows_le_mul (fun row out hout => hmost row out st hout hst) failure rows
    have hmul := Nat.mul_le_mul_right (most st) (h.length_le hst)
    change _ ≤ pending.length + c.remaining s st * most st
    rw [List.length_append]
    omega
  induction hn : rows.length using Nat.strongRecOn generalizing rows s pending with
  | ind n ih =>
    induction pending with
    | cons row pending ihp =>
      intro st hst
      exact ⟨hlength rows (row :: pending) s st h hst, (s, pending), st, rfl, hst, ihp⟩
    | nil =>
      have hfirst := firstExpanding_eq g failure rows
      have hasked : ∀ st : Store, (c.expand f most).next (s, []) st =
          c.expandWithin f (c.remaining s st + 1) s st := fun _ => rfl
      have hbound := fun st => hlength rows [] s st h
      rw [List.nil_append] at hbound ⊢
      split at hfirst
      · rename_i e hpass
        rw [hfirst]
        intro st hst
        obtain ⟨s', pending, st', hrun, hlike, -⟩ :=
          h.expandWithin (Nat.lt_succ_of_le (h.length_le hst)) hf hst
        exact ⟨(s', pending), st', by rw [hasked, hrun, hpass]; rfl, hlike⟩
      · rename_i hpass
        rw [hfirst]
        intro st hst
        obtain ⟨s', pending, st', hrun, hlike, -⟩ :=
          h.expandWithin (Nat.lt_succ_of_le (h.length_le hst)) hf hst
        exact ⟨(s', pending), st', by rw [hasked, hrun, hpass]; rfl, hlike⟩
      · rename_i out outs rest hpass
        rw [hfirst.1] at hbound ⊢
        intro st hst
        obtain ⟨s', pending, st', hrun, hlike, hrest⟩ :=
          h.expandWithin (Nat.lt_succ_of_le (h.length_le hst)) hf hst
        obtain ⟨rfl, hyields⟩ := hrest out outs rest hpass
        refine ⟨hbound st hst, (s', pending), st', ?_, hlike, ?_⟩
        · rw [hasked, hrun, hpass]
          rfl
        · exact ih rest.length (hn ▸ hfirst.2) hyields pending rfl

/-- Opening a stage that yields the rows that come of each row drops those that it holds. -/
lemma init_expand (s : c.State) (pending : List Row) (st : Store) :
    (c.expand f most).init (s, pending) st =
      match c.init s st with
      | (answer, inner, st) => (answer, (inner, []), st) := rfl

/-- **The rows that come of each row.** -/
lemma Lists.expand {outcome : Except QueryError Listing} (h : c.Lists K s outcome)
    (hf : ∀ row, (f row).Reads K (g row))
    (hmost : ∀ row out st, g row = .ok out → st.Alike K → out.length ≤ most st)
    (pending : List Row) :
    (c.expand f most).Lists K (s, pending) (outcome.map (Listing.expand g)) := by
  refine h.of_yields fun st answer s' st' hinit => ⟨(s', []), ?_, fun l hl => ?_⟩
  · rw [init_expand, hinit]
  · exact hl.expand hf hmost []

end Expanding

end Cursor

end RecordQuery
