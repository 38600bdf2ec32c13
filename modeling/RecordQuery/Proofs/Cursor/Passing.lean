import RecordQuery.Proofs.Cursor.Stage

set_option autoImplicit false

/-!
# Stages that pass rows on

A stage that passes rows on asks the cursor below for a row and answers with it, with what it makes
of it, or asks for the next one. What it remembers between two rows, the number of rows so far or
the rows that it has seen, shows in the lemmas about `Cursor.Yields`; from the outside only the
listing is left.

## Main results

* `Cursor.Lists.mapRows`, `Cursor.Lists.filter` — rows are changed, or left out.
* `Cursor.Lists.window` — the rows between an offset and a limit.
* `Cursor.Lists.distinct` — each row once.
-/

namespace RecordQuery

namespace Cursor

variable {K : Store}

section PassingOn

variable {c : Cursor} {failure : Option QueryError} {rows : List Row} {s : c.State}

/-- The answer of a stage that changes each row. -/
lemma next_mapRows (f : Row → Except QueryError Row) (s : c.State) (st : Store) :
    (c.mapRows f).next s st =
      match c.next s st with
      | (.ok (some row), s, st) => ((f row).map some, s, st)
      | done => done := rfl

/-- The rows ahead of a stage that changes each row.

**Proof sketch.** Induction on the rows. One answer of the cursor below makes one answer of the
stage (`hstep`), which is the changed row or the failure of changing it. -/
lemma Yields.mapRows {f : Row → Except QueryError Row} (h : c.Yields K failure rows s) :
    (c.mapRows f).Yields K (Listing.mapRows f ⟨rows, failure⟩).failure
      (Listing.mapRows f ⟨rows, failure⟩).rows s := by
  induction rows generalizing s with
  | nil =>
    intro st hst
    obtain ⟨s', st', hnext, hlike⟩ := h.next_nil hst
    refine ⟨s', st', ?_, hlike⟩
    rw [next_mapRows, hnext]
    cases failure <;> rfl
  | cons row rows ih =>
    have hstep : ∀ st : Store, st.Alike K → ∃ s' st',
        (c.mapRows f).next s st = ((f row).map some, s', st') ∧ st'.Alike K ∧
          c.Yields K failure rows s' := by
      intro st hst
      obtain ⟨s', st', hnext, hlike, hrest⟩ := h.next_cons hst
      refine ⟨s', st', ?_, hlike, hrest⟩
      rw [next_mapRows, hnext]
    cases hf : f row with
    | error e =>
      simp only [Listing.mapRows, Listing.expand, Listing.expandRows, hf, Outcome.error_bind]
      intro st hst
      obtain ⟨s', st', hnext, hlike, -⟩ := hstep st hst
      exact ⟨s', st', by rw [hnext, hf]; rfl, hlike⟩
    | ok row' =>
      simp only [Listing.mapRows, Listing.expand, Listing.expandRows, hf, Outcome.ok_bind, pure,
        Except.pure, List.singleton_append]
      intro st hst
      obtain ⟨s', st', hnext, hlike, hrest⟩ := hstep st hst
      refine ⟨?_, s', st', by rw [hnext, hf]; rfl, hlike, ih hrest⟩
      have hle := h.length_le hst
      have hshort := Listing.length_mapRows_le f ⟨rows, failure⟩
      simp only [List.length_cons] at hle ⊢
      exact Nat.le_trans (Nat.succ_le_succ hshort) hle

/-- The search for the first row that a test keeps is the start of the rows that it keeps.

**Proof sketch.** Induction on the rows. A row that does not pass is passed over on both sides; one
that passes, or whose test fails, ends the search and begins the rows that are kept. -/
lemma firstPassing_eq (keep : Row → Except QueryError Bool) (failure : Option QueryError)
    (rows : List Row) :
    match firstPassing keep failure rows with
    | .error e => Listing.filter keep ⟨rows, failure⟩ = .failed e
    | .ok none => Listing.filter keep ⟨rows, failure⟩ = .ofRows []
    | .ok (some (row, rest)) =>
      Listing.filter keep ⟨rows, failure⟩ = .cons row (Listing.filter keep ⟨rest, failure⟩) ∧
        rest.length < rows.length := by
  induction rows with
  | nil => cases failure <;> rfl
  | cons row rows ih =>
    cases hkeep : keep row with
    | error e =>
      simp [firstPassing, hkeep, Listing.filter, Listing.expand, Listing.expandRows,
        Listing.passing]
    | ok b =>
      cases b with
      | true =>
        simp [firstPassing, hkeep, Listing.filter, Listing.expand, Listing.expandRows,
          Listing.passing, pure, Except.pure, Listing.cons]
      | false =>
        have hskip : Listing.filter keep ⟨row :: rows, failure⟩ =
            Listing.filter keep ⟨rows, failure⟩ := by
          simp [Listing.filter, Listing.expand, Listing.expandRows, Listing.passing, hkeep, pure,
            Except.pure]
        have hfirst : firstPassing keep failure (row :: rows) = firstPassing keep failure rows := by
          simp [firstPassing, hkeep]
        rw [hskip, hfirst]
        split at ih
        · exact ih
        · exact ih
        · exact ⟨ih.1, Nat.lt_succ_of_lt ih.2⟩

/-- The rows ahead of a stage that keeps the rows that pass a test.

**Proof sketch.** Induction on the number of rows below. The search finds the first row that passes
(`Yields.find`), which is the first one that is kept, and the rows behind it are fewer
(`firstPassing_eq`). -/
lemma Yields.filter {keep : Row → Except QueryError Bool} (h : c.Yields K failure rows s) :
    (c.filter keep).Yields K (Listing.filter keep ⟨rows, failure⟩).failure
      (Listing.filter keep ⟨rows, failure⟩).rows s := by
  induction hn : rows.length using Nat.strongRecOn generalizing rows s with
  | ind n ih =>
    have hfirst := firstPassing_eq keep failure rows
    have hshort := Listing.length_filter_le keep ⟨rows, failure⟩
    split at hfirst
    · rename_i e hpass
      rw [hfirst]
      intro st hst
      obtain ⟨s', st', hfind, hlike, -⟩ := h.find keep hst
      exact ⟨s', st', by rw [hpass] at hfind; exact hfind, hlike⟩
    · rename_i hpass
      rw [hfirst]
      intro st hst
      obtain ⟨s', st', hfind, hlike, -⟩ := h.find keep hst
      exact ⟨s', st', by rw [hpass] at hfind; exact hfind, hlike⟩
    · rename_i row rest hpass
      rw [hfirst.1] at hshort ⊢
      intro st hst
      obtain ⟨s', st', hfind, hlike, hrest⟩ := h.find keep hst
      refine ⟨Nat.le_trans hshort (h.length_le hst), s', st', ?_, hlike, ?_⟩
      · rw [hpass] at hfind
        exact hfind
      · exact ih rest.length (hn ▸ hfirst.2) (hrest row rest hpass) rfl

/-- **The rows that a stage changes.** -/
lemma Lists.mapRows {outcome : Except QueryError Listing} (h : c.Lists K s outcome)
    (f : Row → Except QueryError Row) :
    (c.mapRows f).Lists K s (outcome.map (Listing.mapRows f)) :=
  h.of_yields fun _ _ s' _ hinit => ⟨s', hinit, fun _ hl => hl.mapRows⟩

/-- **The rows that pass a test.** -/
lemma Lists.filter {outcome : Except QueryError Listing} (h : c.Lists K s outcome)
    (keep : Row → Except QueryError Bool) :
    (c.filter keep).Lists K s (outcome.map (Listing.filter keep)) :=
  h.of_yields fun _ _ s' _ hinit => ⟨s', hinit, fun _ hl => hl.filter⟩

/-- What is skipped on the way to a row.

**Proof sketch.** Induction on the number of rows to skip. Where the rows end, what is left to skip
is remembered. -/
lemma Yields.skip {n : Nat} (h : c.Yields K failure rows s) {st : Store} (hst : st.Alike K) :
    ∃ s' k st', c.skip n s st =
        (match rows.drop n with
          | row :: _ => .ok (some row)
          | [] => lastAnswer failure, (s', k), st') ∧ st'.Alike K ∧
      ∀ row rest, rows.drop n = row :: rest → k = 0 ∧ c.Yields K failure rest s' := by
  induction n generalizing rows s st with
  | zero =>
    cases rows with
    | nil =>
      obtain ⟨s', st', hnext, hlike⟩ := h.next_nil hst
      exact ⟨s', 0, st', by simp [Cursor.skip, hnext], hlike, by simp⟩
    | cons row rows =>
      obtain ⟨s', st', hnext, hlike, hrest⟩ := h.next_cons hst
      refine ⟨s', 0, st', by simp [Cursor.skip, hnext], hlike, fun row' rest heq => ?_⟩
      rw [List.drop_zero, List.cons.injEq] at heq
      rw [← heq.2]
      exact ⟨rfl, hrest⟩
  | succ n ih =>
    cases rows with
    | nil =>
      obtain ⟨s', st', hnext, hlike⟩ := h.next_nil hst
      refine ⟨s', n + 1, st', ?_, hlike, by simp⟩
      rw [Cursor.skip, hnext]
      cases failure <;> rfl
    | cons row rows =>
      obtain ⟨s', st', hnext, hlike, hrest⟩ := h.next_cons hst
      obtain ⟨s'', k, st'', hskip, hlike', hyields⟩ := ih hrest hlike
      refine ⟨s'', k, st'', ?_, hlike', hyields⟩
      rw [Cursor.skip, hnext]
      simp only [hskip, List.drop_succ_cons]

/-- How many more rows a window lets through. -/
def leftOf (limit : Option Nat) (count : Nat) : Option Nat := limit.map (fun n => n - count)

/-- A window that lets no more rows through. -/
lemma window_of_closed {k count : Nat} {limit : Option Nat} {l : Listing}
    (hopen : limit.any (fun n => n ≤ count) = true) :
    l.window k (leftOf limit count) = .ofRows [] := by
  cases limit with
  | none => simp at hopen
  | some n =>
    have hle : n - count = 0 := by
      have hle : n ≤ count := by simpa using hopen
      omega
    simp [leftOf, hle, Listing.window, Listing.ofRows]

/-- A window on rows that are all skipped. -/
lemma window_skipped {k count : Nat} {limit : Option Nat}
    (hopen : limit.any (fun n => n ≤ count) = false) (hrows : rows.drop k = []) :
    Listing.window k (leftOf limit count) ⟨rows, failure⟩ = ⟨[], failure⟩ := by
  cases limit with
  | none => simp [leftOf, Listing.window, hrows]
  | some n =>
    have hlt : count < n := by simpa using hopen
    have hne : ¬ n - count ≤ 0 := by omega
    simp [leftOf, Listing.window, hrows, hne]

/-- A window on rows of which one is not skipped. -/
lemma window_cons {k count : Nat} {limit : Option Nat} {row : Row} {rest : List Row}
    (hopen : limit.any (fun n => n ≤ count) = false) (hrows : rows.drop k = row :: rest) :
    Listing.window k (leftOf limit count) ⟨rows, failure⟩ =
      .cons row (Listing.window 0 (leftOf limit (count + 1)) ⟨rest, failure⟩) := by
  cases limit with
  | none => simp [Listing.window, leftOf, hrows, Listing.cons]
  | some n =>
    have hlt : count < n := by simpa using hopen
    have hleft : n - count = n - (count + 1) + 1 := by omega
    simp [Listing.window, leftOf, hrows, Listing.cons, hleft]

/-- The answer of a window that lets no more rows through. -/
lemma next_window_closed {offset k count : Nat} {limit : Option Nat} {st : Store}
    (hopen : limit.any (fun n => n ≤ count) = true) :
    (c.window offset limit).next ((s, k), count) st = (.ok none, ((s, k), count), st) :=
  if_pos hopen

/-- The answer of a window that may let more rows through. -/
lemma next_window_open {offset k count : Nat} {limit : Option Nat} {st : Store}
    (hopen : limit.any (fun n => n ≤ count) = false) :
    (c.window offset limit).next ((s, k), count) st =
      match c.skip k s st with
      | (.ok (some row), skipped, st) => (.ok (some row), (skipped, count + 1), st)
      | (answer, skipped, st) => (answer, (skipped, count), st) :=
  if_neg (by simp [hopen])

/-- The rows ahead of a window that has let some rows through and still skips others.

**Proof sketch.** Induction on the rows that are left after skipping. A window that is used up asks
no more (`next_window_closed`). An open one skips what is left to skip, which only happens before
its first row (`Yields.skip`), and lets the next row through. -/
lemma Yields.window (h : c.Yields K failure rows s) (offset : Nat) (limit : Option Nat)
    (k count : Nat) :
    (c.window offset limit).Yields K
      (Listing.window k (leftOf limit count) ⟨rows, failure⟩).failure
      (Listing.window k (leftOf limit count) ⟨rows, failure⟩).rows ((s, k), count) := by
  induction hrows : rows.drop k generalizing rows s k count with
  | nil =>
    cases hopen : limit.any (fun n => n ≤ count) with
    | true =>
      rw [window_of_closed hopen]
      exact fun st hst => ⟨((s, k), count), st, next_window_closed hopen, hst⟩
    | false =>
      rw [window_skipped hopen hrows]
      intro st hst
      obtain ⟨s', k', st', hskip, hlike, -⟩ := h.skip (n := k) hst
      rw [hrows] at hskip
      refine ⟨((s', k'), count), st', ?_, hlike⟩
      rw [next_window_open hopen, hskip]
      cases failure <;> rfl
  | cons row rest ih =>
    cases hopen : limit.any (fun n => n ≤ count) with
    | true =>
      rw [window_of_closed hopen]
      exact fun st hst => ⟨((s, k), count), st, next_window_closed hopen, hst⟩
    | false =>
      have hshort := Listing.length_window_le k (leftOf limit count) ⟨rows, failure⟩
      rw [window_cons hopen hrows] at hshort ⊢
      intro st hst
      obtain ⟨s', k', st', hskip, hlike, hrest⟩ := h.skip (n := k) hst
      rw [hrows] at hskip
      obtain ⟨rfl, hyields⟩ := hrest row rest hrows
      refine ⟨Nat.le_trans hshort (h.length_le hst), ((s', 0), count + 1), st', ?_, hlike, ?_⟩
      · rw [next_window_open hopen, hskip]
      · exact ih hyields 0 (count + 1) rfl

/-- Opening a window starts to skip and to count anew. -/
lemma init_window (offset : Nat) (limit : Option Nat) (s : c.State) (k count : Nat) (st : Store) :
    (c.window offset limit).init ((s, k), count) st =
      match c.init s st with
      | (answer, inner, st) => (answer, ((inner, offset), 0), st) := rfl

/-- **The rows in a window.** -/
lemma Lists.window {outcome : Except QueryError Listing} (h : c.Lists K s outcome)
    (offset : Nat) (limit : Option Nat) (t : Nat × Nat) :
    (c.window offset limit).Lists K ((s, t.1), t.2)
      (outcome.map (Listing.window offset limit)) := by
  refine h.of_yields fun st answer s' st' hinit => ⟨((s', offset), 0), ?_, fun l hl => ?_⟩
  · rw [init_window, hinit]
  · have hleft : leftOf limit 0 = limit := by
      cases limit <;> rfl
    have hyields := hl.window offset limit offset 0
    rwa [hleft] at hyields

/-- The search for a row that was not seen, and the rows that were not.

**Proof sketch.** Induction on the rows, as for any test (`firstPassing_eq`), with the rows that
have been seen so far: a row that was seen is passed over, and one that was not is seen from then
on. -/
lemma firstPassing_distinct (seen : List (List UInt8)) (failure : Option QueryError)
    (rows : List Row) :
    match firstPassing (fun row => .ok (!seen.contains row.contentKey)) failure rows with
    | .error e => failure = some e ∧ Listing.distinctRows seen rows = []
    | .ok none => failure = none ∧ Listing.distinctRows seen rows = []
    | .ok (some (row, rest)) =>
      Listing.distinctRows seen rows =
        row :: Listing.distinctRows (row.contentKey :: seen) rest ∧
      rest.length < rows.length := by
  induction rows with
  | nil => cases failure <;> simp [firstPassing, Listing.distinctRows]
  | cons row rows ih =>
    cases hseen : seen.contains row.contentKey with
    | false =>
      simp only [firstPassing, hseen, Bool.not_false, Outcome.ok_bind, if_true, pure, Except.pure,
        Listing.distinctRows, Bool.false_eq_true, if_false, List.length_cons, true_and]
      omega
    | true =>
      have hskip : Listing.distinctRows seen (row :: rows) = Listing.distinctRows seen rows :=
        if_pos hseen
      have hfirst : firstPassing (fun row => .ok (!seen.contains row.contentKey)) failure
          (row :: rows) =
          firstPassing (fun row => .ok (!seen.contains row.contentKey)) failure rows := by
        simp only [firstPassing, hseen, Bool.not_true, Outcome.ok_bind, Bool.false_eq_true,
          if_false]
      rw [hskip, hfirst]
      split at ih
      · exact ih
      · exact ih
      · exact ⟨ih.1, Nat.lt_succ_of_lt ih.2⟩

/-- There are at most as many distinct rows as there are rows. -/
lemma length_distinctRows_le (seen : List (List UInt8)) (rows : List Row) :
    (Listing.distinctRows seen rows).length ≤ rows.length := by
  induction rows generalizing seen with
  | nil => exact Nat.le_refl 0
  | cons row rows ih =>
    rw [Listing.distinctRows]
    split
    · exact Nat.le_succ_of_le (ih seen)
    · exact Nat.succ_le_succ (ih _)

/-- Opening a stage that drops duplicates forgets which rows were seen. -/
lemma init_distinct (s : c.State) (seen : List (List UInt8)) (st : Store) :
    c.distinct.init (s, seen) st =
      match c.init s st with
      | (answer, inner, st) => (answer, (inner, []), st) := rfl

/-- The answer of a stage that drops duplicates. -/
lemma next_distinct (s : c.State) (seen : List (List UInt8)) (st : Store) :
    c.distinct.next (s, seen) st =
      match c.find (fun row => .ok (!seen.contains row.contentKey)) s st with
      | (.ok (some row), inner, st) => (.ok (some row), (inner, row.contentKey :: seen), st)
      | (answer, inner, st) => (answer, (inner, seen), st) := rfl

/-- The rows ahead of a stage that drops duplicates and has seen some rows.

**Proof sketch.** Induction on the number of rows below. The search finds the first row that was not
seen (`firstPassing_distinct`), the stage remembers it, and the rows behind it are fewer. -/
lemma Yields.distinct (h : c.Yields K failure rows s) (seen : List (List UInt8)) :
    c.distinct.Yields K failure (Listing.distinctRows seen rows) (s, seen) := by
  induction hn : rows.length using Nat.strongRecOn generalizing rows s seen with
  | ind n ih =>
    have hfirst := firstPassing_distinct seen failure rows
    split at hfirst
    · rename_i e hpass
      rw [hfirst.2, hfirst.1]
      intro st hst
      obtain ⟨s', st', hfind, hlike, -⟩ :=
        h.find (fun row => .ok (!seen.contains row.contentKey)) hst
      exact ⟨(s', seen), st', by rw [next_distinct, hfind, hpass]; rfl, hlike⟩
    · rename_i hpass
      rw [hfirst.2, hfirst.1]
      intro st hst
      obtain ⟨s', st', hfind, hlike, -⟩ :=
        h.find (fun row => .ok (!seen.contains row.contentKey)) hst
      exact ⟨(s', seen), st', by rw [next_distinct, hfind, hpass]; rfl, hlike⟩
    · rename_i row rest hpass
      have hshort := length_distinctRows_le seen rows
      rw [hfirst.1] at hshort ⊢
      intro st hst
      obtain ⟨s', st', hfind, hlike, hrest⟩ :=
        h.find (fun row => .ok (!seen.contains row.contentKey)) hst
      refine ⟨Nat.le_trans hshort (h.length_le hst), (s', row.contentKey :: seen), st', ?_, hlike,
        ?_⟩
      · rw [next_distinct, hfind, hpass]
        rfl
      · exact ih rest.length (hn ▸ hfirst.2) (hrest row rest hpass) _ rfl

/-- **The rows without duplicates.** -/
lemma Lists.distinct {outcome : Except QueryError Listing} (h : c.Lists K s outcome)
    (seen : List (List UInt8)) : c.distinct.Lists K (s, seen) (outcome.map Listing.distinct) := by
  refine h.of_yields fun st answer s' st' hinit => ⟨(s', []), ?_, fun l hl => hl.distinct []⟩
  rw [init_distinct, hinit]

end PassingOn

end Cursor

end RecordQuery
