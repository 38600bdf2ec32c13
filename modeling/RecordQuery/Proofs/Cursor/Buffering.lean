import RecordQuery.Proofs.Cursor.Stage

set_option autoImplicit false

/-!
# Stages that need all rows first

A stage that holds rows back takes all rows of the cursor below when it is asked for the first one,
and then answers from what it has made of them. Sorting and grouping are of this kind.

## Main results

* `Cursor.Lists.buffered` — rows are collected, and the output is made of all of them.
* `Cursor.Lists.grouped` — rows are reduced group by group.
-/

namespace RecordQuery

namespace Cursor

variable {K : Store}

section Buffering

variable {c : Cursor} {failure : Option QueryError} {rows : List Row} {s : c.State} {β : Type}

/-- The rows ahead of a stage that holds the rows that it still has to return. -/
lemma yields_buffered (f : β → Row → Except QueryError β) (b : β) (output : β → List Row)
    (held : List Row) (s : c.State) :
    (c.buffered f b output).Yields K none held (s, some held) := by
  induction held with
  | nil => exact fun st hst => ⟨(s, some []), st, rfl, hst⟩
  | cons row held ih => exact fun st hst => ⟨Nat.le_refl _, (s, some held), st, rfl, hst, ih⟩

/-- Opening a stage that asks for all rows first forgets those that it holds. -/
lemma init_buffered (f : β → Row → Except QueryError β) (b : β) (output : β → List Row)
    (s : c.State) (held : Option (List Row)) (st : Store) :
    (c.buffered f b output).init (s, held) st =
      match c.init s st with
      | (answer, inner, st) => (answer, (inner, none), st) := rfl

/-- The first answer of a stage that asks for all rows first. -/
lemma next_buffered (f : β → Row → Except QueryError β) (b : β) (output : β → List Row)
    (s : c.State) (st : Store) :
    (c.buffered f b output).next (s, none) st =
      match c.fold f b s st with
      | (.ok all, inner, st) => (.ok (pop (output all)).1, (inner, some (pop (output all)).2), st)
      | (.error e, inner, st) => (.error e, (inner, none), st) := by
  simp only [Cursor.buffered]
  rcases c.fold f b s st with ⟨_ | _, _, _⟩ <;> rfl

/-- The rows ahead of a stage that asks for all rows first, if it returns no more than there are.

**Proof sketch.** Folding asks the cursor below for all of its rows (`Yields.fold`). If that fails,
so does the first answer. Otherwise the output is held, its first row is the answer, and its other
rows are ahead (`yields_buffered`); `hshort` bounds how many there are. -/
lemma Yields.buffered (h : c.Yields K failure rows s) (f : β → Row → Except QueryError β) (b : β)
    (output : β → List Row)
    (hshort : ∀ all, Listing.fold f failure b rows = .ok all → (output all).length ≤ rows.length) :
    (c.buffered f b output).Yields K (Listing.buffered f b output ⟨rows, failure⟩).failure
      (Listing.buffered f b output ⟨rows, failure⟩).rows (s, none) := by
  unfold Listing.buffered
  cases hfold : Listing.fold f failure b rows with
  | error e =>
    intro st hst
    obtain ⟨s', st', hrun, hlike⟩ := h.fold b hst (f := f)
    exact ⟨(s', none), st', by rw [next_buffered, hrun, hfold]; rfl, hlike⟩
  | ok all =>
    have hle := hshort all hfold
    simp only [Listing.ofRows]
    cases hout : output all with
    | nil =>
      intro st hst
      obtain ⟨s', st', hrun, hlike⟩ := h.fold b hst (f := f)
      refine ⟨(s', some []), st', ?_, hlike⟩
      rw [next_buffered, hrun, hfold]
      simp only [hout]
      rfl
    | cons row rest =>
      intro st hst
      obtain ⟨s', st', hrun, hlike⟩ := h.fold b hst (f := f)
      refine ⟨?_, (s', some rest), st', ?_, hlike, yields_buffered f b output rest s'⟩
      · rw [hout] at hle
        exact Nat.le_trans hle (h.length_le hst)
      · rw [next_buffered, hrun, hfold]
        simp only [hout]
        rfl

/-- **The rows that come of all rows together.** -/
lemma Lists.buffered {outcome : Except QueryError Listing} (h : c.Lists K s outcome)
    (f : β → Row → Except QueryError β) (b : β) (output : β → List Row)
    (hshort : ∀ failure rows all, Listing.fold f failure b rows = .ok all →
      (output all).length ≤ rows.length) (held : Option (List Row)) :
    (c.buffered f b output).Lists K (s, held) (outcome.map (Listing.buffered f b output)) := by
  refine h.of_yields fun st answer s' st' hinit =>
    ⟨(s', none), ?_, fun l hl => hl.buffered f b output (hshort l.failure l.rows)⟩
  rw [init_buffered, hinit]

/-- The answer of a stage that groups rows and holds its groups. -/
lemma yields_grouped (call : ReducerCall) (mapping : OutputMapping) (held : List Row)
    (s : c.State) : (c.grouped call mapping).Yields K none held (s, some held) := by
  induction held with
  | nil => exact fun st hst => ⟨(s, some []), st, rfl, hst⟩
  | cons row held ih => exact fun st hst => ⟨Nat.le_refl _, (s, some held), st, rfl, hst, ih⟩

/-- Opening a stage that groups rows and holds no groups. -/
lemma init_grouped (call : ReducerCall) (mapping : OutputMapping) (s : c.State) (st : Store) :
    (c.grouped call mapping).init (s, none) st =
      match c.init s st with
      | (.error e, inner, st) => (.error e, (inner, none), st)
      | (.ok (), inner, st) =>
        match Reducer.ofCall? call with
        | .error e => (.error e, (inner, none), st)
        | .ok r =>
          match c.fold (fun gs row => .ok (Groups.feed r gs row.get?)) [] inner st with
          | (.error e, inner, st) => (.error e, (inner, none), st)
          | (.ok gs, inner, st) =>
            (.ok (), (inner, some ((r.output gs).map mapping.row)), st) := rfl

/-- **The groups of the rows.** They are formed when the stage is opened.

**Proof sketch.** The cursor below is opened and folded at once. Each of the ways in which this can
fail, the cursor itself, the call of the reducer and a row that cannot be read, fails the opening;
otherwise the groups are held, and they are the rows ahead (`yields_grouped`). -/
lemma Lists.grouped {outcome : Except QueryError Listing} (h : c.Lists K s outcome)
    (call : ReducerCall) (mapping : OutputMapping) :
    (c.grouped call mapping).Lists K (s, none) (outcome >>= Listing.grouped call mapping) := by
  intro st hst
  obtain ⟨s', st', hinit, hlike, hyields⟩ := h st hst
  rw [init_grouped, hinit]
  cases outcome with
  | error e => exact ⟨(s', none), st', rfl, hlike, fun l hl => by cases hl⟩
  | ok l =>
    simp only [Except.map, Outcome.ok_bind, Listing.grouped]
    cases hcall : Reducer.ofCall? call with
    | error e => exact ⟨(s', none), st', rfl, hlike, fun l hl => by cases hl⟩
    | ok r =>
      obtain ⟨s'', st'', hfold, hlike'⟩ := (hyields l rfl).fold []
        (f := fun gs row => .ok (Groups.feed r gs row.get?)) hlike
      simp only [hfold, Outcome.ok_bind]
      cases hall : Listing.fold (fun gs row => .ok (Groups.feed r gs row.get?)) l.failure []
          l.rows with
      | error e => exact ⟨(s'', none), st'', rfl, hlike', fun l hl => by cases hl⟩
      | ok gs =>
        refine ⟨(s'', some ((r.output gs).map mapping.row)), st'', rfl, hlike', fun m hm => ?_⟩
        obtain rfl := Except.ok.inj hm
        exact yields_grouped call mapping _ s''

end Buffering

end Cursor

end RecordQuery
