import RecordQuery.Proofs.Cursor.Buffering
import RecordQuery.Proofs.Cursor.Expanding
import RecordQuery.Proofs.Cursor.Passing

set_option autoImplicit false

/-!
# Cursors that are read more than once

A cursor that is closed can be opened again, and a cursor may be opened several times before it is
asked for rows. What stages remember, such as counts, the rows seen so far, held groups or whose
turn it is, must not show in a later pass. This is argued by three phases of a cursor: it is closed,
it is opened and not yet asked, or it is being asked.

## Main definitions

* `Cursor.passes` — several passes, one after the other.
* `Cursor.Phases`, `Cursor.Rewinds` — the phases of a cursor that yields the same rows each time.

## Main results

* `Cursor.Rewinds.passes` — such a cursor returns its rows in every pass.
* `Cursor.rewinds_ofRows`, `Cursor.rewinds_ofLoad`, `Cursor.Rewinds.filter`,
  `Cursor.Rewinds.mapRows`, `Cursor.Rewinds.window`, `Cursor.Rewinds.distinct`,
  `Cursor.Rewinds.buffered`, `Cursor.Rewinds.grouped`, `Cursor.Rewinds.append`,
  `Cursor.Rewinds.expand` — every stage keeps this.
-/

namespace RecordQuery

namespace Cursor

/-- Several passes, one after the other, each opening the cursor so many times in a row. -/
def passes (c : Cursor) : List Nat → c.State → Store → List Reading
  | [], _, _ => []
  | n :: inits, s, st =>
    let (reading, s, st) := c.pass n s st
    reading :: passes c inits s st

/-! ## What asking keeps -/

/-- Whatever is asked, the state of a cursor keeps a property. -/
def Keeps (c : Cursor) (P : c.State → Prop) : Prop := ∀ s st, P s → P (c.next s st).2.1

namespace Keeps

variable {c : Cursor} {P : c.State → Prop}

/-- A search asks only. -/
lemma findWithin (h : c.Keeps P) (keep : Row → Except QueryError Bool) (n : Nat) {s : c.State}
    (hs : P s) (st : Store) : P (c.findWithin keep n s st).2.1 := by
  induction n generalizing s st with
  | zero => exact hs
  | succ n ih =>
    have hnext := h s st hs
    rw [Cursor.findWithin]
    generalize c.next s st = asked at hnext ⊢
    rcases asked with ⟨_ | _ | row, s', st'⟩
    · exact hnext
    · exact hnext
    · simp only
      cases keep row with
      | error e => exact hnext
      | ok b =>
        cases b with
        | true => exact hnext
        | false => exact ih hnext st'

/-- Folding asks only. -/
lemma foldWithin {β : Type} (h : c.Keeps P) (f : β → Row → Except QueryError β) (n : Nat) (b : β)
    {s : c.State} (hs : P s) (st : Store) : P (c.foldWithin f n b s st).2.1 := by
  induction n generalizing b s st with
  | zero => exact hs
  | succ n ih =>
    have hnext := h s st hs
    rw [Cursor.foldWithin]
    generalize c.next s st = asked at hnext ⊢
    rcases asked with ⟨_ | _ | row, s', st'⟩
    · exact hnext
    · exact hnext
    · simp only
      cases f b row with
      | error e => exact hnext
      | ok b' => exact ih b' hnext st'

/-- Skipping asks only. -/
lemma skip (h : c.Keeps P) (n : Nat) {s : c.State} (hs : P s) (st : Store) :
    P (c.skip n s st).2.1.1 := by
  induction n generalizing s st with
  | zero => exact h s st hs
  | succ n ih =>
    have hnext := h s st hs
    rw [Cursor.skip]
    generalize c.next s st = asked at hnext ⊢
    rcases asked with ⟨_ | _ | row, s', st'⟩
    · exact hnext
    · exact hnext
    · exact ih hnext st'

/-- The search for a row of which there come some asks only. -/
lemma expandWithin (h : c.Keeps P) (f : Row → StoreM (List Row)) (n : Nat) {s : c.State} (hs : P s)
    (st : Store) : P (c.expandWithin f n s st).2.1.1 := by
  induction n generalizing s st with
  | zero => exact hs
  | succ n ih =>
    have hnext := h s st hs
    rw [Cursor.expandWithin]
    generalize c.next s st = asked at hnext ⊢
    rcases asked with ⟨_ | _ | row, s', st'⟩
    · exact hnext
    · exact hnext
    · simp only
      generalize f row st' = found
      rcases found with ⟨_ | _ | ⟨r, rs⟩, st''⟩
      · exact hnext
      · exact ih hnext st''
      · exact hnext

/-- Reading asks only. -/
lemma read (h : c.Keeps P) (n : Nat) {s : c.State} (hs : P s) (st : Store) :
    P (c.read n s st).2.1 := by
  induction n generalizing s st with
  | zero => exact hs
  | succ n ih =>
    have hnext := h s st hs
    rw [Cursor.read]
    generalize c.next s st = asked at hnext ⊢
    rcases asked with ⟨_ | _ | row, s', st'⟩
    · exact hnext
    · exact hnext
    · exact ih hnext st'

end Keeps

/-! ## Phases -/

/-- The phases of a cursor that yields the same rows each time it is opened. -/
structure Phases (c : Cursor) (K : Store) (rows : List Row)
    (Closed Opened Asked : c.State → Prop) : Prop where
  /-- A new cursor is closed. -/
  start : Closed c.start
  /-- A cursor can be opened when it is closed, and again when it is opened and not yet asked. -/
  init : ∀ s, Closed s ∨ Opened s → ∀ st : Store, st.Alike K →
    ∃ s' st', c.init s st = (.ok (), s', st') ∧ st'.Alike K ∧ Opened s'
  /-- An opened cursor has its rows ahead. -/
  yields : ∀ s, Opened s → c.Yields K none rows s
  /-- An opened cursor can be asked. -/
  opened : ∀ s, Opened s → Asked s
  /-- A cursor can be asked again. -/
  keeps : c.Keeps Asked
  /-- A cursor that was asked can be closed. -/
  close : ∀ s, Asked s → Closed (c.close s)

/-- The cursor yields the same rows each time it is opened. -/
def Rewinds (c : Cursor) (K : Store) (rows : List Row) : Prop :=
  ∃ Closed Opened Asked : c.State → Prop, Phases c K rows Closed Opened Asked

section Passes

variable {c : Cursor} {K : Store} {rows : List Row} {Closed Opened Asked : c.State → Prop}

/-- Opening a cursor several times opens it. -/
lemma Phases.initTimes (h : Phases c K rows Closed Opened Asked) {n : Nat} (hn : 0 < n)
    {s : c.State} (hs : Closed s ∨ Opened s) {st : Store} (hst : st.Alike K) :
    ∃ s' st', c.initTimes n s st = (.ok (), s', st') ∧ st'.Alike K ∧ Opened s' := by
  induction n generalizing s st with
  | zero => cases hn
  | succ n ih =>
    obtain ⟨s', st', hinit, hlike, hopened⟩ := h.init s hs st hst
    rw [Cursor.initTimes, hinit]
    cases n with
    | zero => exact ⟨s', st', rfl, hlike, hopened⟩
    | succ n => exact ih (Nat.succ_pos n) (.inr hopened) hlike

/-- A pass returns all rows and leaves the cursor closed. -/
lemma Phases.pass (h : Phases c K rows Closed Opened Asked) {n : Nat} (hn : 0 < n) {s : c.State}
    (hs : Closed s) {st : Store} (hst : st.Alike K) :
    ∃ s' st', c.pass n s st = (⟨rows, .finished⟩, s', st') ∧ st'.Alike K ∧ Closed s' := by
  obtain ⟨s', st', hinit, hlike, hopened⟩ := h.initTimes hn (.inl hs) hst
  obtain ⟨s'', st'', hread, hlike'⟩ := (h.yields s' hopened).readAll hlike
  have hasked : Asked s'' := by
    have hkept := h.keeps.read (c.remaining s' st' + 1) (h.opened s' hopened) st'
    rw [← Cursor.readAll, hread] at hkept
    exact hkept
  refine ⟨c.close s'', st'', ?_, hlike', h.close s'' hasked⟩
  rw [Cursor.pass, hinit]
  simp only [hread]
  rfl

/-- **A cursor that yields the same rows each time** returns them in every pass. By induction on the
passes, each of which starts and ends with a closed cursor. -/
theorem Rewinds.passes (h : c.Rewinds K rows) {inits : List Nat} (hinits : ∀ n ∈ inits, 0 < n) :
    c.passes inits c.start K = inits.map (fun _ => ⟨rows, .finished⟩) := by
  obtain ⟨Closed, Opened, Asked, h⟩ := h
  have hpasses : ∀ (s : c.State) (st : Store), Closed s → st.Alike K →
      c.passes inits s st = inits.map (fun _ => ⟨rows, .finished⟩) := by
    induction inits with
    | nil => exact fun s st _ _ => rfl
    | cons n inits ih =>
      intro s st hs hst
      obtain ⟨s', st', hpass, hlike, hclosed⟩ := h.pass (hinits n List.mem_cons_self) hs hst
      rw [Cursor.passes, hpass, List.map_cons]
      exact congrArg _ (ih (fun m hm => hinits m (List.mem_cons_of_mem n hm)) s' st' hclosed hlike)
  exact hpasses c.start K h.start (.refl K)

end Passes

/-! ## Sources -/

section Sources

variable {K : Store}

/-- Given rows that can all be asked for are yielded each time. Opening goes back to the first. -/
lemma rewinds_ofRows {items : List Row} {failAt : Option Nat} {rows : List Row}
    (h : Listing.ofGiven items failAt = .ofRows rows) : (ofRows items failAt).Rewinds K rows := by
  refine ⟨fun _ => True, fun s => s = (0 : Nat), fun _ => True,
    ⟨trivial, ?_, ?_, fun _ _ => trivial, fun _ _ _ => trivial, fun _ _ => trivial⟩⟩
  · exact fun s _ st hst => ⟨(0 : Nat), st, rfl, hst, rfl⟩
  · rintro s rfl
    obtain ⟨s', st', hinit, -, hyields⟩ := lists_ofRows items failAt 0 K (.refl K)
    obtain rfl : (0 : Nat) = s' := congrArg (·.2.1) hinit
    have hlast := hyields _ rfl
    rw [h] at hlast
    exact hlast

/-- Rows that can be loaded are loaded each time. They are held from opening to closing, and opening
changes nothing as long as they are. -/
lemma rewinds_ofLoad {load : StoreM (List Row)} {rows : List Row} (hload : load.Reads K (.ok rows))
    (bound : Store → Nat) : (ofLoad load bound).Rewinds K rows := by
  refine ⟨fun s => s = none, fun s => s = some rows, fun s => s.isSome = true,
    ⟨rfl, ?_, ?_, ?_, ?_, fun _ _ => rfl⟩⟩
  · rintro s hs st hst
    rcases hs with rfl | rfl
    · obtain ⟨st', hrun, hlike⟩ := hload st hst
      refine ⟨some rows, st', ?_, hlike, rfl⟩
      change loadOnce load none st = _
      simp only [loadOnce, hrun]
      rfl
    · exact ⟨some rows, st, rfl, hst, rfl⟩
  · rintro s rfl
    exact yields_ofLoad load bound rows
  · rintro s rfl
    rfl
  · intro s st hs
    obtain ⟨held, rfl⟩ := Option.isSome_iff_exists.mp hs
    rfl

end Sources

/-! ## Stages -/

section Stages

variable {c d : Cursor} {K : Store} {rows rows' out : List Row}

/-- A stage that changes each row and remembers nothing. -/
lemma Rewinds.mapRows (h : c.Rewinds K rows) {f : Row → Except QueryError Row}
    (hout : Listing.mapRows f (.ofRows rows) = .ofRows out) : (c.mapRows f).Rewinds K out := by
  obtain ⟨Closed, Opened, Asked, h⟩ := h
  refine ⟨Closed, Opened, Asked, ⟨h.start, h.init, fun s hs => ?_, h.opened, fun s st hs => ?_,
    h.close⟩⟩
  · have hyields := (h.yields s hs).mapRows (f := f)
    rw [← Listing.ofRows, hout] at hyields
    exact hyields
  · have hnext := h.keeps s st hs
    have hanswer := next_mapRows (c := c) f s st
    generalize c.next s st = asked at hnext hanswer
    rcases asked with ⟨_ | _ | row, s', st'⟩
    all_goals
      rw [hanswer]
      exact hnext

/-- A stage that keeps the rows that pass a test and remembers nothing. -/
lemma Rewinds.filter (h : c.Rewinds K rows) {keep : Row → Except QueryError Bool}
    (hout : Listing.filter keep (.ofRows rows) = .ofRows out) : (c.filter keep).Rewinds K out := by
  obtain ⟨Closed, Opened, Asked, h⟩ := h
  refine ⟨Closed, Opened, Asked, ⟨h.start, h.init, fun s hs => ?_, h.opened, fun s st hs => ?_,
    h.close⟩⟩
  · have hyields : (c.filter keep).Yields K (Listing.filter keep ⟨rows, none⟩).failure
        (Listing.filter keep ⟨rows, none⟩).rows s := (h.yields s hs).filter
    rw [← Listing.ofRows, hout] at hyields
    exact hyields
  · exact h.keeps.findWithin keep (c.remaining s st + 1) hs st

/-- A window counts anew whenever it is opened.

**Proof sketch.** The phases are those of the cursor below; what the window counts is reset when it
is opened, so an opened window has all its rows ahead (`Yields.window`). Skipping rows and asking
for one keep the phase of the cursor below (`Keeps.skip`). -/
lemma Rewinds.window (h : c.Rewinds K rows) (offset : Nat) {limit : Option Nat}
    (hout : Listing.window offset limit (.ofRows rows) = .ofRows out) :
    (c.window offset limit).Rewinds K out := by
  obtain ⟨Closed, Opened, Asked, h⟩ := h
  refine ⟨fun s => Closed s.1.1, fun s => Opened s.1.1 ∧ s.1.2 = offset ∧ s.2 = 0,
    fun s => Asked s.1.1, ⟨h.start, ?_, ?_, fun s hs => h.opened s.1.1 hs.1, ?_,
      fun s hs => h.close s.1.1 hs⟩⟩
  · rintro ⟨⟨s, k⟩, count⟩ hs st hst
    obtain ⟨s', st', hinit, hlike, hopened⟩ := h.init s (hs.imp_right And.left) st hst
    exact ⟨((s', offset), 0), st', by rw [init_window, hinit], hlike, hopened, rfl, rfl⟩
  · rintro ⟨⟨s, k⟩, count⟩ ⟨hopened, rfl, rfl⟩
    have hyields := (h.yields s hopened).window k limit k 0
    have hleft : leftOf limit 0 = limit := by
      cases limit <;> rfl
    rw [hleft, ← Listing.ofRows, hout] at hyields
    exact hyields
  · rintro ⟨⟨s, k⟩, count⟩ st hs
    cases hopen : limit.any (fun n => n ≤ count) with
    | true =>
      rw [next_window_closed hopen]
      exact hs
    | false =>
      have hskip := h.keeps.skip k hs st
      rw [next_window_open hopen]
      generalize c.skip k s st = skipped at hskip ⊢
      rcases skipped with ⟨_ | _ | row, skipped, st'⟩ <;> exact hskip

/-- A stage that drops duplicates forgets the rows that it has seen whenever it is opened. -/
lemma Rewinds.distinct (h : c.Rewinds K rows) :
    c.distinct.Rewinds K (Listing.distinctRows [] rows) := by
  obtain ⟨Closed, Opened, Asked, h⟩ := h
  refine ⟨fun s => Closed s.1, fun s => Opened s.1 ∧ s.2 = [], fun s => Asked s.1,
    ⟨h.start, ?_, ?_, fun s hs => h.opened s.1 hs.1, ?_, fun s hs => h.close s.1 hs⟩⟩
  · rintro ⟨s, seen⟩ hs st hst
    obtain ⟨s', st', hinit, hlike, hopened⟩ := h.init s (hs.imp_right And.left) st hst
    exact ⟨(s', []), st', by rw [init_distinct, hinit], hlike, hopened, rfl⟩
  · rintro ⟨s, seen⟩ ⟨hopened, rfl⟩
    exact (h.yields s hopened).distinct []
  · rintro ⟨s, seen⟩ st hs
    have hfind := h.keeps.findWithin (fun row => .ok (!seen.contains row.contentKey))
      (c.remaining s st + 1) hs st
    rw [← Cursor.find] at hfind
    rw [next_distinct]
    generalize c.find (fun row => .ok (!seen.contains row.contentKey)) s st = found at hfind ⊢
    rcases found with ⟨_ | _ | row, s', st'⟩ <;> exact hfind

/-- A stage that asks for all rows first asks anew after it is opened.

**Proof sketch.** The phases are those of the cursor below, and nothing is held when the stage is
opened, so all rows are ahead (`Yields.buffered`). Asking folds the cursor below once, which keeps
its phase (`Keeps.foldWithin`). -/
lemma Rewinds.buffered {β : Type} (h : c.Rewinds K rows) {f : β → Row → Except QueryError β} {b : β}
    {output : β → List Row}
    (hshort : ∀ failure rows all, Listing.fold f failure b rows = .ok all →
      (output all).length ≤ rows.length)
    (hout : Listing.buffered f b output (.ofRows rows) = .ofRows out) :
    (c.buffered f b output).Rewinds K out := by
  obtain ⟨Closed, Opened, Asked, h⟩ := h
  refine ⟨fun s => Closed s.1, fun s => Opened s.1 ∧ s.2 = none, fun s => Asked s.1,
    ⟨h.start, ?_, ?_, fun s hs => h.opened s.1 hs.1, ?_, fun s hs => h.close s.1 hs⟩⟩
  · rintro ⟨s, held⟩ hs st hst
    obtain ⟨s', st', hinit, hlike, hopened⟩ := h.init s (hs.imp_right And.left) st hst
    exact ⟨(s', none), st', by rw [init_buffered, hinit], hlike, hopened, rfl⟩
  · rintro ⟨s, held⟩ ⟨hopened, rfl⟩
    have hyields := (h.yields s hopened).buffered f b output (hshort none rows)
    rw [← Listing.ofRows, hout] at hyields
    exact hyields
  · rintro ⟨s, held⟩ st hs
    cases held with
    | some held => exact hs
    | none =>
      have hfold := h.keeps.foldWithin f (c.remaining s st + 1) b hs st
      rw [← Cursor.fold] at hfold
      rw [next_buffered]
      generalize c.fold f b s st = folded at hfold ⊢
      rcases folded with ⟨_ | all, s', st'⟩ <;> exact hfold

/-- Two cursors, one after the other. Opening both goes back to the first.

**Proof sketch.** Each phase is that of both cursors, and an opened stage begins with the first one
(`Yields.append`). Asking asks the first cursor, then the second one (`hsecond`), and each of them
keeps its phase. -/
lemma Rewinds.append (h : c.Rewinds K rows) (h' : d.Rewinds K rows') :
    (c.append d).Rewinds K (rows ++ rows') := by
  obtain ⟨Closed, Opened, Asked, h⟩ := h
  obtain ⟨Closed', Opened', Asked', h'⟩ := h'
  refine ⟨fun s => Closed s.1 ∧ Closed' s.2.1,
    fun s => Opened s.1 ∧ Opened' s.2.1 ∧ s.2.2 = .first, fun s => Asked s.1 ∧ Asked' s.2.1,
    ⟨⟨h.start, h'.start⟩, ?_, ?_, fun s hs => ⟨h.opened s.1 hs.1, h'.opened s.2.1 hs.2.1⟩, ?_,
      fun s hs => ⟨h.close s.1 hs.1, h'.close s.2.1 hs.2⟩⟩⟩
  · rintro ⟨s, t, turn⟩ hs st hst
    obtain ⟨s', st', hinit, hlike, hopened⟩ := h.init s (hs.imp And.left And.left) st hst
    obtain ⟨t', st'', hinit', hlike', hopened'⟩ :=
      h'.init t (hs.imp And.right fun hopened => hopened.2.1) st' hlike
    refine ⟨(s', t', .first), st'', ?_, hlike', hopened, hopened', rfl⟩
    rw [init_append, hinit]
    simp only [hinit']
  · rintro ⟨s, t, turn⟩ ⟨hopened, hopened', rfl⟩
    exact (h.yields s hopened).append (h'.yields t hopened')
  · rintro ⟨s, t, turn⟩ st hs
    have hsecond : ∀ (s : c.State) (st : Store), Asked s →
        Asked (nextSecond c d (s, t) st).2.1.1 ∧ Asked' (nextSecond c d (s, t) st).2.1.2.1 := by
      intro s st hs'
      have hnext := h'.keeps t st hs.2
      rw [nextSecond]
      generalize d.next t st = asked at hnext ⊢
      rcases asked with ⟨_ | _ | row, t', st'⟩ <;> exact ⟨hs', hnext⟩
    cases turn with
    | first =>
      have hnext := h.keeps s st hs.1
      rw [next_append_first]
      generalize c.next s st = asked at hnext ⊢
      rcases asked with ⟨_ | _ | row, s', st'⟩
      · exact ⟨hnext, hs.2⟩
      · exact hsecond s' st' hnext
      · exact ⟨hnext, hs.2⟩
    | second => exact hsecond s st hs.1
    | neither => exact hs

/-- The rows that come of each row. Opening drops those that are still held.

**Proof sketch.** The phases are those of the cursor below, and opening drops the rows that are
held, so all rows are ahead (`Yields.expand`). Asking either gives out a held row or searches below
(`Keeps.expandWithin`). -/
lemma Rewinds.expand (h : c.Rewinds K rows) {f : Row → StoreM (List Row)}
    {g : Row → Except QueryError (List Row)} {most : Store → Nat}
    (hf : ∀ row, (f row).Reads K (g row))
    (hmost : ∀ row out st, g row = .ok out → st.Alike K → out.length ≤ most st)
    (hout : Listing.expand g (.ofRows rows) = .ofRows out) : (c.expand f most).Rewinds K out := by
  obtain ⟨Closed, Opened, Asked, h⟩ := h
  refine ⟨fun s => Closed s.1, fun s => Opened s.1 ∧ s.2 = [], fun s => Asked s.1,
    ⟨h.start, ?_, ?_, fun s hs => h.opened s.1 hs.1, ?_, fun s hs => h.close s.1 hs⟩⟩
  · rintro ⟨s, pending⟩ hs st hst
    obtain ⟨s', st', hinit, hlike, hopened⟩ := h.init s (hs.imp_right And.left) st hst
    exact ⟨(s', []), st', by rw [init_expand, hinit], hlike, hopened, rfl⟩
  · rintro ⟨s, pending⟩ ⟨hopened, rfl⟩
    have hyields := (h.yields s hopened).expand hf hmost []
    rw [List.nil_append] at hyields
    change Listing.expandRows g none rows = _ at hout
    rw [hout] at hyields
    exact hyields
  · rintro ⟨s, pending⟩ st hs
    cases pending with
    | cons row pending => exact hs
    | nil => exact h.keeps.expandWithin f (c.remaining s st + 1) hs st

/-- A stage that groups rows. The groups are held from opening to closing, and opening changes
nothing as long as they are; then the cursor below was asked for all of its rows.

**Proof sketch.** A closed stage holds nothing and an opened one holds the groups. Opening a closed
one folds all rows of the cursor below, which leaves it asked (`Keeps.foldWithin`), and the groups
are those of the listing; opening an opened one changes nothing. -/
lemma Rewinds.grouped (h : c.Rewinds K rows) {call : ReducerCall} {mapping : OutputMapping}
    (hout : Listing.grouped call mapping (.ofRows rows) = .ok (.ofRows out)) :
    (c.grouped call mapping).Rewinds K out := by
  obtain ⟨Closed, Opened, Asked, h⟩ := h
  simp only [Listing.grouped, Outcome.bind_eq_ok, Outcome.pure_eq_ok] at hout
  obtain ⟨r, hcall, gs, hgroups, hrows⟩ := hout
  obtain rfl : (r.output gs).map mapping.row = out := congrArg Listing.rows hrows
  refine ⟨fun s => Closed s.1 ∧ s.2 = none,
    fun s => Asked s.1 ∧ s.2 = some ((r.output gs).map mapping.row),
    fun s => Asked s.1 ∧ s.2.isSome = true,
    ⟨⟨h.start, rfl⟩, ?_, ?_, ?_, ?_, fun s hs => ⟨h.close s.1 hs.1, rfl⟩⟩⟩
  · rintro ⟨s, held⟩ (⟨hs, rfl⟩ | ⟨hs, rfl⟩) st hst
    · obtain ⟨s', st', hinit, hlike, hopened⟩ := h.init s (.inl hs) st hst
      obtain ⟨s'', st'', hfold, hlike'⟩ := (h.yields s' hopened).fold []
        (f := fun gs row => .ok (Groups.feed r gs row.get?)) hlike
      have hasked := h.keeps.foldWithin (fun gs row => .ok (Groups.feed r gs row.get?))
        (c.remaining s' st' + 1) [] (h.opened s' hopened) st'
      rw [← Cursor.fold, hfold] at hasked
      refine ⟨(s'', some ((r.output gs).map mapping.row)), st'', ?_, hlike', hasked, rfl⟩
      change Listing.fold _ none [] rows = _ at hgroups
      rw [init_grouped, hinit]
      simp only [hcall, hfold, hgroups]
    · exact ⟨(s, some ((r.output gs).map mapping.row)), st, rfl, hst, hs, rfl⟩
  · rintro ⟨s, held⟩ ⟨-, rfl⟩
    exact yields_grouped call mapping _ s
  · rintro ⟨s, held⟩ ⟨hs, rfl⟩
    exact ⟨hs, rfl⟩
  · rintro ⟨s, held⟩ st ⟨hs, hheld⟩
    obtain ⟨held, rfl⟩ := Option.isSome_iff_exists.mp hheld
    exact ⟨hs, rfl⟩

end Stages

end Cursor

end RecordQuery
