import RecordQuery.Pipeline.Basic
import RecordQuery.Proofs.Cursor.Passes
import RecordQuery.Proofs.Fault.Expr

set_option autoImplicit false

/-!
# Stages have no grave failures of their own

A stage may fail on a row. Whether it does is a matter of the row, of the parameters and of limits;
a grave failure of a stage is one of an expression in it or of a cursor below it. This holds
wherever the cursors stand and whatever happened to the store since they were opened.

## Main definitions

* `Cursor.Avoids` — opening and asking a cursor does not fail in a given way, in any state and on
  any store.
* `Cursor.Reading.Sound` — a reading did not end with a plan fault.

## Main results

* `Cursor.Avoids.filter`, `Cursor.Avoids.mapRows`, `Cursor.Avoids.window`, `Cursor.Avoids.distinct`,
  `Cursor.Avoids.buffered`, `Cursor.Avoids.grouped`, `Cursor.Avoids.append`, `Cursor.Avoids.expand`
  — stages of such cursors.
* `Cursor.Avoids.passes`, `Cursor.Avoids.drain` — reading them.
* `computeRow_avoids`, `holdRow_avoids`, `Projection.row_benign`, `Reducer.ofCall?_benign` — what
  single stages do to rows.
-/

namespace RecordQuery

open Outcome

/-! ## Reducers -/

/-- The specification that a text stands for. -/
lemma AggregateSpec.parse?_benign (s : String) : Benign (parse? s) := by
  unfold parse?
  split
  · rfl
  · split
    · rfl
    · split
      · split
        · trivial
        · rfl
      · trivial

namespace Reducer

/-- The specifications that arguments stand for. -/
lemma parseSpecs_benign (args : List String) : Benign (parseSpecs args) := by
  induction args with
  | nil => trivial
  | cons arg args ih =>
    exact (AggregateSpec.parse?_benign arg).bind fun _ _ => ih.bind fun _ _ => .pure trivial

/-- The grouping columns and specifications that arguments stand for. -/
lemma parseGroupArgs_benign (args : List String) : Benign (parseGroupArgs args) := by
  induction args with
  | nil => trivial
  | cons arg args ih =>
    unfold parseGroupArgs
    split
    · exact ih.bind fun _ _ => .pure trivial
    · exact (AggregateSpec.parse?_benign arg).bind fun _ _ => ih.bind fun _ _ => .pure trivial

/-- What a call asks for. -/
lemma ofCall?_benign (call : ReducerCall) : Benign (ofCall? call) := by
  unfold ofCall?
  split
  · exact (parseSpecs_benign call.args).bind fun _ _ => .pure trivial
  · split
    · refine (parseGroupArgs_benign call.args).bind fun parsed _ => ?_
      split
      · rfl
      · trivial
    · split
      · split
        · trivial
        · rfl
      · rfl

end Reducer

/-! ## Rows -/

section Rows

variable {bad : QueryError → Bool} [QueryError.Grave bad] {params : List Value}

/-- Computed values. -/
lemma computeColumns_avoids {columns : List (String × Expr)}
    (h : ∀ c ∈ columns, c.2.AvoidsParams bad params) (row : Row) :
    Avoids bad (fun _ => True) (computeColumns params row columns) := by
  induction columns generalizing row with
  | nil => trivial
  | cons c columns ih =>
    exact ((h c (by simp)).eval row).bind fun _ _ => ih (fun d hd => h d (by simp [hd])) _

/-- Computed values and labels for them. -/
lemma computeRow_avoids {columns : List (String × Expr)}
    (h : ∀ c ∈ columns, c.2.AvoidsParams bad params) (labels : List (String × String)) (row : Row) :
    Avoids bad (fun _ => True) (computeRow params columns labels row) :=
  (computeColumns_avoids h row).bind fun _ _ => .pure trivial

/-- The parameters in a sort key do not fail in a given way. -/
def OrderKey.AvoidsParams (bad : QueryError → Bool) (params : List Value) : OrderKey → Prop
  | expr e => e.AvoidsParams bad params
  | _ => True

/-- The values by which a row is sorted. -/
lemma sortKey_avoids {order : List OrderSpec} (h : ∀ o ∈ order, o.key.AvoidsParams bad params)
    (row : Row) : Avoids bad (fun _ => True) (sortKey params row order) := by
  induction order with
  | nil => trivial
  | cons spec order ih =>
    have hspec := h spec (by simp)
    have hkey : Avoids bad (fun _ => True) (spec.key.valueOn params row) := by
      cases hk : spec.key with
      | column source => trivial
      | expr e =>
        rw [hk] at hspec
        exact Expr.AvoidsParams.eval hspec row
      | position n => trivial
    exact hkey.bind fun _ _ => (ih fun o ho => h o (by simp [ho])).bind fun _ _ => .pure trivial

/-- A row that is taken into those to be sorted. -/
lemma holdRow_avoids {env : ExecutionEnv} {order : List OrderSpec}
    (h : ∀ o ∈ order, o.key.AvoidsParams bad env.params) (held : List KeyedRow) (row : Row) :
    Avoids bad (fun _ => True) (holdRow env order held row) := by
  have hkeyed : Avoids bad (fun _ => True)
      (do return (← sortKey env.params row order, row) :: held :
        Except QueryError (List KeyedRow)) :=
    (sortKey_avoids h row).bind fun _ _ => .pure trivial
  unfold holdRow
  split
  · split
    · exact .of_safe rfl
    · exact hkeyed
  · exact hkeyed

end Rows

/-- Returned columns that are added to others. -/
lemma Projection.addLabelled_benign (p : Projection) (row : Row)
    (columns : List (String × String)) (returned : Row) :
    Benign (p.addLabelled row returned columns) := by
  induction columns generalizing returned with
  | nil => trivial
  | cons c columns ih =>
    rw [Projection.addLabelled]
    split
    · exact ih _
    · split
      · exact ih _
      · split
        · rfl
        · exact ih _

/-- The returned row. -/
lemma Projection.row_benign (p : Projection) (row : Row) : Benign (p.row row) :=
  p.addLabelled_benign row p.columns _

/-! ## Cursors -/

/-- Opening and asking a cursor does not fail in a given way, in any state and on any store. -/
structure Cursor.Avoids (bad : QueryError → Bool) (c : Cursor) : Prop where
  /-- Opening does not. -/
  init : ∀ s st, Outcome.Avoids bad (fun _ => True) (c.init s st).1
  /-- Asking for a row does not. -/
  next : ∀ s st, Outcome.Avoids bad (fun _ => True) (c.next s st).1

/-- A reading did not end in a given way. -/
def Cursor.Reading.Avoids (bad : QueryError → Bool) (r : Reading) : Prop :=
  ∀ e, r.ending = .failed e → bad e = false

/-- A reading did not end with a plan fault. -/
def Cursor.Reading.Sound (r : Reading) : Prop := ∀ e, r.ending = .failed e → e.isPlanFault = false

namespace Cursor.Avoids

variable {c d : Cursor} {bad : QueryError → Bool}

/-- The failure of asking for a row. -/
lemma of_next (h : c.Avoids bad) {s s' : c.State} {st st' : Store} {e : QueryError}
    (hnext : c.next s st = (.error e, s', st')) : bad e = false :=
  (h.next s st).of_eq_error (by rw [hnext])

/-- The failure of opening. -/
lemma of_init (h : c.Avoids bad) {s s' : c.State} {st st' : Store} {e : QueryError}
    (hinit : c.init s st = (.error e, s', st')) : bad e = false :=
  (h.init s st).of_eq_error (by rw [hinit])

/-! ### Loops -/

/-- Looking for a row among so many. -/
lemma findWithin (h : c.Avoids bad) {keep : Row → Except QueryError Bool}
    (hkeep : ∀ row, Outcome.Avoids bad (fun _ => True) (keep row)) (n : Nat) (s : c.State)
    (st : Store) :
    Outcome.Avoids bad (fun _ => True) (c.findWithin keep n s st).1 := by
  induction n generalizing s st with
  | zero => trivial
  | succ n ih =>
    unfold Cursor.findWithin
    rcases hnext : c.next s st with ⟨e | (_ | row), s', st'⟩
    · exact h.of_next hnext
    · trivial
    · have hrow := hkeep row
      simp only
      cases hk : keep row with
      | error e => exact hrow.of_eq_error hk
      | ok b =>
        cases b with
        | false => exact ih s' st'
        | true => trivial

/-- Folding so many rows. -/
lemma foldWithin (h : c.Avoids bad) {β : Type} {f : β → Row → Except QueryError β}
    (hf : ∀ b row, Outcome.Avoids bad (fun _ => True) (f b row)) (n : Nat) (b : β) (s : c.State)
    (st : Store) :
    Outcome.Avoids bad (fun _ => True) (c.foldWithin f n b s st).1 := by
  induction n generalizing b s st with
  | zero => trivial
  | succ n ih =>
    unfold Cursor.foldWithin
    rcases hnext : c.next s st with ⟨e | (_ | row), s', st'⟩
    · exact h.of_next hnext
    · trivial
    · have hrow := hf b row
      simp only
      cases hb : f b row with
      | error e => exact hrow.of_eq_error hb
      | ok b' => exact ih b' s' st'

/-- Skipping so many rows. -/
lemma skip (h : c.Avoids bad) (n : Nat) (s : c.State) (st : Store) :
    Outcome.Avoids bad (fun _ => True) (c.skip n s st).1 := by
  induction n generalizing s st with
  | zero => exact h.next s st
  | succ n ih =>
    unfold Cursor.skip
    rcases hnext : c.next s st with ⟨e | (_ | row), s', st'⟩
    · exact h.of_next hnext
    · trivial
    · exact ih s' st'

/-- Asking for a row, among so many, of which there come some. -/
lemma expandWithin (h : c.Avoids bad) {f : Row → StoreM (List Row)}
    (hf : ∀ row, (f row).Avoids bad fun _ => True)
    (n : Nat) (s : c.State) (st : Store) : Outcome.Avoids bad (fun _ => True)
    (c.expandWithin f n s st).1 := by
  induction n generalizing s st with
  | zero => trivial
  | succ n ih =>
    unfold Cursor.expandWithin
    rcases hnext : c.next s st with ⟨e | (_ | row), s', st'⟩
    · exact h.of_next hnext
    · trivial
    · have hrow := hf row st'
      simp only
      rcases hout : f row st' with ⟨e | (_ | ⟨r, rs⟩), st''⟩
      · rw [hout] at hrow
        exact hrow
      · exact ih s' st''
      · trivial

/-- Forming groups once.

**Proof sketch.** If the groups are formed already then nothing happens. Otherwise the input is
opened, the call is decoded, which has no grave failure, and the rows are fed to the groups, which
cannot fail except by drawing a row. -/
lemma reduceOnce [QueryError.Grave bad] (h : c.Avoids bad) (call : ReducerCall)
    (mapping : OutputMapping)
    (s : c.State × Option (List Row)) (st : Store) :
    Outcome.Avoids bad (fun _ => True) (c.reduceOnce call mapping s st).1 := by
  unfold Cursor.reduceOnce
  split
  · trivial
  · rcases hinit : c.init s.1 st with ⟨e | _, s', st'⟩
    · exact h.of_init hinit
    · have hcall : Outcome.Avoids bad (fun _ => True) (Reducer.ofCall? call) :=
        .of_safe (Reducer.ofCall?_benign call)
      simp only
      cases hr : Reducer.ofCall? call with
      | error e => exact hcall.of_eq_error hr
      | ok r =>
        have hfold := h.foldWithin (f := fun gs row => .ok (Groups.feed r gs row.get?))
          (fun _ _ => trivial) (c.remaining s' st' + 1) [] s' st'
        simp only [Cursor.fold]
        rcases hgs : c.foldWithin _ _ _ s' st' with ⟨e | gs, s'', st''⟩
        · rw [hgs] at hfold
          exact hfold
        · trivial

/-! ### Sources -/

/-- Given rows. -/
lemma ofRows [QueryError.Grave bad] (rows : List Row) (failAt : Option Nat) :
    Cursor.Avoids bad (.ofRows rows failAt) := by
  refine ⟨fun _ _ => trivial, fun i st => ?_⟩
  unfold Cursor.ofRows
  simp only
  split
  · exact .of_safe rfl
  · split <;> trivial

/-- Rows that are loaded once. -/
lemma loadOnce {load : StoreM (List Row)} (h : load.Avoids bad fun _ => True)
    (held : Option (List Row))
    (st : Store) : Outcome.Avoids bad (fun _ => True) (Cursor.loadOnce load held st).1 := by
  have hload := h st
  unfold Cursor.loadOnce
  cases held with
  | some rows => trivial
  | none =>
    simp only
    rcases hst : load st with ⟨e | rows, st'⟩
    · rw [hst] at hload
      exact hload
    · trivial

/-- **Rows that are loaded.** -/
lemma ofLoad {load : StoreM (List Row)} (h : load.Avoids bad fun _ => True) (bound : Store → Nat) :
    Cursor.Avoids bad (.ofLoad load bound) := by
  refine ⟨loadOnce h, fun held st => ?_⟩
  have honce := loadOnce h held st
  unfold Cursor.ofLoad
  simp only
  rcases hst : Cursor.loadOnce load held st with ⟨e | _, held', st'⟩
  · rw [hst] at honce
    exact honce
  · trivial

/-! ### Stages -/

/-- Rows that pass a test. -/
lemma filter (h : c.Avoids bad) {keep : Row → Except QueryError Bool}
    (hkeep : ∀ row, Outcome.Avoids bad (fun _ => True) (keep row)) :
    Cursor.Avoids bad (c.filter keep) :=
  ⟨h.init, fun s st => h.findWithin hkeep _ s st⟩

/-- Rows that are changed. -/
lemma mapRows (h : c.Avoids bad) {f : Row → Except QueryError Row}
    (hf : ∀ row, Outcome.Avoids bad (fun _ => True) (f row)) :
    Cursor.Avoids bad (c.mapRows f) := by
  refine ⟨h.init, fun s st => ?_⟩
  unfold Cursor.mapRows
  simp only
  rcases hnext : c.next s st with ⟨e | (_ | row), s', st'⟩
  · exact h.of_next hnext
  · trivial
  · exact (hf row).map fun _ _ => trivial

/-- Rows after others, up to a limit. -/
lemma window (h : c.Avoids bad) (offset : Nat) (limit : Option Nat) :
    Cursor.Avoids bad (c.window offset limit) := by
  refine ⟨fun s st => h.init s.1.1 st, fun s st => ?_⟩
  have hskip := h.skip s.1.2 s.1.1 st
  unfold Cursor.window
  simp only
  split
  · trivial
  · rcases hnext : c.skip s.1.2 s.1.1 st with ⟨e | (_ | row), s', st'⟩
    · rw [hnext] at hskip
      exact hskip
    · trivial
    · trivial

/-- Rows whose values did not come before. -/
lemma distinct (h : c.Avoids bad) : Cursor.Avoids bad c.distinct := by
  refine ⟨fun s st => h.init s.1 st, fun s st => ?_⟩
  have hfind : Outcome.Avoids bad (fun _ => True)
      (c.findWithin (fun row => .ok (!s.2.contains row.contentKey)) (c.remaining s.1 st + 1)
        s.1 st).1 := h.findWithin (fun _ => .ok trivial) _ s.1 st
  unfold Cursor.distinct
  simp only [Cursor.find]
  rcases hnext : c.findWithin _ _ s.1 st with ⟨e | (_ | row), s', st'⟩
  · rw [hnext] at hfind
    exact hfind
  · trivial
  · trivial

/-- **Rows that come of all rows together.** -/
lemma buffered (h : c.Avoids bad) {β : Type} {f : β → Row → Except QueryError β}
    (hf : ∀ b row, Outcome.Avoids bad (fun _ => True) (f b row)) (b : β) (output : β → List Row) :
    Cursor.Avoids bad (c.buffered f b output) := by
  refine ⟨fun s st => h.init s.1 st, fun s st => ?_⟩
  have hfold := h.foldWithin hf (c.remaining s.1 st + 1) b s.1 st
  unfold Cursor.buffered
  simp only [Cursor.fold]
  split
  · trivial
  · rcases hall : c.foldWithin f _ b s.1 st with ⟨e | all, s', st'⟩
    · rw [hall] at hfold
      exact hfold
    · trivial

/-- **The groups of rows.** -/
lemma grouped [QueryError.Grave bad] (h : c.Avoids bad) (call : ReducerCall)
    (mapping : OutputMapping) :
    Cursor.Avoids bad (c.grouped call mapping) := by
  refine ⟨h.reduceOnce call mapping, fun s st => ?_⟩
  have honce := h.reduceOnce call mapping s st
  unfold Cursor.grouped
  simp only
  rcases hst : c.reduceOnce call mapping s st with ⟨e | _, s', st'⟩
  · rw [hst] at honce
    exact honce
  · trivial

/-- Asking the second of two cursors. -/
lemma nextSecond (h : d.Avoids bad) (s : c.State × d.State) (st : Store) :
    Outcome.Avoids bad (fun _ => True) (Cursor.nextSecond c d s st).1 := by
  unfold Cursor.nextSecond
  rcases hnext : d.next s.2 st with ⟨e | (_ | row), s', st'⟩
  · exact h.of_next hnext
  · trivial
  · trivial

/-- **Rows behind others.** -/
lemma append (h : c.Avoids bad) (h' : d.Avoids bad) : Cursor.Avoids bad (c.append d) := by
  constructor
  · intro s st
    unfold Cursor.append
    simp only
    rcases hinit : c.init s.1 st with ⟨e | _, s', st'⟩
    · exact h.of_init hinit
    · exact h'.init s.2.1 st'
  · intro s st
    unfold Cursor.append
    simp only
    split
    · rcases hnext : c.next s.1 st with ⟨e | (_ | row), s', st'⟩
      · exact h.of_next hnext
      · exact h'.nextSecond (s', s.2.1) st'
      · trivial
    · exact h'.nextSecond (s.1, s.2.1) st
    · trivial

/-- **Rows that become others.** -/
lemma expand (h : c.Avoids bad) {f : Row → StoreM (List Row)}
    (hf : ∀ row, (f row).Avoids bad fun _ => True)
    (most : Store → Nat) : Cursor.Avoids bad (c.expand f most) := by
  refine ⟨fun s st => h.init s.1 st, fun s st => ?_⟩
  unfold Cursor.expand
  simp only
  split
  · trivial
  · exact h.expandWithin hf _ s.1 st

/-! ### Reading -/

/-- Reading some rows. -/
lemma read (h : c.Avoids bad) (n : Nat) (s : c.State) (st : Store) :
    (c.read n s st).1.Avoids bad := by
  induction n generalizing s st with
  | zero =>
    intro e he
    cases he
  | succ n ih =>
    unfold Cursor.read
    rcases hnext : c.next s st with ⟨e | (_ | row), s', st'⟩
    · intro e' he'
      obtain rfl := Ending.failed.inj he'
      exact h.of_next hnext
    · intro e he
      cases he
    · exact ih s' st'

/-- Opening so many times. -/
lemma initTimes (h : c.Avoids bad) (n : Nat) (s : c.State) (st : Store) :
    Outcome.Avoids bad (fun _ => True) (c.initTimes n s st).1 := by
  induction n generalizing s st with
  | zero => trivial
  | succ n ih =>
    unfold Cursor.initTimes
    rcases hinit : c.init s st with ⟨e | _, s', st'⟩
    · exact h.of_init hinit
    · exact ih s' st'

/-- A pass. -/
lemma pass (h : c.Avoids bad) (inits : Nat) (s : c.State) (st : Store) :
    (c.pass inits s st).1.Avoids bad := by
  have hinits := h.initTimes inits s st
  unfold Cursor.pass
  rcases hopen : c.initTimes inits s st with ⟨e | _, s', st'⟩
  · intro e' he'
    obtain rfl := Ending.failed.inj he'
    exact hinits.of_eq_error (by rw [hopen])
  · have hread := h.read (c.remaining s' st' + 1) s' st'
    simp only [Cursor.readAll]
    rcases hrows : c.read (c.remaining s' st' + 1) s' st' with ⟨⟨rows, _ | _ | e⟩, s'', st''⟩
    all_goals
      rw [hrows] at hread
      exact hread

/-- **Passes.** -/
lemma passes (h : c.Avoids bad) (inits : List Nat) (s : c.State) (st : Store) :
    ∀ r ∈ c.passes inits s st, r.Avoids bad := by
  induction inits generalizing s st with
  | nil => exact fun r hr => absurd hr List.not_mem_nil
  | cons n inits ih =>
    intro r hr
    rcases List.mem_cons.mp hr with rfl | hr
    · exact h.pass n s st
    · exact ih _ _ r hr

/-- **Reading a cursor to the end.** -/
lemma drain (h : c.Avoids bad) : c.drain.Avoids bad fun _ => True := by
  intro st
  have hpass := h.pass 1 c.start st
  change Outcome.Avoids bad (fun _ => True) (c.pass 1 c.start st).1.complete
  unfold Cursor.Reading.complete
  split
  · rename_i e he
    exact hpass e he
  · trivial

end Cursor.Avoids

end RecordQuery
