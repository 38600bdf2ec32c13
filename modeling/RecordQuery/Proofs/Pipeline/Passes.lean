import RecordQuery.Proofs.Cursor.Passes
import RecordQuery.Proofs.Pipeline.Listing

set_option autoImplicit false

/-!
# What a pipeline computes

What a pipeline returns is a composition of functions on lists, one for every stage. Its cursor,
which holds and counts rows, returns the same in every pass, however often it is opened before it is
asked for the first row.

## Main definitions

* `Pipeline.eval` — the rows of a pipeline as a composition of functions on lists.
* `dropDuplicates`, `sortRows`, `groupRows` — the functions of single stages.

## Main results

* `Pipeline.rewinds_cursor` — the cursor of a pipeline yields these rows each time.
* `Pipeline.passes_cursor` — every pass returns them.
-/

namespace RecordQuery

open Outcome

/-! ## Functions on lists -/

/-- The rows of a list, up to a limit. -/
def takeLimit (limit : Option Nat) (rows : List Row) : List Row :=
  match limit with
  | some n => rows.take n
  | none => rows

/-- The rows of a list, the first of each content. -/
def dropDuplicates (rows : List Row) : List Row :=
  rows.eraseDupsBy (fun a b => a.contentKey == b.contentKey)

/-- The rows of a list in order, up to a number. There may not be more rows than a sort may hold. -/
def sortRows (env : ExecutionEnv) (order : List OrderSpec) (top : Option Nat) (rows : List Row) :
    Except QueryError (List Row) :=
  match env.maxSortRows with
  | some most =>
    if most < rows.length then .error (.sortLimit most)
    else do
      return sortKeyed order top (← rows.mapM fun row => do
        return (← sortKey env.params row order, row))
  | none => do
    return sortKeyed order top (← rows.mapM fun row => do
      return (← sortKey env.params row order, row))

/-- The groups of the rows of a list. -/
def groupRows (call : ReducerCall) (mapping : OutputMapping) (rows : List Row) :
    Except QueryError (List Row) := do
  let r ← Reducer.ofCall? call
  return (r.reduce (rows.map OrderedMap.get?)).map mapping.row

/-- The rows of a list that is given. Asking for the row at a given position fails. -/
def givenRows (items : List Row) (failAt : Option Nat) : Except QueryError (List Row) :=
  if failAt.any (fun n => n ≤ items.length) then .error .readFailed else .ok items

/-- The rows of a pipeline as a composition of functions on lists. -/
def Pipeline.eval (env : ExecutionEnv) (K : Store) : Pipeline → Except QueryError (List Row)
  | rows items failAt => givenRows items failAt
  | fetch access => access.found K
  | reduce access mapping => access.groups mapping K
  | filter input condition => do
    filterExcept (fun row => condition.holdsOn env.params row) (← input.eval env K)
  | window input offset limit => do return takeLimit limit ((← input.eval env K).drop offset)
  | distinct input => do return dropDuplicates (← input.eval env K)
  | compute input columns labels => do
    (← input.eval env K).mapM (computeRow env.params columns labels)
  | sort input order top => do sortRows env order top (← input.eval env K)
  | append first second labels => do
    let rows ← first.eval env K
    let others ← second.eval env K
    return (rows ++ others).map (relabel labels)
  | aggregate input call mapping => do groupRows call mapping (← input.eval env K)
  | join input spec => do return (← (← input.eval env K).mapM (spec.rowsFor K)).flatten
  | project input projection => do (← input.eval env K).mapM projection.row

/-! ## Listings of functions on lists -/

namespace Listing

variable {rows out : List Row}

/-- Given rows that can all be asked for. -/
lemma ofGiven_of_givenRows {failAt : Option Nat} (h : givenRows rows failAt = .ok out) :
    ofGiven rows failAt = ofRows out := by
  unfold givenRows at h
  cases failAt with
  | none =>
    obtain rfl := Except.ok.inj h
    rfl
  | some n =>
    simp only [Option.any_some, decide_eq_true_eq] at h
    by_cases hn : n ≤ rows.length
    · rw [if_pos hn] at h
      cases h
    · rw [if_neg hn] at h
      obtain rfl := Except.ok.inj h
      exact if_neg hn

/-- Rows that can all be tested. -/
lemma filter_of_filterExcept {keep : Row → Except QueryError Bool}
    (h : filterExcept keep rows = .ok out) : filter keep (ofRows rows) = ofRows out := by
  unfold filter expand ofRows
  induction rows generalizing out with
  | nil =>
    obtain rfl := Except.ok.inj h
    rfl
  | cons row rows ih =>
    simp only [filterExcept, bind_eq_ok, pure_eq_ok] at h
    obtain ⟨b, hb, rest, hrest, rfl⟩ := h
    simp only [expandRows, passing, hb, ok_bind, pure, Except.pure, ih hrest]
    cases b <;> rfl

/-- Rows of which there all come some. -/
lemma expand_of_mapM {g : Row → Except QueryError (List Row)} {outs : List (List Row)}
    (h : rows.mapM g = .ok outs) : expand g (ofRows rows) = ofRows outs.flatten := by
  unfold expand ofRows
  induction rows generalizing outs with
  | nil =>
    obtain rfl := Except.ok.inj h
    rfl
  | cons row rows ih =>
    simp only [List.mapM_cons, bind_eq_ok, pure_eq_ok] at h
    obtain ⟨first, hfirst, rest, hrest, rfl⟩ := h
    simp only [expandRows, hfirst, ih hrest, List.flatten_cons]

/-- Rows that can all be changed. -/
lemma mapRows_of_mapM {f : Row → Except QueryError Row} (h : rows.mapM f = .ok out) :
    mapRows f (ofRows rows) = ofRows out := by
  have hsingle : rows.mapM (fun row => do return [← f row]) = .ok (out.map fun row => [row]) := by
    induction rows generalizing out with
    | nil =>
      obtain rfl := Except.ok.inj h
      rfl
    | cons row rows ih =>
      simp only [List.mapM_cons, bind_eq_ok, pure_eq_ok] at h
      obtain ⟨first, hfirst, rest, hrest, rfl⟩ := h
      simp only [List.mapM_cons, bind_eq_ok, pure_eq_ok]
      exact ⟨[first], ⟨first, hfirst, rfl⟩, _, ih hrest, rfl⟩
  have hexpand := expand_of_mapM hsingle
  rwa [← List.flatMap_def, List.flatMap_singleton'] at hexpand

/-- A window on rows drops some and takes some. -/
lemma window_ofRows (offset : Nat) (limit : Option Nat) (rows : List Row) :
    window offset limit (ofRows rows) = ofRows (takeLimit limit (rows.drop offset)) := by
  cases limit with
  | none => rfl
  | some n => exact congrArg (Listing.mk _) (ite_self _)

/-- The rows that were not seen and are the first of their content. -/
lemma distinctRows_eq_filter (seen : List (List UInt8)) (rows : List Row) :
    distinctRows seen rows =
      dropDuplicates (rows.filter fun row => !seen.contains row.contentKey) := by
  induction rows generalizing seen with
  | nil => rfl
  | cons row rows ih =>
    rw [distinctRows, List.filter_cons]
    cases hseen : seen.contains row.contentKey with
    | true => exact ih seen
    | false =>
      simp only [Bool.false_eq_true, if_false, Bool.not_false, if_true]
      rw [ih, dropDuplicates, dropDuplicates, List.eraseDupsBy_cons, List.filter_filter]
      refine congrArg (fun rest => row :: List.eraseDupsBy _ rest) ?_
      refine List.filter_congr fun other _ => ?_
      rw [List.contains_cons, Bool.not_or]
      cases h : other.contentKey == row.contentKey <;> simp

/-- The first rows of their content. -/
lemma distinctRows_nil (rows : List Row) : distinctRows [] rows = dropDuplicates rows := by
  rw [distinctRows_eq_filter]
  exact congrArg _ (List.filter_eq_self.mpr fun _ _ => rfl)

/-- What a sort holds are the rows with their keys, last one first.

**Proof sketch.** By induction on the rows: there is room for each of them as long as there is room
for all. -/
lemma fold_holdRow {env : ExecutionEnv} {order : List OrderSpec} {keyed held : List KeyedRow}
    (hroom : env.maxSortRows.any (fun most => most < held.length + rows.length) = false)
    (h : rows.mapM (fun row => do return (← sortKey env.params row order, row)) = .ok keyed) :
    fold (holdRow env order) none held rows = .ok (keyed.reverse ++ held) := by
  induction rows generalizing keyed held with
  | nil =>
    obtain rfl := Except.ok.inj h
    rfl
  | cons row rows ih =>
    simp only [List.mapM_cons, bind_eq_ok, pure_eq_ok] at h
    obtain ⟨-, ⟨key, hkey, rfl⟩, rest, hrest, rfl⟩ := h
    have hhold : holdRow env order held row = .ok ((key, row) :: held) := by
      unfold holdRow
      cases hmost : env.maxSortRows with
      | none => simp only [hkey, ok_bind, pure, Except.pure]
      | some most =>
        have hle : ¬ most ≤ held.length := by
          simp only [hmost, Option.any_some, decide_eq_false_iff_not, List.length_cons] at hroom
          omega
        simp only [hkey, ok_bind, pure, Except.pure, if_neg hle]
    rw [fold, hhold, ok_bind, ih _ hrest, List.reverse_cons, List.append_assoc]
    · rfl
    · simpa only [List.length_cons, Nat.add_assoc, Nat.add_comm 1] using hroom

/-- A sort on rows that it may hold.

**Proof sketch.** Sorting rows succeeds only if there is room for all of them and each has its keys.
Then holding them one after the other succeeds too, last one first, and the held rows are reversed
before they are sorted. -/
lemma buffered_of_sortRows {env : ExecutionEnv} {order : List OrderSpec} {top : Option Nat}
    (h : sortRows env order top rows = .ok out) :
    buffered (holdRow env order) [] (fun held => sortKeyed order top held.reverse) (ofRows rows) =
      ofRows out := by
  have hkeyed : ∃ keyed, env.maxSortRows.any (fun most => most < rows.length) = false ∧
      rows.mapM (fun row => do return (← sortKey env.params row order, row)) = .ok keyed ∧
        sortKeyed order top keyed = out := by
    unfold sortRows at h
    cases hmost : env.maxSortRows with
    | none =>
      simp only [hmost, bind_eq_ok, pure_eq_ok] at h
      obtain ⟨keyed, hkeyed, rfl⟩ := h
      exact ⟨keyed, rfl, hkeyed, rfl⟩
    | some most =>
      simp only [hmost] at h
      by_cases hlt : most < rows.length
      · rw [if_pos hlt] at h
        cases h
      · simp only [if_neg hlt, bind_eq_ok, pure_eq_ok] at h
        obtain ⟨keyed, hkeyed, rfl⟩ := h
        exact ⟨keyed, by simpa using hlt, hkeyed, rfl⟩
  obtain ⟨keyed, hroom, hmap, rfl⟩ := hkeyed
  have hfold : fold (holdRow env order) none [] rows = .ok (keyed.reverse ++ []) :=
    fold_holdRow (by simpa using hroom) hmap
  unfold buffered
  simp only [ofRows, hfold, List.append_nil, List.reverse_reverse]

/-- Folding a function that never fails. -/
lemma fold_ok {β : Type} (f : β → Row → β) (b : β) (rows : List Row) :
    fold (fun b row => .ok (f b row)) none b rows = .ok (rows.foldl f b) := by
  induction rows generalizing b with
  | nil => rfl
  | cons row rows ih => exact ih (f b row)

/-- The groups of rows. -/
lemma grouped_of_groupRows {call : ReducerCall} {mapping : OutputMapping}
    (h : groupRows call mapping rows = .ok out) :
    grouped call mapping (ofRows rows) = .ok (ofRows out) := by
  simp only [groupRows, bind_eq_ok, pure_eq_ok] at h
  obtain ⟨r, hcall, rfl⟩ := h
  simp only [grouped, hcall, ok_bind, ofRows, fold_ok, Reducer.reduce, Groups.ofInputs,
    List.foldl_map]
  rfl

end Listing

/-! ## Passes -/

namespace Pipeline

/-- **The cursor of a pipeline yields its rows each time.**

**Proof sketch.** By induction on the pipeline: every stage yields the same rows each time if the
cursors below it do. -/
theorem rewinds_cursor {env : ExecutionEnv} {K : Store} {P : Pipeline} {out : List Row}
    (h : P.eval env K = .ok out) : (P.cursor env).Rewinds K out := by
  induction P generalizing out with
  | rows items failAt => exact Cursor.rewinds_ofRows (Listing.ofGiven_of_givenRows h)
  | fetch access =>
    have hload := access.reads_load env.batchSize K
    rw [show access.found K = .ok out from h] at hload
    exact Cursor.rewinds_ofLoad hload access.bound
  | reduce access mapping =>
    have hload := access.reads_loadGroups mapping K
    rw [show access.groups mapping K = .ok out from h] at hload
    exact Cursor.rewinds_ofLoad hload access.bound
  | filter input condition ih =>
    simp only [eval, bind_eq_ok] at h
    obtain ⟨rows, hrows, hout⟩ := h
    exact (ih hrows).filter (Listing.filter_of_filterExcept hout)
  | window input offset limit ih =>
    simp only [eval, bind_eq_ok, pure_eq_ok] at h
    obtain ⟨rows, hrows, rfl⟩ := h
    exact (ih hrows).window offset (Listing.window_ofRows offset limit rows)
  | distinct input ih =>
    simp only [eval, bind_eq_ok, pure_eq_ok] at h
    obtain ⟨rows, hrows, rfl⟩ := h
    rw [← Listing.distinctRows_nil]
    exact (ih hrows).distinct
  | compute input columns labels ih =>
    simp only [eval, bind_eq_ok] at h
    obtain ⟨rows, hrows, hout⟩ := h
    exact (ih hrows).mapRows (Listing.mapRows_of_mapM hout)
  | sort input order top ih =>
    simp only [eval, bind_eq_ok] at h
    obtain ⟨rows, hrows, hout⟩ := h
    exact (ih hrows).buffered (fun _ _ _ => length_sortKeyed_fold_le)
      (Listing.buffered_of_sortRows hout)
  | append first second labels ih ih' =>
    simp only [eval, bind_eq_ok, pure_eq_ok] at h
    obtain ⟨rows, hrows, others, hothers, rfl⟩ := h
    exact ((ih hrows).append (ih' hothers)).mapRows
      (Listing.mapRows_ofRows (rows ++ others) fun _ => rfl)
  | aggregate input call mapping ih =>
    simp only [eval, bind_eq_ok] at h
    obtain ⟨rows, hrows, hout⟩ := h
    exact (ih hrows).grouped (Listing.grouped_of_groupRows hout)
  | join input spec ih =>
    simp only [eval, bind_eq_ok, pure_eq_ok] at h
    obtain ⟨rows, hrows, outs, houts, rfl⟩ := h
    exact (ih hrows).expand (fun row => spec.reads_joinRow env.batchSize K row)
      (fun row out st hout hst => JoinSpec.length_rowsFor_le hout hst)
      (Listing.expand_of_mapM houts)
  | project input projection ih =>
    simp only [eval, bind_eq_ok] at h
    obtain ⟨rows, hrows, hout⟩ := h
    exact (ih hrows).mapRows (Listing.mapRows_of_mapM hout)

/-- **A pipeline computes its rows in every pass.** Whenever the functions on lists succeed, each
pass returns their rows to the end: the cursor may be opened any number of times before it is asked,
and any number of passes may come before.

**Proof sketch.** Each stage has the phases of a cursor that yields the same rows each time. What it
remembers is reset by opening or by closing it, and where opening a stage again does nothing,
because it holds its rows already, the cursors below it stay as they are until it is closed. -/
theorem passes_cursor (env : ExecutionEnv) (K : Store) (P : Pipeline) {out : List Row}
    (h : P.eval env K = .ok out) {inits : List Nat} (hinits : ∀ n ∈ inits, 0 < n) :
    (P.cursor env).passes inits (P.cursor env).start K =
      inits.map (fun _ => ⟨out, .finished⟩) :=
  (rewinds_cursor h).passes hinits

/-- A row with one number. -/
def numbered (n : Int64) : Row := .ofValues ["n"] [.integer n]

/-- A pipeline that counts how often each of some numbers occurs and returns the second and third
of the most frequent ones. Every stage but the two at the bottom remembers something. -/
def tally : Pipeline :=
  window
    (sort
      (aggregate
        (append (rows [numbered 1, numbered 2] none)
          (distinct (rows [numbered 2, numbered 3, numbered 3] none)) (some ["m"]))
        (.groupBy ["m"] ["count:*"]) [("m", "m"), ("count:*", "count")])
      [⟨.column "count", true⟩] (some 3))
    1 (some 2)

/-- Three passes of that pipeline, with several openings in the first and the last of them. -/
theorem passes_cursor_tally :
    let out := [Row.ofValues ["m", "count"] [.integer 1, .integer 1],
      Row.ofValues ["m", "count"] [.integer 3, .integer 1]]
    tally.eval ⟨[], 0, some 3⟩ .empty = .ok out ∧
      (tally.cursor ⟨[], 0, some 3⟩).passes [2, 1, 3] (tally.cursor ⟨[], 0, some 3⟩).start .empty =
        [⟨out, .finished⟩, ⟨out, .finished⟩, ⟨out, .finished⟩] :=
  ⟨rfl, passes_cursor ⟨[], 0, some 3⟩ .empty tally rfl (by decide)⟩

end Pipeline

end RecordQuery
