import RecordQuery.Pipeline.OfPlan
import RecordQuery.Proofs.Cursor.Buffering
import RecordQuery.Proofs.Cursor.Expanding
import RecordQuery.Proofs.Cursor.Passing
import RecordQuery.Proofs.Pipeline.Join
import RecordQuery.Proofs.StableSort

set_option autoImplicit false

/-!
# Listings of pipelines

What a pipeline returns is fixed by the sets and indexes of the store. It is described stage by
stage; the cursor of the pipeline, which remembers where it is, asks the store for little at a time
and bounds its loops, returns just that.

## Main definitions

* `Pipeline.listing` — the rows of a pipeline, and the failure behind them.

## Main results

* `Pipeline.lists_cursor` — the cursor of a pipeline has its listing.
* `Pipeline.reads_drain` — a pipeline is read to the end of its listing.
-/

namespace RecordQuery

/-! ## Sorting -/

/-- A sort holds all rows, the last one first.

**Proof sketch.** By induction on the rows: holding one puts it in front of those held so far, with
its key and if there is room. -/
lemma map_snd_fold_holdRow {env : ExecutionEnv} {order : List OrderSpec}
    {failure : Option QueryError} {rows : List Row} {held all : List KeyedRow}
    (h : Listing.fold (holdRow env order) failure held rows = .ok all) :
    all.map Prod.snd = rows.reverse ++ held.map Prod.snd := by
  induction rows generalizing held with
  | nil =>
    cases failure with
    | some e => cases h
    | none =>
      obtain rfl := Except.ok.inj h
      rfl
  | cons row rows ih =>
    simp only [Listing.fold, Outcome.bind_eq_ok] at h
    obtain ⟨next, hnext, h⟩ := h
    have hheld : next.map Prod.snd = row :: held.map Prod.snd := by
      unfold holdRow at hnext
      split at hnext
      · split at hnext
        · cases hnext
        · simp only [Outcome.bind_eq_ok, Outcome.pure_eq_ok] at hnext
          obtain ⟨key, -, rfl⟩ := hnext
          rfl
      · simp only [Outcome.bind_eq_ok, Outcome.pure_eq_ok] at hnext
        obtain ⟨key, -, rfl⟩ := hnext
        rfl
    rw [ih h, hheld, List.reverse_cons, List.append_assoc, List.singleton_append]

/-- A sort holds as many rows as it is given. -/
lemma length_fold_holdRow {env : ExecutionEnv} {order : List OrderSpec}
    {failure : Option QueryError} {rows : List Row} {held all : List KeyedRow}
    (h : Listing.fold (holdRow env order) failure held rows = .ok all) :
    all.length = held.length + rows.length := by
  have hrows := congrArg List.length (map_snd_fold_holdRow h)
  rw [List.length_map, List.length_append, List.length_reverse, List.length_map] at hrows
  omega

/-- A sort returns no more rows than it holds. -/
lemma length_sortKeyed_le (order : List OrderSpec) (top : Option Nat) (held : List KeyedRow) :
    (sortKeyed order top held).length ≤ held.length := by
  have hsorted : ((stableSort (fun a b : KeyedRow => compareKeys order a.1 b.1 == .lt)
      held).map Prod.snd).length = held.length := by
    rw [List.length_map, (perm_stableSort _ held).length_eq]
  cases top with
  | none => exact Nat.le_of_eq hsorted
  | some n =>
    simp only [sortKeyed, List.length_take]
    omega

/-- A sort returns no more rows than it is given. -/
lemma length_sortKeyed_fold_le {env : ExecutionEnv} {order : List OrderSpec} {top : Option Nat}
    {failure : Option QueryError} {rows : List Row} {all : List KeyedRow}
    (h : Listing.fold (holdRow env order) failure [] rows = .ok all) :
    (sortKeyed order top all.reverse).length ≤ rows.length := by
  have hle := length_sortKeyed_le order top all.reverse
  rw [List.length_reverse, length_fold_holdRow h, List.length_nil, Nat.zero_add] at hle
  exact hle

/-! ## Pipelines -/

namespace Pipeline

/-- The rows of a pipeline, and the failure behind them; or the failure of opening it. -/
def listing (env : ExecutionEnv) (K : Store) : Pipeline → Except QueryError Listing
  | rows items failAt => .ok (.ofGiven items failAt)
  | fetch access => (access.found K).map .ofRows
  | reduce access mapping => (access.groups mapping K).map .ofRows
  | filter input condition =>
    (input.listing env K).map (.filter (fun row => condition.holdsOn env.params row))
  | window input offset limit => (input.listing env K).map (.window offset limit)
  | distinct input => (input.listing env K).map .distinct
  | compute input columns labels =>
    (input.listing env K).map (.mapRows (computeRow env.params columns labels))
  | sort input order top =>
    (input.listing env K).map (.buffered (holdRow env order) []
      (fun held => sortKeyed order top held.reverse))
  | append first second labels =>
    (do return (← first.listing env K).append (← second.listing env K) :
      Except QueryError Listing).map (.mapRows (fun row => .ok (relabel labels row)))
  | aggregate input call mapping => input.listing env K >>= Listing.grouped call mapping
  | join input spec => (input.listing env K).map (.expand (spec.rowsFor K))
  | project input projection => (input.listing env K).map (.mapRows projection.row)

/-- **The cursor of a pipeline has its listing.** By induction on the pipeline: every stage turns
the listings of the cursors below it into its own. -/
theorem lists_cursor (env : ExecutionEnv) (K : Store) (P : Pipeline) :
    (P.cursor env).Lists K (P.cursor env).start (P.listing env K) := by
  induction P with
  | rows items failAt => exact Cursor.lists_ofRows items failAt 0
  | fetch access => exact Cursor.lists_ofLoad (access.reads_load env.batchSize K) access.bound
  | reduce access mapping =>
    exact Cursor.lists_ofLoad (access.reads_loadGroups mapping K) access.bound
  | filter input condition ih => exact ih.filter _
  | window input offset limit ih => exact ih.window offset limit (offset, 0)
  | distinct input ih => exact ih.distinct []
  | compute input columns labels ih => exact ih.mapRows _
  | sort input order top ih =>
    exact ih.buffered _ _ _ (fun _ _ _ => length_sortKeyed_fold_le) none
  | append first second labels ih ih' => exact (ih.append ih' .first).mapRows _
  | aggregate input call mapping ih => exact ih.grouped call mapping
  | join input spec ih =>
    exact ih.expand (fun row => spec.reads_joinRow env.batchSize K row)
      (fun row out st hout hst => JoinSpec.length_rowsFor_le hout hst) []
  | project input projection ih => exact ih.mapRows _

/-- **A pipeline is read to the end of its listing.** -/
theorem reads_drain (env : ExecutionEnv) (K : Store) (P : Pipeline) :
    (P.cursor env).drain.Reads K (P.listing env K >>= Listing.complete) :=
  (P.lists_cursor env K).drain

end Pipeline

end RecordQuery
