import RecordQuery.Proofs.Duplicates
import RecordQuery.Proofs.Pipeline.Labels
import RecordQuery.Proofs.Pipeline.Passes
import RecordQuery.Proofs.Pipeline.Reading
import RecordQuery.Proofs.Value.Encoding

set_option autoImplicit false

/-!
# Pipelines of set operations

A set operation flattens the selections along its left side into a first query and links that are
put to it one after the other. What comes out are the lists of values that the operations say, under
the labels of the first query.

## Main definitions

* `SetOperator.eval` — what a set operation makes of two lists of rows, given by their values.
* `Pipeline.Shows` — a pipeline returns rows with given values under given labels.
* `QueryNode.Returns` — so does a query once it is prepared.
* `LinksReturn` — so do a first query and its links.

## Main results

* `Pipeline.Shows.linked` — a link does what its operator says.
* `LinksReturn.concat` — a link more.
* `LinksReturn.chain` — a first query and its links make a query.
-/

namespace RecordQuery

open Outcome

/-! ## Operators -/

/-- What a set operation makes of two lists of rows, given by their values: all rows, those of the
first list first, and without `ALL` only the first row of each list of values. -/
def SetOperator.eval : SetOperator → List (List Value) → List (List Value) → List (List Value)
  | .unionAll, vs, ws => vs ++ ws
  | .union, vs, ws => (vs ++ ws).eraseDupsBy Value.identicalList

/-- No row comes from nowhere. -/
lemma SetOperator.mem_eval {op : SetOperator} {vs ws : List (List Value)} {v : List Value}
    (h : v ∈ op.eval vs ws) : v ∈ vs ∨ v ∈ ws := by
  cases op with
  | unionAll => exact List.mem_append.mp h
  | union => exact List.mem_append.mp (mem_of_mem_eraseDupsBy h)

/-- **Rows are duplicates of each other if their values are the same.** -/
lemma contentKey_beq {row other : Row} (hrow : Value.areSized row.values = true)
    (hother : Value.areSized other.values = true) :
    (row.contentKey == other.contentKey) = Value.identicalList row.values other.values := by
  rw [Bool.eq_iff_iff, beq_iff_eq, Value.identicalList_iff]
  exact ⟨Value.encodeRow_inj hrow hother, congrArg Value.encodeRow⟩

/-! ## Pipelines -/

/-- A pipeline returns rows with given values under given labels. -/
def Pipeline.Shows (env : ExecutionEnv) (K : Store) (P : Pipeline) (labels : List String)
    (values : List (List Value)) : Prop :=
  ∃ rows, P.listing env K = .ok (.ofRows rows) ∧ (∀ row ∈ rows, row.keys = labels) ∧
    rows.map OrderedMap.values = values

section

variable {env : ExecutionEnv} {K : Store} {P Q : Pipeline} {labels labels' : List String}
  {vs ws : List (List Value)}

/-- **A link does what its operator says**, under the labels of the first query.

**Proof sketch.** Appending shows the rows of both under the labels of the first query, since both
have as many columns as there are labels. A union drops duplicates of these rows, which are told
apart by their content, and for sized values this is to tell their values apart. -/
theorem Pipeline.Shows.linked (h : P.Shows env K labels vs) (h' : Q.Shows env K labels' ws)
    (hlabels : labels.Nodup) (hwidth : labels'.length = labels.length) (op : SetOperator)
    (hsized : ∀ v, v ∈ vs ∨ v ∈ ws → Value.areSized v = true) :
    (P.linked (some labels) op Q).Shows env K labels (op.eval vs ws) := by
  obtain ⟨rows, hP, hkeys, rfl⟩ := h
  obtain ⟨others, hQ, hkeys', rfl⟩ := h'
  have hlength : ∀ row ∈ rows ++ others, row.keys.length = labels.length := by
    intro row hrow
    rcases List.mem_append.mp hrow with hrow | hrow
    · rw [hkeys row hrow]
    · rw [hkeys' row hrow, hwidth]
  have hall : (Pipeline.append P Q (some labels)).Shows env K labels
      (rows.map OrderedMap.values ++ others.map OrderedMap.values) := by
    refine ⟨(rows ++ others).map (relabel (some labels)), ?_, fun row hrow => ?_, ?_⟩
    · simp only [Pipeline.listing, hP, hQ, ok_bind, pure, Except.pure, Except.map]
      exact congrArg Except.ok (Listing.mapRows_ofRows (rows ++ others) fun _ => rfl)
    · obtain ⟨before, hbefore, rfl⟩ := List.mem_map.mp hrow
      exact keys_relabel hlabels (hlength before hbefore)
    · rw [← List.map_append, List.map_map]
      exact List.map_congr_left fun row hrow => values_relabel hlabels (hlength row hrow)
  cases op with
  | unionAll => exact hall
  | union =>
    obtain ⟨all, hlisting, hkeysAll, hvalues⟩ := hall
    have hsizedAll : ∀ row ∈ all, Value.areSized row.values = true := by
      intro row hrow
      refine hsized row.values (List.mem_append.mp ?_)
      rw [← hvalues]
      exact List.mem_map_of_mem hrow
    refine ⟨dropDuplicates all, ?_, fun row hrow => hkeysAll row (mem_of_mem_eraseDupsBy hrow), ?_⟩
    · change (Pipeline.listing env K (.append P Q (some labels))).map Listing.distinct = _
      rw [hlisting, ← Listing.distinctRows_nil]
      rfl
    · rw [SetOperator.eval, ← hvalues]
      exact map_eraseDupsBy all fun row hrow other hother =>
        contentKey_beq (hsizedAll row hrow) (hsizedAll other hother)

/-! ## Queries -/

/-- A query that is prepared on a store names its columns and returns rows with given values. -/
def QueryNode.Returns (env : ExecutionEnv) (K : Store) (n : QueryNode) (labels : List String)
    (values : List (List Value)) : Prop :=
  ∃ m P, (n.prepare env).Reads K (.ok m) ∧ m.firstPlan.wildcard = false ∧ m.labels = labels ∧
    m.pipeline = .ok P ∧ P.Shows env K labels values

/-- So do a first query and its links. -/
def LinksReturn (env : ExecutionEnv) (K : Store) (head : QueryNode) (links : List ChainLink)
    (labels : List String) (values : List (List Value)) : Prop :=
  ∃ m ms F P, (head.prepare env).Reads K (.ok m) ∧ (prepareLinks env links).Reads K (.ok ms) ∧
    m.firstPlan.wildcard = false ∧ m.labels = labels ∧ m.pipeline = .ok F ∧
      linkPipelines (some labels) F ms = .ok P ∧ P.Shows env K labels values

/-- The pipeline with one more link. -/
lemma linkPipelines_concat (labels : Option (List String)) (F : Pipeline) (ls : List ChainLink)
    (l : ChainLink) :
    linkPipelines labels F (ls ++ [l]) = (do
      let P ← linkPipelines labels F ls
      let (op, Q) ← l.pipeline
      return P.linked labels op Q) := by
  induction ls generalizing F with
  | nil => rfl
  | cons k ls ih =>
    simp only [List.cons_append, linkPipelines, bind_assoc]
    cases k.pipeline with
    | error e => rfl
    | ok m => exact ih _

/-- Preparing one more link. -/
lemma prepareLinks_concat (ls : List ChainLink) (l : ChainLink) :
    prepareLinks env (ls ++ [l]) = (do
      let ms ← prepareLinks env ls
      let m ← l.prepare env
      return ms ++ [m]) := by
  induction ls with
  | nil => simp [prepareLinks]
  | cons k ls ih => simp [prepareLinks, ih]

/-- A query without links. -/
lemma LinksReturn.single {n : QueryNode} (h : n.Returns env K labels vs) :
    LinksReturn env K n [] labels vs := by
  obtain ⟨m, P, hprepare, hwildcard, hlabels, hpipeline, hshows⟩ := h
  exact ⟨m, [], P, P, hprepare, .pure _, hwildcard, hlabels, hpipeline, rfl, hshows⟩

/-- **A link more.** -/
theorem LinksReturn.concat {head n : QueryNode} {links : List ChainLink}
    (h : LinksReturn env K head links labels vs) (hn : n.Returns env K labels' ws)
    (hlabels : labels.Nodup) (hwidth : labels'.length = labels.length) (op : SetOperator)
    (hsized : ∀ v, v ∈ vs ∨ v ∈ ws → Value.areSized v = true) :
    LinksReturn env K head (links ++ [⟨n, op⟩]) labels (op.eval vs ws) := by
  obtain ⟨m, ms, F, P, hhead, hlinks, hwildcard, hnames, hpipeline, hlinked, hshows⟩ := h
  obtain ⟨k, Q, hprepare, -, -, hQ, hshows'⟩ := hn
  refine ⟨m, ms ++ [⟨k, op⟩], F, P.linked (some labels) op Q, hhead,
    ?_, hwildcard, hnames, hpipeline, ?_, hshows.linked hshows' hlabels hwidth op hsized⟩
  · rw [prepareLinks_concat]
    exact hlinks.andThen ((hprepare.map fun m => (⟨m, op⟩ : ChainLink)).andThen (.pure _))
  · rw [linkPipelines_concat, hlinked]
    simp only [ChainLink.pipeline, hQ, ok_bind, pure, Except.pure]

/-- **A first query and its links make a query.** -/
theorem LinksReturn.chain {head : QueryNode} {links : List ChainLink}
    (h : LinksReturn env K head links labels vs) :
    (QueryNode.chain ⟨head, links, [], none, none⟩).Returns env K labels vs := by
  obtain ⟨m, ms, F, P, hhead, hlinks, hwildcard, hnames, hpipeline, hlinked, hshows⟩ := h
  have hprepare : (ChainPlan.prepare env ⟨head, links, [], none, none⟩).Reads K
      (.ok ⟨m, ms, [], none, none⟩) := hhead.andThen (hlinks.andThen (.pure _))
  refine ⟨.chain ⟨m, ms, [], none, none⟩, P, hprepare.map QueryNode.chain, hwildcard, hnames, ?_,
    hshows⟩
  have hchain : (⟨m, ms, [], none, none⟩ : ChainPlan).pipeline = .ok P := by
    have hlabels : (if m.firstPlan.wildcard then none else some m.labels) = some labels := by
      rw [hwildcard, hnames]
      rfl
    simp only [ChainPlan.pipeline, hlabels, hpipeline, hlinked, ok_bind]
    rfl
  exact hchain

end

end RecordQuery
