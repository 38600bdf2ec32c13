import RecordQuery.Plan.Basic
import RecordQuery.Proofs.Outcome

set_option autoImplicit false

/-!
# Related queries

Queries contain others: the source of a selection, the sub-queries of its condition, and the parts
of a set operation. A relation between selections says how two queries of the same shape correspond,
selection by selection.

## Main definitions

* `QueryPlan.Related`, `QueryNode.Related` — queries of one shape with related selections.
* `QueryPlan.All`, `QueryNode.All` — queries all of whose selections and set operations have a
  property each.

## Main results

* `QueryNode.Related.firstPlan` — the selections that name the columns are related.
-/

namespace RecordQuery

variable {S : QueryPlan → QueryPlan → Prop}

mutual

/-- Two selections are related, and so are their sources and their sub-queries. -/
inductive QueryPlan.Related (S : QueryPlan → QueryPlan → Prop) : QueryPlan → QueryPlan → Prop
  /-- Related selections with related queries inside them. -/
  | intro {p p' : QueryPlan} : S p p' → SourceRelated S p.source p'.source →
      SlotsRelated S p.subqueries p'.subqueries → QueryPlan.Related S p p'

/-- Both selections read the store, or their sources are related. -/
inductive SourceRelated (S : QueryPlan → QueryPlan → Prop) :
    Option QueryNode → Option QueryNode → Prop
  /-- Neither has a source. -/
  | none : SourceRelated S none none
  /-- Both have one. -/
  | some {n n' : QueryNode} : QueryNode.Related S n n' → SourceRelated S (some n) (some n')

/-- There are equally many sub-queries for the same uses, and they are related. -/
inductive SlotsRelated (S : QueryPlan → QueryPlan → Prop) :
    List SubquerySlot → List SubquerySlot → Prop
  /-- There are none. -/
  | nil : SlotsRelated S [] []
  /-- A sub-query more. -/
  | cons {n n' : QueryNode} {context : SubqueryContext} {ss ss' : List SubquerySlot} :
      QueryNode.Related S n n' → SlotsRelated S ss ss' →
      SlotsRelated S (⟨n, context⟩ :: ss) (⟨n', context⟩ :: ss')

/-- Two queries of the same shape with related selections. -/
inductive QueryNode.Related (S : QueryPlan → QueryPlan → Prop) : QueryNode → QueryNode → Prop
  /-- Selections. -/
  | plan {p p' : QueryPlan} : QueryPlan.Related S p p' → QueryNode.Related S (.plan p) (.plan p')
  /-- Set operations. -/
  | chain {c c' : ChainPlan} : ChainPlan.Related S c c' →
      QueryNode.Related S (.chain c) (.chain c')

/-- The same set operations on related queries. -/
inductive ChainPlan.Related (S : QueryPlan → QueryPlan → Prop) : ChainPlan → ChainPlan → Prop
  /-- A first query and those that are put to it. -/
  | intro {n n' : QueryNode} {ls ls' : List ChainLink} (orderBy : List OrderSpec)
      (offset limit : Option RowBound) : QueryNode.Related S n n' → LinksRelated S ls ls' →
      ChainPlan.Related S ⟨n, ls, orderBy, offset, limit⟩ ⟨n', ls', orderBy, offset, limit⟩

/-- Related queries are put to others by the same operators. -/
inductive LinksRelated (S : QueryPlan → QueryPlan → Prop) : List ChainLink → List ChainLink → Prop
  /-- There are none. -/
  | nil : LinksRelated S [] []
  /-- A query more. -/
  | cons {n n' : QueryNode} {op : SetOperator} {ls ls' : List ChainLink} :
      QueryNode.Related S n n' → LinksRelated S ls ls' →
      LinksRelated S (⟨n, op⟩ :: ls) (⟨n', op⟩ :: ls')

end

/-- Related selections are related as such. -/
lemma QueryPlan.Related.self {p p' : QueryPlan} (h : p.Related S p') : S p p' := by
  cases h with
  | intro h _ _ => exact h

/-- The sources of related selections. -/
lemma QueryPlan.Related.source {p p' : QueryPlan} (h : p.Related S p') :
    SourceRelated S p.source p'.source := by
  cases h with
  | intro _ h _ => exact h

/-- The sub-queries of related selections. -/
lemma QueryPlan.Related.subqueries {p p' : QueryPlan} (h : p.Related S p') :
    SlotsRelated S p.subqueries p'.subqueries := by
  cases h with
  | intro _ _ h => exact h

/-- Both selections have a source or neither has. -/
lemma SourceRelated.isSome_eq {s s' : Option QueryNode} (h : SourceRelated S s s') :
    s.isSome = s'.isSome := by
  cases h <;> rfl

/-- There are equally many sub-queries. -/
lemma SlotsRelated.length_eq {ss ss' : List SubquerySlot} (h : SlotsRelated S ss ss') :
    ss.length = ss'.length := by
  induction ss generalizing ss' with
  | nil => cases h; rfl
  | cons s ss ih =>
    cases h with
    | cons hn hs => rw [List.length_cons, List.length_cons, ih hs]

/-- There are sub-queries in both lists or in neither. -/
lemma SlotsRelated.isEmpty_eq {ss ss' : List SubquerySlot} (h : SlotsRelated S ss ss') :
    ss.isEmpty = ss'.isEmpty := by
  cases h <;> rfl

/-- A sub-query more at the end. -/
lemma SlotsRelated.concat {ss ss' : List SubquerySlot} {n n' : QueryNode}
    (h : SlotsRelated S ss ss') (hn : n.Related S n') (context : SubqueryContext) :
    SlotsRelated S (ss ++ [⟨n, context⟩]) (ss' ++ [⟨n', context⟩]) := by
  induction ss generalizing ss' with
  | nil =>
    cases h
    exact .cons hn .nil
  | cons s ss ih =>
    cases h with
    | cons hs hss => exact .cons hs (ih hss)

/-- Links behind others. -/
lemma LinksRelated.append {ls ls' ks ks' : List ChainLink} (h : LinksRelated S ls ls')
    (hk : LinksRelated S ks ks') : LinksRelated S (ls ++ ks) (ls' ++ ks') := by
  induction ls generalizing ls' with
  | nil =>
    cases h
    exact hk
  | cons l ls ih =>
    cases h with
    | cons hn hls => exact .cons hn (ih hls)

mutual

/-- **The selections that name the columns are related.** -/
theorem QueryNode.Related.firstPlan : {n n' : QueryNode} → n.Related S n' →
    S n.firstPlan n'.firstPlan
  | _, _, .plan h => h.self
  | _, _, .chain h => h.firstPlan

/-- The selections that name the columns of set operations are related. -/
theorem ChainPlan.Related.firstPlan : {c c' : ChainPlan} → c.Related S c' →
    S c.firstPlan c'.firstPlan
  | _, _, .intro _ _ _ h _ => h.firstPlan

end

/-! ## Selections and set operations -/

section All

variable {B : QueryPlan → Prop} {C : ChainPlan → Prop}

mutual

/-- A selection and all queries inside it have a property, selections one and set operations another
one. -/
inductive QueryPlan.All (B : QueryPlan → Prop) (C : ChainPlan → Prop) : QueryPlan → Prop
  /-- A selection and the queries inside it. -/
  | intro {p : QueryPlan} : B p → SourceAll B C p.source → SlotsAll B C p.subqueries →
      QueryPlan.All B C p

/-- The source of a selection has the properties, if it has one. -/
inductive SourceAll (B : QueryPlan → Prop) (C : ChainPlan → Prop) : Option QueryNode → Prop
  /-- There is no source. -/
  | none : SourceAll B C none
  /-- There is one. -/
  | some {n : QueryNode} : QueryNode.All B C n → SourceAll B C (some n)

/-- Sub-queries have the properties. -/
inductive SlotsAll (B : QueryPlan → Prop) (C : ChainPlan → Prop) : List SubquerySlot → Prop
  /-- There are none. -/
  | nil : SlotsAll B C []
  /-- A sub-query more. -/
  | cons {n : QueryNode} {context : SubqueryContext} {ss : List SubquerySlot} :
      QueryNode.All B C n → SlotsAll B C ss → SlotsAll B C (⟨n, context⟩ :: ss)

/-- All selections and set operations of a query have the properties. -/
inductive QueryNode.All (B : QueryPlan → Prop) (C : ChainPlan → Prop) : QueryNode → Prop
  /-- Selections. -/
  | plan {p : QueryPlan} : QueryPlan.All B C p → QueryNode.All B C (.plan p)
  /-- Set operations. -/
  | chain {c : ChainPlan} : ChainPlan.All B C c → QueryNode.All B C (.chain c)

/-- A set operation and the queries in it have the properties. -/
inductive ChainPlan.All (B : QueryPlan → Prop) (C : ChainPlan → Prop) : ChainPlan → Prop
  /-- A first query and those that are put to it. -/
  | intro {c : ChainPlan} : C c → QueryNode.All B C c.head → LinksAll B C c.links →
      ChainPlan.All B C c

/-- The queries that are put to others have the properties. -/
inductive LinksAll (B : QueryPlan → Prop) (C : ChainPlan → Prop) : List ChainLink → Prop
  /-- There are none. -/
  | nil : LinksAll B C []
  /-- A query more. -/
  | cons {n : QueryNode} {op : SetOperator} {ls : List ChainLink} :
      QueryNode.All B C n → LinksAll B C ls → LinksAll B C (⟨n, op⟩ :: ls)

end

/-- A selection has the property. -/
lemma QueryPlan.All.self {p : QueryPlan} (h : p.All B C) : B p := by
  cases h with
  | intro h _ _ => exact h

/-- The source of a selection. -/
lemma QueryPlan.All.source {p : QueryPlan} (h : p.All B C) : SourceAll B C p.source := by
  cases h with
  | intro _ h _ => exact h

/-- The sub-queries of a selection. -/
lemma QueryPlan.All.subqueries {p : QueryPlan} (h : p.All B C) : SlotsAll B C p.subqueries := by
  cases h with
  | intro _ _ h => exact h

/-- Sub-queries each of which has a property. -/
lemma SlotsAll.of_forall {ss : List SubquerySlot} (h : ∀ s ∈ ss, s.node.All B C) :
    SlotsAll B C ss := by
  induction ss with
  | nil => exact .nil
  | cons s ss ih =>
    obtain ⟨node, context⟩ := s
    exact .cons (h ⟨node, context⟩ (by simp)) (ih fun t ht => h t (by simp [ht]))

/-- Links behind others. -/
lemma LinksAll.append {ls ks : List ChainLink} (h : LinksAll B C ls) (hk : LinksAll B C ks) :
    LinksAll B C (ls ++ ks) := by
  induction ls with
  | nil => exact hk
  | cons l ls ih =>
    cases h with
    | cons hn hls => exact .cons hn (ih hls)

end All

end RecordQuery
