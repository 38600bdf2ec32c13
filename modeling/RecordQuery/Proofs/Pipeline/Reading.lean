import RecordQuery.Proofs.Pipeline.Listing
import RecordQuery.Proofs.Pipeline.Preparation
import RecordQuery.Proofs.Plan.Unknowns

set_option autoImplicit false

/-!
# Preparing only reads

Before a query runs, its sub-queries do. They read the store and leave its sets and indexes as they
are, so that the query itself is computed on the same records.

## Main definitions

* `StoreM.ReadsOnly` — a computation only reads, and what it returns has a property.

## Main results

* `QueryNode.readsOnly_prepare` — preparing a query only reads.
* `QueryPlan.readsOnly_prepare` — so does preparing a selection, which keeps the names of its
  columns.
-/

namespace RecordQuery

open Outcome

namespace StoreM

variable {α β : Type} {K : Store} {P : α → Prop} {Q : β → Prop}

/-- A computation only reads, on stores like a given one, and what it returns has a property. -/
def ReadsOnly (K : Store) (P : α → Prop) (m : StoreM α) : Prop :=
  ∃ outcome, m.Reads K outcome ∧ ∀ a, outcome = .ok a → P a

namespace ReadsOnly

/-- Something that is returned. -/
lemma pure {a : α} (h : P a) : ReadsOnly K P (Pure.pure a : StoreM α) :=
  ⟨.ok a, .pure a, fun _ hb => Except.ok.inj hb ▸ h⟩

/-- A computation without the store. -/
lemma lift {x : Except QueryError α} (h : ∀ a, x = .ok a → P a) :
    ReadsOnly K P (liftM x : StoreM α) := ⟨x, .lift x, h⟩

/-- **Sequences of computations that only read.** What the second one does may depend on what the
first one returned. -/
lemma bind {m : StoreM α} {f : α → StoreM β} (h : ReadsOnly K P m)
    (hf : ∀ a, P a → ReadsOnly K Q (f a)) : ReadsOnly K Q (m >>= f) := by
  obtain ⟨x, hreads, hx⟩ := h
  cases x with
  | error e =>
    refine ⟨Except.error e >>= fun _ => .error e, hreads.bind fun a ha => ?_, fun b hb => ?_⟩
    · cases ha
    · cases hb
  | ok a =>
    obtain ⟨y, hnext, hy⟩ := hf a (hx a rfl)
    refine ⟨y, hreads.bind (g := fun _ => y) fun b hb => ?_, hy⟩
    obtain rfl := Except.ok.inj hb
    exact hnext

end ReadsOnly

end StoreM

section

variable {K : Store} {env : ExecutionEnv}

/-- The results of sub-queries that only read. -/
lemma readsOnly_slotResults {ss : List SubquerySlot} {runs : List (StoreM (List Row))}
    (hruns : ∀ run ∈ runs, run.ReadsOnly K fun _ => True) :
    (slotResults (m := StoreM) ss runs).ReadsOnly K fun _ => True := by
  induction ss generalizing runs with
  | nil => exact .pure trivial
  | cons s ss ih =>
    cases runs with
    | nil => exact .pure trivial
    | cons run runs =>
      rw [slotResults]
      refine (StoreM.ReadsOnly.lift fun _ _ => trivial).bind fun _ _ => ?_
      refine (hruns run (by simp)).bind fun rows _ => ?_
      refine (StoreM.ReadsOnly.lift fun _ _ => trivial).bind fun vs _ => ?_
      exact (ih fun r hr => hruns r (by simp [hr])).bind fun rest _ => .pure trivial

/-- The columns of a plan have kept their names. -/
def QueryPlan.SameNames (p q : QueryPlan) : Prop := q.wildcard = p.wildcard ∧ q.labels = p.labels

/-- Binding keeps the names of the columns. -/
lemma QueryPlan.sameNames_bind {p q : QueryPlan} {params : List Value}
    (h : p.bind params = .ok q) : p.SameNames q := by
  rw [QueryPlan.bind_eq] at h
  obtain ⟨source, -, h⟩ := bind_eq_ok.mp h
  obtain ⟨slots, -, h⟩ := bind_eq_ok.mp h
  have hsame := sameFrame_bindOwn h
  exact ⟨hsame.wildcard, hsame.labels⟩

mutual

/-- **Preparing a selection only reads**, and keeps the names of its columns. -/
theorem QueryPlan.readsOnly_prepare : (p : QueryPlan) →
    (p.prepare env).ReadsOnly K p.SameNames
  | ⟨table, wildcard, rowFilter, whereClause, having, reduction, distinct, joins, orderBy, offset,
      limit, source, subqueries⟩ => by
    rw [QueryPlan.prepare]
    refine (readsOnly_prepareSource source).bind fun source _ => ?_
    unfold QueryPlan.resolve
    split
    · exact .pure ⟨rfl, rfl⟩
    · refine (readsOnly_slotResults (readsOnly_slotRuns subqueries)).bind fun rs _ => .lift ?_
      intro q hq
      unfold QueryPlan.substitute at hq
      obtain ⟨c, -, hq⟩ := bind_eq_ok.mp hq
      obtain ⟨k, -, hq⟩ := bind_eq_ok.mp hq
      have hsame := QueryPlan.sameFrame_chooseStrategy hq
      exact ⟨hsame.wildcard, hsame.labels⟩

/-- Preparing a source, if there is one. -/
theorem readsOnly_prepareSource : (s : Option QueryNode) →
    (prepareSource env s).ReadsOnly K fun t => t.isSome = s.isSome
  | none => .pure rfl
  | some n => (QueryNode.readsOnly_prepare n).bind fun _ _ => .pure rfl

/-- Running a sub-query. -/
theorem SubquerySlot.readsOnly_run : (s : SubquerySlot) → (s.run env).ReadsOnly K fun _ => True
  | ⟨n, _⟩ => by
    rw [SubquerySlot.run]
    refine (QueryNode.readsOnly_prepare n).bind fun m _ => ?_
    refine (StoreM.ReadsOnly.lift fun _ _ => trivial).bind (P := fun _ => True) fun P _ => ?_
    exact ⟨_, P.reads_drain env K, fun _ _ => trivial⟩

/-- Running sub-queries. -/
theorem readsOnly_slotRuns : (ss : List SubquerySlot) →
    ∀ run ∈ slotRuns env ss, run.ReadsOnly K fun _ => True
  | [] => fun _ h => absurd h List.not_mem_nil
  | s :: ss => by
    intro run hrun
    rcases List.mem_cons.mp hrun with rfl | hrun
    · exact SubquerySlot.readsOnly_run s
    · exact readsOnly_slotRuns ss run hrun

/-- **Preparing a query only reads.** -/
theorem QueryNode.readsOnly_prepare : (n : QueryNode) →
    (n.prepare env).ReadsOnly K fun _ => True
  | .plan p => (QueryPlan.readsOnly_prepare p).bind fun _ _ => .pure trivial
  | .chain c => (ChainPlan.readsOnly_prepare c).bind fun _ _ => .pure trivial

/-- Preparing a set operation. -/
theorem ChainPlan.readsOnly_prepare : (c : ChainPlan) →
    (c.prepare env).ReadsOnly K fun _ => True
  | ⟨head, links, _, _, _⟩ => (QueryNode.readsOnly_prepare head).bind fun _ _ =>
      (readsOnly_prepareLinks links).bind fun _ _ => .pure trivial

/-- Preparing links. -/
theorem readsOnly_prepareLinks : (ls : List ChainLink) →
    (prepareLinks env ls).ReadsOnly K fun _ => True
  | [] => .pure trivial
  | ⟨n, op⟩ :: ls => by
    have hlink : (ChainLink.prepare env ⟨n, op⟩).ReadsOnly K fun _ => True :=
      (QueryNode.readsOnly_prepare n).bind fun _ _ => .pure trivial
    exact hlink.bind fun _ _ => (readsOnly_prepareLinks ls).bind fun _ _ => .pure trivial

end

end

end RecordQuery
