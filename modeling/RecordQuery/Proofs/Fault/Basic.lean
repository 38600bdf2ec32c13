import RecordQuery.Proofs.Store.Reading

set_option autoImplicit false

/-!
# Grave failures

Most failures are answers to what a program asked for: a division by zero, a key of the wrong kind.
A few say instead that a plan is not fit to be carried out, because a step before left something
undone: an operand without a value, a predicate program that does not come to a result, a sub-query
that never ran, a strategy that is missing, doubled or of the wrong sort. One more says that a
parameter has no value. What it takes to rule out failures of a class goes through sequences of
steps in the same way for each class.

## Main definitions

* `QueryError.isPlanFault`, `QueryError.isUnbound` — the failures that say so.
* `Outcome.Avoids`, `StoreM.Avoids` — a computation has no failure of a class, and what it returns
  has a property; on a store, whatever the store.
* `Outcome.Sound`, `StoreM.Sound` — that of plan faults.
* `Outcome.Safe`, `StoreM.Safe` — that of both.

## Main results

* `Outcome.Avoids.bind`, `StoreM.Avoids.bind` — sequences of such computations.
-/

namespace RecordQuery

/-- Whether a failure says that a plan is not fit to be carried out. -/
def QueryError.isPlanFault : QueryError → Bool
  | unresolvedValue _ | malformedProgram _ | subqueryNotRun _ | noStrategy .. | readsReducer
  | cannotAggregate _ | strategyCommitted .. => true
  | _ => false

/-- Whether a failure says that a parameter has no value. -/
def QueryError.isUnbound : QueryError → Bool
  | parameterUnbound _ => true
  | _ => false

/-- Whether a failure says either. -/
def QueryError.isGrave (e : QueryError) : Bool := e.isPlanFault || e.isUnbound

/-- A class of failures that are grave. -/
class QueryError.Grave (bad : QueryError → Bool) : Prop where
  /-- No other failure is in the class. -/
  le : ∀ e, e.isGrave = false → bad e = false

/-- The faults of a plan are grave. -/
instance : QueryError.Grave QueryError.isPlanFault := ⟨fun _ h => (Bool.or_eq_false_iff.mp h).1⟩

/-- Missing parameters are grave. -/
instance : QueryError.Grave QueryError.isUnbound := ⟨fun _ h => (Bool.or_eq_false_iff.mp h).2⟩

namespace Outcome

variable {α β : Type} {P : α → Prop} {Q : β → Prop} {bad : QueryError → Bool}

/-- A computation has no failure of a class, and what it returns has a property. -/
def Avoids (bad : QueryError → Bool) (P : α → Prop) : Except QueryError α → Prop
  | .ok a => P a
  | .error e => bad e = false

/-- A computation has no plan fault, and what it returns has a property. -/
abbrev Sound (P : α → Prop) (x : Except QueryError α) : Prop := Avoids QueryError.isPlanFault P x

/-- A computation has no plan fault. -/
abbrev Faultless (x : Except QueryError α) : Prop := Sound (fun _ => True) x

/-- A computation has no grave failure, and what it returns has a property. -/
abbrev Safe (P : α → Prop) (x : Except QueryError α) : Prop := Avoids QueryError.isGrave P x

/-- A computation has no grave failure. -/
abbrev Benign (x : Except QueryError α) : Prop := Safe (fun _ => True) x

namespace Avoids

/-- Something that is returned. -/
lemma ok {a : α} (h : P a) : Avoids bad P (.ok a) := h

/-- A step that only returns. -/
lemma pure {a : α} (h : P a) : Avoids bad P (Pure.pure a) := h

/-- A failure of another class. -/
lemma error {e : QueryError} (h : bad e = false) : Avoids bad P (.error e) := h

/-- A failure of another class. -/
lemma throw {e : QueryError} (h : bad e = false) :
    Avoids bad P (MonadExcept.throw e : Except QueryError α) := h

/-- **Sequences of computations that avoid a class of failures.** -/
lemma bind {x : Except QueryError α} {f : α → Except QueryError β} (h : Avoids bad P x)
    (hf : ∀ a, P a → Avoids bad Q (f a)) : Avoids bad Q (x >>= f) := by
  cases x with
  | error e => exact h
  | ok a => exact hf a h

/-- Something follows from the property. -/
lemma mono {P' : α → Prop} {x : Except QueryError α} (h : Avoids bad P x) (hP : ∀ a, P a → P' a) :
    Avoids bad P' x := by
  cases x with
  | error e => exact h
  | ok a => exact hP a h

/-- Such a computation whose outcome is changed. -/
lemma map {x : Except QueryError α} {f : α → β} (h : Avoids bad P x) (hf : ∀ a, P a → Q (f a)) :
    Avoids bad Q (f <$> x) := by
  cases x with
  | error e => exact h
  | ok a => exact hf a h

/-- What was returned has the property. -/
lemma of_eq_ok {x : Except QueryError α} {a : α} (h : Avoids bad P x) (hx : x = .ok a) : P a := by
  rw [hx] at h
  exact h

/-- The failure is of another class. -/
lemma of_eq_error {x : Except QueryError α} {e : QueryError} (h : Avoids bad P x)
    (hx : x = .error e) : bad e = false := by
  rw [hx] at h
  exact h

/-- A computation returned what it did. -/
lemma of_returned {x : Except QueryError α} (h : Avoids bad (fun _ => True) x)
    (hP : ∀ a, x = .ok a → P a) : Avoids bad P x := by
  cases x with
  | error e => exact h
  | ok a => exact hP a rfl

/-- A step on something that may be missing. -/
lemma mapM {f : α → Except QueryError β} {a : Option α} (h : ∀ b ∈ a, Avoids bad Q (f b)) :
    Avoids bad (fun b : Option β => ∀ c ∈ b, Q c) (a.mapM f) := by
  cases a with
  | none =>
    refine ok fun c hc => ?_
    cases hc
  | some a =>
    rw [Option.mapM_some]
    exact (h a rfl).map fun b hb c hc => (Option.some.inj hc) ▸ hb

/-- What has no grave failure has none of a class of them. -/
lemma of_safe [hbad : QueryError.Grave bad] {x : Except QueryError α} (h : Safe P x) :
    Avoids bad P x := by
  cases x with
  | error e => exact hbad.le e h
  | ok a => exact h

end Avoids

end Outcome

namespace StoreM

variable {α β : Type} {P : α → Prop} {Q : β → Prop} {bad : QueryError → Bool}

/-- A computation on a store has no failure of a class, whatever the store, and what it returns has
a property. -/
def Avoids (bad : QueryError → Bool) (P : α → Prop) (m : StoreM α) : Prop :=
  ∀ st : Store, Outcome.Avoids bad P (m st).1

/-- A computation on a store has no plan fault, and what it returns has a property. -/
abbrev Sound (P : α → Prop) (m : StoreM α) : Prop := m.Avoids QueryError.isPlanFault P

/-- A computation on a store has no grave failure, and what it returns has a property. -/
abbrev Safe (P : α → Prop) (m : StoreM α) : Prop := m.Avoids QueryError.isGrave P

/-- A computation on a store has no grave failure. -/
abbrev Benign (m : StoreM α) : Prop := m.Safe fun _ => True

namespace Avoids

/-- Something that is returned. -/
lemma pure {a : α} (h : P a) : Avoids bad P (Pure.pure a : StoreM α) := fun _ => h

/-- A failure of another class. -/
lemma throw {e : QueryError} (h : bad e = false) :
    Avoids bad P (MonadExcept.throw e : StoreM α) := fun _ => h

/-- A computation without the store. -/
lemma lift {x : Except QueryError α} (h : Outcome.Avoids bad P x) :
    Avoids bad P (liftM x : StoreM α) := by
  intro st
  cases x with
  | error e => exact h
  | ok a => exact h

/-- **Sequences of computations that avoid a class of failures.** The second one starts with the
store that the first one left. -/
lemma bind {m : StoreM α} {f : α → StoreM β} (h : Avoids bad P m)
    (hf : ∀ a, P a → Avoids bad Q (f a)) : Avoids bad Q (m >>= f) := by
  intro st
  have hm := h st
  change Outcome.Avoids bad Q (ExceptT.bindCont f (m st).1 (m st).2).1
  rcases hst : m st with ⟨e | a, mid⟩
  · rw [hst] at hm
    exact hm
  · rw [hst] at hm
    exact hf a hm mid

/-- Such a computation whose outcome is changed. -/
lemma map {m : StoreM α} {f : α → β} (h : Avoids bad P m) (hf : ∀ a, P a → Q (f a)) :
    Avoids bad Q (do return f (← m)) := h.bind fun a ha => pure (hf a ha)

/-- Something follows from the property. -/
lemma mono {P' : α → Prop} {m : StoreM α} (h : Avoids bad P m) (hP : ∀ a, P a → P' a) :
    Avoids bad P' m :=
  fun st => (h st).mono hP

/-- A computation that only reads, if what it reads avoids the failures on every store. -/
lemma of_reads {m : StoreM α} {outcome : Store → Except QueryError α}
    (hm : ∀ K, m.Reads K (outcome K)) (h : ∀ K, Outcome.Avoids bad P (outcome K)) :
    Avoids bad P m := by
  intro st
  obtain ⟨st', hst, -⟩ := hm st st (.refl st)
  rw [hst]
  exact h st

/-- What was returned has the property. -/
lemma of_eq_ok {m : StoreM α} (h : Avoids bad P m) {st : Store} {a : α} (ha : (m st).1 = .ok a) :
    P a :=
  (h st).of_eq_ok ha

/-- What has no grave failure has none of a class of them. -/
lemma of_safe [QueryError.Grave bad] {m : StoreM α} (h : m.Safe P) : Avoids bad P m :=
  fun st => .of_safe (h st)

end Avoids

end StoreM

end RecordQuery
