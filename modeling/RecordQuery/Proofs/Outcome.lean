import Mathlib.Tactic.Common
import RecordQuery.Error

set_option autoImplicit false

/-!
# Outcomes of computations

Most functions of this library fail or return something. A sequence of steps returns something only
if every step does, and what the steps returned can then be named. Two computations that go through
the same steps can be compared: one follows the other if it returns whenever the other one does,
and something that corresponds to what that one returned.

## Main definitions

* `Outcome.Follows` — a computation returns whenever another one does, and something related.
* `Outcome.Agree` — two computations return something related if both of them return.

## Main results

* `Outcome.bind_eq_ok`, `Outcome.map_eq_ok`, `Outcome.mapM_eq_ok` — what is known of the parts of a
  computation that returned.
* `Outcome.Follows.bind`, `Outcome.Agree.bind` — sequences of steps that follow each other or agree.
-/

namespace RecordQuery.Outcome

variable {α β ε : Type}

/-- A sequence of two steps returns if both do. -/
@[simp]
lemma bind_eq_ok {x : Except ε α} {f : α → Except ε β} {b : β} :
    x >>= f = .ok b ↔ ∃ a, x = .ok a ∧ f a = .ok b := by
  cases x with
  | error e => simp [bind, Except.bind]
  | ok a => simp [bind, Except.bind]

/-- A step that only returns. -/
@[simp]
lemma pure_eq_ok {a b : α} : (pure a : Except ε α) = .ok b ↔ a = b := by
  simp [pure, Except.pure]

/-- A step whose outcome is changed returns if it did. -/
@[simp]
lemma map_eq_ok {x : Except ε α} {f : α → β} {b : β} :
    f <$> x = .ok b ↔ ∃ a, x = .ok a ∧ f a = b := by
  cases x with
  | error e => simp [Functor.map, Except.map]
  | ok a => simp [Functor.map, Except.map]

/-- What a computation returned tells its outcome. -/
lemma eq_ok_of_toOption {x : Except ε α} {a : α} (h : x.toOption = some a) : x = .ok a := by
  cases x with
  | error e => cases h
  | ok b => rw [Option.some.inj h]

/-- A failure does not return. -/
@[simp]
lemma throw_ne_ok {e : ε} {a : α} : (throw e : Except ε α) = .ok a ↔ False := by
  simp [throw, throwThe, MonadExceptOf.throw]

/-- A sequence of steps that begins with one that returned. -/
@[simp]
lemma ok_bind (a : α) (f : α → Except ε β) : (Except.ok a >>= f) = f a := rfl

/-- A sequence of steps that begins with a failure. -/
@[simp]
lemma error_bind (e : ε) (f : α → Except ε β) :
    ((Except.error e : Except ε α) >>= f) = .error e := rfl

/-- A step on something that may be missing. -/
lemma mapM_eq_ok {f : α → Except ε β} {a : Option α} {b : Option β} (h : a.mapM f = .ok b) :
    (a = none ∧ b = none) ∨ ∃ x y, a = some x ∧ b = some y ∧ f x = .ok y := by
  cases a with
  | none =>
    left
    simpa [Option.mapM_none, pure, Except.pure, eq_comm] using h
  | some x =>
    right
    simp only [Option.mapM_some, map_eq_ok] at h
    obtain ⟨y, hy, hb⟩ := h
    exact ⟨x, y, rfl, hb.symm, hy⟩

/-- What is the same of the elements of a list and of what they become, is the same of the lists. -/
lemma map_eq_map_of_mapM {γ : Type} {f : α → Except ε β} {g : α → γ} {k : β → γ} {as : List α}
    {bs : List β} (h : as.mapM f = .ok bs) (hf : ∀ a ∈ as, ∀ b, f a = .ok b → k b = g a) :
    bs.map k = as.map g := by
  induction as generalizing bs with
  | nil =>
    obtain rfl := Except.ok.inj h
    rfl
  | cons a as ih =>
    simp only [List.mapM_cons, bind_eq_ok, pure_eq_ok] at h
    obtain ⟨b, hb, rest, hrest, rfl⟩ := h
    rw [List.map_cons, List.map_cons, hf a List.mem_cons_self b hb,
      ih hrest fun c hc => hf c (List.mem_cons_of_mem a hc)]

/-! ## Computations that follow others -/

/-- Whenever the first computation returns, the second one does, and what they return is related. -/
def Follows (R : α → β → Prop) (x : Except ε α) (y : Except ε β) : Prop :=
  ∀ a, x = .ok a → ∃ b, y = .ok b ∧ R a b

namespace Follows

variable {γ δ : Type} {R : α → β → Prop} {S : γ → δ → Prop} {x : Except ε α} {y : Except ε β}

/-- Two computations that return something related. -/
lemma ok {a : α} {b : β} (h : R a b) : Follows (ε := ε) R (.ok a) (.ok b) := by
  intro a' ha
  obtain rfl := Except.ok.inj ha
  exact ⟨b, rfl, h⟩

/-- Two steps that only return. -/
lemma pure {a : α} {b : β} (h : R a b) :
    Follows R (Pure.pure a : Except ε α) (Pure.pure b : Except ε β) := ok h

/-- Everything follows a failure. -/
lemma error (e : ε) : Follows R (.error e) y := fun _ ha => nomatch ha

/-- Everything follows a failure. -/
lemma throw (e : ε) : Follows R (MonadExcept.throw e : Except ε α) y := error e

/-- A computation that returns follows itself. -/
lemma of_eq (x : Except ε α) : Follows Eq x x := fun a ha => ⟨a, ha, rfl⟩

/-- A computation follows itself if it relates what it returns to itself. -/
lemma refl {R : α → α → Prop} (h : ∀ a, x = .ok a → R a a) : Follows R x x :=
  fun a ha => ⟨a, ha, h a ha⟩

/-- **Sequences of steps that follow each other.** -/
lemma bind {f : α → Except ε γ} {g : β → Except ε δ} (h : Follows R x y)
    (hf : ∀ a b, R a b → Follows S (f a) (g b)) : Follows S (x >>= f) (y >>= g) := by
  intro c hc
  obtain ⟨a, ha, hfa⟩ := bind_eq_ok.mp hc
  obtain ⟨b, hb, hab⟩ := h a ha
  obtain ⟨d, hd, hcd⟩ := hf a b hab c hfa
  exact ⟨d, bind_eq_ok.mpr ⟨b, hb, hd⟩, hcd⟩

/-- Steps that follow each other whose outcomes are changed. -/
lemma map {f : α → γ} {g : β → δ} (h : Follows R x y) (hf : ∀ a b, R a b → S (f a) (g b)) :
    Follows S (do return f (← x)) (do return g (← y)) :=
  h.bind fun a b hab => pure (hf a b hab)

/-- What is related is what was returned. -/
lemma returned (h : Follows R x y) : Follows (fun a b => R a b ∧ x = .ok a ∧ y = .ok b) x y := by
  intro a ha
  obtain ⟨b, hb, hab⟩ := h a ha
  exact ⟨b, hb, hab, ha, hb⟩

/-- What a computation returns is related to itself if the computation follows itself. -/
lemma self {R : α → α → Prop} (h : Follows R x x) {a : α} (ha : x = .ok a) : R a a := by
  obtain ⟨b, hb, hab⟩ := h a ha
  obtain rfl := Except.ok.inj (ha.symm.trans hb)
  exact hab

/-- A relation that says less. -/
lemma mono {R' : α → β → Prop} (h : Follows R x y) (hR : ∀ a b, R a b → R' a b) :
    Follows R' x y := by
  intro a ha
  obtain ⟨b, hb, hab⟩ := h a ha
  exact ⟨b, hb, hR a b hab⟩

end Follows

/-! ## Computations that agree -/

/-- If both computations return, what they return is related. -/
def Agree (R : α → β → Prop) (x : Except ε α) (y : Except ε β) : Prop :=
  ∀ a b, x = .ok a → y = .ok b → R a b

namespace Agree

variable {γ δ : Type} {R : α → β → Prop} {S : γ → δ → Prop} {x : Except ε α} {y : Except ε β}

/-- Two computations that return something related. -/
lemma ok {a : α} {b : β} (h : R a b) : Agree (ε := ε) R (.ok a) (.ok b) := by
  intro a' b' ha hb
  obtain rfl := Except.ok.inj ha
  obtain rfl := Except.ok.inj hb
  exact h

/-- Two steps that only return. -/
lemma pure {a : α} {b : β} (h : R a b) :
    Agree R (Pure.pure a : Except ε α) (Pure.pure b : Except ε β) := ok h

/-- A failure agrees with everything. -/
lemma error (e : ε) : Agree R (.error e) y := fun _ _ ha => nomatch ha

/-- A computation agrees with itself. -/
lemma of_eq (x : Except ε α) : Agree Eq x x :=
  fun _ _ ha hb => Except.ok.inj (ha.symm.trans hb)

/-- **Sequences of steps that agree.** -/
lemma bind {f : α → Except ε γ} {g : β → Except ε δ} (h : Agree R x y)
    (hf : ∀ a b, R a b → Agree S (f a) (g b)) : Agree S (x >>= f) (y >>= g) := by
  intro c d hc hd
  obtain ⟨a, ha, hfa⟩ := bind_eq_ok.mp hc
  obtain ⟨b, hb, hgb⟩ := bind_eq_ok.mp hd
  exact hf a b (h a b ha hb) c d hfa hgb

/-- What becomes of two computations that agree. -/
lemma map {f : α → γ} {g : β → δ} (h : Agree R x y) (hf : ∀ a b, R a b → S (f a) (g b)) :
    Agree S (x.map f) (y.map g) := by
  intro c d hc hd
  obtain ⟨a, ha, rfl⟩ := map_eq_ok.mp hc
  obtain ⟨b, hb, rfl⟩ := map_eq_ok.mp hd
  exact hf a b (h a b ha hb)

/-- What is related is what was returned. -/
lemma returned (h : Agree R x y) : Agree (fun a b => R a b ∧ x = .ok a ∧ y = .ok b) x y :=
  fun a b ha hb => ⟨h a b ha hb, ha, hb⟩

end Agree

end RecordQuery.Outcome
