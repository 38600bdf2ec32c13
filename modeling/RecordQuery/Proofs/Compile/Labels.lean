import RecordQuery.Proofs.Compile.Growth
import RecordQuery.Proofs.Compile.Where
import RecordQuery.Proofs.Plan.Unknowns

set_option autoImplicit false

/-!
# Selections that name their columns

A selection returns all columns only if a star says so. Without one every returned column is named,
and conditions, groupings and orders do not change that.

## Main results

* `wildcard_compileSelect` — a selection without a star returns the columns that it names.
-/

namespace RecordQuery

open Outcome

section

variable {p q : QueryPlan} {scope : Scope} {groups : List String}

/-- Conditions ask for no columns. -/
lemma wildcard_compileWhere {compileSub : Query → Except QueryError QueryNode} {condition : Expr}
    (h : compileWhere compileSub scope p condition = .ok q) : q.wildcard = p.wildcard := by
  unfold compileWhere at h
  obtain ⟨routed, -, h⟩ := bind_eq_ok.mp h
  simp only at h
  split at h
  · obtain ⟨m, hm, h⟩ := bind_eq_ok.mp h
    obtain ⟨joins, -, h⟩ := bind_eq_ok.mp h
    obtain rfl := Except.ok.inj h
    rcases compileMain_cases hm with ⟨-, parts, slots, -, -, rfl⟩ | ⟨-, rfl⟩
    · rfl
    · rfl
  · obtain ⟨m, hm, h⟩ := bind_eq_ok.mp h
    obtain ⟨joins, -, h⟩ := bind_eq_ok.mp h
    obtain rfl := Except.ok.inj hm
    obtain rfl := Except.ok.inj h
    rfl

/-- Sources are asked for no columns yet. -/
lemma wildcard_compileSource {env : CompileEnv}
    {compileSub : Query → Except QueryError QueryNode} {table : TableExpr}
    (h : compileSource env compileSub table = .ok p) : p.wildcard = false := by
  cases table with
  | named name rename =>
    obtain rfl := Except.ok.inj h
    rfl
  | derived q rename =>
    obtain ⟨n, -, h⟩ := bind_eq_ok.mp h
    obtain rfl := Except.ok.inj h
    rfl

/-- A step for something that may be missing. -/
lemma wildcard_withOption {α : Type} {step : QueryPlan → α → Except QueryError QueryPlan}
    {a : Option α} (hstep : ∀ b q, step p b = .ok q → q.wildcard = p.wildcard)
    (h : p.withOption step a = .ok q) : q.wildcard = p.wildcard := by
  cases a with
  | none =>
    obtain rfl := Except.ok.inj h
    rfl
  | some b => exact hstep b q h

/-- The condition on groups. -/
lemma wildcard_addHaving {e : Expr} (h : addHaving scope groups p e = .ok q) :
    q.wildcard = p.wildcard := by
  obtain ⟨m, hm, rfl⟩ := addHaving_grows (A := False) (E := fun _ => True) h
  exact hm.wildcard_eq

/-- The reduction. -/
lemma wildcard_addReduction {grouping : Option (List String)} {distinct : Bool}
    (h : addReduction grouping distinct p = .ok q) : q.wildcard = p.wildcard := by
  unfold addReduction at h
  split at h
  · obtain rfl := Except.ok.inj h
    rfl
  · split at h
    · obtain ⟨r, -, h⟩ := bind_eq_ok.mp h
      obtain rfl := Except.ok.inj h
      rfl
    · obtain rfl := Except.ok.inj h
      rfl

/-- Limits and strategies. -/
lemma wildcard_finishSelect {limit offset : Option Expr}
    (h : finishSelect limit offset p = .ok q) : q.wildcard = p.wildcard := by
  unfold finishSelect at h
  split at h
  · cases h
  · obtain ⟨o, -, h⟩ := bind_eq_ok.mp h
    obtain ⟨l, -, h⟩ := bind_eq_ok.mp h
    obtain ⟨joins, -, h⟩ := bind_eq_ok.mp h
    obtain ⟨s, rfl⟩ := QueryPlan.eq_of_chooseStrategy h
    rfl

/-- **A selection without a star returns the columns that it names.**

**Proof sketch.** Every step after the source is known to have returned. A star among the items is
the only thing that asks for all columns, and no other step changes what the plan asks for, as the
chain of equations says. -/
theorem wildcard_compileSelect {env : CompileEnv}
    {compileSub : Query → Except QueryError QueryNode} {s : Select} {limit offset : Option Expr}
    (hitems : .all ∉ s.items) (h : compileSelect env compileSub s [] limit offset = .ok p) :
    p.wildcard = false := by
  unfold compileSelect at h
  obtain ⟨source, hsource, h⟩ := bind_eq_ok.mp h
  obtain ⟨⟨joins, scope⟩, -, h⟩ := bind_eq_ok.mp h
  simp only at h
  split at h
  · cases h
  obtain ⟨groups, -, h⟩ := bind_eq_ok.mp h
  split at h
  · cases h
  obtain ⟨shown, hshown, h⟩ := bind_eq_ok.mp h
  obtain ⟨filtered, hfiltered, h⟩ := bind_eq_ok.mp h
  obtain ⟨grouped, hgrouped, h⟩ := bind_eq_ok.mp h
  obtain ⟨⟨order, ordered⟩, hordered, h⟩ := bind_eq_ok.mp h
  obtain ⟨reduced, hreduced, h⟩ := bind_eq_ok.mp h
  have hsame : grouped = ordered := congrArg Prod.snd (Except.ok.inj hordered)
  have hnamed := wildcard_compileSource hsource
  calc p.wildcard = reduced.wildcard := wildcard_finishSelect h
    _ = ({ ordered with orderBy := order } : QueryPlan).wildcard := wildcard_addReduction hreduced
    _ = grouped.wildcard := by rw [hsame]
    _ = filtered.wildcard := wildcard_withOption (fun _ _ => wildcard_addHaving) hgrouped
    _ = shown.wildcard := wildcard_withOption (fun _ _ => wildcard_compileWhere) hfiltered
    _ = ({ source with joins } : QueryPlan).wildcard :=
      (addItems_grows (A := False) (E := fun _ => True) hitems
        (fun _ _ _ => trivial) hshown).wildcard_eq
    _ = false := hnamed

end

end RecordQuery
