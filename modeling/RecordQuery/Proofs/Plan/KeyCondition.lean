import RecordQuery.Proofs.Plan.Strategy
import RecordQuery.Proofs.Predicate.Comparison

set_option autoImplicit false

/-!
# Plans with conditions on the key

Conditions on the key are put together as they come: keys that are named are intersected, other
conditions stand side by side, and either side may be a conjunction already. Whatever the shapes
and the order, a record satisfies what comes out if its key satisfies all that went in.

## Main definitions

* `KeyCondition.Admits` — what a condition says of a key.
* `KeyCondition.verdict`, `TablePlan.keyVerdict` — the decision of the program of a condition.

## Main results

* `KeyCondition.holdsIn_iff` — the evaluation of a condition decides what it says.
* `TablePlan.exists_readingStrategy_foldl` — a plan with several more conditions on the key.
* `KeyCondition.and_exact` — conjunction is exact, for two conditions and for all of a plan.
-/

namespace RecordQuery

namespace KeyCondition

/-! ## What a condition says -/

/-- What a condition says of a key. It says nothing of what is not known. -/
inductive Admits (k : UserKey) : KeyCondition → Prop
  /-- The key is this one. -/
  | equal {l : UserKey} : k.Relates .eq l → Admits k (.equal (.key l))
  /-- The key is one of these. -/
  | among {ks : List KeyOperand} {l : UserKey} : .key l ∈ ks → k.Relates .eq l →
      Admits k (.among ks)
  /-- The key is of the kind of this one, and another. -/
  | notEqual {l : UserKey} : k.Relates .ne l → Admits k (.notEqual (.key l))
  /-- The key lies between these two. -/
  | range {low high : UserKey} : k.Relates .ge low → k.Relates .le high →
      Admits k (.range (.key low) (.key high))
  /-- The key satisfies all parts. -/
  | all {cs : List KeyCondition} : (∀ c ∈ cs, Admits k c) → Admits k (.all cs)

variable {ρ : Resolution} {k : UserKey}

/-- An equality admits the key that equals its operand. -/
lemma admits_equal_iff {o : KeyOperand} :
    Admits k (.equal o) ↔ ∃ l, o = .key l ∧ k.Relates .eq l :=
  ⟨fun | .equal hl => ⟨_, rfl, hl⟩, fun ⟨_, ho, hl⟩ => ho ▸ .equal hl⟩

/-- An inequality admits the keys that differ from its operand. -/
lemma admits_notEqual_iff {o : KeyOperand} :
    Admits k (.notEqual o) ↔ ∃ l, o = .key l ∧ k.Relates .ne l :=
  ⟨fun | .notEqual hl => ⟨_, rfl, hl⟩, fun ⟨_, ho, hl⟩ => ho ▸ .notEqual hl⟩

/-- A list admits the keys that equal one of its operands. -/
lemma admits_among_iff {os : List KeyOperand} :
    Admits k (.among os) ↔ ∃ o ∈ os, ∃ l, o = .key l ∧ k.Relates .eq l :=
  ⟨fun | .among ho hl => ⟨_, ho, _, rfl, hl⟩, fun ⟨_, ho, _, heq, hl⟩ => .among (heq ▸ ho) hl⟩

/-- A range admits the keys between its bounds, these included. -/
lemma admits_range_iff {low high : KeyOperand} :
    Admits k (.range low high) ↔
      (∃ l, low = .key l ∧ k.Relates .ge l) ∧ ∃ u, high = .key u ∧ k.Relates .le u :=
  ⟨fun | .range hl hu => ⟨⟨_, rfl, hl⟩, ⟨_, rfl, hu⟩⟩,
    fun ⟨⟨_, hlow, hl⟩, ⟨_, hhigh, hu⟩⟩ => hlow ▸ hhigh ▸ .range hl hu⟩

/-- A conjunction admits the keys that all its parts admit. -/
lemma admits_all_iff {cs : List KeyCondition} : Admits k (.all cs) ↔ ∀ c ∈ cs, Admits k c :=
  ⟨fun | .all h => h, .all⟩

/-- A key satisfies the comparison with a key that can be compared if the comparison relates
them. -/
lemma accepts_iff {o : KeyOperand} (h : o.isComparable = true) (c : Comparison) :
    ρ.accepts c k o = true ↔ ∃ l, o = .key l ∧ k.Relates c l := by
  cases o with
  | key l =>
    have hl : l.isComparable = true := h
    simp [Resolution.accepts, Resolution.key?, UserKey.satisfies_iff hl]
  | param index => cases h
  | slot slot => cases h

mutual

/-- **The evaluation of a condition decides what it says**, if its keys can be compared. -/
theorem holdsIn_iff : (c : KeyCondition) → c.isComparable = true →
    (c.holdsIn ρ k = true ↔ c.Admits k)
  | equal o, h => by
    rw [holdsIn, accepts_iff h, admits_equal_iff]
  | notEqual o, h => by
    rw [holdsIn, accepts_iff h, admits_notEqual_iff]
  | among os, h => by
    have hos := List.all_eq_true.mp h
    rw [holdsIn, List.any_eq_true, admits_among_iff]
    exact exists_congr fun o => and_congr_right fun ho => accepts_iff (hos o ho) .eq
  | range low high, h => by
    rw [isComparable, Bool.and_eq_true] at h
    rw [holdsIn, Bool.and_eq_true, accepts_iff h.1, accepts_iff h.2, admits_range_iff]
  | inSlot slot, h => by cases h
  | all cs, h => by
    rw [holdsIn, admits_all_iff, holdsAllIn_iff cs h]

/-- All of several conditions. -/
theorem holdsAllIn_iff : (cs : List KeyCondition) → areComparable cs = true →
    (holdsAllIn ρ k cs = true ↔ ∀ c ∈ cs, c.Admits k)
  | [], _ => by simp [holdsAllIn]
  | c :: cs, h => by
    rw [areComparable, Bool.and_eq_true] at h
    simp [holdsAllIn, holdsIn_iff c h.1, holdsAllIn_iff cs h.2]

end

/-! ## Decisions -/

/-- The decision of the program of a condition on a record. -/
def verdict (c : KeyCondition) (r : Record) : Except QueryError Bool := do (← c.program).run r

/-- The program of a condition whose keys can be compared decides the condition. -/
lemma verdict_eq (ρ : Resolution) {c : KeyCondition} (h : c.isComparable = true) (r : Record) :
    c.verdict r = .ok (c.holdsIn ρ r.key.user) := by
  obtain ⟨p, hp, -, hrun⟩ := program_run ρ h
  rw [verdict, hp]
  exact hrun r

end KeyCondition

namespace TablePlan

/-- The decision of the program of a plan's condition on the key. Without one every key will do. -/
def keyVerdict (t : TablePlan) (r : Record) : Except QueryError Bool :=
  match t.keyCondition with
  | some c => c.verdict r
  | none => .ok true

/-- The program of a plan's condition on the key decides it. -/
lemma keyVerdict_eq (ρ : Resolution) {t : TablePlan}
    (h : t.keyCondition.all KeyCondition.isComparable = true) (r : Record) :
    t.keyVerdict r = .ok (t.keyCondition.all (KeyCondition.holdsIn ρ r.key.user)) := by
  unfold keyVerdict
  cases hk : t.keyCondition with
  | none => rfl
  | some c =>
    have hc : c.isComparable = true := by simpa [hk] using h
    exact KeyCondition.verdict_eq ρ hc r

/-- A plan with several more conditions on the key has the conjunction of all of them. -/
lemma all_holdsIn_foldl (ρ : Resolution) (k : UserKey) (cs : List KeyCondition) (t : TablePlan) :
    (cs.foldl addKeyCondition t).keyCondition.all (KeyCondition.holdsIn ρ k) =
      (t.keyCondition.all (KeyCondition.holdsIn ρ k) && cs.all (KeyCondition.holdsIn ρ k)) := by
  induction cs generalizing t with
  | nil => simp
  | cons c cs ih =>
    have hone : (t.addKeyCondition c).keyCondition.all (KeyCondition.holdsIn ρ k) =
        (t.keyCondition.all (KeyCondition.holdsIn ρ k) && c.holdsIn ρ k) := by
      cases hk : t.keyCondition with
      | none => simp [addKeyCondition, hk]
      | some d => simp [addKeyCondition, hk, KeyCondition.holdsIn_and]
    rw [List.foldl_cons, ih, hone, List.all_cons, Bool.and_assoc]

/-- Keys that can be compared are added to such. -/
lemma all_isComparable_foldl {cs : List KeyCondition} {t : TablePlan}
    (ht : t.keyCondition.all KeyCondition.isComparable = true)
    (hcs : ∀ c ∈ cs, c.isComparable = true) :
    (cs.foldl addKeyCondition t).keyCondition.all KeyCondition.isComparable = true := by
  induction cs generalizing t with
  | nil => exact ht
  | cons c cs ih =>
    have hc := hcs c List.mem_cons_self
    refine ih ?_ fun d hd => hcs d (List.mem_cons_of_mem c hd)
    cases hk : t.keyCondition with
    | none => simpa [addKeyCondition, hk] using hc
    | some d =>
      have hd : d.isComparable = true := by simpa [hk] using ht
      simpa [addKeyCondition, hk] using KeyCondition.isComparable_and hd hc

/-- Adding conditions on the key changes nothing else of a plan. -/
lemma foldl_addKeyCondition_eq (cs : List KeyCondition) (t : TablePlan) :
    cs.foldl addKeyCondition t =
      { t with keyCondition := (cs.foldl addKeyCondition t).keyCondition } := by
  induction cs generalizing t with
  | nil => rfl
  | cons c cs ih => rw [List.foldl_cons, ih]; rfl

/-- What is added leaves a condition on the key. -/
lemma isSome_keyCondition_foldl {cs : List KeyCondition} {t : TablePlan}
    (h : t.keyCondition.isSome = true ∨ cs ≠ []) :
    (cs.foldl addKeyCondition t).keyCondition.isSome = true := by
  induction cs generalizing t with
  | nil => exact h.resolve_right (not_not_intro rfl)
  | cons c cs ih => exact ih (.inl rfl)

/-- With a condition on the key no index is used. -/
lemma readingStrategy_withoutIndexes {t : TablePlan} (h : t.keyCondition.isSome = true) :
    { t with indexes := [] }.readingStrategy = t.readingStrategy := by
  obtain ⟨c, hc⟩ := Option.isSome_iff_exists.mp h
  simp only [readingStrategy, hc]
  cases c with
  | equal o => cases o <;> rfl
  | _ => rfl

/-- **A plan with several more conditions on the key** finds the records of its own that satisfy all
of them.

**Proof sketch.** With the additional conditions the keys can still be compared, and the condition
on the bins is the old one. If there are any, then there is a condition on the keys and the indexes
play no part. So there is a strategy that finds what the plan accepts, which is a conjunction. -/
lemma exists_readingStrategy_foldl {t : TablePlan} {cs : List KeyCondition}
    (hknown : t.isKnown = true) (hcs : ∀ c ∈ cs, c.isComparable = true)
    (hindexes : t.indexes = [] ∨ cs ≠ []) :
    ∃ s, (cs.foldl addKeyCondition t).readingStrategy = .ok s ∧
      s.Finds (fun r => t.accepts r && cs.all (KeyCondition.holdsIn .unknown r.key.user)) := by
  set folded := cs.foldl addKeyCondition t with hfolded
  have hcondition : folded.condition = t.condition := by rw [hfolded, foldl_addKeyCondition_eq]
  have hfoldedKnown : folded.isKnown = true := by
    simp only [isKnown, Bool.and_eq_true] at hknown ⊢
    exact ⟨hcondition ▸ hknown.1, all_isComparable_foldl hknown.2 hcs⟩
  obtain ⟨s, hs, hfinds⟩ := exists_readingStrategy (p := { folded with indexes := [] })
    hfoldedKnown rfl
  have hsame : { folded with indexes := [] }.readingStrategy = folded.readingStrategy := by
    rcases hindexes with hindexes | hne
    · have hfoldedIndexes : folded.indexes = [] := by
        rw [hfolded, foldl_addKeyCondition_eq]
        exact hindexes
      rw [← hfoldedIndexes]
    · exact readingStrategy_withoutIndexes (isSome_keyCondition_foldl (.inr hne))
  refine ⟨s, hsame ▸ hs, ?_⟩
  have haccepts : { folded with indexes := [] }.accepts =
      fun r => t.accepts r && cs.all (KeyCondition.holdsIn .unknown r.key.user) := by
    change folded.accepts = _
    rw [accepts_eq .unknown hfoldedKnown, accepts_eq .unknown hknown]
    funext r
    simp only [holdsIn, hcondition]
    rw [hfolded, all_holdsIn_foldl, Bool.and_assoc]
  exact haccepts ▸ hfinds

end TablePlan

/-- **Conjunction of conditions on the key is exact.** Two conditions whose keys are integers and
texts have programs that decide every record, and so has their conjunction, which accepts what both
accept; what each accepts is what it says. A plan to which several such conditions are added, in
whatever order, accepts the keys that it accepted before and that satisfy all of them, and the
strategy that it chooses finds exactly the records with these keys.

**Proof sketch.** Programs decide what conditions mean (`verdict_eq`), conditions mean what they
say (`holdsIn_iff`), and conjunction keeps the meaning (`holdsIn_and`), also one after the other
(`TablePlan.all_holdsIn_foldl`). The order does not matter since all of them have to hold. -/
theorem KeyCondition.and_exact :
    (∀ (a b : KeyCondition) (r : Record), a.isComparable = true → b.isComparable = true →
      ∃ x y, a.verdict r = .ok x ∧ b.verdict r = .ok y ∧ (a.and b).verdict r = .ok (x && y) ∧
        (x = true ↔ a.Admits r.key.user) ∧ (y = true ↔ b.Admits r.key.user)) ∧
    ∀ (t : TablePlan) (cs ds : List KeyCondition), ds.Perm cs →
      t.keyCondition.all isComparable = true → (∀ c ∈ cs, c.isComparable = true) →
      (∀ r, ∃ before after, t.keyVerdict r = .ok before ∧
        (ds.foldl TablePlan.addKeyCondition t).keyVerdict r = .ok after ∧
        (after = true ↔ before = true ∧ ∀ c ∈ cs, c.Admits r.key.user)) ∧
      (t.condition.all Condition.isResolved = true → (t.indexes = [] ∨ cs ≠ []) →
        ∃ s test, (ds.foldl TablePlan.addKeyCondition t).readingStrategy = .ok s ∧ s.Finds test ∧
          ∀ r, test r = true ↔ t.accepts r = true ∧ ∀ c ∈ cs, c.Admits r.key.user) := by
  refine ⟨fun a b r ha hb => ?_, fun t cs ds hperm ht hcs => ?_⟩
  · refine ⟨_, _, verdict_eq .unknown ha r, verdict_eq .unknown hb r, ?_, holdsIn_iff a ha,
      holdsIn_iff b hb⟩
    rw [verdict_eq .unknown (isComparable_and ha hb), holdsIn_and]
  · have hds : ∀ d ∈ ds, d.isComparable = true := fun d hd => hcs d (hperm.mem_iff.mp hd)
    have hall : ∀ k : UserKey, ds.all (holdsIn .unknown k) = true ↔ ∀ c ∈ cs, c.Admits k := by
      intro k
      rw [List.all_eq_true]
      exact ⟨fun h c hc => (holdsIn_iff c (hcs c hc)).mp (h c (hperm.mem_iff.mpr hc)),
        fun h d hd => (holdsIn_iff d (hds d hd)).mpr (h d (hperm.mem_iff.mp hd))⟩
    refine ⟨fun r => ?_, fun hcondition hindexes => ?_⟩
    · refine ⟨_, _, TablePlan.keyVerdict_eq .unknown ht r,
        TablePlan.keyVerdict_eq .unknown (TablePlan.all_isComparable_foldl ht hds) r, ?_⟩
      rw [TablePlan.all_holdsIn_foldl, Bool.and_eq_true, hall]
    · have hknown : t.isKnown = true := by rw [TablePlan.isKnown, hcondition, ht]; rfl
      have hindexes' : t.indexes = [] ∨ ds ≠ [] :=
        hindexes.imp_right fun hne hnil => hne (hnil ▸ hperm).nil_eq.symm
      obtain ⟨s, hs, hfinds⟩ := TablePlan.exists_readingStrategy_foldl hknown hds hindexes'
      refine ⟨s, _, hs, hfinds, fun r => ?_⟩
      rw [Bool.and_eq_true, hall]

/-- Of the keys `2`, `2` and `7`, those other than `7`: the plan finds the record with the key `2`,
in whichever order it was given the two conditions, and a record with that key satisfies their
conjunction.

**Proof sketch.** `KeyCondition.and_exact` gives a strategy and what it finds: the keys that both
conditions admit. Of the listed ones the seven is excluded by the other condition. Its first part
gives the verdict on the conjunction. -/
theorem KeyCondition.and_exact_listed :
    let listed : KeyCondition := .among [.key (.integer 2), .key (.integer 2), .key (.integer 7)]
    let other : KeyCondition := .notEqual (.key (.integer 7))
    let t : TablePlan := .ofSet "ns" (some "s") .none
    (∃ s test, ([other, listed].foldl TablePlan.addKeyCondition t).readingStrategy = .ok s ∧
      s.Finds test ∧ ∀ r, test r = true ↔ r.key.user = .integer 2) ∧
    ∀ r : Record, r.key.user = .integer 2 → (listed.and other).verdict r = .ok true := by
  intro listed other t
  have hlisted : listed.Admits (.integer 2) := .among List.mem_cons_self (.integer 2 2 rfl)
  have hother : other.Admits (.integer 2) := .notEqual (.integer 2 7 (by decide : (2 : Int) ≠ 7))
  have hcomparable : ∀ c ∈ [listed, other], c.isComparable = true := by decide
  refine ⟨?_, fun r hr => ?_⟩
  · obtain ⟨s, test, hs, hfinds, htest⟩ := (and_exact.2 t [listed, other] [other, listed]
      (.swap listed other []) rfl hcomparable).2 rfl (.inl rfl)
    refine ⟨s, test, hs, hfinds, fun r => ?_⟩
    rw [htest]
    constructor
    · rintro ⟨-, hall⟩
      obtain ⟨o, ho, l, rfl, hl⟩ := admits_among_iff.mp (hall listed (by simp))
      obtain ⟨m, hm, hne⟩ := admits_notEqual_iff.mp (hall other (by simp))
      rw [(UserKey.relates_eq_iff hl.isComparable).mp hl] at hne ⊢
      obtain rfl : UserKey.integer 7 = m := KeyOperand.key.inj hm
      have hcases : l = .integer 2 ∨ l = .integer 7 := by simpa using ho
      refine hcases.resolve_right fun hseven => ?_
      rw [hseven] at hne
      cases hne with
      | integer a b hab => exact hab rfl
    · intro hr
      refine ⟨rfl, fun c hc => ?_⟩
      rcases List.mem_pair.mp hc with rfl | rfl
      · exact hr ▸ hlisted
      · exact hr ▸ hother
  · obtain ⟨x, y, -, -, hboth, hx, hy⟩ := and_exact.1 listed other r rfl rfl
    rw [hboth, hx.mpr (hr ▸ hlisted), hy.mpr (hr ▸ hother)]
    rfl

end RecordQuery
