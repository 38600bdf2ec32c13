import RecordQuery.Proofs.Predicate.Resolution

set_option autoImplicit false

/-!
# Meaning of key conditions

A condition on the key of a record has a meaning of its own, beside the program by which a scan
decides it. The two agree on conditions whose keys are known integers and texts, which are the keys
that the store can compare. Conjunction is exact: it may intersect named keys because equality of
keys is sameness.

## Main definitions

* `UserKey.satisfies` — the comparison of a key with a known key.
* `KeyCondition.holdsIn` — whether a key satisfies a condition, given the values of the unknowns.
* `KeyOperand.isComparable`, `KeyCondition.isComparable` — the keys are known and the store can
  compare with them.

## Main results

* `UserKey.satisfies_eq_iff` — equality of keys is sameness.
* `KeyCondition.exists_program`, `KeyCondition.program_run` — the program of a condition decides it.
* `KeyCondition.holdsIn_and`, `KeyCondition.isComparable_and` — conjunction.
-/

namespace RecordQuery

/-! ## Comparing keys -/

/-- Lists of bytes that neither precedes are the same. -/
lemma compareBytes_eq_iff (as bs : List UInt8) : compareBytes as bs = .eq ↔ as = bs := by
  induction as generalizing bs with
  | nil => cases bs <;> simp [compareBytes]
  | cons a as ih =>
    cases bs with
    | nil => simp [compareBytes]
    | cons b bs =>
      rw [compareBytes, Ordering.then_eq_eq, ih, Std.compare_eq_iff_eq, UInt8.toNat_inj,
        List.cons.injEq]

/-- Lists of bytes are compared from either side. -/
lemma compareBytes_swap (as bs : List UInt8) : (compareBytes as bs).swap = compareBytes bs as := by
  induction as generalizing bs with
  | nil => cases bs <;> rfl
  | cons a as ih =>
    cases bs with
    | nil => rfl
    | cons b bs =>
      rw [compareBytes, compareBytes, Ordering.swap_then, ih, ← Std.OrientedCmp.eq_swap]

/-- Whether a key satisfies a comparison with a known key. Keys of different kinds satisfy none. -/
def UserKey.satisfies (c : Comparison) : UserKey → UserKey → Bool
  | integer a, integer b => c.admits (compare a.toInt b.toInt)
  | text s, text t => c.admits (compare s t)
  | blob a, blob b => c.admits (compareBytes a b)
  | _, _ => false

/-- Whether the store can compare with a key. It cannot with bytes. -/
def UserKey.isComparable : UserKey → Bool
  | integer _ => true
  | text _ => true
  | blob _ => false

/-- **Equality of keys is sameness.** -/
lemma UserKey.satisfies_eq_iff {k l : UserKey} : k.satisfies .eq l = true ↔ k = l := by
  cases k <;> cases l <;>
    simp [UserKey.satisfies, Comparison.admits, Int64.toInt_inj, compareBytes_eq_iff]

/-- The key that an operand of a key condition is, with its value in the place of an unknown. Null
is no key. -/
def Resolution.key? (ρ : Resolution) : KeyOperand → Option UserKey
  | .key k => some k
  | .param index => (UserKey.ofValue? (ρ.param index)).toOption
  | .slot slot => (UserKey.ofValue? (ρ.slot slot)).toOption

/-- Whether a key satisfies a comparison with an operand of a key condition. It satisfies none with
what is no key. -/
def Resolution.accepts (ρ : Resolution) (c : Comparison) (k : UserKey) (o : KeyOperand) : Bool :=
  (ρ.key? o).any (k.satisfies c)

namespace KeyOperand

variable {ρ : Resolution}

/-- Whether the key of a condition is known and can be compared. -/
def isComparable : KeyOperand → Bool
  | key k => k.isComparable
  | _ => false

/-- A key that can be compared stands on the right side of a comparison. -/
lemma exists_operand (ρ : Resolution) {o : KeyOperand} (h : o.isComparable = true) :
    ∃ v, o.operand = .ok v ∧ v.isResolved = true ∧
      ∀ (c : Comparison) (k : UserKey), v.accepts v.kind c (some k.toValue) = ρ.accepts c k o := by
  match o with
  | key (.integer i) =>
    refine ⟨.integer i, rfl, rfl, fun c k => ?_⟩
    cases k <;> rfl
  | key (.text s) =>
    refine ⟨.text s, rfl, rfl, fun c k => ?_⟩
    cases k <;> rfl
  | key (.blob bs) => simp [isComparable, UserKey.isComparable] at h
  | param index => simp [isComparable] at h
  | slot index => simp [isComparable] at h

/-- Two known keys that the same key equals are the same. -/
lemma eq_of_accepts {k : UserKey} {o p : KeyOperand} (ho : o.isKey = true) (hp : p.isKey = true)
    (hko : ρ.accepts .eq k o = true) (hkp : ρ.accepts .eq k p = true) : o = p := by
  cases o <;> cases p <;> simp_all [isKey, Resolution.accepts, Resolution.key?]
  rw [UserKey.satisfies_eq_iff] at hko hkp
  exact hko.symm.trans hkp

end KeyOperand

namespace KeyCondition

variable {ρ : Resolution} {k : UserKey}

/-! ## Meaning -/

mutual

/-- Whether a key satisfies a condition, given the values of the unknowns. -/
def holdsIn (ρ : Resolution) (k : UserKey) : KeyCondition → Bool
  | equal o => ρ.accepts .eq k o
  | among os => os.any (ρ.accepts .eq k)
  | inSlot slot =>
    (ρ.members slot).any (fun v => (UserKey.ofValue? v).toOption.any (k.satisfies .eq))
  | notEqual o => ρ.accepts .ne k o
  | range low high => ρ.accepts .ge k low && ρ.accepts .le k high
  | all cs => holdsAllIn ρ k cs

/-- Whether a key satisfies all of several conditions. -/
def holdsAllIn (ρ : Resolution) (k : UserKey) : List KeyCondition → Bool
  | [] => true
  | c :: cs => holdsIn ρ k c && holdsAllIn ρ k cs

end

mutual

/-- Whether all keys of a condition are known and can be compared. -/
def isComparable : KeyCondition → Bool
  | equal o => o.isComparable
  | among os => os.all KeyOperand.isComparable
  | inSlot _ => false
  | notEqual o => o.isComparable
  | range low high => low.isComparable && high.isComparable
  | all cs => areComparable cs

/-- Whether all keys of several conditions are known and can be compared. -/
def areComparable : List KeyCondition → Bool
  | [] => true
  | c :: cs => isComparable c && areComparable cs

end

/-- All of several conditions hold if each of them does. -/
lemma holdsAllIn_eq (cs : List KeyCondition) :
    holdsAllIn ρ k cs = (cs.map (holdsIn ρ k)).all id := by
  induction cs with
  | nil => rfl
  | cons c cs ih => simp [holdsAllIn, ih]

/-- All keys of several conditions can be compared if those of each of them can. -/
lemma areComparable_eq (cs : List KeyCondition) : areComparable cs = cs.all isComparable := by
  induction cs with
  | nil => rfl
  | cons c cs ih => simp [areComparable, ih]

/-! ## Programs -/

/-- The comparison with a key that can be compared is a program that decides it. -/
lemma exists_compareProgram (ρ : Resolution) {o : KeyOperand} (h : o.isComparable = true)
    (c : Comparison) :
    ∃ p, compareProgram c o = .ok p ∧ p ≠ [] ∧ ∀ (r : Record) (stack : List StackItem),
      Program.runFrom r stack p = .ok (.result (ρ.accepts c r.key.user o) :: stack) := by
  obtain ⟨v, hv, hres, hacc⟩ := KeyOperand.exists_operand ρ h
  refine ⟨[.key v.kind, .value v, .compare c], ?_, by simp, fun r stack => ?_⟩
  · rw [compareProgram, hv]
    rfl
  · simp [Program.runFrom, Program.step, hres, hacc]

/-- The comparisons with several keys push their outcomes one after the other. -/
lemma exists_equalPrograms (ρ : Resolution) {os : List KeyOperand}
    (h : os.all KeyOperand.isComparable = true) :
    ∃ p, equalPrograms os = .ok p ∧ ∀ (r : Record) (stack : List StackItem),
      Program.runFrom r stack p =
        .ok (((os.map (ρ.accepts .eq r.key.user)).map StackItem.result).reverse ++ stack) := by
  induction os with
  | nil => exact ⟨[], rfl, fun r stack => rfl⟩
  | cons o os ih =>
    rw [List.all_cons, Bool.and_eq_true] at h
    obtain ⟨p, hp, -, hrun⟩ := exists_compareProgram ρ h.1 .eq
    obtain ⟨q, hq, hruns⟩ := ih h.2
    refine ⟨p ++ q, ?_, fun r stack => ?_⟩
    · rw [equalPrograms, hp, hq]
      rfl
    · simp [Program.runFrom_append, hrun, hruns]

mutual

/-- **A condition whose keys can be compared has a program**, and that pushes the meaning of the
condition.

**Proof sketch.** Induction on the condition. Comparisons are programs of three steps; the
programs of a list push one outcome each, and the last instruction combines them. -/
theorem exists_program (ρ : Resolution) : (c : KeyCondition) → c.isComparable = true →
    ∃ p, c.program = .ok p ∧ p ≠ [] ∧ ∀ (r : Record) (stack : List StackItem),
      Program.runFrom r stack p = .ok (.result (c.holdsIn ρ r.key.user) :: stack)
  | equal o, h => by
    simp only [program, holdsIn]
    exact exists_compareProgram ρ h .eq
  | notEqual o, h => by
    simp only [program, holdsIn]
    exact exists_compareProgram ρ h .ne
  | inSlot slot, h => by simp [isComparable] at h
  | among os, h => by
    obtain ⟨p, hp, hrun⟩ := exists_equalPrograms ρ h
    refine ⟨p ++ [.any os.length], ?_, by simp, fun r stack => ?_⟩
    · rw [program, hp]
      rfl
    · have hcombine := Program.combine_results (fun bs => bs.any id)
        (os.map (ρ.accepts .eq r.key.user)) stack
      rw [List.length_map] at hcombine
      simp only [Program.runFrom_append, hrun, Program.runFrom, Program.step, hcombine, holdsIn,
        List.any_map]
      rfl
  | range low high, h => by
    rw [isComparable, Bool.and_eq_true] at h
    obtain ⟨p, hp, -, hlow⟩ := exists_compareProgram ρ h.1 .ge
    obtain ⟨q, hq, -, hhigh⟩ := exists_compareProgram ρ h.2 .le
    refine ⟨p ++ q ++ [.all 2], ?_, by simp, fun r stack => ?_⟩
    · rw [program, hp, hq]
      rfl
    · have hcombine := Program.combine_results (fun bs => bs.all id)
        [ρ.accepts .ge r.key.user low, ρ.accepts .le r.key.user high] stack
      simp only [List.length_cons, List.length_nil, Nat.zero_add, Nat.reduceAdd, List.map_cons,
        List.map_nil, List.reverse_cons, List.reverse_nil, List.nil_append, List.cons_append,
        List.all_cons, List.all_nil, Bool.and_true, id_eq] at hcombine
      simp only [Program.runFrom_append, hlow, hhigh, Program.runFrom, Program.step, hcombine,
        holdsIn]
  | all cs, h => by
    obtain ⟨p, hp, hrun⟩ := exists_programs ρ cs h
    refine ⟨p ++ [.all cs.length], ?_, by simp, fun r stack => ?_⟩
    · rw [program, hp]
      rfl
    · have hcombine := Program.combine_results (fun bs => bs.all id)
        (cs.map (holdsIn ρ r.key.user)) stack
      rw [List.length_map] at hcombine
      simp only [Program.runFrom_append, hrun, Program.runFrom, Program.step, hcombine, holdsIn,
        holdsAllIn_eq]

/-- The programs of several conditions push their meanings one after the other. -/
theorem exists_programs (ρ : Resolution) : (cs : List KeyCondition) → areComparable cs = true →
    ∃ p, programs cs = .ok p ∧ ∀ (r : Record) (stack : List StackItem),
      Program.runFrom r stack p =
        .ok (((cs.map (holdsIn ρ r.key.user)).map StackItem.result).reverse ++ stack)
  | [], _ => ⟨[], rfl, fun r stack => rfl⟩
  | c :: cs, h => by
    rw [areComparable, Bool.and_eq_true] at h
    obtain ⟨p, hp, -, hrun⟩ := exists_program ρ c h.1
    obtain ⟨q, hq, hruns⟩ := exists_programs ρ cs h.2
    refine ⟨p ++ q, ?_, fun r stack => ?_⟩
    · rw [programs, hp, hq]
      rfl
    · simp [Program.runFrom_append, hrun, hruns]

end

/-- The program of a condition whose keys can be compared decides the condition. -/
theorem program_run (ρ : Resolution) {c : KeyCondition} (h : c.isComparable = true) :
    ∃ p, c.program = .ok p ∧ p ≠ [] ∧
      ∀ r : Record, p.run r = .ok (c.holdsIn ρ r.key.user) := by
  obtain ⟨p, hp, hne, hrun⟩ := exists_program ρ c h
  exact ⟨p, hp, hne, fun r => (Program.run_eq_ok_iff hne).mpr (hrun r [])⟩

/-- A comparison that runs is one with a key that can be compared. -/
lemma isComparable_of_compareProgram {o : KeyOperand} {c : Comparison} {p : Program} {r : Record}
    {stack next : List StackItem} (hp : compareProgram c o = .ok p)
    (h : Program.runFrom r stack p = .ok next) : o.isComparable = true := by
  simp only [compareProgram, Outcome.bind_eq_ok, Outcome.pure_eq_ok] at hp
  obtain ⟨v, hv, rfl⟩ := hp
  cases o with
  | key k =>
    cases k with
    | integer i => rfl
    | text s => rfl
    | blob bs => cases hv
  | param index =>
    obtain rfl := Except.ok.inj hv
    simp [Program.runFrom, Program.step, Operand.isResolved] at h
  | slot index =>
    obtain rfl := Except.ok.inj hv
    simp [Program.runFrom, Program.step, Operand.isResolved] at h

/-- Comparisons that run one after the other are such with keys that can be compared. -/
lemma isComparable_of_equalPrograms {os : List KeyOperand} {p : Program} {r : Record}
    {stack next : List StackItem} (hp : equalPrograms os = .ok p)
    (h : Program.runFrom r stack p = .ok next) : os.all KeyOperand.isComparable = true := by
  induction os generalizing p stack with
  | nil => rfl
  | cons o os ih =>
    simp only [equalPrograms, Outcome.bind_eq_ok, Outcome.pure_eq_ok] at hp
    obtain ⟨q, hq, q', hq', rfl⟩ := hp
    rw [Program.runFrom_append] at h
    cases hrun : Program.runFrom r stack q with
    | error e => simp [hrun] at h
    | ok mid =>
      simp only [hrun] at h
      rw [List.all_cons, isComparable_of_compareProgram hq hrun, ih hq' h]
      rfl

mutual

/-- A program that runs has only keys that can be compared.

**Proof sketch.** By induction on the condition. Its program contains those of its keys and parts,
one after the other, and these have run. -/
theorem isComparable_of_runFrom (r : Record) :
    (c : KeyCondition) → (p : Program) → (stack next : List StackItem) → c.program = .ok p →
      Program.runFrom r stack p = .ok next → c.isComparable = true
  | equal o, p, stack, next, hp, h => isComparable_of_compareProgram hp h
  | notEqual o, p, stack, next, hp, h => isComparable_of_compareProgram hp h
  | inSlot slot, p, stack, next, hp, h => by
    have hslot := isComparable_of_compareProgram hp h
    simp [KeyOperand.isComparable] at hslot
  | among os, p, stack, next, hp, h => by
    simp only [program, Outcome.bind_eq_ok, Outcome.pure_eq_ok] at hp
    obtain ⟨q, hq, rfl⟩ := hp
    rw [Program.runFrom_append] at h
    cases hrun : Program.runFrom r stack q with
    | error e => simp [hrun] at h
    | ok mid => exact isComparable_of_equalPrograms hq hrun
  | range low high, p, stack, next, hp, h => by
    simp only [program, Outcome.bind_eq_ok, Outcome.pure_eq_ok] at hp
    obtain ⟨q, hq, q', hq', rfl⟩ := hp
    rw [List.append_assoc, Program.runFrom_append] at h
    cases hrun : Program.runFrom r stack q with
    | error e => simp [hrun] at h
    | ok mid =>
      simp only [hrun, Program.runFrom_append] at h
      cases hrun' : Program.runFrom r mid q' with
      | error e => simp [hrun'] at h
      | ok last =>
        rw [isComparable, isComparable_of_compareProgram hq hrun,
          isComparable_of_compareProgram hq' hrun']
        rfl
  | all cs, p, stack, next, hp, h => by
    simp only [program, Outcome.bind_eq_ok, Outcome.pure_eq_ok] at hp
    obtain ⟨q, hq, rfl⟩ := hp
    rw [Program.runFrom_append] at h
    cases hrun : Program.runFrom r stack q with
    | error e => simp [hrun] at h
    | ok mid => exact areComparable_of_runFrom r cs q stack mid hq hrun

/-- Programs that run have only keys that can be compared. -/
theorem areComparable_of_runFrom (r : Record) :
    (cs : List KeyCondition) → (p : Program) → (stack next : List StackItem) →
      programs cs = .ok p → Program.runFrom r stack p = .ok next → areComparable cs = true
  | [], _, _, _, _, _ => rfl
  | c :: cs, p, stack, next, hp, h => by
    simp only [programs, Outcome.bind_eq_ok, Outcome.pure_eq_ok] at hp
    obtain ⟨q, hq, q', hq', rfl⟩ := hp
    rw [Program.runFrom_append] at h
    cases hrun : Program.runFrom r stack q with
    | error e => simp [hrun] at h
    | ok mid =>
      simp only [hrun] at h
      rw [areComparable, isComparable_of_runFrom r c q stack mid hq hrun,
        areComparable_of_runFrom r cs q' mid next hq' h]
      rfl

end

/-! ## Conjunction -/

/-- Adding keys to the intersection found so far.

**Proof sketch.** By induction on the keys that are still to be looked at. One that is on the right
is added unless it has been found already. -/
lemma mem_intersect_step {left right acc : List KeyOperand} {o : KeyOperand} :
    o ∈ left.foldl (fun ks k => if k ∈ right ∧ k ∉ ks then ks ++ [k] else ks) acc ↔
      o ∈ acc ∨ (o ∈ left ∧ o ∈ right) := by
  induction left generalizing acc with
  | nil => simp
  | cons k left ih =>
    rw [List.foldl_cons, ih]
    by_cases hk : k ∈ right ∧ k ∉ acc
    · rw [if_pos hk, List.mem_append, List.mem_singleton, List.mem_cons]
      constructor
      · rintro ((hacc | rfl) | ⟨hl, hr⟩)
        · exact .inl hacc
        · exact .inr ⟨.inl rfl, hk.1⟩
        · exact .inr ⟨.inr hl, hr⟩
      · rintro (hacc | ⟨rfl | hl, hr⟩)
        · exact .inl (.inl hacc)
        · exact .inl (.inr rfl)
        · exact .inr ⟨hl, hr⟩
    · rw [if_neg hk, List.mem_cons]
      constructor
      · rintro (hacc | ⟨hl, hr⟩)
        · exact .inl hacc
        · exact .inr ⟨.inr hl, hr⟩
      · rintro (hacc | ⟨rfl | hl, hr⟩)
        · exact .inl hacc
        · by_cases hacc : o ∈ acc
          · exact .inl hacc
          · exact absurd ⟨hr, hacc⟩ hk
        · exact .inr ⟨hl, hr⟩

/-- The intersection holds the keys that both lists hold. -/
lemma mem_intersect {left right : List KeyOperand} {o : KeyOperand} :
    o ∈ intersect left right ↔ o ∈ left ∧ o ∈ right := by
  rw [intersect, mem_intersect_step]
  simp

/-- Naming keys is looking for the key among them. -/
lemma holdsIn_ofKeys (os : List KeyOperand) :
    (ofKeys os).holdsIn ρ k = os.any (ρ.accepts .eq k) := by
  match os with
  | [] => rfl
  | [o] => simp [ofKeys, holdsIn]
  | o :: p :: os => rfl

/-- Named keys can be compared if each of them can. -/
lemma isComparable_ofKeys (os : List KeyOperand) :
    (ofKeys os).isComparable = os.all KeyOperand.isComparable := by
  match os with
  | [] => rfl
  | [o] => simp [ofKeys, isComparable]
  | o :: p :: os => rfl

/-- A condition that names its keys is that one key or one of several, all of them known.

**Proof sketch.** By the form of the condition: only an equality and a list of keys name their keys,
and only if these are known. -/
lemma eq_of_namedKeys? {c : KeyCondition} {os : List KeyOperand} (h : c.namedKeys? = some os) :
    os.all KeyOperand.isKey = true ∧ ((∃ o, os = [o] ∧ c = equal o) ∨ c = among os) := by
  cases c with
  | equal o =>
    simp only [namedKeys?] at h
    split at h
    · rename_i ho
      obtain rfl := Option.some.inj h
      exact ⟨by simpa using ho, .inl ⟨o, rfl, rfl⟩⟩
    · cases h
  | among ks =>
    simp only [namedKeys?] at h
    split at h
    · rename_i hks
      obtain rfl := Option.some.inj h
      exact ⟨hks, .inr rfl⟩
    · cases h
  | inSlot slot => cases h
  | notEqual o => cases h
  | range low high => cases h
  | all cs => cases h

/-- A condition that names its keys looks for the key among them. -/
lemma holdsIn_of_namedKeys? {c : KeyCondition} {os : List KeyOperand}
    (h : c.namedKeys? = some os) : c.holdsIn ρ k = os.any (ρ.accepts .eq k) := by
  obtain ⟨-, ⟨o, rfl, rfl⟩ | rfl⟩ := eq_of_namedKeys? h
  · simp [holdsIn]
  · rfl

/-- The keys that a condition names can be compared if those of the condition can. -/
lemma isComparable_of_namedKeys? {c : KeyCondition} {os : List KeyOperand}
    (h : c.namedKeys? = some os) (hc : c.isComparable = true) :
    os.all KeyOperand.isComparable = true := by
  obtain ⟨-, ⟨o, rfl, rfl⟩ | rfl⟩ := eq_of_namedKeys? h
  · simpa [isComparable] using hc
  · exact hc

/-- A condition holds if all of its conjuncts do. -/
lemma all_conjuncts (c : KeyCondition) :
    (c.conjuncts.map (holdsIn ρ k)).all id = c.holdsIn ρ k := by
  cases c <;> simp [conjuncts, holdsIn, holdsAllIn_eq]

/-- The keys of a condition can be compared if those of its conjuncts can. -/
lemma all_conjuncts_isComparable (c : KeyCondition) :
    c.conjuncts.all isComparable = c.isComparable := by
  cases c <;> simp [conjuncts, isComparable, areComparable_eq]

/-- The condition that no key satisfies is recognised. -/
lemma eq_none_of_isNone {c : KeyCondition} (h : c.isNone = true) : c = none := by
  unfold isNone at h
  split at h
  · rfl
  · cases h

/-- No key satisfies the condition that names none. -/
lemma holdsIn_none : (none : KeyCondition).holdsIn ρ k = false := rfl

/-- A key lies in an intersection if it lies in both lists. -/
lemma any_intersect {left right : List KeyOperand} (hleft : left.all KeyOperand.isKey = true)
    (hright : right.all KeyOperand.isKey = true) :
    (intersect left right).any (ρ.accepts .eq k) =
      (left.any (ρ.accepts .eq k) && right.any (ρ.accepts .eq k)) := by
  rw [Bool.eq_iff_iff, Bool.and_eq_true, List.any_eq_true, List.any_eq_true, List.any_eq_true]
  constructor
  · rintro ⟨o, ho, hk⟩
    rw [mem_intersect] at ho
    exact ⟨⟨o, ho.1, hk⟩, o, ho.2, hk⟩
  · rintro ⟨⟨o, ho, hk⟩, p, hp, hk'⟩
    have hkeys := And.intro (List.all_eq_true.mp hleft o ho) (List.all_eq_true.mp hright p hp)
    obtain rfl := KeyOperand.eq_of_accepts hkeys.1 hkeys.2 hk hk'
    exact ⟨o, mem_intersect.mpr ⟨ho, hp⟩, hk⟩

/-- What conjunction keeps holds of several conjunctions. -/
lemma conjunction_induction {P : KeyCondition → Prop} (hnil : P (all []))
    (hand : ∀ a b, P a → P b → P (a.and b)) {cs : List KeyCondition} (h : ∀ c ∈ cs, P c) :
    P (conjunction cs) := by
  cases cs with
  | nil => exact hnil
  | cons c cs =>
    rw [List.forall_mem_cons] at h
    exact List.foldlRecOn cs KeyCondition.and h.1 fun a ha b hb => hand a b ha (h.2 b hb)

/-- **Conjunction is exact**: a key satisfies the conjunction of two conditions if it satisfies
both. -/
theorem holdsIn_and (a b : KeyCondition) :
    (a.and b).holdsIn ρ k = (a.holdsIn ρ k && b.holdsIn ρ k) := by
  unfold KeyCondition.and
  split
  · rename_i ha
    rw [eq_none_of_isNone ha, holdsIn_none, Bool.false_and]
  split
  · rename_i hb
    rw [eq_none_of_isNone hb, holdsIn_none, Bool.and_false]
  split
  · rename_i left right ha hb
    rw [holdsIn_ofKeys, any_intersect (eq_of_namedKeys? ha).1 (eq_of_namedKeys? hb).1,
      holdsIn_of_namedKeys? ha, holdsIn_of_namedKeys? hb]
  · rw [holdsIn, holdsAllIn_eq, List.map_append, List.all_append, all_conjuncts, all_conjuncts]

/-- Conjunction keeps keys that can be compared. -/
theorem isComparable_and {a b : KeyCondition} (ha : a.isComparable = true)
    (hb : b.isComparable = true) : (a.and b).isComparable = true := by
  unfold KeyCondition.and
  split
  · exact ha
  split
  · exact hb
  split
  · rename_i left right hleft hright
    have hall := List.all_eq_true.mp (isComparable_of_namedKeys? hleft ha)
    rw [isComparable_ofKeys, List.all_eq_true]
    exact fun o ho => hall o (mem_intersect.mp ho).1
  · rw [isComparable, areComparable_eq, List.all_append, all_conjuncts_isComparable,
      all_conjuncts_isComparable, ha, hb]
    rfl

end KeyCondition

end RecordQuery
