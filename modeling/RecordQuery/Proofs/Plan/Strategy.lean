import RecordQuery.Plan.Strategy
import RecordQuery.Proofs.Compile.Where
import RecordQuery.Proofs.Duplicates
import RecordQuery.Proofs.Pipeline.Access

set_option autoImplicit false

/-!
# What strategies find

A strategy is right for a test on records if it finds the records of the set that pass the test.
Lookups are right because the keys they name are all that the condition on the key admits; they
leave only the condition on the bins to decide. Scans decide both conditions on every record.

## Main definitions

* `TablePlan.accepts` — both programs of a plan accept a record.
* `AccessStrategy.Finds` — a strategy finds the records that pass a test, wherever it is used.

## Main results

* `mem_distinctKeys`, `nodup_distinctKeys` — the keys of a lookup.
* `AccessStrategy.finds_pointLookup`, `AccessStrategy.finds_batchLookup`,
  `AccessStrategy.finds_fullScan` — what the strategies without an index find.
* `TablePlan.exists_scan`, `TablePlan.exists_lookup` — a scan can decide both conditions, and keys
  that are named are looked up.
* `TablePlan.exists_readingStrategy` — a plan without an index chooses a strategy that finds the
  records that its programs accept.
-/

namespace RecordQuery

/-! ## Distinct keys -/

/-- No key occurs twice among the distinct ones. -/
lemma nodup_distinctKeys (ks : List UserKey) : (distinctKeys ks).Nodup := by
  rw [distinctKeys, foldl_eq_eraseDups]
  exact nodup_eraseDups ks

/-- Every key is among the distinct ones. -/
lemma mem_distinctKeys {ks : List UserKey} {k : UserKey} : k ∈ distinctKeys ks ↔ k ∈ ks := by
  rw [distinctKeys, foldl_eq_eraseDups, List.mem_eraseDups]

/-! ## Tests on records -/

/-- Two programs that decide a record decide together whether both accept it. -/
lemma Program.run_both {p q : Program} {r : Record} {a b : Bool} (hp : p.run r = .ok a)
    (hq : q.run r = .ok b) : (Program.conjunction [p, q]).run r = .ok (a && b) := by
  have hrun : ∀ s ∈ [p, q], s.run r = .ok ((s.run r).toOption.getD false) := by
    intro s hs
    rcases List.mem_pair.mp hs with rfl | rfl
    · rw [hp]
      rfl
    · rw [hq]
      rfl
  rw [Program.run_conjunction hrun, List.all_cons, List.all_cons, List.all_nil, hp, hq,
    Bool.and_true]
  rfl

/-- A record that has one of several known keys has one of the distinct ones among them.

**Proof sketch.** From left to right the operand that is accepted is a key, which equals that of the
record. From right to left the key is named by an operand, which accepts it. -/
lemma any_accepts_eq_hasKey {ρ : Resolution} {ks : List KeyOperand}
    (h : ks.all KeyOperand.isKey = true) (r : Record) :
    ks.any (ρ.accepts .eq r.key.user) = r.hasKey (distinctKeys (ks.filterMap KeyOperand.key?)) := by
  rw [Bool.eq_iff_iff, Record.hasKey, decide_eq_true_eq, mem_distinctKeys, List.any_eq_true,
    List.mem_filterMap]
  constructor
  · rintro ⟨o, ho, hk⟩
    have hkey := List.all_eq_true.mp h o ho
    cases o with
    | key k =>
      have heq : r.key.user.satisfies .eq k = true := by
        simpa [Resolution.accepts, Resolution.key?] using hk
      refine ⟨.key k, ho, ?_⟩
      rw [UserKey.satisfies_eq_iff.mp heq]
      rfl
    | param index => simp [KeyOperand.isKey] at hkey
    | slot index => simp [KeyOperand.isKey] at hkey
  · rintro ⟨o, ho, hk⟩
    refine ⟨o, ho, ?_⟩
    cases o with
    | key k =>
      obtain rfl := Option.some.inj hk
      simp [Resolution.accepts, Resolution.key?, UserKey.satisfies_eq_iff]
    | param index => simp [KeyOperand.key?] at hk
    | slot index => simp [KeyOperand.key?] at hk

namespace AccessStrategy

/-- A strategy looks up no key twice and finds the records of a set that pass a test. -/
def Finds (s : AccessStrategy) (test : Record → Bool) : Prop :=
  s.isProper ∧ ∀ (a : TableAccess) (K : Store), a.strategy = s →
    ∃ rs, a.records K = .ok rs ∧ rs.Perm ((K.recordsOf a.ns a.set).filter test)

variable {residual : Program} {bins : Record → Bool}

/-- Records that are found and decided afterwards. -/
lemma filterExcept_perm {rs found : List Record} {key : Record → Bool}
    (hfound : found.Perm (rs.filter key)) (hbins : ∀ r, residual.run r = .ok (bins r)) :
    ∃ kept, filterExcept residual.run found = .ok kept ∧
      kept.Perm (rs.filter (fun r => bins r && key r)) := by
  refine ⟨_, filterExcept_eq_ok fun r _ => hbins r, ?_⟩
  rw [← List.filter_filter]
  exact hfound.filter bins

/-- **Looking up one key** finds the record that has it, if the residual program accepts it. -/
lemma finds_pointLookup (k : UserKey) (hbins : ∀ r, residual.run r = .ok (bins r)) :
    (pointLookup k residual).Finds (fun r => bins r && r.hasKey [k]) := by
  refine ⟨trivial, fun a K ha => ?_⟩
  have hfound := List.Perm.of_eq (Store.find?_toList K a.ns a.set k)
  obtain ⟨kept, hkept, hperm⟩ := filterExcept_perm hfound hbins
  exact ⟨kept, by rw [TableAccess.records, ha]; exact hkept, hperm⟩

/-- **Looking up several keys** finds the records that have one of them, if the residual program
accepts them. -/
lemma finds_batchLookup {ks : List UserKey} (hks : ks.Nodup)
    (hbins : ∀ r, residual.run r = .ok (bins r)) :
    (batchLookup ks residual).Finds (fun r => bins r && r.hasKey ks) := by
  refine ⟨hks, fun a K ha => ?_⟩
  have hfound := Store.perm_filterMap_find? K a.ns a.set hks
  obtain ⟨kept, hkept, hperm⟩ := filterExcept_perm hfound hbins
  exact ⟨kept, by rw [TableAccess.records, ha]; exact hkept, hperm⟩

/-- **A scan** finds the records that both of its programs accept. -/
lemma finds_fullScan {keyPredicate : Option Program} {key : Record → Bool}
    (hbins : ∀ r, residual.run r = .ok (bins r))
    (hkey : ∀ r, (keyPredicate.getD []).run r = .ok (key r)) :
    (fullScan residual keyPredicate).Finds (fun r => bins r && key r) := by
  refine ⟨trivial, fun a K ha => ?_⟩
  have hboth : ∀ r, (Program.conjunction [residual, keyPredicate.getD []]).run r =
      .ok (bins r && key r) := fun r => Program.run_both (hbins r) (hkey r)
  refine ⟨(K.recordsOf a.ns a.set).filter (fun r => bins r && key r), ?_, .refl _⟩
  rw [TableAccess.records, ha]
  exact Store.select_eq_filter hboth

end AccessStrategy

namespace Condition

/-- Without an index no condition gives a filter. -/
lemma indexFilter?_nil (c : Condition) : c.indexFilter? [] = none := by
  unfold Condition.indexFilter?
  split
  · split <;> simp
  · simp
  · rfl

/-- Without an index no condition among several gives a filter. -/
lemma firstFilter?_nil (cs : List Condition) : firstFilter? [] cs = none := by
  induction cs with
  | nil => rfl
  | cons c cs ih => simp [firstFilter?, indexFilter?_nil, ih]

end Condition

namespace TablePlan

variable {p : TablePlan}

/-- The plan of a table with a strategy has the one for its conditions. -/
lemma chooseStrategy_eq_ok {q : TablePlan} :
    p.chooseStrategy = .ok q ↔ ∃ s, p.readingStrategy = .ok s ∧
      q = { p with strategy := some s } := by
  simp only [chooseStrategy, Outcome.bind_eq_ok]
  constructor
  · rintro ⟨s, hs, hq⟩
    exact ⟨s, hs, (Except.ok.inj hq).symm⟩
  · rintro ⟨s, hs, rfl⟩
    exact ⟨s, hs, rfl⟩

/-- No plan looks up a key twice. -/
lemma isProper_of_readingStrategy {s : AccessStrategy} (h : p.readingStrategy = .ok s) :
    s.isProper := by
  unfold readingStrategy at h
  split at h
  · obtain rfl := Except.ok.inj h
    trivial
  · split at h
    · obtain rfl := Except.ok.inj h
      exact nodup_distinctKeys _
    · simp only [Outcome.bind_eq_ok, Outcome.pure_eq_ok] at h
      obtain ⟨q, -, rfl⟩ := h
      trivial
  · simp only [Outcome.bind_eq_ok, Outcome.pure_eq_ok] at h
    obtain ⟨q, -, rfl⟩ := h
    trivial
  · split at h <;> obtain rfl := Except.ok.inj h <;> trivial

/-- Whether both programs of a plan accept a record. -/
def accepts (p : TablePlan) (r : Record) : Bool := (p.verdict r).toOption.getD false

/-- The programs of a plan accept the records that satisfy its conditions. -/
lemma accepts_eq (ρ : Resolution) (h : p.isKnown = true) : p.accepts = fun r => p.holdsIn ρ r := by
  funext r
  rw [accepts, verdict_eq ρ h]
  rfl

/-- Without an index nothing is left to one. -/
lemma filterAndResidual_nil (h : p.indexes = []) :
    p.filterAndResidual = (none, Condition.programOf p.condition) := by
  have hsplit : p.condition.bind (Condition.splitIndex? []) = none := by
    cases p.condition with
    | none => rfl
    | some c =>
      simp only [Option.bind_some, Condition.splitIndex?, Condition.indexFilter?_nil]
      cases c <;> simp [Condition.firstFilter?_nil]
  rw [filterAndResidual, h, hsplit]

/-- **A scan that runs both programs of a plan** finds the records that both accept. -/
theorem exists_scan (hknown : p.isKnown = true) :
    ∃ keys, p.keyCondition.mapM KeyCondition.program = .ok keys ∧
      (AccessStrategy.fullScan (Condition.programOf p.condition) keys).Finds p.accepts := by
  rw [accepts_eq .unknown hknown]
  simp only [isKnown, Bool.and_eq_true] at hknown
  have hbins := run_programOf_condition .unknown hknown.1
  cases hk : p.keyCondition with
  | none =>
    refine ⟨none, rfl, ?_⟩
    simp only [holdsIn, hk, Option.all_none]
    exact AccessStrategy.finds_fullScan hbins fun r => rfl
  | some c =>
    have hcmp : c.isComparable = true := by simpa [hk] using hknown.2
    obtain ⟨q, hq, -, hrun⟩ := KeyCondition.program_run .unknown hcmp
    refine ⟨some q, by rw [Option.mapM_some, hq]; rfl, ?_⟩
    simp only [holdsIn, hk, Option.all_some]
    exact AccessStrategy.finds_fullScan hbins hrun

/-- **A plan whose condition on the key names its keys looks them up.** A record satisfies that
condition if it has one of the keys, so that only the condition on the bins is left to decide.

**Proof sketch.** By the form of a condition that names its keys. An equality with a key is a point
lookup, and a list of keys a batch lookup of the distinct ones; in both cases the record satisfies
the condition if and only if it has one of the keys, and the program of the bins is left to decide.
-/
lemma exists_lookup (ρ : Resolution) (hresolved : p.condition.all Condition.isResolved = true)
    {c : KeyCondition} (hc : p.keyCondition = some c) {ks : List KeyOperand}
    (hks : c.namedKeys? = some ks) :
    ∃ s, p.readingStrategy = .ok s ∧ s.Finds (fun r => p.holdsIn ρ r) := by
  have hbins := run_programOf_condition ρ hresolved
  obtain ⟨hkeys, ⟨o, rfl, rfl⟩ | rfl⟩ := KeyCondition.eq_of_namedKeys? hks
  · cases o with
    | key k =>
      refine ⟨_, by rw [readingStrategy, hc], ?_⟩
      have hkey : ∀ r : Record, (KeyCondition.equal (.key k)).holdsIn ρ r.key.user =
          r.hasKey [k] := by
        intro r
        rw [Bool.eq_iff_iff]
        simp [KeyCondition.holdsIn, Resolution.accepts, Resolution.key?, UserKey.satisfies_eq_iff,
          Record.hasKey]
      simp only [holdsIn, hc, Option.all_some, hkey]
      exact AccessStrategy.finds_pointLookup k hbins
    | param index => cases hkeys
    | slot slot => cases hkeys
  · refine ⟨.batchLookup (distinctKeys (ks.filterMap KeyOperand.key?)) _,
      by simp only [readingStrategy, hc, hkeys, if_true]; rfl, ?_⟩
    simp only [holdsIn, hc, Option.all_some, KeyCondition.holdsIn, any_accepts_eq_hasKey hkeys]
    exact AccessStrategy.finds_batchLookup (nodup_distinctKeys _) hbins

/-- A plan whose condition on the key does not name its keys decides it in a scan. -/
lemma readingStrategy_of_namedKeys?_eq_none {c : KeyCondition} (hc : p.keyCondition = some c)
    (hks : c.namedKeys? = none) :
    p.readingStrategy = do
      return .fullScan (Condition.programOf p.condition) (some (← c.program)) := by
  unfold readingStrategy
  rw [hc]
  cases c with
  | equal o => cases o <;> first | rfl | cases hks
  | among ks =>
    have hkeys : ¬ks.all KeyOperand.isKey = true := by simpa [KeyCondition.namedKeys?] using hks
    simp only [if_neg hkeys]
  | _ => rfl

/-- If a plan has a strategy for reading and does not name its keys, its condition on the key has a
program. -/
lemma exists_program_of_readingStrategy {s : AccessStrategy} (hs : p.readingStrategy = .ok s)
    {c : KeyCondition} (hc : p.keyCondition = some c) (hks : c.namedKeys? = none) :
    ∃ program, c.program = .ok program := by
  rw [readingStrategy_of_namedKeys?_eq_none hc hks] at hs
  obtain ⟨program, hprogram, -⟩ := Outcome.bind_eq_ok.mp hs
  exact ⟨program, hprogram⟩

/-- If a plan has a strategy for reducing, its condition on the key has a program. -/
lemma exists_program_of_reducingStrategy {s : AccessStrategy} {call : ReducerCall}
    (hs : p.reducingStrategy call = .ok s) {c : KeyCondition} (hc : p.keyCondition = some c) :
    ∃ program, c.program = .ok program := by
  unfold reducingStrategy at hs
  simp only [hc] at hs
  obtain ⟨program, hprogram, -⟩ := Outcome.bind_eq_ok.mp hs
  exact ⟨program, hprogram⟩

/-- **A plan without an index chooses a strategy that finds the records that its programs accept.**

**Proof sketch.** By cases on the condition on the key. Where it names its keys they are looked up
(`exists_lookup`). Elsewhere the scan runs both programs (`exists_scan`). -/
theorem exists_readingStrategy (hknown : p.isKnown = true) (hindexes : p.indexes = []) :
    ∃ s, p.readingStrategy = .ok s ∧ s.Finds p.accepts := by
  obtain ⟨keys, hkeys, hscan⟩ := exists_scan hknown
  cases hc : p.keyCondition with
  | none =>
    rw [hc] at hkeys
    obtain rfl := Except.ok.inj hkeys
    exact ⟨_, by simp only [readingStrategy, hc, filterAndResidual_nil hindexes], hscan⟩
  | some c =>
    cases hks : c.namedKeys? with
    | some ks =>
      rw [accepts_eq .unknown hknown]
      rw [isKnown, Bool.and_eq_true] at hknown
      exact exists_lookup .unknown hknown.1 hc hks
    | none =>
      rw [hc, Option.mapM_some, Outcome.map_eq_ok] at hkeys
      obtain ⟨q, hq, rfl⟩ := hkeys
      exact ⟨_, by rw [readingStrategy_of_namedKeys?_eq_none hc hks, hq]; rfl, hscan⟩

end TablePlan

/-- A plan that reads the store and does not reduce takes the strategy for reading. -/
lemma QueryPlan.chooseStrategy_eq {p : QueryPlan} {s : AccessStrategy} (hsource : p.source = none)
    (hreduction : p.reduction = none) (hs : p.readingStrategy = .ok s) :
    p.chooseStrategy = .ok (p.mapTable (fun t => { t with strategy := some s })) := by
  simp only [chooseStrategy, hsource, hreduction, hs, Option.isSome_none, Bool.false_eq_true,
    if_false, Outcome.ok_bind, TablePlan.commit, mapTable, pure, Except.pure]

end RecordQuery
