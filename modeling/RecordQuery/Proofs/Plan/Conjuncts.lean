import RecordQuery.Proofs.Plan.Index

set_option autoImplicit false

/-!
# Which conjunct an index serves

A plan takes conditions one at a time, and every one becomes the right side of a conjunction of two
with what was there before. The choice of a strategy looks at the whole condition and at the two
sides of the outermost conjunction. Of many conditions that one index could serve, it sees the last.

## Main definitions

* `Condition.ServedBy` — what an index can do for a condition, and the filter that does it.
* `Condition.conjoined` — the condition of a plan that took several.
* `Condition.offered` — those of several conditions that the choice of a strategy looks at.

## Main results

* `Condition.splitIndex?_isSome_iff` — a condition is split if an index serves one of its offers.
* `Condition.served_conjoined_iff` — which of several conditions are offered.
* `QueryPlan.chooseStrategy_conjuncts` — the strategy of a plan that took several conditions.
-/

namespace RecordQuery

namespace Condition

variable {indexes : List IndexDefinition} {c d : Condition} {cs ds es : List Condition}
  {f : IndexFilter}

/-! ## Indexes that serve -/

/-- What an index can do for a condition: find an equal value that it supports, or the integers of a
range. -/
inductive ServedBy (indexes : List IndexDefinition) : Condition → IndexFilter → Prop
  /-- An index on a bin finds the values that it supports. -/
  | equal {i : IndexDefinition} {kind : BinKind} {o : Operand} {v : Value} :
      i ∈ indexes → i.supports o = true → o.indexed? = some v →
      ServedBy indexes (compare i.bin kind .eq o) (.equal i.bin v)
  /-- A numeric index finds the integers between two. -/
  | range {i : IndexDefinition} {kind kind' : BinKind} {low high : Int64} :
      i ∈ indexes → i.type = .numeric →
      ServedBy indexes
        (all [compare i.bin kind .ge (.integer low), compare i.bin kind' .le (.integer high)])
        (.range i.bin low high)

/-- **A filter is found for the conditions that an index serves.**

**Proof sketch.** From left to right the branches are followed: an equality needs a value that the
index supports, a range needs a numeric index. From right to left each of the two forms takes its
branch. -/
lemma indexFilter?_eq_some_iff : c.indexFilter? indexes = some f ↔ c.ServedBy indexes f := by
  constructor
  · intro h
    unfold indexFilter? at h
    split at h
    · split at h
      · rename_i v hv
        split at h
        · rename_i hindex
          obtain rfl := Option.some.inj h
          simp only [List.any_eq_true, Bool.and_eq_true, beq_iff_eq] at hindex
          obtain ⟨i, hi, rfl, hsupports⟩ := hindex
          exact .equal hi hsupports hv
        · cases h
      · cases h
    · split at h
      · rename_i hindex
        obtain rfl := Option.some.inj h
        simp only [List.any_eq_true, Bool.and_eq_true, beq_iff_eq] at hindex
        obtain ⟨rfl, i, hi, rfl, htype⟩ := hindex
        exact .range hi htype
      · cases h
    · cases h
  · intro h
    cases h with
    | @equal i kind o v hi hsupports hv =>
      have hindex : indexes.any (fun j => j.bin == i.bin && j.supports o) = true :=
        List.any_eq_true.mpr ⟨i, hi, by simp [hsupports]⟩
      simp [indexFilter?, hv, hindex]
    | @range i kind kind' low high hi htype =>
      have hindex : indexes.any (fun j => j.bin == i.bin && j.type == .numeric) = true :=
        List.any_eq_true.mpr ⟨i, hi, by simp [htype]⟩
      simp [indexFilter?, hindex]

/-- The whole condition and, if it is a conjunction, its sides. -/
def offers : Condition → List Condition
  | all cs => all cs :: cs
  | c => [c]

/-- One of several conditions leads to a filter if an index serves it. -/
lemma firstFilter?_isSome_iff :
    (firstFilter? indexes cs).isSome = true ↔ ∃ d ∈ cs, ∃ f, d.ServedBy indexes f := by
  induction cs with
  | nil => simp [firstFilter?]
  | cons c cs ih =>
    rw [firstFilter?, List.exists_mem_cons_iff, ← ih]
    cases hc : c.indexFilter? indexes with
    | none =>
      have hnone : ¬ ∃ f, c.ServedBy indexes f := by
        rintro ⟨f, hf⟩
        rw [indexFilter?_eq_some_iff.mpr hf] at hc
        cases hc
      simp [hnone]
    | some g => exact iff_of_true rfl (.inl ⟨g, indexFilter?_eq_some_iff.mp hc⟩)

/-- **A condition is split if an index serves one of its offers.** -/
theorem splitIndex?_isSome_iff :
    (c.splitIndex? indexes).isSome = true ↔ ∃ d ∈ c.offers, ∃ f, d.ServedBy indexes f := by
  unfold splitIndex?
  cases hc : c.indexFilter? indexes with
  | some g =>
    refine iff_of_true rfl ⟨c, ?_, g, indexFilter?_eq_some_iff.mp hc⟩
    cases c <;> simp [offers]
  | none =>
    have hnone : ¬ ∃ f, c.ServedBy indexes f := by
      rintro ⟨f, hf⟩
      rw [indexFilter?_eq_some_iff.mpr hf] at hc
      cases hc
    cases c with
    | all cs =>
      simp only [Option.isSome_map, offers, List.exists_mem_cons_iff, firstFilter?_isSome_iff]
      exact (or_iff_right hnone).symm
    | compare bin kind c o => simpa [offers] using hnone
    | inSlot bin kind slot => simpa [offers] using hnone
    | any cs => simpa [offers] using hnone

/-! ## Conditions taken one at a time -/

/-- The condition of a plan that took several. -/
def conjoined (c : Condition) (cs : List Condition) : Condition :=
  cs.foldl (fun c d => all [c, d]) c

/-- A plan that takes several conditions. -/
lemma foldl_addCondition {p : TablePlan} (h : p.condition = some c) :
    cs.foldl TablePlan.addCondition p = { p with condition := some (conjoined c cs) } := by
  induction cs generalizing c p with
  | nil => rw [List.foldl_nil, conjoined, List.foldl_nil, ← h]
  | cons d cs ih =>
    have hadded : (p.addCondition d).condition = some (all [c, d]) := by
      rw [TablePlan.addCondition, h]
    rw [List.foldl_cons, ih hadded]
    rfl

/-- A record satisfies the conditions of a plan together if it satisfies each. -/
lemma holds_conjoined (r : Record) : (conjoined c cs).holds r = (c :: cs).all (holds r) := by
  induction cs generalizing c with
  | nil => simp [conjoined]
  | cons d cs ih =>
    rw [conjoined, List.foldl_cons, ← conjoined, ih]
    simp [holds, holdsAll, Bool.and_assoc]

/-- The kinds in the conditions of a plan fit if they fit in each. -/
lemma isKinded_conjoined : (conjoined c cs).isKinded = (c :: cs).all isKinded := by
  induction cs generalizing c with
  | nil => simp [conjoined]
  | cons d cs ih =>
    rw [conjoined, List.foldl_cons, ← conjoined, ih]
    simp [isKinded, areKinded, Bool.and_assoc]

/-- All operands in the conditions of a plan are known if they are in each. -/
lemma isResolved_conjoined : (conjoined c cs).isResolved = (c :: cs).all isResolved := by
  induction cs generalizing c with
  | nil => simp [conjoined]
  | cons d cs ih =>
    have hpair : (all [c, d]).isResolved = (c.isResolved && d.isResolved) := by
      cases hc : c.unresolved? <;> simp [isResolved, unresolved?, unresolvedIn?, hc]
    rw [conjoined, List.foldl_cons, ← conjoined, ih, List.all_cons, hpair]
    simp [Bool.and_assoc]

/-- Those of several conditions that the choice of a strategy looks at: the last one, the first one
if there are not more than two, and the first two as the bounds of a range if there are not more
than three. -/
def offered : List Condition → List Condition
  | [] => []
  | [c] => c.offers
  | [c, d] => [all [c, d], c, d]
  | [c, d, e] => [all [c, d], e]
  | _ :: _ :: _ :: c :: cs => [(c :: cs).getLast (List.cons_ne_nil c cs)]

/-- The last condition is the right side of the outermost conjunction. -/
lemma conjoined_concat : conjoined c (cs ++ [d]) = all [conjoined c cs, d] := by
  simp [conjoined, List.foldl_append]

/-- A conjunction that begins with a conjunction is still one when more conditions are taken. -/
lemma exists_conjoined_nested :
    ∃ xs ys, conjoined (all (all cs :: ds)) es = all (all xs :: ys) := by
  induction es generalizing cs ds with
  | nil => exact ⟨cs, ds, rfl⟩
  | cons e es ih => exact ih

/-- No index serves a conjunction that begins with a conjunction. -/
lemma not_servedBy_nested : ¬ ∃ f, (all (all cs :: ds)).ServedBy indexes f := by
  rintro ⟨f, hf⟩
  cases hf

/-- **An index serves the conjunction of several conditions** or one of its sides if it serves what
is offered of them.

**Proof sketch.** The conjunction of four or more begins with one that begins with one, and no index
serves either. What is left to be offered is the last condition. -/
theorem served_conjoined_iff :
    (∃ d ∈ (conjoined c cs).offers, ∃ f, d.ServedBy indexes f) ↔
      ∃ d ∈ offered (c :: cs), ∃ f, d.ServedBy indexes f := by
  match cs with
  | [] => rfl
  | [d] => rfl
  | [d, e] =>
    change (∃ x ∈ [all [all [c, d], e], all [c, d], e], ∃ f, x.ServedBy indexes f) ↔ _
    rw [List.exists_mem_cons_iff, or_iff_right not_servedBy_nested]
    rfl
  | d :: e :: x :: xs =>
    obtain ⟨init, last, hlast⟩ : ∃ init last, x :: xs = init ++ [last] :=
      ⟨_, _, (List.dropLast_append_getLast (List.cons_ne_nil x xs)).symm⟩
    have hoffered : offered (c :: d :: e :: x :: xs) = [last] := by
      simp only [offered, hlast, List.getLast_append_singleton]
    have hwhole : conjoined c (d :: e :: (init ++ [last])) =
        all [conjoined c (d :: e :: init), last] := by
      rw [← List.cons_append, ← List.cons_append, conjoined_concat]
    have hnested : ∃ us vs, conjoined (all [all [c, d], e]) init = all (all us :: vs) :=
      exists_conjoined_nested
    obtain ⟨us, vs, hleft⟩ : ∃ us vs, conjoined c (d :: e :: init) = all (all us :: vs) := hnested
    rw [hoffered, hlast, hwhole, hleft, offers, List.exists_mem_cons_iff, List.exists_mem_cons_iff,
      or_iff_right not_servedBy_nested, or_iff_right not_servedBy_nested]

end Condition

/-! ## The choice of a strategy -/

namespace QueryPlan

/-- **An index is used for one of several conditions if it is offered.** A plan that reads the
store, groups nothing and has no condition takes several conditions that the store decides, one
after the other. If an index serves what is offered of them, the strategy is a scan through an
index, and otherwise a scan of the whole set. Either finds what satisfies all conditions, but for
records with a truth value in the bin of the index.

**Proof sketch.** The conditions of the plan are those of the list (`foldl_addCondition`), and the
choice splits them if an index serves an offer of their conjunction (`splitIndex?_isSome_iff`),
which is one of what is offered (`served_conjoined_iff`). What is split off and what is left decide
the conjunction (`splitIndex?_accepts`). -/
theorem chooseStrategy_conjuncts {p : QueryPlan} {cs : List Condition} (hne : cs ≠ [])
    (hcondition : p.condition = none) (hkey : p.keyCondition = none)
    (hreduction : p.reduction = none) (hsource : p.source = none) :
    ∃ q, (p.mapTable (cs.foldl TablePlan.addCondition)).chooseStrategy = .ok q ∧
      ((∃ c ∈ Condition.offered cs, ∃ f, c.ServedBy p.indexes f) →
        ∃ f residual, q.strategy = some (.indexScan f residual) ∧
          ∀ r : Record, cs.all Condition.isKinded = true → cs.all Condition.isResolved = true →
            r.hasTruthAt f.bin = false →
            ∃ b, residual.run r = .ok b ∧ (f.accepts r && b) = cs.all (Condition.holds r)) ∧
      ((¬ ∃ c ∈ Condition.offered cs, ∃ f, c.ServedBy p.indexes f) →
        ∃ residual, q.strategy = some (.fullScan residual none) ∧
          ∀ r : Record, cs.all Condition.isResolved = true →
            residual.run r = .ok (cs.all (Condition.holds r))) := by
  obtain ⟨c, ds, rfl⟩ := List.exists_cons_of_ne_nil hne
  have hadded : (p.addCondition c).condition = some c := by rw [TablePlan.addCondition, hcondition]
  have htable : (c :: ds).foldl TablePlan.addCondition p.toTablePlan =
      { p.toTablePlan with condition := some (Condition.conjoined c ds) } := by
    rw [List.foldl_cons, Condition.foldl_addCondition hadded]
    rfl
  rw [mapTable, htable, ← Condition.served_conjoined_iff, ← Condition.splitIndex?_isSome_iff]
  simp only [← Condition.isKinded_conjoined, ← Condition.isResolved_conjoined,
    ← Condition.holds_conjoined]
  generalize Condition.conjoined c ds = whole
  let table : TablePlan := { p.toTablePlan with condition := some whole }
  cases hsplit : whole.splitIndex? p.indexes with
  | none =>
    have hs : table.readingStrategy = .ok (.fullScan whole.program none) := by
      simp only [table, TablePlan.readingStrategy, hkey, TablePlan.filterAndResidual,
        Option.bind_some, hsplit]
      rfl
    exact ⟨_, chooseStrategy_eq hsource hreduction hs,
      fun hserved => absurd hserved Bool.false_ne_true,
      fun _ => ⟨whole.program, rfl, fun r hresolved => Condition.run_program r hresolved⟩⟩
  | some found =>
    obtain ⟨f, rest⟩ := found
    have hs : table.readingStrategy = .ok (.indexScan f (Condition.programOf rest)) := by
      simp only [table, TablePlan.readingStrategy, hkey, TablePlan.filterAndResidual,
        Option.bind_some, hsplit]
    refine ⟨_, chooseStrategy_eq hsource hreduction hs,
      fun _ => ⟨f, Condition.programOf rest, rfl, fun r hkinded hresolved htruth => ?_⟩,
      fun hserved => absurd rfl hserved⟩
    obtain ⟨d, -, -, -, hrest⟩ := Condition.exists_of_splitIndex? hsplit
    refine ⟨_, Condition.run_remaining (hrest hresolved) r, ?_⟩
    have haccepts := Condition.splitIndex?_accepts hsplit hkinded r
    rwa [htruth, Bool.not_false, Bool.and_true] at haccepts

/-- An index on the age is used if the condition on the age comes last of three, and not if it comes
first.

**Proof sketch.** Of three conjuncts only the last one is offered to an index on its own, as the
others are inside one conjunction. In the one order this is the age, and in the other one the name,
which no index serves; `chooseStrategy_conjuncts` turns both into strategies. -/
theorem chooseStrategy_conjuncts_person :
    let age : Condition := .compare "age" .integer .eq (.integer 30)
    let score : Condition := .compare "score" .integer .gt (.integer 5)
    let name : Condition := .compare "name" .text .eq (.text "Ann")
    let index : IndexDefinition := ⟨"test", "people", "age", "by_age", .numeric⟩
    let p : QueryPlan := .ofTable { TablePlan.ofSet "test" (some "people") none with
      indexes := [index] }
    (∃ q f residual,
      (p.mapTable ([score, name, age].foldl TablePlan.addCondition)).chooseStrategy = .ok q ∧
        q.strategy = some (.indexScan f residual)) ∧
    ∃ q residual,
      (p.mapTable ([age, score, name].foldl TablePlan.addCondition)).chooseStrategy = .ok q ∧
        q.strategy = some (.fullScan residual none) := by
  intro age score name index p
  constructor
  · have hage : age.ServedBy p.indexes (.equal "age" (.integer 30)) :=
      Condition.indexFilter?_eq_some_iff.mp rfl
    have hserved : ∃ c ∈ Condition.offered [score, name, age], ∃ f, c.ServedBy p.indexes f :=
      ⟨age, by simp [Condition.offered], _, hage⟩
    obtain ⟨q, hq, hindex, -⟩ := @chooseStrategy_conjuncts p [score, name, age]
      (List.cons_ne_nil _ _) rfl rfl rfl rfl
    obtain ⟨f, residual, hs, -⟩ := hindex hserved
    exact ⟨q, f, residual, hq, hs⟩
  · have hserved : ¬ ∃ c ∈ Condition.offered [age, score, name], ∃ f, c.ServedBy p.indexes f := by
      rintro ⟨c, hc, f, hf⟩
      rw [← Condition.indexFilter?_eq_some_iff] at hf
      rcases List.mem_pair.mp hc with rfl | rfl <;> cases hf
    obtain ⟨q, hq, -, hscan⟩ := @chooseStrategy_conjuncts p [age, score, name]
      (List.cons_ne_nil _ _) rfl rfl rfl rfl
    obtain ⟨residual, hs, -⟩ := hscan hserved
    exact ⟨q, residual, hq, hs⟩

end QueryPlan

end RecordQuery
