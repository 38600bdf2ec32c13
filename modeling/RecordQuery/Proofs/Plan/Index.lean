import RecordQuery.Proofs.Compile.Twin
import RecordQuery.Proofs.Plan.Strategy
import RecordQuery.Proofs.Predicate.Kinds

set_option autoImplicit false

/-!
# What indexes find

An index is asked for records whose bin equals a value or lies in a range, while a scan compares
bins. The two differ in one point: a comparison reads a truth value as `0` or `1`, and no index
finds it under an integer. Where no record holds a truth value in a bin that a numeric index orders,
the records that an index leads to are those that a scan finds, in the same order.

## Main definitions

* `Record.hasTruthAt` — a record holds a truth value in a bin.
* `Store.Backs` — a store has the indexes of a catalog, and no record holds a truth value where a
  numeric one of them orders integers.
* `TablePlan.Indexed` — the plan of a table with indexes beside the plan without.

## Main results

* `Condition.splitIndex?_accepts` — what is left to an index and the rest decide the condition, but
  for records with a truth value in the bin.
* `TablePlan.Indexed.readingStrategy`, `TablePlan.Indexed.reducingStrategy` — strategies with an
  index find what those without find.
-/

namespace RecordQuery

open Outcome

/-- Whether a record holds a truth value in a bin. -/
def Record.hasTruthAt (r : Record) (bin : String) : Bool :=
  match r.bin? bin with
  | some (.boolean _) => true
  | _ => false

namespace Condition

variable {indexes : List IndexDefinition} {c : Condition} {f : IndexFilter}

/-- The records whose bin equals a value of an operand are those on which the comparison holds, but
for records with a truth value in the bin.

**Proof sketch.** By the operand, which has a value to compare with only if it is an integer or a
text, and then by the value of the bin. An integer equals a truth value in a comparison but not in
an index; for all other kinds both say the same. -/
lemma equal_accepts {bin : String} {kind : BinKind} {o : Operand} {v : Value}
    (hv : o.indexed? = some v) (hkind : kind.admits o = true) (r : Record) :
    (IndexFilter.equal bin v).accepts r =
      ((compare bin kind .eq o).holds r && !r.hasTruthAt bin) := by
  simp only [IndexFilter.accepts, holds, Record.hasTruthAt]
  cases o with
  | integer i =>
    obtain rfl := Option.some.inj hv
    have heq : ∀ j : Int64, (j == i) = (Ord.compare j.toInt i.toInt == .eq) := by
      intro j
      rw [Bool.eq_iff_iff, beq_iff_eq, beq_iff_eq, Std.compare_eq_iff_eq, Int64.toInt_inj]
    rw [BinKind.admits] at hkind
    rcases r.bin? bin with _ | (_ | _ | _ | _ | _ | _ | _) <;>
      simp [Operand.accepts, Value.equal, hkind, heq, Comparison.admits]
  | text s =>
    obtain rfl := Option.some.inj hv
    have heq : ∀ t : String, (t == s) = (Ord.compare t s == .eq) := by
      intro t
      rw [Bool.eq_iff_iff, beq_iff_eq, beq_iff_eq, Std.compare_eq_iff_eq]
    rw [BinKind.admits] at hkind
    rcases r.bin? bin with _ | (_ | _ | _ | _ | _ | _ | _) <;>
      simp [Operand.accepts, Value.equal, hkind, heq, Comparison.admits]
  | null => cases hv
  | param index => cases hv
  | outer label => cases hv
  | slot index => cases hv

/-- The records whose bin is an integer in a range are those on which both comparisons hold, but for
records with a truth value in the bin. -/
lemma range_accepts {bin : String} {kind kind' : BinKind} {low high : Int64}
    (hlow : kind.admits (.integer low) = true) (hhigh : kind'.admits (.integer high) = true)
    (r : Record) :
    (IndexFilter.range bin low high).accepts r =
      ((all [compare bin kind .ge (.integer low), compare bin kind' .le (.integer high)]).holds r &&
        !r.hasTruthAt bin) := by
  have hge : ∀ i : Int64, Comparison.ge.admits (Ord.compare i.toInt low.toInt) =
      decide (low.toInt ≤ i.toInt) := by
    intro i
    rw [Bool.eq_iff_iff, decide_eq_true_eq, Comparison.admits, bne_iff_ne, Int.compare_ne_lt]
  have hle : ∀ i : Int64, Comparison.le.admits (Ord.compare i.toInt high.toInt) =
      decide (i.toInt ≤ high.toInt) := by
    intro i
    rw [Bool.eq_iff_iff, decide_eq_true_eq, Comparison.admits, bne_iff_ne, Int.compare_ne_gt]
  rw [BinKind.admits] at hlow hhigh
  simp only [IndexFilter.accepts, holds, holdsAll, Record.hasTruthAt, Bool.and_true]
  rcases r.bin? bin with _ | (_ | _ | _ | _ | _ | _ | _) <;>
    simp [Operand.accepts, hlow, hhigh, hge, hle]

/-- **What an index finds for a condition** is what the condition holds for, but for records with a
truth value in the bin. -/
lemma indexFilter?_accepts (h : c.indexFilter? indexes = some f) (hkinded : c.isKinded = true)
    (r : Record) : f.accepts r = (c.holds r && !r.hasTruthAt f.bin) := by
  unfold indexFilter? at h
  split at h
  · split at h
    · rename_i v hv
      split at h
      · obtain rfl := Option.some.inj h
        exact equal_accepts hv hkinded r
      · cases h
    · cases h
  · split at h
    · rename_i hindex
      obtain rfl := Option.some.inj h
      simp only [Bool.and_eq_true, beq_iff_eq] at hindex
      obtain ⟨rfl, -⟩ := hindex
      simp only [isKinded, areKinded, Bool.and_true, Bool.and_eq_true] at hkinded
      exact range_accepts hkinded.1 hkinded.2 r
    · cases h
  · cases h

/-- A filter asks a numeric index, or its condition holds for no truth value.

**Proof sketch.** A filter for an integer or for a range asks a numeric index. A filter for a text
holds only where the bin has a text, so for no truth value. -/
lemma indexFilter?_numeric (h : c.indexFilter? indexes = some f) :
    (∃ i ∈ indexes, i.bin = f.bin ∧ i.type = .numeric) ∨
      ∀ r : Record, c.holds r = true → r.hasTruthAt f.bin = false := by
  unfold indexFilter? at h
  split at h
  · rename_i bin kind o
    split at h
    · rename_i v hv
      split at h
      · rename_i hindex
        obtain rfl := Option.some.inj h
        obtain ⟨i, hi, hserves⟩ := List.any_eq_true.mp hindex
        simp only [Bool.and_eq_true, beq_iff_eq] at hserves
        cases o with
        | integer k =>
          left
          refine ⟨i, hi, hserves.1, ?_⟩
          have hsupports := hserves.2
          unfold IndexDefinition.supports at hsupports
          split at hsupports <;> simp_all
        | text s =>
          right
          intro r hr
          rw [holds] at hr
          rw [IndexFilter.bin, Record.hasTruthAt]
          split
          · rename_i hbin
            rw [hbin] at hr
            cases hr
          · rfl
        | null => cases hv
        | param index => cases hv
        | outer label => cases hv
        | slot index => cases hv
      · cases h
    · cases h
  · split at h
    · rename_i hindex
      obtain rfl := Option.some.inj h
      left
      simp only [Bool.and_eq_true, List.any_eq_true, beq_iff_eq] at hindex
      obtain ⟨-, i, hi, hbin, htype⟩ := hindex
      exact ⟨i, hi, hbin, htype⟩
    · cases h
  · cases h

/-- There is an index on the bin of a filter. -/
lemma exists_index (h : c.indexFilter? indexes = some f) : ∃ i ∈ indexes, i.bin = f.bin := by
  unfold indexFilter? at h
  split at h
  · split at h
    · split at h
      · rename_i hindex
        obtain rfl := Option.some.inj h
        simp only [List.any_eq_true, Bool.and_eq_true, beq_iff_eq] at hindex
        obtain ⟨i, hi, hbin, -⟩ := hindex
        exact ⟨i, hi, hbin⟩
      · cases h
    · cases h
  · split at h
    · rename_i hindex
      obtain rfl := Option.some.inj h
      simp only [Bool.and_eq_true, List.any_eq_true, beq_iff_eq] at hindex
      obtain ⟨-, i, hi, hbin, -⟩ := hindex
      exact ⟨i, hi, hbin⟩
    · cases h
  · cases h

/-- What is true of the one conjunct that an index decides is true of the filter among several.

**Proof sketch.** By induction on the conditions. Either the first one gives the filter and the
others are left over, or it is left over in front of those that the others leave. -/
lemma exists_of_firstFilter? {cs rest : List Condition}
    (h : firstFilter? indexes cs = some (f, rest)) :
    ∃ d ∈ cs, d.indexFilter? indexes = some f ∧ (∀ r : Record,
      cs.all (holds r) = (d.holds r && rest.all (holds r))) ∧
      (cs.all isKinded = true → d.isKinded = true) ∧
      (unresolvedIn? cs = none → unresolvedIn? rest = none) := by
  induction cs generalizing rest with
  | nil => cases h
  | cons c cs ih =>
    rw [firstFilter?] at h
    split at h
    · rename_i g hg
      obtain ⟨rfl, rfl⟩ := Prod.mk.inj (Option.some.inj h)
      refine ⟨c, by simp, hg, fun r => List.all_cons, fun hk => ?_, fun hu => ?_⟩
      · rw [List.all_cons, Bool.and_eq_true] at hk
        exact hk.1
      · exact (isResolved_cons hu).2
    · rw [Option.map_eq_some_iff] at h
      obtain ⟨⟨g, others⟩, hothers, heq⟩ := h
      obtain ⟨rfl, rfl⟩ := Prod.mk.inj heq
      obtain ⟨d, hd, hfilter, hholds, hkinded, hresolved⟩ := ih hothers
      refine ⟨d, by simp [hd], hfilter, fun r => ?_, fun hk => ?_, fun hu => ?_⟩
      · rw [List.all_cons, hholds, List.all_cons]
        ac_rfl
      · rw [List.all_cons, Bool.and_eq_true] at hk
        exact hkinded hk.2
      · obtain ⟨hc, hcs⟩ := isResolved_cons hu
        rw [unresolvedIn?, hc, hresolved hcs]
        rfl

/-- A conjunction of one condition is that condition. -/
lemma holds_allOf (r : Record) (cs : List Condition) : (allOf cs).holds r = cs.all (holds r) := by
  match cs with
  | [] => rfl
  | [c] => simp [allOf]
  | c :: d :: cs =>
    change holdsAll r (c :: d :: cs) = _
    rw [holdsAll_eq, List.all_map]
    rfl

/-- A conjunction of conditions whose operands are known. -/
lemma isResolved_allOf {cs : List Condition} (h : unresolvedIn? cs = none) :
    (allOf cs).isResolved = true := by
  match cs with
  | [] => rfl
  | [c] =>
    have hc := (isResolved_cons h).1
    rw [allOf, isResolved, hc]
    rfl
  | c :: d :: cs =>
    change (unresolvedIn? (c :: d :: cs)).isNone = true
    rw [h]
    rfl

/-- What is left to an index is a condition of its own, and what remains is decided with it.

**Proof sketch.** Either the condition as a whole gives the filter and nothing is left, or it is a
conjunction and its first part that gives one is taken out of it. -/
lemma exists_of_splitIndex? {rest : Option Condition}
    (h : c.splitIndex? indexes = some (f, rest)) :
    ∃ d : Condition, d.indexFilter? indexes = some f ∧
      (∀ r : Record, c.holds r = (d.holds r && rest.all (holds r))) ∧
      (c.isKinded = true → d.isKinded = true) ∧
      (c.isResolved = true → rest.all isResolved = true) := by
  unfold splitIndex? at h
  split at h
  · rename_i g hg
    obtain ⟨rfl, rfl⟩ := Prod.mk.inj (Option.some.inj h)
    exact ⟨c, hg, fun r => by simp, fun hk => hk, fun _ => rfl⟩
  · split at h
    · rename_i cs _
      rw [Option.map_eq_some_iff] at h
      obtain ⟨⟨g, others⟩, hothers, heq⟩ := h
      obtain ⟨rfl, rfl⟩ := Prod.mk.inj heq
      obtain ⟨d, -, hfilter, hholds, hkinded, hresolved⟩ := exists_of_firstFilter? hothers
      refine ⟨d, hfilter, fun r => ?_, fun hk => ?_, fun hu => ?_⟩
      · rw [holds, holdsAll_eq, List.all_map, Option.all_some, holds_allOf]
        exact hholds r
      · rw [isKinded, areKinded_eq] at hk
        exact hkinded hk
      · have hnone : unresolvedIn? cs = none := by simpa [isResolved, unresolved?] using hu
        exact isResolved_allOf (hresolved hnone)
    · cases h

/-- **What is left to an index and what remains decide the condition**, but for records with a truth
value in the bin of the index. -/
theorem splitIndex?_accepts {rest : Option Condition} (h : c.splitIndex? indexes = some (f, rest))
    (hkinded : c.isKinded = true) (r : Record) :
    (f.accepts r && rest.all (holds r)) = (c.holds r && !r.hasTruthAt f.bin) := by
  obtain ⟨d, hfilter, hholds, hkinds, -⟩ := exists_of_splitIndex? h
  rw [indexFilter?_accepts hfilter (hkinds hkinded), hholds]
  ac_rfl

end Condition

/-! ## Scans -/

/-- Testing only the elements that a filter visits keeps the same ones, if the test accepts no other
element. -/
lemma filterExcept_of_visits {α : Type} {p q : α → Except QueryError Bool} {visits : α → Bool}
    {as out : List α}
    (h : ∀ a ∈ as, ∀ b, p a = .ok b → (visits a = true → q a = .ok b) ∧
      (visits a = false → b = false))
    (hout : filterExcept p as = .ok out) : filterExcept q (as.filter visits) = .ok out := by
  induction as generalizing out with
  | nil => exact hout
  | cons a as ih =>
    simp only [filterExcept, bind_eq_ok, pure_eq_ok] at hout
    obtain ⟨keep, hkeep, rest, hrest, rfl⟩ := hout
    have hothers := ih (fun b hb => h b (by simp [hb])) hrest
    obtain ⟨hvisited, hskipped⟩ := h a (by simp) keep hkeep
    cases hvisits : visits a with
    | true =>
      rw [List.filter_cons_of_pos hvisits, filterExcept, hvisited hvisits, hothers]
      rfl
    | false =>
      rw [List.filter_cons_of_neg (by simp [hvisits]), hothers, hskipped hvisits]
      rfl

/-- The store has the indexes of a catalog, and no record holds a truth value in a bin that a
numeric one of them orders. -/
structure Store.Backs (K : Store) (catalog : IndexCatalog) : Prop where
  /-- The indexes are defined. -/
  defined : ∀ i ∈ catalog, i ∈ K.indexes
  /-- Where integers are ordered, there are no truth values. -/
  integral : ∀ i ∈ catalog, i.type = .numeric →
    ∀ r ∈ K.recordsOf i.ns i.set, r.hasTruthAt i.bin = false

/-- The plan of a table with indexes of a catalog beside the plan without indexes. The kinds in the
condition fit. -/
structure TablePlan.Indexed (catalog : IndexCatalog) (plain indexed : TablePlan) : Prop where
  /-- The plans differ in the indexes and the strategies only. -/
  same : indexed = { plain with indexes := indexed.indexes, strategy := indexed.strategy }
  /-- One plan has no indexes. -/
  unindexed : plain.indexes = []
  /-- The other one has indexes on its set. -/
  indexes : ∀ i ∈ indexed.indexes, i ∈ catalog ∧ i.ns = plain.ns ∧ some i.set = plain.set
  /-- The kinds in the condition fit. -/
  kinded : plain.condition.all Condition.isKinded = true

/-- Programs that run on a record decide it together. -/
lemma Program.run_all {ps : List Program} {r : Record} (h : ∀ p ∈ ps, ∃ b, p.run r = .ok b) :
    (Program.conjunction ps).run r = .ok (ps.all (fun p => (p.run r).toOption.getD false)) := by
  refine Program.run_conjunction fun p hp => ?_
  obtain ⟨b, hb⟩ := h p hp
  rw [hb]
  rfl

/-- A condition whose program runs has operands that are known. -/
lemma Condition.isResolved_of_run {c : Option Condition} {r : Record}
    {before after : List StackItem}
    (h : Program.runFrom r before (Condition.programOf c) = .ok after) :
    c.all Condition.isResolved = true := by
  cases c with
  | none => rfl
  | some c => exact Condition.isResolved_of_runFrom h

/-- What remains of a condition is decided by its program. -/
lemma Condition.run_remaining {rest : Option Condition} (h : rest.all Condition.isResolved = true)
    (r : Record) : (Condition.programOf rest).run r = .ok (rest.all (Condition.holds r)) := by
  cases rest with
  | none => rfl
  | some e => exact Condition.run_program r h

/-- The empty program adds nothing to another one. -/
lemma Program.conjunction_nil (q : Program) : Program.conjunction [q, []] = q := by
  cases q <;> simp [Program.conjunction]

namespace TablePlan

variable {catalog : IndexCatalog} {plain p : TablePlan} {f : IndexFilter} {residual : Program}
  {set : String} {K : Store}

/-- What an index offers for a plan comes of one conjunct of its condition. -/
lemma exists_of_filterAndResidual (h : p.filterAndResidual = (some f, residual)) :
    ∃ (c d : Condition) (rest : Option Condition), p.condition = some c ∧
      d.indexFilter? p.indexes = some f ∧ residual = Condition.programOf rest ∧
      (∀ r : Record, c.holds r = (d.holds r && rest.all (Condition.holds r))) ∧
      (c.isKinded = true → d.isKinded = true) ∧
      (c.isResolved = true → rest.all Condition.isResolved = true) := by
  unfold filterAndResidual at h
  split at h
  · rename_i g rest hsplit
    obtain ⟨hg, rfl⟩ := Prod.mk.inj h
    obtain rfl := Option.some.inj hg
    rw [Option.bind_eq_some_iff] at hsplit
    obtain ⟨c, hc, hsplit⟩ := hsplit
    obtain ⟨d, hd, hholds, hkinded, hresolved⟩ := Condition.exists_of_splitIndex? hsplit
    exact ⟨c, d, rest, hc, hd, rfl, hholds, hkinded, hresolved⟩
  · cases h

/-- Where no index is asked, everything remains. -/
lemma residual_of_none (h : p.filterAndResidual = (none, residual)) :
    residual = Condition.programOf p.condition := by
  unfold filterAndResidual at h
  split at h
  · cases h
  · exact (Prod.mk.inj h).2.symm

/-- The store has the index that is asked for. -/
lemma serves_of_backs (h : plain.Indexed catalog p) (hset : plain.set = some set)
    (hK : K.Backs catalog) (hf : p.filterAndResidual = (some f, residual)) :
    K.serves plain.ns set f = true := by
  obtain ⟨c, d, rest, -, hd, -⟩ := exists_of_filterAndResidual hf
  obtain ⟨i, hi, hbin⟩ := Condition.exists_index hd
  obtain ⟨hcatalog, hns, hiset⟩ := h.indexes i hi
  rw [hset, Option.some.injEq] at hiset
  rw [Store.serves, List.any_eq_true]
  exact ⟨i, hK.defined i hcatalog, by simp [hns, hiset, hbin]⟩

/-- **An index decides its part of a condition** on the records of its set: where the program of the
condition runs, the filter and the residual program make the same decision together.

**Proof sketch.** The condition is the conjunction of the part that the index decides and of what
remains. The index accepts a record if and only if its part holds and the bin has no truth value,
and by assumption on the store no truth value occurs in a bin with a numeric index. -/
lemma index_decides (h : plain.Indexed catalog p) (hset : plain.set = some set)
    (hK : K.Backs catalog) (hf : p.filterAndResidual = (some f, residual))
    (hresolved : plain.condition.all Condition.isResolved = true) {r : Record}
    (hr : r ∈ K.recordsOf plain.ns set) :
    ∃ b b', (Condition.programOf plain.condition).run r = .ok b ∧ residual.run r = .ok b' ∧
      b = (f.accepts r && b') := by
  obtain ⟨c, d, rest, hc, hd, rfl, hholds, hkinded, hrest⟩ := exists_of_filterAndResidual hf
  have hcond : plain.condition = some c := by rw [← hc, h.same]
  have hkind := h.kinded
  rw [hcond] at hresolved hkind ⊢
  have hrun := Condition.run_remaining (hrest hresolved) r
  -- A record with a truth value in the bin of a numeric index does not occur, and to other filters
  -- truth values make no difference.
  have htruth : (d.holds r && !r.hasTruthAt f.bin) = d.holds r := by
    rcases Condition.indexFilter?_numeric hd with ⟨i, hi, hbin, htype⟩ | hnone
    · obtain ⟨hcatalog, hns, hiset⟩ := h.indexes i hi
      rw [hset, Option.some.injEq] at hiset
      have hfalse := hK.integral i hcatalog htype r (by rw [hns, hiset]; exact hr)
      rw [← hbin, hfalse, Bool.not_false, Bool.and_true]
    · cases hdr : d.holds r with
      | false => rfl
      | true => rw [hnone r hdr]; rfl
  refine ⟨c.holds r, _, Condition.run_program r hresolved, hrun, ?_⟩
  rw [Condition.indexFilter?_accepts hd (hkinded hkind), htruth, hholds]

/-- **A scan through an index finds what a scan of the whole set finds**, whatever other programs
have to accept the records, as long as these run on every record on which they run on one.

**Proof sketch.** Where the program without an index runs on a record, its parts do, so the
condition has no unknowns and the index decides its part (`index_decides`). If the index visits the
record then both programs make the same decision; if it does not then the program without an index
rejects the record. -/
theorem follows_select (qs : List Program) (h : plain.Indexed catalog p)
    (hset : plain.set = some set) (hK : K.Backs catalog)
    (hf : p.filterAndResidual = (some f, residual))
    (hqs : ∀ q ∈ qs, ∀ r, (∃ before after, Program.runFrom r before q = .ok after) →
      ∃ b, q.run r = .ok b) :
    Follows Eq
      (K.select ⟨plain.ns, set, none,
        Program.conjunction (Condition.programOf plain.condition :: qs)⟩)
      (K.select ⟨plain.ns, set, some f, Program.conjunction (residual :: qs)⟩) := by
  intro rs hrs
  refine ⟨rs, ?_, rfl⟩
  simp only [Store.select, Store.filter_visits_none, serves_of_backs h hset hK hf, if_true] at hrs ⊢
  refine filterExcept_of_visits (fun r hr b hb => ?_) hrs
  have hruns := fun q hq => Program.runFrom_of_conjunction (p := q) hb hq
  obtain ⟨before, after, hbefore⟩ := hruns _ (List.mem_cons_self ..)
  have hresolved := Condition.isResolved_of_run hbefore
  obtain ⟨b₁, b₂, hb₁, hb₂, heq⟩ := index_decides h hset hK hf hresolved hr
  have hothers : ∀ q ∈ qs, ∃ b, q.run r = .ok b := fun q hq =>
    hqs q hq r (hruns q (List.mem_cons_of_mem _ hq))
  have hplain := Program.run_all (r := r)
    (List.forall_mem_cons.mpr ⟨⟨b₁, hb₁⟩, hothers⟩)
  have hindexed := Program.run_all (r := r)
    (List.forall_mem_cons.mpr ⟨⟨b₂, hb₂⟩, hothers⟩)
  rw [List.all_cons, hb₁] at hplain
  rw [List.all_cons, hb₂] at hindexed
  rw [hplain, Except.ok.injEq] at hb
  refine ⟨fun hvisits => ?_, fun hvisits => ?_⟩
  · have hb' : b₁ = b₂ := by rw [heq, show f.accepts r = true from hvisits, Bool.true_and]
    rw [hindexed, ← hb, hb']
  · have hfalse : b₁ = false := by rw [heq, show f.accepts r = false from hvisits, Bool.false_and]
    rw [← hb, hfalse]
    rfl

/-- The strategies for reading two plans with the same conditions on the key are the same, if there
is such a condition. -/
lemma readingStrategy_of_key {c : KeyCondition} (h : plain.Indexed catalog p)
    (hc : plain.keyCondition = some c) : p.readingStrategy = plain.readingStrategy := by
  have hkey : p.keyCondition = plain.keyCondition := by rw [h.same]
  have hcond : p.condition = plain.condition := by rw [h.same]
  unfold readingStrategy
  rw [hkey, hcond, hc]
  cases c with
  | equal o => cases o <;> rfl
  | among ks => rfl
  | inSlot slot => rfl
  | notEqual o => rfl
  | range low high => rfl
  | all cs => rfl

/-! ## Plans with and without indexes -/

namespace Indexed

/-- The plan with indexes is the other one with indexes and another strategy. -/
lemma exists_eq (h : plain.Indexed catalog p) :
    ∃ indexes strategy, p = { plain with indexes, strategy } := ⟨_, _, h.same⟩

/-- Plans with other conditions, of which the kinds fit. -/
lemma withConditions (h : plain.Indexed catalog p) {c : Option Condition} (k : Option KeyCondition)
    (hc : c.all Condition.isKinded = true) :
    TablePlan.Indexed catalog { plain with condition := c, keyCondition := k }
      { p with condition := c, keyCondition := k } := by
  obtain ⟨indexes, strategy, rfl⟩ := h.exists_eq
  exact ⟨rfl, h.unindexed, h.indexes, hc⟩

/-- Plans with one more condition. -/
lemma addCondition (h : plain.Indexed catalog p) {c : Condition} (hc : c.isKinded = true) :
    (plain.addCondition c).Indexed catalog (p.addCondition c) := by
  have hadded : (plain.addCondition c).condition.all Condition.isKinded = true := by
    rw [TablePlan.addCondition, Option.all_some]
    have hkinded := h.kinded
    cases hplain : plain.condition with
    | none => exact hc
    | some d =>
      rw [hplain] at hkinded
      simp [Condition.isKinded, Condition.areKinded, hc, show d.isKinded = true from hkinded]
  have hboth := h.withConditions plain.keyCondition hadded
  obtain ⟨indexes, strategy, rfl⟩ := h.exists_eq
  exact hboth

/-- Plans with one more condition on the key. -/
lemma addKeyCondition (h : plain.Indexed catalog p) (k : KeyCondition) :
    (plain.addKeyCondition k).Indexed catalog (p.addKeyCondition k) := by
  have hboth := h.withConditions (plain.addKeyCondition k).keyCondition h.kinded
  obtain ⟨indexes, strategy, rfl⟩ := h.exists_eq
  exact hboth

/-- Columns and digests do not depend on indexes. -/
lemma twinning (catalog : IndexCatalog) : Twinning (fun _ => TablePlan.Indexed catalog) where
  ns h := by rw [h.same]
  columns h := by rw [h.same]
  withColumns h cs := by
    obtain ⟨indexes, strategy, rfl⟩ := h.exists_eq
    exact ⟨rfl, h.unindexed, h.indexes, h.kinded⟩
  withDigest h := by
    obtain ⟨indexes, strategy, rfl⟩ := h.exists_eq
    exact ⟨rfl, h.unindexed, h.indexes, h.kinded⟩

/-- Plans with strategies of their own. -/
lemma withStrategies (h : plain.Indexed catalog p) (s s' : Option AccessStrategy) :
    TablePlan.Indexed catalog { plain with strategy := s } { p with strategy := s' } := by
  obtain ⟨indexes, strategy, rfl⟩ := h.exists_eq
  exact ⟨rfl, h.unindexed, h.indexes, h.kinded⟩

/-- A plan with indexes chooses a strategy if the plan without does. -/
lemma exists_readingStrategy (h : plain.Indexed catalog p) :
    Follows (fun _ _ => True) plain.readingStrategy p.readingStrategy := by
  cases hc : plain.keyCondition with
  | some c =>
    rw [readingStrategy_of_key h hc]
    exact .refl fun _ _ => trivial
  | none =>
    intro s _
    have hkey : p.keyCondition = none := by rw [h.same, ← hc]
    simp only [TablePlan.readingStrategy, hkey]
    split <;> exact ⟨_, rfl, trivial⟩

/-- A plan with indexes chooses a strategy to reduce by if the plan without does. -/
lemma exists_reducingStrategy (h : plain.Indexed catalog p) (call : ReducerCall) :
    Follows (fun _ _ => True) (plain.reducingStrategy call) (p.reducingStrategy call) := by
  have hkey : p.keyCondition = plain.keyCondition := by rw [h.same]
  simp only [TablePlan.reducingStrategy, hkey]
  cases plain.keyCondition with
  | none => exact .ok trivial
  | some c => exact (Follows.of_eq c.program).bind fun q _ _ => .ok trivial

/-- Plans with the strategies for their conditions. -/
lemma chooseStrategy (h : plain.Indexed catalog p) :
    Follows (TablePlan.Indexed catalog) plain.chooseStrategy p.chooseStrategy :=
  h.exists_readingStrategy.bind fun s s' _ => .ok (h.withStrategies (some s) (some s'))

end Indexed

/-- **Strategies with an index find what those without find.**

**Proof sketch.** With a condition on the keys the indexes are not looked at. Otherwise both
strategies scan, and either there is no filter, and nothing differs, or the scans find the same by
`follows_select`. -/
theorem Indexed.readingStrategy (h : plain.Indexed catalog p) (hset : plain.set = some set)
    (hK : K.Backs catalog) (withDigest : Bool) :
    Follows (fun s s' => Follows Eq ((⟨plain.ns, set, s, withDigest⟩ : TableAccess).records K)
        ((⟨plain.ns, set, s', withDigest⟩ : TableAccess).records K))
      plain.readingStrategy p.readingStrategy := by
  have hkey : p.keyCondition = plain.keyCondition := by rw [h.same]
  cases hc : plain.keyCondition with
  | some c =>
    rw [readingStrategy_of_key h hc]
    exact .refl fun s _ => .of_eq _
  | none =>
    have hplain := filterAndResidual_nil h.unindexed
    rw [hc] at hkey
    simp only [TablePlan.readingStrategy, hc, hkey, hplain]
    rcases hf : p.filterAndResidual with ⟨_ | f, residual⟩
    · rw [residual_of_none hf, show p.condition = plain.condition by rw [h.same]]
      exact .ok (.of_eq _)
    · refine .ok ?_
      have hselect := follows_select [[]] h hset hK hf fun q hq r _ => by
        rw [List.mem_singleton.mp hq]
        exact ⟨true, rfl⟩
      rwa [Program.conjunction_nil residual] at hselect

/-- **Aggregations with an index reduce what those without do**, whatever other programs have to
accept the records.

**Proof sketch.** Both scans find the same records, by `follows_select` if there is a filter and
because nothing differs otherwise. The reducer and the mapping are the same. -/
lemma Indexed.follows_aggregation (qs : List Program) (h : plain.Indexed catalog p)
    (hset : plain.set = some set) (hK : K.Backs catalog) (call : ReducerCall) (withDigest : Bool)
    (mapping : OutputMapping)
    (hqs : ∀ q ∈ qs, ∀ r, (∃ before after, Program.runFrom r before q = .ok after) →
      ∃ b, q.run r = .ok b) :
    Follows (fun s s' =>
        Follows Eq ((⟨plain.ns, set, s, withDigest⟩ : TableAccess).groups mapping K)
          ((⟨plain.ns, set, s', withDigest⟩ : TableAccess).groups mapping K))
      (.ok (.aggregation none
        (Program.conjunction (Condition.programOf plain.condition :: qs)) call) :
        Except QueryError AccessStrategy)
      (.ok (.aggregation p.filterAndResidual.1
        (Program.conjunction (p.filterAndResidual.2 :: qs)) call) :
        Except QueryError AccessStrategy) := by
  rcases hf : p.filterAndResidual with ⟨_ | f, residual⟩
  · rw [residual_of_none hf, show p.condition = plain.condition by rw [h.same]]
    exact .ok (.of_eq _)
  · refine .ok ?_
    have hfound := follows_select qs h hset hK hf hqs
    have hreduced : Follows Eq
        (K.reduce ⟨plain.ns, set, none,
          Program.conjunction (Condition.programOf plain.condition :: qs)⟩ call)
        (K.reduce ⟨plain.ns, set, some f, Program.conjunction (residual :: qs)⟩ call) := by
      refine (Follows.of_eq (Reducer.ofCall? call)).bind fun r _ hr => ?_
      subst hr
      exact hfound.map fun a b hab => by rw [hab]
    exact hreduced.map fun a b hab => by rw [hab]

/-- **Strategies that reduce with an index reduce what those without do.**

**Proof sketch.** Without a condition on the keys no other program has to accept the records. With
one its program has to, and since it runs on one record its keys can be compared, so that it runs on
every record. -/
theorem Indexed.reducingStrategy (h : plain.Indexed catalog p) (hset : plain.set = some set)
    (hK : K.Backs catalog) (call : ReducerCall) (withDigest : Bool) (mapping : OutputMapping) :
    Follows (fun s s' =>
        Follows Eq ((⟨plain.ns, set, s, withDigest⟩ : TableAccess).groups mapping K)
          ((⟨plain.ns, set, s', withDigest⟩ : TableAccess).groups mapping K))
      (plain.reducingStrategy call) (p.reducingStrategy call) := by
  have hkey : p.keyCondition = plain.keyCondition := by rw [h.same]
  simp only [TablePlan.reducingStrategy, hkey, filterAndResidual_nil h.unindexed]
  cases hc : plain.keyCondition with
  | none => exact follows_aggregation [] h hset hK call withDigest mapping (by simp)
  | some c =>
    cases hq : c.program with
    | error e =>
      simp only [hq, error_bind]
      exact .error e
    | ok q =>
      simp only [hq, ok_bind]
      refine follows_aggregation [q] h hset hK call withDigest mapping fun q' hq' r hruns => ?_
      obtain ⟨before, after, hbefore⟩ := hruns
      rw [List.mem_singleton.mp hq'] at hbefore ⊢
      have hcmp := KeyCondition.isComparable_of_runFrom r c q before after hq hbefore
      obtain ⟨q'', hq'', -, hrun⟩ := KeyCondition.program_run .unknown hcmp
      obtain rfl := Except.ok.inj (hq.symm.trans hq'')
      exact ⟨_, hrun r⟩

end TablePlan

end RecordQuery
