import RecordQuery.Proofs.Duplicates
import RecordQuery.Proofs.OrderedMap
import RecordQuery.Proofs.Value.Encoding
import RecordQuery.Proofs.Value.PartialOrder
import RecordQuery.Reducer.Group

set_option autoImplicit false

/-!
# The groups of a reducer

A reducer opens a group where a key occurs first and finds it again as long as the key equals
itself; only a NaN does not, so that every input with one has a group of its own, which stays empty.
Without it there is one group for every key among the inputs, with the inputs of that key.

## Main definitions

* `Groups.keys` — the values by which groups are formed, in order.
* `Groups.opened` — the keys under which some inputs open groups.
* `Groups.taken` — the inputs that a group takes in.

## Main results

* `Groups.feed_map` — one more input.
* `Groups.ofInputs_eq` — the groups of some inputs.
* `Groups.keys_ofInputs` — without a NaN, the keys of the groups are those of the inputs, each once.
* `OutputMapping.get?_row` — what the row of a group shows.
-/

namespace RecordQuery

namespace Groups

variable {r : Reducer} {inputs : List (String → Option Value)} {lookup : String → Option Value}
  {k l : List Value}

/-! ## Keys that name one group -/

/-- Keys name one group if they are the same and without a NaN. -/
lemma sameKey_iff : sameKey k l = true ↔ k = l ∧ (Value.list l).isNaNFree = true := by
  rw [sameKey, Bool.and_eq_true, Value.identicalList_iff]
  constructor
  · rintro ⟨hself, rfl⟩
    exact ⟨rfl, Value.equalList_self k ▸ hself⟩
  · rintro ⟨rfl, hself⟩
    exact ⟨Value.equalList_self k ▸ hself, rfl⟩

/-- Naming one group goes both ways. -/
lemma sameKey_comm (k l : List Value) : sameKey k l = sameKey l k := by
  rw [Bool.eq_iff_iff, sameKey_iff, sameKey_iff]
  exact ⟨fun ⟨heq, h⟩ => ⟨heq.symm, heq ▸ h⟩, fun ⟨heq, h⟩ => ⟨heq.symm, heq ▸ h⟩⟩

/-- Without a NaN, keys name one group if they are the same. -/
lemma sameKey_eq_identicalList (hl : (Value.list l).isNaNFree = true) :
    sameKey k l = Value.identicalList k l := by
  rw [Bool.eq_iff_iff, sameKey_iff, Value.identicalList_iff, and_iff_left hl]

/-! ## The groups of some inputs -/

/-- The values by which groups are formed, in order. -/
def keys (gs : Groups) : List (List Value) := gs.map Prod.fst

/-- The keys under which some inputs open groups: those that do not name a group that is open. -/
def opened (r : Reducer) (inputs : List (String → Option Value)) : List (List Value) :=
  (inputs.map r.keyOf).eraseDupsBy sameKey

/-- The inputs that the group of a key takes in, in order. -/
def taken (r : Reducer) (inputs : List (String → Option Value)) (key : List Value) :
    List (String → Option Value) :=
  inputs.filter (fun lookup => sameKey (r.keyOf lookup) key)

/-- Every open group has the key of an input. -/
lemma mem_opened (h : k ∈ opened r inputs) : k ∈ inputs.map r.keyOf :=
  mem_of_mem_eraseDupsBy h

/-- No two open groups have one key. -/
lemma pairwise_opened (r : Reducer) (inputs : List (String → Option Value)) :
    (opened r inputs).Pairwise fun k l => sameKey l k = false :=
  pairwise_eraseDupsBy sameKey _

/-- Without a NaN, the open groups are those of the keys of the inputs, each once. -/
lemma opened_eq (hfree : ∀ lookup ∈ inputs, (Value.list (r.keyOf lookup)).isNaNFree = true) :
    opened r inputs = (inputs.map r.keyOf).eraseDupsBy Value.identicalList := by
  have hsame := map_eraseDupsBy (r := sameKey) (f := id) (inputs.map r.keyOf) fun k _ l hl => by
    obtain ⟨lookup, hlookup, rfl⟩ := List.mem_map.mp hl
    exact sameKey_eq_identicalList (hfree lookup hlookup)
  rwa [List.map_id, List.map_id] at hsame

/-- A key without a NaN takes in the inputs with this key. -/
lemma taken_eq (hk : (Value.list k).isNaNFree = true) :
    taken r inputs k = inputs.filter fun lookup => Value.identicalList (r.keyOf lookup) k :=
  List.filter_congr fun _ _ => sameKey_eq_identicalList hk

/-- An input whose key names itself is in an open group. -/
lemma exists_sameKey_opened (hlookup : lookup ∈ inputs)
    (hself : (Value.list (r.keyOf lookup)).isNaNFree = true) :
    ∃ k ∈ opened r inputs, sameKey (r.keyOf lookup) k = true := by
  rcases exists_of_mem_eraseDupsBy (r := sameKey) (List.mem_map_of_mem hlookup) with hkey | hkey
  · exact ⟨r.keyOf lookup, hkey, sameKey_iff.mpr ⟨rfl, hself⟩⟩
  · exact hkey

/-- One more input goes into the group of its key. -/
lemma taken_append_singleton (r : Reducer) (inputs : List (String → Option Value))
    (lookup : String → Option Value) (k : List Value) :
    taken r (inputs ++ [lookup]) k =
      taken r inputs k ++ if sameKey (r.keyOf lookup) k then [lookup] else [] := by
  rw [taken, List.filter_append, taken]
  cases h : sameKey (r.keyOf lookup) k <;> simp [h]

/-- A key that names no open group has not taken in anything. -/
lemma taken_eq_nil (h : (opened r inputs).any (sameKey k) = false) : taken r inputs k = [] := by
  rw [taken, List.filter_eq_nil_iff]
  intro lookup hlookup hsame
  obtain ⟨rfl, hself⟩ := sameKey_iff.mp hsame
  obtain ⟨l, hl, hkl⟩ := exists_sameKey_opened hlookup hself
  exact List.any_eq_false.mp h l hl hkl

/-- Taking an input into its group, if no two groups have one key. -/
lemma update_map (lookup : String → Option Value) (key : List Value)
    (f : List Value → List Accumulator) {ks : List (List Value)}
    (hks : ks.Pairwise fun k l => sameKey l k = false) :
    update r lookup key (ks.map fun k => (k, f k)) =
      ks.map fun k => (k, if sameKey key k then r.addInput lookup (f k) else f k) := by
  induction ks with
  | nil => rfl
  | cons k ks ih =>
    obtain ⟨hk, hks⟩ := List.pairwise_cons.mp hks
    rw [List.map_cons, List.map_cons, update, sameKey_comm]
    split
    · next hsame =>
      obtain ⟨rfl, -⟩ := sameKey_iff.mp hsame
      refine congrArg _ (List.map_congr_left fun l hl => ?_)
      rw [sameKey_comm, hk l hl, if_neg Bool.false_ne_true]
    · rw [ih hks]

/-- **One more input** opens a group with its key if there is none, and goes into the group of its
key, if that has one.

**Proof sketch.** Either a group has the key of the input, and then it takes the input in while no
group is opened; or none has, and then a group is opened for the key, which is fresh by assumption.
-/
theorem feed_map {f : List Value → List Accumulator} (lookup : String → Option Value)
    (hfresh : (opened r inputs).any (sameKey (r.keyOf lookup)) = false →
      f (r.keyOf lookup) = r.fresh) :
    feed r ((opened r inputs).map fun k => (k, f k)) lookup =
      (opened r (inputs ++ [lookup])).map fun k =>
        (k, if sameKey (r.keyOf lookup) k then r.addInput lookup (f k) else f k) := by
  have hany :
      ((opened r inputs).map fun k => (k, f k)).any (fun g => sameKey g.1 (r.keyOf lookup)) =
        (opened r inputs).any (sameKey (r.keyOf lookup)) := by
    rw [List.any_map]
    exact congrArg _ (funext fun k => sameKey_comm k (r.keyOf lookup))
  have hopened : opened r (inputs ++ [lookup]) =
      if (opened r inputs).any (sameKey (r.keyOf lookup)) then opened r inputs
      else opened r inputs ++ [r.keyOf lookup] := by
    rw [opened, List.map_append, List.map_singleton, eraseDupsBy_concat, opened]
  rw [← update_map _ _ f (pairwise_opened r (inputs ++ [lookup])), feed, hany, hopened]
  refine congrArg _ ?_
  split
  · rfl
  · next hnew =>
    rw [List.map_append, List.map_singleton, hfresh (Bool.eq_false_iff.mpr hnew)]

/-- **The groups of some inputs** are those that they open, each with the inputs that it takes in.
By induction on the inputs, from the last one: a group that it opens has taken in nothing before. -/
theorem ofInputs_eq (r : Reducer) (inputs : List (String → Option Value)) :
    ofInputs r inputs = (opened r inputs).map fun k =>
      (k, (taken r inputs k).foldl (fun as lookup => r.addInput lookup as) r.fresh) := by
  induction inputs using List.reverseRecOn with
  | nil => rfl
  | append_singleton inputs lookup ih =>
    have hfed : ofInputs r (inputs ++ [lookup]) = feed r (ofInputs r inputs) lookup :=
      List.foldl_append
    rw [hfed, ih, feed_map lookup fun hnew => by rw [taken_eq_nil hnew, List.foldl_nil]]
    refine List.map_congr_left fun k _ => congrArg _ ?_
    rw [taken_append_singleton, List.foldl_append]
    split <;> rfl

/-- **Without a NaN, the keys of the groups are those of the inputs, each once.** -/
theorem keys_ofInputs
    (hself : ∀ lookup ∈ inputs, Value.equalList (r.keyOf lookup) (r.keyOf lookup) = true) :
    (ofInputs r inputs).keys.Nodup ∧ ∀ k, k ∈ (ofInputs r inputs).keys ↔
      k ∈ inputs.map r.keyOf := by
  have hfree : ∀ lookup ∈ inputs, (Value.list (r.keyOf lookup)).isNaNFree = true :=
    fun lookup hlookup => Value.equalList_self _ ▸ hself lookup hlookup
  have hkeys : (ofInputs r inputs).keys = (inputs.map r.keyOf).eraseDupsBy Value.identicalList := by
    rw [keys, ofInputs_eq, List.map_map, ← opened_eq hfree]
    exact List.map_id _
  rw [hkeys]
  refine ⟨(pairwise_eraseDupsBy _ _).imp fun hne heq => ?_,
    fun k => ⟨mem_of_mem_eraseDupsBy, fun hk => ?_⟩⟩
  · rw [(Value.identicalList_iff _ _).mpr heq.symm] at hne
    cases hne
  · rcases exists_of_mem_eraseDupsBy (r := Value.identicalList) hk with hkept | ⟨l, hl, hkl⟩
    · exact hkept
    · exact (Value.identicalList_iff _ _).mp hkl ▸ hl

end Groups

/-- What a row shows under a label after the bins of some labels were set.

**Proof sketch.** By induction on the mapping. A later entry with the label decides, whatever is set
before it. Without one, the first entry decides if it has the label, and otherwise the row. -/
lemma OutputMapping.get?_foldl_set {label bin : String} (bins : Bins) : (m : OutputMapping) →
    (row : Row) → (∀ e ∈ m, e.2 = label → e.1 = bin) →
    ((m.map fun e => (e.2, (bins.get? e.1).getD .null)).foldl
      (fun row p => row.set p.1 p.2) row).get? label =
    if ∃ e ∈ m, e.2 = label then some ((bins.get? bin).getD .null) else row.get? label
  | [], row, _ => by simp
  | e :: m, row, hm => by
    have hrest : ∀ f ∈ m, f.2 = label → f.1 = bin := fun f hf => hm f (List.mem_cons_of_mem e hf)
    rw [List.map_cons, List.foldl_cons, get?_foldl_set bins m _ hrest, OrderedMap.get?_set]
    by_cases hlater : ∃ f ∈ m, f.2 = label
    · obtain ⟨f, hf, hlabel⟩ := hlater
      rw [if_pos ⟨f, hf, hlabel⟩, if_pos ⟨f, List.mem_cons_of_mem e hf, hlabel⟩]
    rw [if_neg hlater]
    by_cases he : e.2 = label
    · rw [if_pos he.symm, if_pos ⟨e, List.mem_cons_self, he⟩, hm e List.mem_cons_self he]
    · have hnone : ¬∃ f ∈ e :: m, f.2 = label := by
        rintro ⟨f, hf, hlabel⟩
        rcases List.mem_cons.mp hf with rfl | hf
        · exact he hlabel
        · exact hlater ⟨f, hf, hlabel⟩
      rw [if_neg fun h => he h.symm, if_neg hnone]

/-- **What the row of a group shows** under a label that stands for one bin. -/
theorem OutputMapping.get?_row {m : OutputMapping} {label bin : String}
    (hmem : ∃ e ∈ m, e.2 = label)
    (hbin : ∀ e ∈ m, e.2 = label → e.1 = bin) (bins : Bins) :
    (m.row bins).get? label = some ((bins.get? bin).getD .null) := by
  rw [OutputMapping.row, OrderedMap.ofPairs, get?_foldl_set bins m .empty hbin, if_pos hmem]

end RecordQuery
