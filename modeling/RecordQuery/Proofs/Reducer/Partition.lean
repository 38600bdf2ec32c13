import Mathlib.Algebra.BigOperators.Group.List.Basic
import RecordQuery.Proofs.Reducer.Aggregate
import RecordQuery.Proofs.Reducer.Call
import RecordQuery.Proofs.Reducer.Group

set_option autoImplicit false

/-!
# Grouping is a partition

What a reducer returns describes the groups of its inputs: their keys and, for every aggregate, its
outcome for the inputs that the group takes in. Without a NaN every input is taken in by the group
of its key. An input with one opens a group that takes in nothing, so that it is counted nowhere.

## Main definitions

* `AggregateSpec.reading` — what an aggregate takes of an input.
* `AggregateSpec.outcome` — the outcome of an aggregate for some inputs.
* `Reducer.groupKeys` — the keys of the groups that are described.

## Main results

* `Reducer.reduce_eq` — the descriptions of the groups of some inputs.
* `Reducer.reduce_partition` — without floats, they describe a partition of the inputs by their
  keys.
* `Groups.sum_length_taken` — the groups take in the inputs without a NaN, each once.
* `Reducer.reduce_counts` — the numbers of rows that the groups show.
-/

namespace RecordQuery

/-! ## The aggregates of a group -/

namespace AggregateSpec

/-- What an aggregate takes of an input. -/
def reading (s : AggregateSpec) (lookup : String → Option Value) : Option Value :=
  match s.column with
  | none => some (.integer 1)
  | some c => lookup c

/-- The outcome of an aggregate for some inputs: their number, or the outcome of an aggregate that
has taken in, in order, the values among what they have in the column. -/
def outcome (s : AggregateSpec) (inputs : List (String → Option Value)) : Value :=
  match s.column with
  | none => .integer (Int64.ofNat inputs.length)
  | some c =>
    ((Accumulator.present (inputs.map fun lookup => lookup c)).foldl Accumulator.addPresent
      (Accumulator.start s.kind)).result

/-- An aggregate that a text stands for has this outcome. -/
lemma outcome_reading {s : AggregateSpec} {text : String} (h : parse? text = .ok s)
    (inputs : List (String → Option Value)) :
    Accumulator.outcome s.kind (inputs.map s.reading) = s.outcome inputs := by
  rcases cases_of_parse? h with rfl | ⟨c, -, hcolumn⟩
  · have hpresent : Accumulator.present (inputs.map (reading ⟨.count, none⟩)) =
        inputs.map fun _ => .integer 1 := by
      rw [Accumulator.present, List.filterMap_map]
      exact congrFun List.filterMap_eq_map inputs
    rw [Accumulator.outcome_count, hpresent, List.length_map]
    rfl
  · have hreading : s.reading = fun lookup => lookup c := by
      funext lookup
      rw [reading, hcolumn]
    rw [Accumulator.outcome_of_present, hreading, outcome, hcolumn]

end AggregateSpec

namespace Reducer

variable {r : Reducer} {call : ReducerCall} {inputs : List (String → Option Value)}
  {k : List Value}

/-- The aggregates of a group are those of the inputs that it takes in. -/
lemma foldl_addInput (r : Reducer) (inputs : List (String → Option Value)) :
    inputs.foldl (fun as lookup => r.addInput lookup as) r.fresh =
      r.specs.map fun s => (inputs.map s.reading).foldl Accumulator.add
        (Accumulator.start s.kind) := by
  induction inputs using List.reverseRecOn with
  | nil => rfl
  | append_singleton inputs lookup ih =>
    have hadd : ∀ f : AggregateSpec → Accumulator,
        r.addInput lookup (r.specs.map f) = r.specs.map fun s => (f s).add (s.reading lookup) := by
      intro f
      rw [addInput, List.zipWith_map_right, List.zipWith_self]
      refine List.map_congr_left fun s _ => ?_
      rw [AggregateSpec.reading]
      cases s.column <;> rfl
    simp only [List.foldl_append, List.foldl_cons, List.foldl_nil, ih, hadd, List.map_append,
      List.map_cons, List.map_nil]

/-- The keys of the groups that are described: without grouping columns there is one group even if
there was no input. -/
def groupKeys (r : Reducer) (inputs : List (String → Option Value)) : List (List Value) :=
  if r.columns = [] then [[]] else Groups.opened r inputs

/-- Without grouping columns all inputs open one group. -/
lemma opened_of_columns_eq_nil (h : r.columns = []) (hinputs : inputs ≠ []) :
    Groups.opened r inputs = [[]] := by
  have hkey : ∀ lookup, r.keyOf lookup = [] := fun lookup => by rw [keyOf, h, List.map_nil]
  obtain ⟨lookup, rest, rfl⟩ := List.exists_cons_of_ne_nil hinputs
  have hrepeats : ((rest.map r.keyOf).filter fun k => Groups.sameKey k [] = false) = [] := by
    rw [List.filter_eq_nil_iff]
    intro k hk
    obtain ⟨lookup, -, rfl⟩ := List.mem_map.mp hk
    rw [hkey]
    decide
  rw [Groups.opened, List.map_cons, hkey, List.eraseDupsBy_cons, hrepeats]
  rfl

/-- **The descriptions of the groups of some inputs.**

**Proof sketch.** The groups that are formed from the inputs are the keys with their accumulators,
which have taken the inputs of their keys. If there are no columns and no inputs then the one group
is fresh; without columns and with inputs there is one group anyway. The outcome of an accumulator
is the one the spec asks for, since every spec of a decoded call has been parsed. -/
theorem reduce_eq (hcall : ofCall? call = .ok r) (inputs : List (String → Option Value)) :
    r.reduce inputs = (r.groupKeys inputs).map fun k =>
      .ofInserts (r.columns.zip k ++ r.specs.map fun s =>
        (s.text, s.outcome (Groups.taken r inputs k))) := by
  have hgroups : (if r.columns.isEmpty && (Groups.ofInputs r inputs).isEmpty then [([], r.fresh)]
      else Groups.ofInputs r inputs) = (r.groupKeys inputs).map fun k =>
        (k, (Groups.taken r inputs k).foldl (fun as lookup => r.addInput lookup as) r.fresh) := by
    rw [Groups.ofInputs_eq, groupKeys]
    by_cases hcolumns : r.columns = []
    · rw [if_pos hcolumns, hcolumns]
      by_cases hinputs : inputs = []
      · rw [hinputs]
        rfl
      · rw [opened_of_columns_eq_nil hcolumns hinputs]
        rfl
    · rw [if_neg hcolumns, if_neg]
      simp [hcolumns]
  have houtcomes : ∀ k, r.specs.map (fun s =>
      (s.text, Accumulator.outcome s.kind ((Groups.taken r inputs k).map s.reading))) =
        r.specs.map fun s => (s.text, s.outcome (Groups.taken r inputs k)) := by
    refine fun k => List.map_congr_left fun s hs => ?_
    obtain ⟨text, htext⟩ := parsed_of_ofCall? hcall s hs
    rw [AggregateSpec.outcome_reading htext]
  rw [reduce, output, hgroups, List.map_map]
  refine List.map_congr_left fun k _ => ?_
  rw [Function.comp_apply, describe, foldl_addInput, List.map_map, List.zip_map', ← houtcomes]
  rfl

/-- Every group that is described has the empty key or the key of an input. -/
lemma mem_groupKeys (h : k ∈ r.groupKeys inputs) :
    k.length = r.columns.length ∧ (k = [] ∨ ∃ lookup ∈ inputs, r.keyOf lookup = k) := by
  unfold groupKeys at h
  split at h
  · next hcolumns =>
    obtain rfl := List.mem_singleton.mp h
    exact ⟨by rw [hcolumns]; rfl, .inl rfl⟩
  · obtain ⟨lookup, hlookup, rfl⟩ := List.mem_map.mp (Groups.mem_opened h)
    exact ⟨List.length_map _, .inr ⟨lookup, hlookup, rfl⟩⟩

/-- **Without floats, what a reducer returns describes a partition of its inputs by their keys**:
one group for every key, in order of first occurrence, with the outcome of every aggregate for the
inputs of this key.

**Proof sketch.** Without floats there is no NaN, so the keys that are opened are the distinct keys
in order of first occurrence, and the inputs that a group takes are those with its key. The labels
of a description are distinct, so its entries are the pairs in the order in which they are set. -/
theorem reduce_partition (hcall : ofCall? call = .ok r)
    (hnames : (r.columns ++ r.specs.map AggregateSpec.text).Nodup)
    (hfloats : ∀ lookup ∈ inputs, ∀ v ∈ r.keyOf lookup, v.isFloatFree = true) :
    (r.reduce inputs).map OrderedMap.entries =
      (if call.family = ReducerCall.statsFamily then [[]]
        else (inputs.map r.keyOf).eraseDupsBy Value.identicalList).map fun k =>
          r.columns.zip k ++ r.specs.map fun s =>
            (s.text,
              s.outcome (inputs.filter fun lookup => Value.identicalList (r.keyOf lookup) k)) := by
  have hfree : ∀ lookup ∈ inputs, (Value.list (r.keyOf lookup)).isNaNFree = true :=
    fun lookup hlookup => Value.isNaNFree_list fun v hv =>
      Value.isNaNFree_of_isFloatFree (hfloats lookup hlookup v hv)
  have hkeys : r.groupKeys inputs = if call.family = ReducerCall.statsFamily then [[]]
      else (inputs.map r.keyOf).eraseDupsBy Value.identicalList := by
    simp only [groupKeys, columns_eq_nil_iff hcall, Groups.opened_eq hfree]
  rw [reduce_eq hcall, ← hkeys, List.map_map]
  refine List.map_congr_left fun k hk => ?_
  obtain ⟨hlength, hkey⟩ := mem_groupKeys hk
  have hself : (Value.list k).isNaNFree = true := by
    rcases hkey with rfl | ⟨lookup, hlookup, rfl⟩
    · rfl
    · exact hfree lookup hlookup
  rw [Function.comp_apply, OrderedMap.entries_ofInserts, Groups.taken_eq hself]
  rw [List.map_append, List.map_fst_zip hlength.ge, List.map_map]
  exact hnames

/-- The theorem for two groups: a missing column reads as null, and an input counts in its group
whether or not it has a value to add. -/
theorem reduce_partition_depts :
    let lookups : List (String → Option Value) :=
      [fun c =>
          if c = "dept" then some (.text "a") else if c = "age" then some (.integer 4) else none,
        fun c => if c = "age" then some (.integer 7) else none,
        fun c => if c = "dept" then some (.text "a") else some .null]
    ∃ r, ofCall? (.groupBy ["dept"] ["count:*", "sum:age"]) = .ok r ∧
      (r.reduce lookups).map OrderedMap.entries =
        [[("dept", .text "a"), ("count:*", .integer 2), ("sum:age", .integer 4)],
          [("dept", .null), ("count:*", .integer 1), ("sum:age", .integer 7)]] := by
  intro lookups
  have hcall : ofCall? (.groupBy ["dept"] ["count:*", "sum:age"]) =
      .ok ⟨["dept"], [⟨.count, none⟩, ⟨.sum, some "age"⟩]⟩ :=
    Outcome.eq_ok_of_toOption (by decide +kernel)
  exact ⟨_, hcall, (@reduce_partition _ _ lookups hcall (by decide) (by decide)).trans rfl⟩

end Reducer

/-! ## Counting rows -/

/-- How many of some things stand in one of several places, if each of them stands in one place or
in none.

**Proof sketch.** By induction on the things. One more thing adds to every place the number of times
it stands there, so to the sum as often as it stands in any place. -/
lemma sum_length_filter {α β : Type} {p : α → β → Bool} {q : α → Bool} {as : List α} {bs : List β}
    (h : ∀ a ∈ as, bs.countP (p a) = if q a then 1 else 0) :
    (bs.map fun b => (as.filter fun a => p a b).length).sum = (as.filter q).length := by
  induction as with
  | nil => simp
  | cons a as ih =>
    have hsplit : ∀ bs : List β, (bs.map fun b => ((a :: as).filter fun a => p a b).length).sum =
        bs.countP (p a) + (bs.map fun b => (as.filter fun a => p a b).length).sum := by
      intro bs
      induction bs with
      | nil => rfl
      | cons b bs ih =>
        rw [List.map_cons, List.sum_cons, ih, List.map_cons, List.sum_cons, List.countP_cons,
          List.filter_cons]
        split
        · rw [List.length_cons]
          omega
        · omega
    obtain ⟨ha, has⟩ := List.forall_mem_cons.mp h
    rw [hsplit, ha, ih has, List.filter_cons]
    split
    · rw [List.length_cons, Nat.add_comm]
    · rw [Nat.zero_add]

namespace Groups

variable {r : Reducer} {inputs : List (String → Option Value)} {lookup : String → Option Value}

/-- **An input is in one group** if there is no NaN in its key, and else in none.

**Proof sketch.** If there is no NaN then the key is among the opened ones, and since these differ
pairwise no earlier and no later one is the same. If there is one then the key is not even the same
as itself. -/
theorem countP_sameKey_opened (hlookup : lookup ∈ inputs) :
    (opened r inputs).countP (sameKey (r.keyOf lookup)) =
      if (Value.list (r.keyOf lookup)).isNaNFree then 1 else 0 := by
  split
  · next hself =>
    obtain ⟨k, hk, hsame⟩ := exists_sameKey_opened (r := r) hlookup hself
    obtain ⟨hkey, -⟩ := sameKey_iff.mp hsame
    obtain ⟨ks, ls, hsplit⟩ := List.append_of_mem hk
    have hpairwise := pairwise_opened r inputs
    rw [hsplit, List.pairwise_append, List.pairwise_cons] at hpairwise
    obtain ⟨-, ⟨hlater, -⟩, hearlier⟩ := hpairwise
    have hks : ks.countP (sameKey (r.keyOf lookup)) = 0 := by
      rw [List.countP_eq_zero]
      intro l hl
      rw [hkey, hearlier l hl k List.mem_cons_self]
      exact Bool.false_ne_true
    have hls : ls.countP (sameKey (r.keyOf lookup)) = 0 := by
      rw [List.countP_eq_zero]
      intro l hl
      rw [hkey, sameKey_comm, hlater l hl]
      exact Bool.false_ne_true
    rw [hsplit, List.countP_append, List.countP_cons, hks, hls, if_pos hsame]
  · next hnan =>
    rw [List.countP_eq_zero]
    intro k _ hsame
    obtain ⟨hkey, hself⟩ := sameKey_iff.mp hsame
    exact hnan (hkey ▸ hself)

/-- **The groups take in the inputs without a NaN**, each once. -/
theorem sum_length_taken (r : Reducer) (inputs : List (String → Option Value)) :
    ((opened r inputs).map fun k => (taken r inputs k).length).sum =
      (inputs.filter fun lookup => (Value.list (r.keyOf lookup)).isNaNFree).length :=
  sum_length_filter fun _ hlookup => countP_sameKey_opened hlookup

/-- An open group takes in nothing if there is a NaN in its key. -/
lemma taken_eq_nil_iff {k : List Value} (hk : k ∈ opened r inputs) :
    taken r inputs k = [] ↔ (Value.list k).isNaNFree = false := by
  obtain ⟨lookup, hlookup, rfl⟩ := List.mem_map.mp (mem_opened hk)
  rw [taken, List.filter_eq_nil_iff]
  constructor
  · intro hnone
    exact Bool.eq_false_iff.mpr fun hself => hnone lookup hlookup (sameKey_iff.mpr ⟨rfl, hself⟩)
  · intro hnan other _ hsame
    rw [(sameKey_iff.mp hsame).2] at hnan
    cases hnan

/-- **The groups that take in nothing** are those of the inputs with a NaN. -/
theorem count_zero_length_taken (r : Reducer) (inputs : List (String → Option Value)) :
    ((opened r inputs).map fun k => (taken r inputs k).length).count 0 =
      (inputs.filter fun lookup => !(Value.list (r.keyOf lookup)).isNaNFree).length := by
  have hempty : ∀ k ∈ opened r inputs,
      ((taken r inputs k).length == 0) = !(Value.list k).isNaNFree := by
    intro k hk
    rw [Bool.eq_iff_iff, beq_iff_eq, List.length_eq_zero_iff, taken_eq_nil_iff hk,
      Bool.not_eq_true']
  have hkept := filter_eraseDupsBy (r := sameKey) (p := fun k => !(Value.list k).isNaNFree)
    (fun k l hnan => Bool.eq_false_iff.mpr fun hsame => by
      obtain ⟨rfl, hself⟩ := sameKey_iff.mp hsame
      rw [hself] at hnan
      cases hnan) (inputs.map r.keyOf)
  rw [List.count, List.countP_map, List.countP_congr fun k hk => by
    rw [Function.comp_apply, hempty k hk], List.countP_eq_length_filter, opened, hkept,
    List.filter_map, List.length_map]
  rfl

end Groups

namespace Reducer

variable {r : Reducer} {call : ReducerCall} {inputs : List (String → Option Value)}

/-- **The numbers of rows that the groups show** add up to the number of inputs without a NaN in
their group values. Each of the others has a group of its own, which shows that it has no row.

**Proof sketch.** The decoded call groups by columns, so the groups are the keys that are opened.
What a group shows under the name of the count is its count, as no other spec has this name. The
numbers of inputs in the groups add up as `sum_length_filter` says. -/
theorem reduce_counts (hcall : ofCall? call = .ok r)
    (hfamily : call.family = ReducerCall.groupByFamily) (hcount : ⟨.count, none⟩ ∈ r.specs) :
    ∃ counts : List Nat,
      (r.reduce inputs).map (fun bins => bins.get? "count:*") =
        counts.map (fun n => some (.integer (Int64.ofNat n))) ∧
      counts.sum = (inputs.filter fun lookup => (Value.list (r.keyOf lookup)).isNaNFree).length ∧
      counts.count 0 =
        (inputs.filter fun lookup => !(Value.list (r.keyOf lookup)).isNaNFree).length := by
  have hcolumns : r.columns ≠ [] := by
    rw [Ne, columns_eq_nil_iff hcall, hfamily]
    decide
  have hunique : ∀ s ∈ r.specs, s.text = "count:*" → s = ⟨.count, none⟩ := fun s hs htext => by
    obtain ⟨text, hparsed⟩ := parsed_of_ofCall? hcall s hs
    exact AggregateSpec.eq_of_text_eq hparsed htext
  refine ⟨(Groups.opened r inputs).map fun k => (Groups.taken r inputs k).length, ?_,
    Groups.sum_length_taken r inputs, Groups.count_zero_length_taken r inputs⟩
  rw [reduce_eq hcall, groupKeys, if_neg hcolumns, List.map_map, List.map_map]
  refine List.map_congr_left fun k _ => ?_
  refine OrderedMap.get?_ofInserts_append (List.mem_map.mpr ⟨⟨.count, none⟩, hcount, rfl⟩) ?_
  intro e he htext
  obtain ⟨s, hs, rfl⟩ := List.mem_map.mp he
  rw [hunique s hs htext]
  rfl

/-- The theorem for an input whose group value is not a number: of three rows two are counted. -/
theorem reduce_counts_nan :
    let lookups : List (String → Option Value) :=
      [fun _ => some (.integer 1), fun _ => some (.float (Binary64.nan false)),
        fun _ => some (.integer 1)]
    ∃ r, ofCall? (.groupBy ["g"] ["count:*"]) = .ok r ∧ ∃ counts : List Nat,
      (r.reduce lookups).map (fun bins => bins.get? "count:*") =
        counts.map (fun n => some (.integer (Int64.ofNat n))) ∧
      counts.sum = 2 ∧ counts.count 0 = 1 := by
  intro lookups
  have hcall : ofCall? (.groupBy ["g"] ["count:*"]) = .ok ⟨["g"], [⟨.count, none⟩]⟩ :=
    Outcome.eq_ok_of_toOption (by decide +kernel)
  obtain ⟨counts, hshown, hsum, hzero⟩ :=
    @reduce_counts _ _ lookups hcall rfl List.mem_cons_self
  exact ⟨_, hcall, counts, hshown, hsum, hzero⟩

end Reducer

end RecordQuery
