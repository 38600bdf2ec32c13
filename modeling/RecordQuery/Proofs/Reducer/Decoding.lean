import RecordQuery.Compile.Grouping
import RecordQuery.Proofs.Duplicates
import RecordQuery.Proofs.Reducer.Call

set_option autoImplicit false

/-!
# Reading calls back

The arguments of a call are texts, and the reducer reads from them what it groups by and what it
aggregates. The name of a column may hold the colon that ends the name of an aggregate, or begin
with the mark of a grouping column: an aggregate ends its own name with the first colon, and no
aggregate is named like the mark. So a call is read as what it was made of, unless a column has the
name of the star or the rows are asked for something else than their number.

## Main definitions

* `AggregateSpec.IsWritable` — aggregates that are known by their text.
* `QueryPlan.aggregates` — the aggregates that the columns of a plan ask for.

## Main results

* `AggregateSpec.parse?_text_iff` — these are the aggregates that are read back.
* `AggregateSpec.isWritable_iff` — what an expression asks for, unless its column has the star's
  name.
* `QueryPlan.aggregateTexts_eq` — the texts in the call of a plan are those of its aggregates.
* `Reducer.ofCall?_decodes` — calls are read as what they were made of.
-/

namespace RecordQuery

open Outcome

/-! ## Aggregates -/

/-- An aggregate is found by its name. -/
lemma AggregateKind.ofName?_name (kind : AggregateKind) : ofName? kind.name = some kind := by
  cases kind <;> rfl

namespace AggregateSpec

variable {s t : AggregateSpec}

/-- Aggregates that are known by their text: no column has the name of the star, which stands for
the rows, and of the rows only their number is asked for. -/
structure IsWritable (s : AggregateSpec) : Prop where
  /-- The column does not have the name of the star. -/
  column : s.column ≠ some "*"
  /-- Whole rows are only counted. -/
  rows : s.column = none → s.kind = .count

/-- What the text of an aggregate is read as. -/
lemma parse?_text (s : AggregateSpec) :
    parse? s.text =
      if s.column.getD "*" = "*" then
        if s.kind = .count then .ok ⟨s.kind, none⟩ else .error (.reducerOfRows s.kind.name)
      else .ok ⟨s.kind, some (s.column.getD "*")⟩ := by
  simp only [parse?, splitOnce?_text, AggregateKind.ofName?_name]

/-- **An aggregate is read back from its text** if it is known by it. -/
theorem parse?_text_iff : parse? s.text = .ok s ↔ s.IsWritable := by
  obtain ⟨kind, column⟩ := s
  rw [parse?_text]
  cases column with
  | none =>
    constructor
    · intro h
      by_cases hkind : kind = .count
      · exact ⟨nofun, fun _ => hkind⟩
      · simp [hkind] at h
    · intro h
      have hkind : kind = .count := h.rows rfl
      simp [hkind]
  | some name =>
    by_cases hstar : name = "*"
    · refine iff_of_false ?_ fun h => h.column (congrArg some hstar)
      by_cases hkind : kind = .count <;> simp [hstar, hkind]
    · refine iff_of_true ?_ ⟨fun h => hstar (Option.some.inj h), nofun⟩
      simp [hstar]

/-- Aggregates that are known by their text and have the same one are the same. -/
lemma IsWritable.eq_of_text (hs : s.IsWritable) (ht : t.IsWritable) (h : s.text = t.text) :
    s = t := by
  have hparsed := parse?_text_iff.mpr hs
  rw [h, parse?_text_iff.mpr ht] at hparsed
  exact (Except.ok.inj hparsed).symm

/-- **What an expression asks for** is known by its text, unless its column has the star's name. -/
lemma isWritable_iff {e : Expr} (h : aggregateSpec e = .ok s) :
    s.IsWritable ↔ s.column ≠ some "*" := by
  refine ⟨IsWritable.column, fun hcolumn => ⟨hcolumn, fun hrows => ?_⟩⟩
  cases e with
  | call name args distinct =>
    simp only [aggregateSpec] at h
    split at h
    · cases h
    · split at h
      · cases h
      · next kind _ =>
        obtain ⟨column, -, h⟩ := bind_eq_ok.mp h
        split at h
        · cases h
        · next hcount =>
          obtain rfl := Except.ok.inj h
          obtain rfl : column = none := hrows
          simpa using hcount
  | _ => cases h

end AggregateSpec

/-! ## Calls -/

namespace Reducer

variable {groups : List String} {specs : List AggregateSpec}

/-- The texts of aggregates are texts of aggregates of any columns. -/
lemma textsName_texts (specs : List AggregateSpec) :
    AggregateSpec.TextsName (fun _ => True) (specs.map AggregateSpec.text) := by
  intro text htext
  obtain ⟨s, -, rfl⟩ := List.mem_map.mp htext
  exact ⟨s, rfl, fun _ _ => trivial⟩

/-- Several aggregates are read back if each of them is. -/
lemma parseSpecs_texts_iff :
    parseSpecs (specs.map AggregateSpec.text) = .ok specs ↔ ∀ s ∈ specs, s.IsWritable := by
  induction specs with
  | nil => simp [parseSpecs]
  | cons s specs ih =>
    rw [List.map_cons, parseSpecs, List.forall_mem_cons, ← ih, ← AggregateSpec.parse?_text_iff]
    simp only [bind_eq_ok, pure_eq_ok, List.cons.injEq]
    constructor
    · rintro ⟨t, ht, rest, hrest, rfl, rfl⟩
      exact ⟨ht, hrest⟩
    · rintro ⟨hs, hrest⟩
      exact ⟨s, hs, specs, hrest, rfl, rfl⟩

/-- **A call for groups is read as what it was made of** if there is a grouping column and all
aggregates are known by their texts. -/
theorem ofCall?_groupBy_iff :
    ofCall? (.groupBy groups (specs.map AggregateSpec.text)) = .ok ⟨groups, specs⟩ ↔
      groups ≠ [] ∧ ∀ s ∈ specs, s.IsWritable := by
  rw [ofCall?_groupBy (textsName_texts specs), ← parseSpecs_texts_iff]
  cases groups with
  | nil => simp
  | cons c groups => simp

end Reducer

/-! ## Plans -/

namespace QueryPlan

variable {p : QueryPlan}

/-- The aggregates that the columns of a plan ask for, in order. -/
def aggregates (p : QueryPlan) : List AggregateSpec := p.columns.filterMap fun c => c.value.spec?

/-- **The texts in the call of a plan** are those of its aggregates, each once. -/
lemma aggregateTexts_eq (h : ∀ s ∈ p.aggregates, s.IsWritable) :
    p.aggregateTexts = p.aggregates.eraseDups.map AggregateSpec.text := by
  have htexts : (p.columns.filterMap fun c => c.value.spec?.map AggregateSpec.text) =
      p.aggregates.map AggregateSpec.text := by
    rw [aggregates, List.map_filterMap]
  rw [aggregateTexts, foldl_eq_eraseDups, htexts, List.eraseDups, List.eraseDups,
    map_eraseDupsBy p.aggregates fun s hs t ht => ?_]
  rw [Bool.eq_iff_iff, beq_iff_eq, beq_iff_eq]
  exact ⟨congrArg _, (h s hs).eq_of_text (h t ht)⟩

end QueryPlan

/-- **Calls are read as what they were made of.** Whatever the names of the columns are, colons and
marks included:

* a call for groups is read as exactly its grouping columns and aggregates, in order, if and only if
  the aggregates are known by their texts;
* so is each of these texts;
* aggregates that expressions ask for are, unless a column has the name of the star;
* the call of a plan is read as the grouping columns and the aggregates of its columns, each once.

**Proof sketch.** No aggregate begins like a grouping column (`AggregateSpec.dropPrefix?_text`), and
its text is split at the colon behind its name (`AggregateSpec.splitOnce?_text`). -/
theorem Reducer.ofCall?_decodes {groups : List String} (hgroups : groups ≠ []) :
    (∀ specs : List AggregateSpec,
      ofCall? (.groupBy groups (specs.map AggregateSpec.text)) = .ok ⟨groups, specs⟩ ↔
        ∀ s ∈ specs, s.IsWritable) ∧
    (∀ s : AggregateSpec, AggregateSpec.parse? s.text = .ok s ↔ s.IsWritable) ∧
    (∀ (e : Expr) (s : AggregateSpec), aggregateSpec e = .ok s →
      (s.IsWritable ↔ s.column ≠ some "*")) ∧
    ∀ p : QueryPlan, (∀ s ∈ p.aggregates, s.IsWritable) →
      ofCall? (p.aggregation groups).call = .ok ⟨groups, p.aggregates.eraseDups⟩ := by
  refine ⟨fun specs => ?_, fun s => AggregateSpec.parse?_text_iff,
    fun e s => AggregateSpec.isWritable_iff, fun p hp => ?_⟩
  · rw [ofCall?_groupBy_iff, and_iff_right hgroups]
  · have hcall : (p.aggregation groups).call =
        .groupBy groups (p.aggregates.eraseDups.map AggregateSpec.text) := by
      rw [QueryPlan.aggregation, QueryPlan.aggregateTexts_eq hp]
      exact if_neg fun hnil => hgroups (List.isEmpty_iff.mp hnil)
    rw [hcall, ofCall?_groupBy_iff]
    exact ⟨hgroups, fun s hs => hp s (List.mem_eraseDups.mp hs)⟩

/-- A sum that is returned twice and a number of rows, grouped by columns whose names look like
arguments.

**Proof sketch.** The specs are writable, the sum because it is one that was asked for and the count
because it names no bin. So both parts of `Reducer.ofCall?_decodes` apply, to the call with the two
texts and to the call of the plan. -/
theorem Reducer.ofCall?_decodes_colons :
    let groups : List String := ["groupby:day", "a:b"]
    let e : Expr := .call "sum" [.column ⟨none, "groupby:x"⟩] false
    let sum : AggregateSpec := ⟨.sum, some "groupby:x"⟩
    let rows : AggregateSpec := ⟨.count, none⟩
    let base : QueryPlan := .ofTable (.ofSet "test" (some "visits") none)
    let columns : List Column :=
      [base.expressionColumn "total" none (.reduced e sum) false,
        base.expressionColumn "visits" none (.reduced (.call "count" [.star] false) rows) false,
        base.expressionColumn "total" (some "again") (.reduced e sum) false]
    let plan : QueryPlan := columns.foldl (fun p c => p.register 0 c) base
    groups ≠ [] ∧ aggregateSpec e = .ok sum ∧ plan.aggregates = [sum, rows, sum] ∧
      (∀ s ∈ plan.aggregates, s.IsWritable) ∧
      (plan.aggregation groups).call.args =
        ["groupby:groupby:day", "groupby:a:b", "sum:groupby:x", "count:*"] ∧
      AggregateSpec.parse? sum.text = .ok sum ∧
      ofCall? (.groupBy groups ([rows, sum].map AggregateSpec.text)) = .ok ⟨groups, [rows, sum]⟩ ∧
      ofCall? (plan.aggregation groups).call = .ok ⟨groups, [sum, rows]⟩ := by
  intro groups e sum rows base columns plan
  have hgroups : groups ≠ [] := List.cons_ne_nil _ _
  obtain ⟨hcalls, htexts, hasked, hplans⟩ := Reducer.ofCall?_decodes hgroups
  have hspec : aggregateSpec e = .ok sum := rfl
  have hsum : sum.IsWritable := (hasked e sum hspec).mpr (by decide)
  have hrows : rows.IsWritable := ⟨nofun, fun _ => rfl⟩
  have haggregates : plan.aggregates = [sum, rows, sum] := rfl
  have hall : ∀ s ∈ plan.aggregates, s.IsWritable := by
    rw [haggregates]
    simp only [List.forall_mem_cons, List.not_mem_nil, false_implies, implies_true, and_true]
    exact ⟨hsum, hrows, hsum⟩
  have hcall : ofCall? (.groupBy groups ([rows, sum].map AggregateSpec.text)) =
      .ok ⟨groups, [rows, sum]⟩ := by
    rw [hcalls]
    simp only [List.forall_mem_cons, List.not_mem_nil, false_implies, implies_true, and_true]
    exact ⟨hrows, hsum⟩
  exact ⟨hgroups, hspec, haggregates, hall, rfl, (htexts sum).mpr hsum, hcall, hplans plan hall⟩

/-- A column with the name of the star is not told from the rows. -/
example : AggregateSpec.parse? (AggregateSpec.text ⟨.count, some "*"⟩) = .ok ⟨.count, none⟩ := rfl

end RecordQuery
