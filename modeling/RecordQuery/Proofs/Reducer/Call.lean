import Mathlib.Tactic.Common
import RecordQuery.Proofs.Outcome
import RecordQuery.Proofs.Text.Search
import RecordQuery.Reducer.Group

set_option autoImplicit false

/-!
# What a reducer looks at

A reducer looks at its inputs under the columns that its call names, and nowhere else: inputs that
agree there are reduced to the same. The columns of a call are read back from the texts of its
arguments, so that a call which was made for bins looks at bins.

## Main definitions

* `Reducer.reads` — the columns that a reducer looks at.
* `AggregateSpec.TextsName`, `ReducerCall.Names` — the columns that texts and a call were made of
  have a property.

## Main results

* `Reducer.cases_of_ofCall?` — the calls that are accepted and what they ask for.
* `Reducer.reduce_congr` — inputs that agree on these columns are reduced to the same.
* `ReducerCall.Names.of_mem_reads` — a reducer looks at the columns that its call was made of.
-/

namespace RecordQuery

open Outcome

/-! ## Texts -/

namespace Text

/-- A text is split behind a first part without the separator. -/
lemma splitChars_append {c : Char} {cs : List Char} (h : c ∉ cs) (ds : List Char) :
    splitChars c (cs ++ c :: ds) = some (cs, ds) := by
  induction cs with
  | nil => simp [splitChars]
  | cons d cs ih =>
    rw [List.mem_cons, not_or] at h
    rw [List.cons_append, splitChars, if_neg (Ne.symm h.1), ih h.2]
    rfl

end Text

namespace AggregateSpec

variable {s t : AggregateSpec}

/-- The text of an aggregate is split into its name and its column. -/
lemma splitOnce?_text (s : AggregateSpec) :
    Text.splitOnce? ':' s.text = some (s.kind.name, s.column.getD "*") := by
  have hname : ':' ∉ s.kind.name.toList := by
    cases s.kind <;> decide
  have htext : s.text.toList = s.kind.name.toList ++ ':' :: (s.column.getD "*").toList := by
    simp [text]
  rw [Text.splitOnce?, htext, Text.splitChars_append hname]
  simp

/-- **The column of an aggregate is read back** from its text, if it reads any. -/
lemma column_of_parse?_text (h : parse? s.text = .ok t) {name : String}
    (hname : t.column = some name) : s.column = some name := by
  unfold parse? at h
  rw [splitOnce?_text] at h
  simp only at h
  split at h
  · cases h
  · split at h
    · split at h
      · obtain rfl := Except.ok.inj h
        cases hname
      · cases h
    · rename_i hstar
      obtain rfl := Except.ok.inj h
      cases hcolumn : s.column with
      | none => exact absurd (by rw [hcolumn]; rfl) hstar
      | some column =>
        rw [hcolumn] at hname
        exact hname

/-- **What a text stands for** that is accepted: the number of rows or an aggregate of a column. -/
lemma cases_of_parse? {text : String} (h : parse? text = .ok s) :
    s = ⟨.count, none⟩ ∨ ∃ column, column ≠ "*" ∧ s.column = some column := by
  unfold parse? at h
  split at h
  · cases h
  · split at h
    · cases h
    · split at h
      · split at h
        · next hkind =>
          subst hkind
          exact .inl (Except.ok.inj h).symm
        · cases h
      · next hstar =>
        obtain rfl := Except.ok.inj h
        exact .inr ⟨_, hstar, rfl⟩

/-- The number of rows is known by its text. -/
lemma eq_of_text_eq {text : String} (h : parse? text = .ok s)
    (htext : s.text = AggregateSpec.text ⟨.count, none⟩) : s = ⟨.count, none⟩ := by
  rcases cases_of_parse? h with rfl | ⟨column, hstar, hcolumn⟩
  · rfl
  · have hsplit := splitOnce?_text s
    rw [htext, splitOnce?_text, Option.some.injEq, Prod.mk.injEq, hcolumn] at hsplit
    exact absurd hsplit.2.symm hstar

/-- The text of an aggregate does not begin like a grouping column. -/
lemma dropPrefix?_text (s : AggregateSpec) :
    Text.dropPrefix? ReducerCall.groupMark s.text = none := by
  unfold Text.dropPrefix?
  rw [if_neg]
  have hmark : ReducerCall.groupMark.toList = ['g', 'r', 'o', 'u', 'p', 'b', 'y', ':'] := rfl
  rw [hmark, text]
  cases s.kind <;> simp [AggregateKind.name]

end AggregateSpec

/-! ## Calls -/

/-- Texts are those of aggregates of columns with a property. -/
def AggregateSpec.TextsName (P : String → Prop) (texts : List String) : Prop :=
  ∀ text ∈ texts, ∃ s : AggregateSpec, s.text = text ∧ ∀ c, s.column = some c → P c

/-- A call groups by columns with a property and aggregates such columns. -/
inductive ReducerCall.Names (P : String → Prop) : ReducerCall → Prop
  /-- All inputs are one group. -/
  | stats {texts : List String} (htexts : AggregateSpec.TextsName P texts) :
      Names P (.stats texts)
  /-- The inputs are grouped by columns. -/
  | groupBy {groups texts : List String} (hgroups : ∀ c ∈ groups, P c)
      (htexts : AggregateSpec.TextsName P texts) : Names P (.groupBy groups texts)

namespace Reducer

/-- The columns that a reducer looks at. -/
def reads (r : Reducer) : List String := r.columns ++ r.specs.filterMap AggregateSpec.column

variable {P : String → Prop} {texts groups : List String} {specs : List AggregateSpec}

/-- The columns of aggregates are read back from their texts. -/
lemma of_parseSpecs (htexts : AggregateSpec.TextsName P texts)
    (h : parseSpecs texts = .ok specs) : ∀ c ∈ specs.filterMap AggregateSpec.column, P c := by
  induction texts generalizing specs with
  | nil =>
    obtain rfl := Except.ok.inj h
    exact fun c hc => absurd hc List.not_mem_nil
  | cons text texts ih =>
    simp only [parseSpecs, bind_eq_ok, pure_eq_ok] at h
    obtain ⟨t, ht, rest, hrest, rfl⟩ := h
    obtain ⟨s, rfl, hs⟩ := htexts text List.mem_cons_self
    intro c hc
    obtain ⟨u, hu, hcolumn⟩ := List.mem_filterMap.mp hc
    rcases List.mem_cons.mp hu with rfl | hu
    · exact hs c (AggregateSpec.column_of_parse?_text ht hcolumn)
    · exact ih (fun text htext => htexts text (List.mem_cons_of_mem _ htext)) hrest c
        (List.mem_filterMap.mpr ⟨u, hu, hcolumn⟩)

/-- Aggregates are not taken for grouping columns. -/
lemma parseGroupArgs_texts (htexts : AggregateSpec.TextsName P texts) :
    parseGroupArgs texts = (do return ([], ← parseSpecs texts)) := by
  induction texts with
  | nil => rfl
  | cons text texts ih =>
    obtain ⟨s, rfl, -⟩ := htexts text List.mem_cons_self
    rw [parseGroupArgs, AggregateSpec.dropPrefix?_text,
      ih fun text htext => htexts text (List.mem_cons_of_mem _ htext), parseSpecs]
    simp only [bind_assoc, pure_bind]

/-- Grouping columns are read back from their arguments. -/
lemma parseGroupArgs_append (groups args : List String) :
    parseGroupArgs (groups.map (ReducerCall.groupMark ++ ·) ++ args) = (do
      let rest ← parseGroupArgs args
      return (groups ++ rest.1, rest.2)) := by
  induction groups with
  | nil => exact (bind_pure (parseGroupArgs args)).symm
  | cons c groups ih =>
    rw [List.map_cons, List.cons_append, parseGroupArgs, Text.dropPrefix?_append, ih]
    simp only [bind_assoc, pure_bind, List.cons_append]

/-- What the call for all inputs asks for. -/
lemma ofCall?_stats (texts : List String) :
    ofCall? (.stats texts) = (do return ⟨[], ← parseSpecs texts⟩) := rfl

/-- What the call for groups asks for. -/
lemma ofCall?_groupBy (htexts : AggregateSpec.TextsName P texts) :
    ofCall? (.groupBy groups texts) = (do
      let specs ← parseSpecs texts
      if groups.isEmpty then throw .groupingWithoutColumn
      return ⟨groups, specs⟩) := by
  have hargs : parseGroupArgs (ReducerCall.groupBy groups texts).args = (do
      return (groups, ← parseSpecs texts)) := by
    rw [ReducerCall.groupBy, parseGroupArgs_append, parseGroupArgs_texts htexts]
    simp only [bind_assoc, pure_bind, List.append_nil]
  change (parseGroupArgs (ReducerCall.groupBy groups texts).args >>= _) = _
  rw [hargs, bind_assoc]
  rfl

/-- Aggregates that are asked for are read from texts. -/
lemma parsed_of_parseSpecs (h : parseSpecs texts = .ok specs) :
    ∀ s ∈ specs, ∃ text, AggregateSpec.parse? text = .ok s := by
  induction texts generalizing specs with
  | nil =>
    obtain rfl := Except.ok.inj h
    exact fun s hs => absurd hs List.not_mem_nil
  | cons text texts ih =>
    simp only [parseSpecs, bind_eq_ok, pure_eq_ok] at h
    obtain ⟨s, hs, rest, hrest, rfl⟩ := h
    exact List.forall_mem_cons.mpr ⟨⟨text, hs⟩, ih hrest⟩

/-- The same if they stand among grouping columns. -/
lemma parsed_of_parseGroupArgs {args : List String} {parsed : List String × List AggregateSpec}
    (h : parseGroupArgs args = .ok parsed) :
    ∀ s ∈ parsed.2, ∃ text, AggregateSpec.parse? text = .ok s := by
  induction args generalizing parsed with
  | nil =>
    obtain rfl := Except.ok.inj h
    exact fun s hs => absurd hs List.not_mem_nil
  | cons arg args ih =>
    unfold parseGroupArgs at h
    split at h
    · simp only [bind_eq_ok, pure_eq_ok] at h
      obtain ⟨rest, hrest, rfl⟩ := h
      exact fun s hs => ih hrest s hs
    · simp only [bind_eq_ok, pure_eq_ok] at h
      obtain ⟨s, hs, rest, hrest, rfl⟩ := h
      exact List.forall_mem_cons.mpr ⟨⟨arg, hs⟩, ih hrest⟩

/-- **The calls that are accepted** and what they ask for.

**Proof sketch.** The branches of the decoder are followed. Each is entered by the name of its
family, and every other way through it is a refusal. -/
theorem cases_of_ofCall? {call : ReducerCall} {r : Reducer} (h : ofCall? call = .ok r) :
    (call.family = ReducerCall.statsFamily ∧ r.columns = [] ∧
      parseSpecs call.args = .ok r.specs) ∨
    (call.family = ReducerCall.groupByFamily ∧ r.columns ≠ [] ∧
      parseGroupArgs call.args = .ok (r.columns, r.specs)) ∨
    (call.family = ReducerCall.distinctFamily ∧ ∃ column, call.args = [column] ∧
      r = ⟨[column], []⟩) := by
  unfold ofCall? at h
  split at h
  · next hstats =>
    obtain ⟨specs, hspecs, h⟩ := bind_eq_ok.mp h
    obtain rfl := Except.ok.inj h
    exact .inl ⟨hstats, rfl, hspecs⟩
  · split at h
    · next hgroupBy =>
      obtain ⟨parsed, hparsed, h⟩ := bind_eq_ok.mp h
      split at h
      · cases h
      · next hnonempty =>
        obtain rfl := Except.ok.inj h
        exact .inr (.inl ⟨hgroupBy, fun hnil => hnonempty (List.isEmpty_iff.mpr hnil), hparsed⟩)
    · split at h
      · next hdistinct =>
        split at h
        · next column hargs =>
          exact .inr (.inr ⟨hdistinct, column, hargs, (Except.ok.inj h).symm⟩)
        · cases h
      · cases h

/-- Only the call for all inputs does not group them. -/
lemma columns_eq_nil_iff {call : ReducerCall} {r : Reducer} (h : ofCall? call = .ok r) :
    r.columns = [] ↔ call.family = ReducerCall.statsFamily := by
  rcases cases_of_ofCall? h with ⟨hfamily, hcolumns, -⟩ | ⟨hfamily, hcolumns, -⟩ |
    ⟨hfamily, column, -, rfl⟩
  · exact iff_of_true hcolumns hfamily
  · exact iff_of_false hcolumns (by rw [hfamily]; decide)
  · exact iff_of_false (List.cons_ne_nil _ _) (by rw [hfamily]; decide)

/-- The aggregates that a call asks for are read from texts. -/
lemma parsed_of_ofCall? {call : ReducerCall} {r : Reducer} (h : ofCall? call = .ok r) :
    ∀ s ∈ r.specs, ∃ text, AggregateSpec.parse? text = .ok s := by
  rcases cases_of_ofCall? h with ⟨-, -, hspecs⟩ | ⟨-, -, hparsed⟩ | ⟨-, column, -, rfl⟩
  · exact parsed_of_parseSpecs hspecs
  · exact parsed_of_parseGroupArgs hparsed
  · exact fun s hs => absurd hs List.not_mem_nil

end Reducer

/-- **A reducer looks at the columns that its call was made of.** -/
theorem ReducerCall.Names.of_mem_reads {P : String → Prop} {call : ReducerCall} {r : Reducer}
    (hcall : call.Names P) (h : Reducer.ofCall? call = .ok r) : ∀ c ∈ r.reads, P c := by
  cases hcall with
  | stats htexts =>
    rw [Reducer.ofCall?_stats] at h
    obtain ⟨specs, hspecs, h⟩ := bind_eq_ok.mp h
    obtain rfl := Except.ok.inj h
    exact Reducer.of_parseSpecs htexts hspecs
  | groupBy hgroups htexts =>
    rw [Reducer.ofCall?_groupBy htexts] at h
    obtain ⟨specs, hspecs, h⟩ := bind_eq_ok.mp h
    split at h
    · cases h
    · obtain rfl := Except.ok.inj h
      intro c hc
      rcases List.mem_append.mp hc with hc | hc
      · exact hgroups c hc
      · exact Reducer.of_parseSpecs htexts hspecs c hc

/-! ## Inputs -/

section

variable {r : Reducer} {f g : String → Option Value}

/-- Inputs that agree on the columns of a reducer are grouped by the same values. -/
lemma Reducer.keyOf_congr (h : ∀ c ∈ r.reads, f c = g c) : r.keyOf f = r.keyOf g :=
  List.map_congr_left fun c hc => by rw [h c (List.mem_append_left _ hc)]

/-- They are aggregated in the same way. -/
lemma Reducer.addInput_congr (h : ∀ c ∈ r.reads, f c = g c) (as : List Accumulator) :
    r.addInput f as = r.addInput g as := by
  have hspecs : ∀ s ∈ r.specs, ∀ c, s.column = some c → f c = g c := fun s hs c hc =>
    h c (List.mem_append_right _ (List.mem_filterMap.mpr ⟨s, hs, hc⟩))
  unfold Reducer.addInput
  generalize r.specs = specs at hspecs
  induction specs generalizing as with
  | nil => rfl
  | cons s specs ih =>
    cases as with
    | nil => rfl
    | cons a as =>
      rw [List.zipWith_cons_cons, List.zipWith_cons_cons,
        ih as fun t ht => hspecs t (List.mem_cons_of_mem s ht)]
      cases hcolumn : s.column with
      | none => rfl
      | some c => simp only [hspecs s List.mem_cons_self c hcolumn]

/-- They go to the same group. -/
lemma Groups.update_congr (h : ∀ c ∈ r.reads, f c = g c) (key : List Value) (gs : Groups) :
    Groups.update r f key gs = Groups.update r g key gs := by
  induction gs with
  | nil => rfl
  | cons group gs ih => rw [Groups.update, Groups.update, ih, Reducer.addInput_congr h]

/-- They make the same of the groups so far. -/
lemma Groups.feed_congr (h : ∀ c ∈ r.reads, f c = g c) (gs : Groups) :
    Groups.feed r gs f = Groups.feed r gs g := by
  simp only [Groups.feed, Reducer.keyOf_congr h, Groups.update_congr h]

/-- **Inputs that agree on the columns of a reducer are reduced to the same.** By induction on the
inputs, with the groups so far. -/
theorem Reducer.reduce_congr {α : Type} {as : List α} {f g : α → String → Option Value}
    (h : ∀ a ∈ as, ∀ c ∈ r.reads, f a c = g a c) :
    r.reduce (as.map f) = r.reduce (as.map g) := by
  have hfold : ∀ gs : Groups, (as.map f).foldl (Groups.feed r) gs =
      (as.map g).foldl (Groups.feed r) gs := by
    induction as with
    | nil => exact fun gs => rfl
    | cons a as ih =>
      intro gs
      rw [List.map_cons, List.map_cons, List.foldl_cons, List.foldl_cons,
        Groups.feed_congr (h a List.mem_cons_self)]
      exact ih (fun b hb => h b (List.mem_cons_of_mem a hb)) _
  rw [Reducer.reduce, Reducer.reduce, Groups.ofInputs, Groups.ofInputs, hfold]

end

end RecordQuery
