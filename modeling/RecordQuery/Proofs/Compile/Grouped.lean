import RecordQuery.Proofs.Compile.Distinct
import RecordQuery.Proofs.Plan.Grouped

set_option autoImplicit false

/-!
# Grouped selections of two tables

A grouped selection carries the same columns whatever table it is made from, if it compiles at all:
what it needs of its rows are grouping columns and aggregates, and these are named without the
table. Only the label of a column that is selected again without one tells the table's name.

## Main definitions

* `SelectItem.label`, `LabelsApart` — the labels of selected items, and whether they do without the
  name of the table.
* `QueryPlan.Parallel` — the plans of two selections while columns are added.

## Main results

* `agree_groupColumns`, `agree_addItems`, `agree_addHaving`, `agree_planOrder` — the steps of the
  compilation.
-/

namespace RecordQuery

open Outcome

/-! ## Labels -/

namespace SelectItem

/-- The label of a selected item: the one that it was given, the name of a column, or the text of an
expression. -/
def label : SelectItem → String
  | .all => "*"
  | .expr e label => label.getD (match e.unwrap with | .column c => c.name | e => e.render)

/-- The column that is selected, if it was given no label. -/
def bareColumn? : SelectItem → Option ColumnRef
  | .expr e none => match e.unwrap with | .column c => some c | _ => none
  | _ => none

end SelectItem

/-- No column that is selected without a label has the label of an item before it. -/
def LabelsApart (items : List SelectItem) : Prop :=
  items.Pairwise fun i j => ∀ c, j.bareColumn? = some c → c.name ≠ i.label

/-! ## Plans in the course of compilation -/

/-- An aggregate of whole rows or of a bin. -/
def AggregateSpec.OfBin (s : AggregateSpec) : Prop := ∀ name, s.column = some name → IsBinName name

/-- The column that an aggregate call is given is a bin. -/
lemma isBinName_of_aggregateColumn {name c : String} {call : Expr} {args : List Expr}
    (h : aggregateColumn name call args = .ok (some c)) : IsBinName c := by
  unfold aggregateColumn at h
  split at h
  · cases h
  · cases h
  · split at h
    · cases h
    · rename_i hbin
      obtain rfl := Option.some.inj (Except.ok.inj h)
      exact not_or.mp hbin
  · cases h
  · cases h

/-- What a call asks for is an aggregate of whole rows or of a bin. -/
lemma AggregateSpec.ofBin_of_aggregateSpec {e : Expr} {s : AggregateSpec}
    (h : aggregateSpec e = .ok s) : s.OfBin := by
  cases e with
  | call name args distinct =>
    simp only [aggregateSpec] at h
    split at h
    · cases h
    · split at h
      · cases h
      · obtain ⟨column, hcolumn, h⟩ := bind_eq_ok.mp h
        split at h
        · cases h
        · obtain rfl := Except.ok.inj h
          intro c hc
          rw [show column = some c from hc] at hcolumn
          exact isBinName_of_aggregateColumn hcolumn
  | _ => cases h

namespace QueryPlan

/-- The plans of a grouped selection from two tables, while columns are added to them. -/
structure Parallel (B : String → Prop) (p p' : QueryPlan) : Prop where
  /-- They carry the same columns. -/
  columns : p.SameColumns p'
  /-- Both return all columns or neither does. -/
  wildcard : p.wildcard = p'.wildcard
  /-- Their labels are known to have a property. -/
  labels : ∀ l ∈ p.labels, B l
  /-- They ask for aggregates of whole rows and of bins. -/
  aggregates : ∀ c ∈ p.columns, ∀ s, c.value.spec? = some s → s.OfBin

namespace Parallel

variable {B B' : String → Prop} {p p' : QueryPlan}

/-- Less may be known of the labels. -/
lemma mono (h : p.Parallel B p') (hB : ∀ l, B l → B' l) : p.Parallel B' p' :=
  { h with labels := fun l hl => hB l (h.labels l hl) }

/-- **One more column** on both sides. -/
lemma register (h : p.Parallel B p') (hB : ∀ l, B l → B' l) {c c' : Column}
    (hc : c.anywhere = c'.anywhere) (hlabel : c.isVisible = true → B' c.label)
    (hspec : ∀ s, c.value.spec? = some s → s.OfBin) :
    (p.register 0 c).Parallel B' (p'.register 0 c') where
  columns := h.columns.register hc
  wildcard := by rw [wildcard_register, wildcard_register, h.wildcard]
  labels := by
    intro l hl
    obtain ⟨d, hd, rfl⟩ := List.mem_map.mp hl
    obtain ⟨hmem, hvisible⟩ := List.mem_filter.mp hd
    rcases mem_columns_register hmem with hmem | rfl
    · exact hB _ (h.labels _ (List.mem_map_of_mem (List.mem_filter.mpr ⟨hmem, hvisible⟩)))
    · exact hlabel hvisible
  aggregates := by
    intro d hd
    rcases mem_columns_register hd with hd | rfl
    · exact h.aggregates d hd
    · exact hspec

/-- A column that is carried and not returned. -/
lemma register_hidden (h : p.Parallel B p') {c c' : Column} (hc : c.anywhere = c'.anywhere)
    (hhidden : c.hidden = true) (hspec : ∀ s, c.value.spec? = some s → s.OfBin) :
    (p.register 0 c).Parallel B (p'.register 0 c') :=
  h.register (fun _ hl => hl) hc (fun hvisible => by simp [Column.isVisible, hhidden] at hvisible)
    hspec

end Parallel

end QueryPlan

/-! ## The steps -/

section Steps

variable {t t' : TableRef} {groups : List String} {B B' : String → Prop} {p p' : QueryPlan}

/-- In both tables a column belongs to the only table that there is. -/
lemma agree_resolve (c : ColumnRef) :
    Agree (fun i j => i = 0 ∧ j = 0) (Scope.resolve [t] c) (Scope.resolve [t'] c) :=
  fun _ _ hi hj => ⟨Scope.resolve_singleton hi, Scope.resolve_singleton hj⟩

/-- **The grouping columns** are the same, and bins.

**Proof sketch.** Induction on the expressions. A column resolves to the only table in both scopes
(`agree_resolve`), a pseudo-column is refused in both, and a column that is seen already is not
added again. -/
theorem agree_groupColumns {seen : List String} (hseen : ∀ g ∈ seen, IsBinName g)
    (es : List Expr) :
    Agree (fun gs gs' => gs = gs' ∧ ∀ g ∈ gs, IsBinName g) (groupColumns [t] seen es)
      (groupColumns [t'] seen es) := by
  induction es generalizing seen with
  | nil => exact .pure ⟨rfl, hseen⟩
  | cons e es ih =>
    have hcolumn : Agree (fun g g' => g = g' ∧ IsBinName g) (groupColumn [t] e)
        (groupColumn [t'] e) := by
      unfold groupColumn
      split
      · refine (agree_resolve _).bind fun i j ⟨hi, hj⟩ => ?_
        subst hi hj
        split
        · exact .error _
        · rename_i hbin
          rw [not_or, not_or] at hbin
          exact .pure ⟨rfl, hbin.2⟩
      · exact .error _
    refine hcolumn.bind fun g _ ⟨hg, hbin⟩ => ?_
    subst hg
    refine ih ?_
    split
    · exact hseen
    · intro g' hg'
      rcases List.mem_append.mp hg' with hg' | hg'
      · exact hseen g' hg'
      · rw [List.mem_singleton.mp hg']
        exact hbin

/-- An aggregate is carried. -/
lemma agree_addAggregate (h : p.Parallel B p') (hB : ∀ l, B l → B' l) (e : Expr)
    (label : Option String) (hidden : Bool) (hlabel : hidden = false → B' (label.getD e.render)) :
    Agree (QueryPlan.Parallel B') (addAggregate p e label hidden)
      (addAggregate p' e label hidden) := by
  refine (Agree.of_eq (aggregateSpec e)).returned.bind fun spec _ ⟨hspec, hreturned, _⟩ => ?_
  subst hspec
  refine .pure (h.register hB rfl ?_ fun s hs => ?_)
  · intro hvisible
    exact hlabel (by simpa [Column.isVisible, QueryPlan.expressionColumn] using hvisible)
  · obtain rfl := Option.some.inj hs
    exact AggregateSpec.ofBin_of_aggregateSpec hreturned

/-- A grouping column is carried. -/
lemma agree_addGroupedColumn (h : p.Parallel B p') (c : ColumnRef) :
    Agree (QueryPlan.Parallel B) (addGroupedColumn [t] groups p c)
      (addGroupedColumn [t'] groups p' c) := by
  unfold addGroupedColumn
  rw [h.columns.labels_eq]
  split
  · exact .pure h
  · refine (agree_resolve c).bind fun i j ⟨hi, hj⟩ => ?_
    subst hi hj
    split
    · exact .error _
    · exact .pure (h.register_hidden rfl rfl nofun)

mutual

/-- **What an expression over groups needs** is carried. -/
theorem agree_registerGrouped {p p' : QueryPlan} (h : p.Parallel B p') : (e : Expr) →
    Agree (QueryPlan.Parallel B) (registerGrouped [t] groups p e) (registerGrouped [t'] groups p' e)
  | .call name args distinct => by
    simp only [registerGrouped]
    split
    · exact agree_addAggregate h (fun _ hl => hl) _ none true nofun
    · exact agree_registerGroupedList h args
  | .column c => agree_addGroupedColumn h c
  | .binary _ l r =>
    (agree_registerGrouped h l).bind fun _ _ hq => agree_registerGrouped hq r
  | .negative e | .not e | .isNull e _ | .paren e | .inQuery e _ _ => agree_registerGrouped h e
  | .between e low high _ =>
    (agree_registerGrouped h e).bind fun _ _ hq =>
      (agree_registerGrouped hq low).bind fun _ _ hq => agree_registerGrouped hq high
  | .inList e items _ =>
    (agree_registerGrouped h e).bind fun _ _ hq => agree_registerGroupedList hq items
  | .array items => agree_registerGroupedList h items
  | .element e key =>
    (agree_registerGrouped h e).bind fun _ _ hq => agree_registerGrouped hq key
  | .literal _ | .param _ | .scalarQuery _ | .star => .ok h

/-- What several expressions over groups need is carried. -/
theorem agree_registerGroupedList {p p' : QueryPlan} (h : p.Parallel B p') : (es : List Expr) →
    Agree (QueryPlan.Parallel B) (registerGroupedList [t] groups p es)
      (registerGroupedList [t'] groups p' es)
  | [] => .ok h
  | e :: es => (agree_registerGrouped h e).bind fun _ _ hq => agree_registerGroupedList hq es

end

/-- The label of a selected column that no column has yet. -/
lemma columnLabel_of_not_mem {c : ColumnRef} {label : Option String}
    (hnew : label = none → c.name ∉ p.labels) (scope : Scope) :
    columnLabel p scope 0 c label = label.getD c.name := by
  cases label with
  | some l => rfl
  | none =>
    have hcontains : ¬p.labels.contains c.name = true := fun hmem => hnew rfl (by simpa using hmem)
    simp only [columnLabel]
    rw [if_neg hcontains]
    rfl

/-- **The label of a selected column** is the same in both plans, if the tables have the same name
or the column does not need it. -/
lemma columnLabel_eq (h : p.Parallel B p') {c : ColumnRef} {label : Option String}
    (hlabel : t.qualifier = t'.qualifier ∨ (label = none → ¬B c.name)) :
    columnLabel p [t] 0 c label = columnLabel p' [t'] 0 c label := by
  have hlabels := h.columns.labels_eq
  rcases hlabel with hname | hlabel
  · cases label with
    | some l => rfl
    | none =>
      simp only [columnLabel, hlabels]
      rw [show Scope.qualifier [t] 0 = Scope.qualifier [t'] 0 from hname]
  · have hnew : label = none → c.name ∉ p.labels := fun hnone hmem =>
      hlabel hnone (h.labels c.name hmem)
    rw [columnLabel_of_not_mem hnew, columnLabel_of_not_mem (by rwa [← hlabels])]

/-- A grouping column is returned.

**Proof sketch.** The column resolves to the only table in both scopes, and its value is that of a
group, so it has no aggregate of its own. The labels are the same, since either the tables have the
same name or no label is taken that the column would have to avoid (`columnLabel_eq`); then it is
registered in both plans (`QueryPlan.Parallel.register`). -/
lemma agree_addColumnItem (h : p.Parallel B p') (hB : ∀ l, B l → B' l) {c : ColumnRef}
    {label : Option String}
    (hlabel : (t.qualifier = t'.qualifier ∧ ∀ l, B' l) ∨
      ((label = none → ¬B c.name) ∧ B' (label.getD c.name))) :
    Agree (QueryPlan.Parallel B') (addColumnItem [t] (some groups) p c label)
      (addColumnItem [t'] (some groups) p' c label) := by
  refine (agree_resolve c).bind fun i j ⟨hi, hj⟩ => ?_
  subst hi hj
  refine (Agree.of_eq (columnValue (some groups) 0 c)).returned.bind
    fun value _ ⟨heq, hvalue, _⟩ => ?_
  subst heq
  have hspec : value.spec? = none := by
    unfold columnValue at hvalue
    simp only at hvalue
    split at hvalue
    · obtain rfl := Except.ok.inj hvalue
      rfl
    · cases hvalue
  have hrequired : QueryPlan.Parallel B (if c.name = digestColumn then p.requireDigest 0 else p)
      (if c.name = digestColumn then p'.requireDigest 0 else p') := by
    split
    · exact { h with }
    · exact h
  have hsame := columnLabel_eq hrequired (hlabel.imp And.left And.left)
  refine .pure (hrequired.register hB ?_ (fun _ => ?_) fun s hs => ?_)
  · simp only [Column.anywhere, hsame]
    rfl
  · rcases hlabel with ⟨-, hall⟩ | ⟨hlabel, hB'⟩
    · exact hall _
    · change B' (columnLabel _ [t] 0 c label)
      rw [columnLabel_of_not_mem fun hnone hmem => hlabel hnone (hrequired.labels c.name hmem)]
      exact hB'
  · rw [hspec] at hs
    cases hs

/-- The value of an expression over groups is returned. -/
lemma agree_addExpressionItem (h : p.Parallel B p') (hB : ∀ l, B l → B' l) (e : Expr)
    {label : Option String} (hlabel : B' (label.getD e.render)) :
    Agree (QueryPlan.Parallel B') (addExpressionItem [t] (some groups) p e label)
      (addExpressionItem [t'] (some groups) p' e label) :=
  (agree_registerGrouped h e).bind fun _ _ hq =>
    .pure (hq.register hB rfl (fun _ => hlabel) nofun)

/-- **A selected item is returned.** Either the two tables have the same name, or the item does not
need it for its label.

**Proof sketch.** A column is `agree_addColumnItem`, an aggregate `agree_addAggregate`, and any
other expression over groups `agree_addExpressionItem`. The latter two are shown under their text or
an alias, so no table name enters their label. -/
theorem agree_addItem (h : p.Parallel B p') (hB : ∀ l, B l → B' l) {i : SelectItem}
    (hlabel : (t.qualifier = t'.qualifier ∧ ∀ l, B' l) ∨
      ((∀ c, i.bareColumn? = some c → ¬B c.name) ∧ B' i.label)) :
    Agree (QueryPlan.Parallel B') (addItem [t] (some groups) p i)
      (addItem [t'] (some groups) p' i) := by
  cases i with
  | all => exact .error _
  | expr e label =>
    have hshown : (∀ c, e.unwrap ≠ .column c) → B' (label.getD e.unwrap.render) := by
      intro hne
      rcases hlabel with ⟨-, hall⟩ | ⟨-, hown⟩
      · exact hall _
      · have hitem : (SelectItem.expr e label).label = label.getD e.unwrap.render := by
          unfold SelectItem.label
          split <;> simp_all
        rwa [hitem] at hown
    change Agree _ (addExpr [t] (some groups) p e.unwrap label)
      (addExpr [t'] (some groups) p' e.unwrap label)
    unfold addExpr
    split
    · rename_i c hcolumn
      refine agree_addColumnItem h hB ?_
      rcases hlabel with hname | ⟨hbare, hown⟩
      · exact .inl hname
      · refine .inr ⟨?_, ?_⟩
        · rintro rfl
          exact hbare c (by rw [SelectItem.bareColumn?, hcolumn])
        · rw [SelectItem.label, hcolumn] at hown
          exact hown
    · rename_i hne
      split
      · exact agree_addAggregate h hB _ label false fun _ => hshown hne
      · split
        · exact agree_addExpressionItem h hB _ (hshown hne)
        · exact .error _

/-- **Selected items are returned.** By induction on the items, with what is known of the labels so
far. -/
theorem agree_addItems (h : p.Parallel B p') {items : List SelectItem}
    (hlabels : (t.qualifier = t'.qualifier ∧ ∀ l, B l) ∨
      (LabelsApart items ∧ ∀ i ∈ items, ∀ c, i.bareColumn? = some c → ¬B c.name)) :
    Agree (QueryPlan.Parallel fun _ => True) (addItems [t] (some groups) p items)
      (addItems [t'] (some groups) p' items) := by
  induction items generalizing p p' B with
  | nil => exact .ok (h.mono fun _ _ => trivial)
  | cons i items ih =>
    rcases hlabels with ⟨hname, hall⟩ | ⟨hapart, hbare⟩
    · exact (agree_addItem h (fun l _ => hall l) (.inl ⟨hname, hall⟩)).bind fun _ _ hq =>
        ih hq (.inl ⟨hname, hall⟩)
    · obtain ⟨hfirst, hrest⟩ := List.pairwise_cons.mp hapart
      have hitem : Agree (QueryPlan.Parallel fun l => B l ∨ l = i.label)
          (addItem [t] (some groups) p i) (addItem [t'] (some groups) p' i) :=
        agree_addItem h (fun _ => .inl) (.inr ⟨hbare i List.mem_cons_self, .inr rfl⟩)
      refine hitem.bind fun _ _ hq => ih hq (.inr ⟨hrest, fun j hj c hc hlabel => ?_⟩)
      rcases hlabel with hlabel | hlabel
      · exact hbare j (List.mem_cons_of_mem i hj) c hc hlabel
      · exact hfirst j hj c hc hlabel

/-- The condition on groups. -/
lemma agree_addHaving (h : p.Parallel B p') (e : Expr) :
    Agree (fun q q' => q.Parallel B q' ∧ q.having = some e ∧ q'.having = some e)
      (addHaving [t] groups p e) (addHaving [t'] groups p' e) := by
  unfold addHaving
  split
  · exact .error _
  · exact (agree_registerGrouped h e).bind fun _ _ hq => .pure ⟨{ hq with }, rfl, rfl⟩

/-- What a sort key needs is carried, and the key is the same.

**Proof sketch.** A position and the label of a returned column are looked up in the columns, which
have the same sources on both sides. Any other column and any other expression is registered as one
of the groups. -/
lemma agree_planOrderKey (h : p.Parallel B p') (e : Expr) :
    Agree (fun a b => a.1 = b.1 ∧ a.2.Parallel B b.2) (planOrderKey [t] (some groups) p e)
      (planOrderKey [t'] (some groups) p' e) := by
  unfold planOrderKey
  split
  · rename_i position
    have hsource := h.columns.source_elementAt? position.toInt
    revert hsource
    cases elementAt? (Column.visible p.columns) position.toInt with
    | none => exact fun _ => .error _
    | some c =>
      cases elementAt? (Column.visible p'.columns) position.toInt with
      | none => exact fun hsource => absurd hsource nofun
      | some c' => exact fun hsource => .ok ⟨congrArg OrderKey.column (Option.some.inj hsource), h⟩
  · rename_i c
    have hsource := h.columns.source_labelledColumn? c
    revert hsource
    cases labelledColumn? p c with
    | some d =>
      cases labelledColumn? p' c with
      | none => exact fun hsource => absurd hsource nofun
      | some d' => exact fun hsource => .ok ⟨congrArg OrderKey.column (Option.some.inj hsource), h⟩
    | none =>
      cases labelledColumn? p' c with
      | some d' => exact fun hsource => absurd hsource nofun
      | none =>
        refine fun _ => (agree_addGroupedColumn h c).bind fun q q' hq => ?_
        refine (agree_resolve c).bind fun i j ⟨hi, hj⟩ => ?_
        subst hi hj
        exact .pure ⟨rfl, hq⟩
  · split
    · exact .error _
    · exact (agree_registerGrouped h e).bind fun _ _ hq => .pure ⟨rfl, hq⟩

/-- **What an order needs is carried**, and the order is the same. -/
theorem agree_planOrder (h : p.Parallel B p') (items : List OrderItem) :
    Agree (fun a b => a.1 = b.1 ∧ a.2.Parallel B b.2) (planOrder [t] (some groups) p items)
      (planOrder [t'] (some groups) p' items) := by
  induction items generalizing p p' with
  | nil => exact .pure ⟨rfl, h⟩
  | cons o items ih =>
    refine (agree_planOrderKey h o.expr.unwrap).bind fun a b ⟨hkey, hq⟩ => ?_
    refine (ih hq).bind fun c d ⟨horder, hr⟩ => ?_
    exact .pure ⟨by rw [hkey, horder], hr⟩

end Steps

end RecordQuery
