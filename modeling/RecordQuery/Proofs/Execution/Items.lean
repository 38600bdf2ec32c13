import RecordQuery.Proofs.Compile.Items
import RecordQuery.Proofs.Execution.SetOperation
import RecordQuery.Proofs.Pipeline.Labels
import RecordQuery.Proofs.Pipeline.Records

set_option autoImplicit false

/-!
# Values of selected items

A selection of one table shows records, and for every item there is a column with the value of its
expression on the record. The values are computed in places that are named by the text of their
expressions, in the row that also holds the bins. So an item keeps its own value only if no other
one, no label and no bin gets in its way: different expressions may have the same text, as `age / 2`
and `age / 2.0` do.

## Main definitions

* `Record.evalEnv` — what expressions refer to on a record.
* `columnItems`, `computedItems`, `computedLabels` — the items that are columns, the places of
  computed ones, and the labels besides.
* `ItemsApart` — items that do not get in each other's way on a record.

## Main results

* `QueryPlan.display_items` — what a plan with items returns for a record.
* `Statement.answer_items` — what a selection of one table answers.
-/

namespace RecordQuery

open Outcome

/-! ## Items on records -/

/-- What expressions refer to on a record: a column to the bin of its name, or else to the key or
its digest. Anything that is missing is null. -/
def Record.evalEnv (r : Record) (params : List Value) : EvalEnv :=
  ⟨params, fun c => ((Row.ofRecord r true).get? c.name).getD .null, fun _ => none⟩

/-- The items that are columns. -/
def columnItems (shown : List (String × Expr)) : List ColumnRef :=
  shown.filterMap fun i =>
    match i.2 with
    | .column c => some c
    | _ => none

/-- The items that are computed, each in the place that is named by its text. -/
def computedItems (shown : List (String × Expr)) : List (String × Expr) :=
  shown.filterMap fun i =>
    match i.2 with
    | .column _ => none
    | e => some (e.render, e)

/-- The labels under which computed items stand besides, with their places. -/
def computedLabels (shown : List (String × Expr)) : List (String × String) :=
  shown.filterMap fun i =>
    match i.2 with
    | .column _ => none
    | e => if i.1 != e.render then some (i.1, e.render) else none

/-- Items do not get in each other's way on a record. -/
structure ItemsApart (shown : List (String × Expr)) (r : Record) : Prop where
  /-- Computed items with the same text are the same expression. -/
  texts : ∀ i ∈ computedItems shown, ∀ j ∈ computedItems shown, i.1 = j.1 → i.2 = j.2
  /-- No computed item refers to anything that is found under the text of an earlier one. -/
  overlook : (computedItems shown).Pairwise fun i j => j.2.Overlooks (Row.ofRecord r true) i.1
  /-- A missing column of a computed item is not the end of the name of a bin. -/
  bins : ∀ i ∈ computedItems shown, ∀ c ∈ i.2.columns, ∀ place ∈ (Row.ofRecord r true).keys,
    c.strays place = true → c.table = none ∧ c.name ∈ (Row.ofRecord r true).keys
  /-- No selected column has the text of a computed item for a name. -/
  columns : ∀ c ∈ columnItems shown, ∀ i ∈ computedItems shown, i.1 ≠ c.name
  /-- No selected column that is missing has the label of a computed item for a name. -/
  labels : ∀ c ∈ columnItems shown, ∀ l ∈ computedLabels shown, l.1 = c.name →
    c.name ∈ (Row.ofRecord r true).keys

/-! ## Plans with items -/

/-- A column with the expression by which it is computed, if it is. -/
def Column.withExpr? (c : Column) : Option (Column × Expr) :=
  match c.value with
  | .computed e => some (c, e)
  | _ => none

/-- Only an item that is no column is computed. -/
lemma Column.withExpr?_ofItem (ns : String) (i : String × Expr) :
    (ofItem ns i).withExpr? =
      match i.2 with
      | .column _ => none
      | e => some (⟨ns, none, e.render, i.1, e.render, .computed e, false⟩, e) := by
  obtain ⟨label, e⟩ := i
  cases e with
  | column c =>
    simp only [withExpr?, ofItem]
    split_ifs <;> rfl
  | _ => rfl

/-- The computed columns of a plan are among those that it returns. -/
lemma QueryPlan.computedColumns_eq (p : QueryPlan) :
    p.computedColumns = (Column.visible p.columns).filterMap Column.withExpr? := by
  unfold computedColumns Column.visible
  rw [List.filterMap_filter]
  refine List.filterMap_congr fun c _ => ?_
  unfold Column.isVisible Column.withExpr?
  cases c.value <;> cases c.hidden <;> rfl

section

variable {shown : List (String × Expr)} {ns : String} {p : QueryPlan}
  (hvisible : Column.visible p.columns = shown.map (Column.ofItem ns))

include hvisible

/-- The values that a plan with items computes are those of its items. -/
lemma QueryPlan.compute_items (params : List Value) (row : Row) :
    p.compute params row = computeRow params (computedItems shown) (computedLabels shown) row := by
  unfold compute
  rw [computedColumns_eq, hvisible, List.filterMap_map]
  congr 1
  · rw [List.map_filterMap, computedItems]
    refine List.filterMap_congr fun i _ => ?_
    obtain ⟨label, e⟩ := i
    rw [Function.comp, Column.withExpr?_ofItem]
    cases e <;> rfl
  · rw [List.filter_filterMap, List.map_filterMap, computedLabels]
    refine List.filterMap_congr fun i _ => ?_
    obtain ⟨label, e⟩ := i
    rw [Function.comp, Column.withExpr?_ofItem]
    cases e <;> simp [Option.filter_some, apply_ite (Option.map _)]

/-- What a plan with items returns of a row. -/
lemma QueryPlan.columns_ofPlan_items :
    (Projection.ofPlan p).columns = shown.map fun i => ((Column.ofItem ns i).source, i.1) := by
  simp only [Projection.ofPlan, Projection.ofColumns, hvisible, List.map_map]
  refine List.map_congr_left fun i _ => ?_
  simp only [Function.comp, Column.label_ofItem]

end

section

variable {shown : List (String × Expr)} {ns : String} {p : QueryPlan} {params : List Value}
  {r : Record} {row : Row} {withDigest : Bool}

/-- Items that are computed are no columns. -/
lemma mem_computedItems {place : String} {e : Expr} (h : (place, e) ∈ computedItems shown) :
    ∃ label, (label, e) ∈ shown := by
  obtain ⟨⟨label, e'⟩, hmem, hi⟩ := List.mem_filterMap.mp h
  cases e' with
  | column c => cases hi
  | _ =>
    obtain ⟨rfl, rfl⟩ := Prod.mk.inj (Option.some.inj hi)
    exact ⟨label, hmem⟩

/-- A column of the digest's name asks for the digest. -/
lemma Expr.mentionsDigest_of_mem {e : Expr} {c : ColumnRef} (hc : c ∈ e.columns)
    (hname : c.name = digestColumn) : e.mentionsDigest = true :=
  List.any_eq_true.mpr ⟨c, hc, beq_iff_eq.mpr hname⟩

/-- **The value of a computed item on the row of a record** is that on the record, if its columns
find what stands under their names.

**Proof sketch.** An expression is evaluated by what its columns find (`evalIn_congr`). A column
that does not stray finds what stands under its name (`Row.lookup?_eq_get?`), and the digest is
among the names if it is asked for. -/
lemma Expr.eval_ofRecord {e : Expr} (haggregate : e.hasAggregate = false)
    (hdigest : e.mentionsDigest = true → withDigest = true)
    (hbins : ∀ c ∈ e.columns, ∀ place ∈ (Row.ofRecord r true).keys,
      c.strays place = true → c.table = none ∧ c.name ∈ (Row.ofRecord r true).keys) :
    e.eval params (Row.ofRecord r withDigest) = e.evalIn (r.evalEnv params) := by
  refine evalIn_congr e fun s hs => ?_
  cases s with
  | column c =>
    have hc := mem_columns.mpr hs
    have hname : c.name = digestColumn → withDigest = true := fun hname =>
      hdigest (mentionsDigest_of_mem hc hname)
    have hfound : (Row.ofRecord r withDigest).lookup? c =
        (Row.ofRecord r withDigest).get? c.name := by
      refine Row.lookup?_eq_get? fun place hplace hstrays => ?_
      exact (hbins c hc place (Row.keys_ofRecord_subset r _ hplace) hstrays).imp_right
        (Row.mem_keys_ofRecord_digest hname).mpr
    change ((Row.ofRecord r withDigest).lookup? c).getD .null =
      ((Row.ofRecord r true).get? c.name).getD .null
    rw [hfound, Row.get?_ofRecord_digest hname]
  | param index => rfl
  | call name args distinct =>
    intro hname
    exact absurd (any_eq_false.mp haggregate _ hs) (by simp [isAggregate, hname])
  | _ => trivial

namespace ItemsApart

variable {m : Row} (hapart : ItemsApart shown r)
  (hdigest : ∀ i ∈ shown, i.2.mentionsDigest = true → withDigest = true)
  (hm : computeRow params (computedItems shown) (computedLabels shown)
    (Row.ofRecord r withDigest) = .ok m)

include hapart hdigest hm

/-- A selected column holds what stands under its name in the record's row, since nothing is written
there. -/
lemma get?_column {label : String} {c : ColumnRef} (hi : (label, Expr.column c) ∈ shown) :
    m.get? c.name = (Row.ofRecord r true).get? c.name := by
  have hname : c.name = digestColumn → withDigest = true := fun heq =>
    hdigest _ hi
      (Expr.mentionsDigest_of_mem (Expr.mem_columns.mpr (Expr.self_mem_parts _)) heq)
  have hc : c ∈ columnItems shown := List.mem_filterMap.mpr ⟨_, hi, rfl⟩
  have hplace : c.name ∉ (computedItems shown).map Prod.fst := by
    intro hmem
    obtain ⟨i, hcomputed, heq⟩ := List.mem_map.mp hmem
    exact hapart.columns c hc i hcomputed heq
  have hlabel : c.name ∈ (computedLabels shown).map Prod.fst →
      c.name ∈ (Row.ofRecord r withDigest).keys := by
    intro hmem
    obtain ⟨l, hl, heq⟩ := List.mem_map.mp hmem
    exact (Row.mem_keys_ofRecord_digest hname).mpr (hapart.labels c hc l hl heq)
  rw [get?_computeRow hplace hlabel hm, Row.get?_ofRecord_digest hname]

/-- A computed item holds its value, since it overlooks those before it. -/
lemma get?_computed (haggregate : ∀ i ∈ shown, i.2.hasAggregate = false) {place : String} {e : Expr}
    (hi : (place, e) ∈ computedItems shown) :
    ∃ v, e.evalIn (r.evalEnv params) = .ok v ∧ m.get? place = some v := by
  -- `hapart` is about the row with the digest; the row at hand may lack it, but only if no item
  -- asks for it.
  have hoverlook : (computedItems shown).Pairwise fun i j =>
      j.2.Overlooks (Row.ofRecord r withDigest) i.1 := by
    refine hapart.overlook.imp_of_mem fun _ hj hover => { hover with strays := ?_ }
    obtain ⟨label, hshown⟩ := mem_computedItems hj
    intro c hc hstrays
    refine (hover.strays c hc hstrays).imp_right (Row.mem_keys_ofRecord_digest fun heq => ?_).mpr
    exact hdigest _ hshown (Expr.mentionsDigest_of_mem hc heq)
  obtain ⟨v, hv, hget⟩ := computeRow_values hoverlook hapart.texts hm _ hi
  obtain ⟨label, hshown⟩ := mem_computedItems hi
  rw [Expr.eval_ofRecord (haggregate _ hshown) (hdigest _ hshown)
    (hapart.bins (place, e) hi)] at hv
  exact ⟨v, hv, hget⟩

end ItemsApart

/-- **What a plan with items returns for a record**: a column for every item, in order. If the items
do not get in each other's way, each holds the value of its item on the record.

**Proof sketch.** Each column holds what stands in its place after the computed values were written:
the value of a computed item (`ItemsApart.get?_computed`), and for a column what the record's row
holds (`ItemsApart.get?_column`). -/
theorem QueryPlan.display_items (hvisible : Column.visible p.columns = shown.map (Column.ofItem ns))
    (hwildcard : p.wildcard = false)
    (hdigest : p.needsDigest = shown.any fun i => i.2.mentionsDigest)
    (hlabels : (shown.map Prod.fst).Nodup) (haggregate : ∀ i ∈ shown, i.2.hasAggregate = false)
    (h : p.display params r = .ok row) :
    row.keys = shown.map Prod.fst ∧
      (ItemsApart shown r →
        shown.mapM (fun i => i.2.evalIn (r.evalEnv params)) = .ok row.values) := by
  obtain ⟨m, hm, hrow⟩ := bind_eq_ok.mp h
  rw [carried, compute_items hvisible] at hm
  have hcolumns := columns_ofPlan_items hvisible
  have hkeys : (Projection.ofPlan p).columns.map Prod.snd = shown.map Prod.fst := by
    rw [hcolumns, List.map_map]
    rfl
  have hentries := Projection.entries_row hwildcard (hkeys ▸ hlabels) hrow
  have hvalues : row.values =
      shown.map fun i => (m.get? (Column.ofItem ns i).source).getD .null := by
    rw [OrderedMap.values, hentries, hcolumns, List.map_map, List.map_map]
    rfl
  refine ⟨by rw [← hkeys]; exact Projection.keys_row hwildcard (hkeys ▸ hlabels) hrow,
    fun hapart => ?_⟩
  have hmentions : ∀ i ∈ shown, i.2.mentionsDigest = true → p.needsDigest = true :=
    fun i hi hmention => hdigest.trans (List.any_eq_true.mpr ⟨i, hi, hmention⟩)
  -- A column is read in the place of its name, any other item in the place of its text.
  rw [hvalues]
  refine mapM_eq_map fun i hi => ?_
  obtain ⟨label, e⟩ := i
  by_cases hcolumn : ∃ c, e = .column c
  · obtain ⟨c, rfl⟩ := hcolumn
    change Except.ok (((Row.ofRecord r true).get? c.name).getD .null) =
      .ok ((m.get? c.name).getD .null)
    rw [hapart.get?_column hmentions hm hi]
  · have hplace : (e.render, e) ∈ computedItems shown ∧
        (Column.ofItem ns (label, e)).source = e.render := by
      refine ⟨List.mem_filterMap.mpr ⟨(label, e), hi, ?_⟩, ?_⟩ <;>
        cases e <;> first | rfl | exact absurd ⟨_, rfl⟩ hcolumn
    obtain ⟨v, hv, hget⟩ := hapart.get?_computed hmentions hm haggregate hplace.1
    rw [hplace.2, hget]
    exact hv

end

/-! ## Answers -/

/-- Labelled items are selected ones. -/
lemma mem_labelItems {qualifier : String} {taken : List String} {items : List SelectItem}
    {i : String × Expr} (h : i ∈ labelItems qualifier taken items) :
    ∃ e label, .expr e label ∈ items ∧ i.2 = e.unwrap := by
  induction items generalizing taken with
  | nil => cases h
  | cons item items ih =>
    cases item with
    | all =>
      obtain ⟨e, label, hmem, heq⟩ := ih h
      exact ⟨e, label, List.mem_cons_of_mem _ hmem, heq⟩
    | expr e label =>
      rcases List.mem_cons.mp h with rfl | h
      · exact ⟨e, label, List.mem_cons_self, rfl⟩
      · obtain ⟨e', label', hmem, heq⟩ := ih h
        exact ⟨e', label', List.mem_cons_of_mem _ hmem, heq⟩

/-- The items of a selection that is not grouped call no aggregate. -/
lemma hasAggregate_labelItems {s : Select} {orderBy : List OrderItem}
    (hgrouped : s.isGrouped orderBy = false) {qualifier : String} {taken : List String} :
    ∀ i ∈ labelItems qualifier taken s.items, i.2.hasAggregate = false := by
  intro i hi
  obtain ⟨e, label, hmem, heq⟩ := mem_labelItems hi
  rw [heq]
  exact Expr.any_eq_false.mpr fun part hpart =>
    Expr.any_eq_false.mp (hasAggregate_of_isGrouped hgrouped _ hmem) part (e.parts_unwrap hpart)

section

variable {config : Config} {catalog : IndexCatalog} {params : List Value} {st : Store}
  {s : Select} {name : TableName} {rename : Option String} {orderBy : List OrderItem}
  {limit offset : Option Expr} {labels : List String} {rows : List Row}

/-- **Every selected item yields its own value.** Let a selection of one table without stars,
duplicates left out, groups or joins be answered, whose items have labels of their own. Then every
returned row shows a record of the table, none of them twice, and has a column for every item, in
order. If the items do not get in each other's way on the record, each column holds the value of its
item there.

**Proof sketch.** The plan of the selection lists records and returns its items
(`compileSelect_isListing`); binding and preparing leave that so (`QueryPlan.ignoresCargo_bind`,
`QueryPlan.ignoresCargo_prepare`). The rows of such a plan are what it returns for records
(`QueryPlan.IsListing.shows_records`), and that is described by `QueryPlan.display_items`. -/
theorem Statement.answer_items (hsource : s.source = .named name rename) (hjoins : s.joins = [])
    (hdistinct : s.distinct = false) (hgrouped : s.isGrouped orderBy = false)
    (hstar : .all ∉ s.items)
    (hlabels : ((labelItems (rename.getD name.name) [] s.items).map Prod.fst).Nodup)
    (h : ((Statement.query ⟨.select s, orderBy, limit, offset⟩).answer config catalog params st).1 =
      .ok (.rows labels rows)) :
    labels = (labelItems (rename.getD name.name) [] s.items).map Prod.fst ∧
      ∃ rs, st.Lists (name.schema.getD config.defaultNamespace) name.name rs ∧
        List.Forall₂ (fun r row => row.keys = labels ∧
          (ItemsApart (labelItems (rename.getD name.name) [] s.items) r →
            (labelItems (rename.getD name.name) [] s.items).mapM
              (fun i => i.2.evalIn (r.evalEnv params)) = .ok row.values)) rs rows := by
  obtain ⟨p, q, prepared, P, hp, hq, hr, hnames, hanswered, hP, hl⟩ := Statement.lists_of_select h
  obtain ⟨hlisting, -, hvisible, hdigest, hwildcard⟩ :=
    compileSelect_isListing hsource hjoins hdistinct hgrouped hp
  generalize hshown : labelItems (rename.getD name.name) [] s.items = shown
    at hlabels hvisible hdigest ⊢
  obtain ⟨hbound, hsettled⟩ := hlisting.bind hq
  obtain ⟨hprepared, hready⟩ := hbound.prepare hsettled hr
  obtain ⟨hcols, hneeds, hwild⟩ := QueryPlan.cargo_eq_of_prepare hq hr
  -- No column is left out as a known one, since no two of them have the same label.
  have hcolumns : Column.visible prepared.columns =
      shown.map (Column.ofItem (name.schema.getD config.defaultNamespace)) := by
    rw [hcols, hvisible, Column.foldl_addNew_of_nodup]
    · rfl
    · rw [List.nil_append, List.map_map]
      refine (List.map_congr_left fun i _ => ?_) ▸ hlabels
      exact (Column.label_ofItem _ i).symm
  have hown : labels = shown.map Prod.fst := by
    rw [hanswered]
    change (Column.visible prepared.columns).map Column.label = _
    rw [hcolumns, List.map_map]
    exact List.map_congr_left fun i _ => Column.label_ofItem _ i
  obtain ⟨rs, hrs, hrows⟩ := hprepared.shows_records hready hP hl
  refine ⟨hown, rs, hrs, hrows.imp fun r row hdisplay => ?_⟩
  rw [hown]
  have haggregate : ∀ i ∈ shown, i.2.hasAggregate = false := by
    rw [← hshown]
    exact hasAggregate_labelItems hgrouped
  exact QueryPlan.display_items hcolumns (hwild.trans (hwildcard hstar)) (hneeds.trans hdigest)
    hlabels haggregate hdisplay

end

/-- The owners of pets in a village, and the numbers after the keys of the pets.

**Proof sketch.** The answer is evaluated, and so is that the items stand apart in every record of
the set. The claim about the rows is `Statement.answer_items`. -/
theorem Statement.answer_items_pets :
    let shown : List (String × Expr) := [("owner", .column ⟨none, "owner"⟩),
      ("next", .binary (.arith .add) (.column ⟨none, keyColumn⟩) (.param 1))]
    let s : Select := { Select.column "pets" "owner" with
      items := shown.map fun i => .expr i.2 (some i.1) }
    let row (next : Int64) : Row := .ofValues ["owner", "next"] [.text "Ada", .integer next]
    ((Statement.query (.ofBody (.select s))).answer ⟨"test", 5000, none⟩ [] [.integer 1]
        Store.village).1 = .ok (.rows ["owner", "next"] [row 2, row 3]) ∧
      ∃ rs, Store.village.Lists "test" "pets" rs ∧
        List.Forall₂ (fun r row => row.keys = ["owner", "next"] ∧
          shown.mapM (fun i => i.2.evalIn (r.evalEnv [.integer 1])) = .ok row.values) rs
          [row 2, row 3] := by
  intro shown s row
  have hanswer : ((Statement.query (.ofBody (.select s))).answer ⟨"test", 5000, none⟩ []
      [.integer 1] Store.village).1 = .ok (.rows ["owner", "next"] [row 2, row 3]) :=
    eq_ok_of_toOption (by decide +kernel)
  have happart : ∀ r ∈ Store.village.recordsOf "test" "pets", ItemsApart shown r := fun r hr =>
    { texts := fun i hi j hj _ => by rw [List.mem_singleton.mp hi, List.mem_singleton.mp hj]
      overlook := by revert r; decide +kernel
      bins := by revert r; decide +kernel
      columns := by decide +kernel
      labels := by revert r; decide +kernel }
  obtain ⟨-, rs, hrs, hrows⟩ := Statement.answer_items (s := s) rfl rfl rfl (by decide +kernel)
    (by simp [s, shown]) (by decide +kernel) hanswer
  have hboth := (List.forall₂_and_left _ _).mpr ⟨fun r hr => happart r (hrs.mem r hr), hrows⟩
  exact ⟨hanswer, rs, hrs, hboth.imp fun r row ⟨hapart, hkeys, hvalues⟩ =>
    ⟨hkeys, hvalues hapart⟩⟩

end RecordQuery
