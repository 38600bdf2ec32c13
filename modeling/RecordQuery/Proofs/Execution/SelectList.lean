import RecordQuery.Proofs.Compile.Depth
import RecordQuery.Proofs.Execution.Items

set_option autoImplicit false

/-!
# The records of a selection

Two selections that differ in their items have plans that differ in their cargo. They find the same
records. If the store decides the condition, they also select the same ones. If it is decided row by
row, it is so on rows that carry the digest only if an item asks for it, and the computed values of
the items besides. Then the selected records are the same as long as the condition overlooks these
values and does not ask for a digest that one of the selections carries and the other one does not.

## Main definitions

* `Expr.OverlooksItems` — a condition does not depend on the computed values of items.
* `Select.SelectsBy` — a selection selects records by a plan and shows them as rows.

## Main results

* `QueryPlan.holdsOn_of_admits` — what a row filter says of a record.
* `Statement.answer_selectList` — two selections that differ in their items select the same records.
-/

namespace RecordQuery

open Outcome

/-- Tests that agree keep the same elements. -/
lemma filterExcept_unique {α : Type} {f g : α → Except QueryError Bool} {as kept kept' : List α}
    (hsame : ∀ a ∈ as, ∀ x y, f a = .ok x → g a = .ok y → x = y)
    (h : filterExcept f as = .ok kept) (h' : filterExcept g as = .ok kept') : kept' = kept := by
  induction as generalizing kept kept' with
  | nil =>
    obtain rfl := Except.ok.inj h
    exact (Except.ok.inj h').symm
  | cons a as ih =>
    simp only [filterExcept, bind_eq_ok, pure_eq_ok] at h h'
    obtain ⟨x, hx, rest, hrest, rfl⟩ := h
    obtain ⟨y, hy, rest', hrest', rfl⟩ := h'
    obtain rfl := hsame a List.mem_cons_self x y hx hy
    rw [ih (fun b hb => hsame b (List.mem_cons_of_mem a hb)) hrest hrest']

/-! ## Conditions on records -/

/-- A condition does not depend on the computed values of items, nor on what stands under their
labels, in the row of a record. -/
structure Expr.OverlooksItems (w : Expr) (shown : List (String × Expr)) (r : Record) : Prop where
  /-- It overlooks the computed values. -/
  values : ∀ i ∈ computedItems shown, w.Overlooks (Row.ofRecord r false) i.1
  /-- It overlooks their labels. -/
  labels : ∀ l ∈ computedLabels shown, w.Overlooks (Row.ofRecord r false) l.1

/-- The text of an aggregate call is not the name of the digest. -/
lemma Expr.render_ne_digestColumn {e : Expr} (h : e.isAggregate = true) :
    e.render ≠ digestColumn := by
  cases e with
  | call name args distinct =>
    intro heq
    have hparen : '(' ∈ digestColumn.toList := by
      rw [← heq, render]
      simp
    revert hparen
    decide
  | _ => cases h

section

variable {params : List Value} {r : Record} {w : Expr}

/-- A condition has the same value with the digest and without it, unless it asks for it. -/
lemma Expr.eval_ofRecord_digest {a b : Bool} (h : w.mentionsDigest = true → a = b) :
    w.eval params (Row.ofRecord r a) = w.eval params (Row.ofRecord r b) := by
  refine eval_congr (fun c hc => ?_) fun s _ haggregate => ?_
  · by_cases hname : c.name = digestColumn
    · rw [h (mentionsDigest_of_mem hc hname)]
    · rw [Row.lookup?_ofRecord_digest hname a, Row.lookup?_ofRecord_digest hname b]
  · exact Row.get?_ofRecord_digest fun heq => absurd heq (render_ne_digestColumn haggregate)

namespace QueryPlan

variable {shown : List (String × Expr)} {ns : String} {p : QueryPlan}

/-- What a plan with items computes are values of its items, under their labels. -/
lemma mem_computedColumns
    (hvisible : ∀ c ∈ Column.visible p.columns, ∃ i ∈ shown, c = Column.ofItem ns i)
    {c : Column} {e : Expr} (h : (c, e) ∈ p.computedColumns) :
    (c.source, e) ∈ computedItems shown ∧
      (c.label ≠ c.source → (c.label, c.source) ∈ computedLabels shown) := by
  rw [computedColumns_eq] at h
  obtain ⟨d, hd, hexpr⟩ := List.mem_filterMap.mp h
  obtain ⟨⟨label, f⟩, hi, rfl⟩ := hvisible d hd
  rw [Column.withExpr?_ofItem] at hexpr
  simp only [computedItems, computedLabels, List.mem_filterMap]
  refine ⟨⟨_, hi, ?_⟩, fun hlabel => ⟨_, hi, ?_⟩⟩ <;>
  · cases f with
    | column c => cases hexpr
    | _ =>
      obtain ⟨rfl, rfl⟩ := Prod.mk.inj (Option.some.inj hexpr)
      first
        | rfl
        | simpa using hlabel

/-- Without a row filter every record passes. -/
lemma eq_true_of_admits (hfilter : p.rowFilter = none) {passes : Bool}
    (h : p.admits params r = .ok passes) : passes = true := by
  obtain ⟨m, -, h⟩ := bind_eq_ok.mp h
  simp only [QueryPlan.passes, hfilter] at h
  exact (Except.ok.inj h).symm

/-- **What a row filter says of a record**, if it overlooks the computed values of the items, is
what it says of the record's row.

**Proof sketch.** The test evaluates the filter on the row with the computed values. What these are
written under is overlooked by the filter (`hover`), so evaluating it on the row of the record gives
the same (`Expr.eval_computeRow`). -/
theorem holdsOn_of_admits
    (hvisible : ∀ c ∈ Column.visible p.columns, ∃ i ∈ shown, c = Column.ofItem ns i)
    (hfilter : p.rowFilter = some w) (hw : w.OverlooksItems shown r) {passes : Bool}
    (h : p.admits params r = .ok passes) :
    w.holdsOn params (Row.ofRecord r p.needsDigest) = .ok passes := by
  obtain ⟨m, hm, h⟩ := bind_eq_ok.mp h
  simp only [QueryPlan.passes, hfilter] at h
  have hover : ∀ {place : String}, w.Overlooks (Row.ofRecord r false) place →
      w.Overlooks (Row.ofRecord r p.needsDigest) place := by
    intro place hplace
    refine hplace.mono fun name hname => ?_
    cases p.needsDigest with
    | false => exact hname
    | true => exact Row.keys_ofRecord_subset r false hname
  have heval : w.eval params m = w.eval params (Row.ofRecord r p.needsDigest) := by
    refine Expr.eval_computeRow (fun i hi => ?_) (fun l hl => ?_) hm
    · obtain ⟨⟨c, e⟩, hc, rfl⟩ := List.mem_map.mp hi
      exact hover (hw.values _ (mem_computedColumns hvisible hc).1)
    · obtain ⟨⟨c, e⟩, hc, rfl⟩ := List.mem_map.mp hl
      obtain ⟨hmem, hlabel⟩ := List.mem_filter.mp hc
      exact hover (hw.labels _ ((mem_computedColumns hvisible hmem).2 (by simpa using hlabel)))
  rw [← h, Expr.holdsOn, Expr.holdsOn, heval]

/-! ## Plans with another cargo -/

/-- A plan finds the same records whatever its rows carry. Tests that agree on them select the same
ones.

**Proof sketch.** Both plans read the table by the same strategy, and whether rows carry a digest
does not change which records are found. Then two tests that agree on the found records select the
same ones (`filterExcept_unique`). -/
theorem selected_carrying {c : Cargo} {K : Store} {rs rs' : List Record}
    (h : p.selected params K = .ok rs) (h' : (p.carrying c).selected params K = .ok rs')
    (hsame : ∀ set, p.set = some set → ∀ r ∈ K.recordsOf p.ns set, ∀ a b,
      p.admits params r = .ok a → (p.carrying c).admits params r = .ok b → a = b) : rs' = rs := by
  obtain ⟨access, haccess, h⟩ := bind_eq_ok.mp h
  obtain ⟨found, hfound, h⟩ := bind_eq_ok.mp h
  obtain ⟨access', haccess', h'⟩ := bind_eq_ok.mp h'
  obtain ⟨found', hfound', h'⟩ := bind_eq_ok.mp h'
  -- The accesses differ in the digest, and the records that are found do not depend on it.
  have hrecords : found' = found := by
    have hboth : access' = { access with withDigest := c.needsDigest } := by
      unfold TableAccess.ofPlan at haccess haccess'
      simp only [carrying] at haccess'
      split at haccess
      · cases haccess
      · cases haccess
      · rename_i hset hstrategy
        simp only [hset, hstrategy] at haccess'
        rw [← Except.ok.inj haccess, ← Except.ok.inj haccess']
    rw [hboth] at hfound'
    exact Except.ok.inj (hfound'.symm.trans hfound)
  subst hrecords
  obtain ⟨hns, hset, -⟩ := TableAccess.of_ofPlan haccess
  refine filterExcept_unique (fun r hr a b ha hb => ?_) h h'
  refine hsame access.set hset r ?_ a b ha hb
  rw [← hns]
  exact TableAccess.mem_recordsOf_of_records hfound hr

end QueryPlan

end

/-! ## Answers -/

/-- A selection selects records by a plan, which is compiled from it, bound and prepared, and shows
them as rows. -/
structure Select.SelectsBy (s : Select) (config : Config) (catalog : IndexCatalog)
    (params : List Value) (st : Store) (q : QueryPlan) (rs : List Record) (rows : List Row) :
    Prop where
  /-- The plan is that of the selection. -/
  planned : ∃ p b, compileSelect ⟨config.defaultNamespace, catalog⟩
      (compileBelow ⟨config.defaultNamespace, catalog⟩ (Query.ofBody (.select s)).depth) s []
        none none = .ok p ∧
    p.bind params = .ok b ∧
    (b.prepare ⟨params, config.batchSize, config.maxSortRows⟩).Reads st (.ok q)
  /-- It selects the records. -/
  selected : q.selected params st = .ok rs
  /-- Each row is what it returns for one of them, in order. -/
  shown : rs.mapM (q.display params) = .ok rows

section

variable {config : Config} {catalog : IndexCatalog} {params : List Value} {st : Store}
  {s : Select} {name : TableName} {rename : Option String} {items : List SelectItem}
  {labels labels' : List String} {rows rows' : List Row} {q : QueryPlan} {rs : List Record}

/-- A selection of one table that is answered selects records and shows them as these rows. -/
lemma Statement.selectsBy_of_answer (hsource : s.source = .named name rename)
    (hjoins : s.joins = []) (hdistinct : s.distinct = false) (hgrouped : s.isGrouped [] = false)
    (h : ((Statement.query (.ofBody (.select s))).answer config catalog params st).1 =
      .ok (.rows labels rows)) : ∃ q rs, s.SelectsBy config catalog params st q rs rows := by
  obtain ⟨p, b, q, P, hp, hb, hq, -, -, -, hP, hl⟩ := Statement.lists_of_answer h
  obtain ⟨hbound, hsettled⟩ :=
    (compileSelect_isListing hsource hjoins hdistinct hgrouped hp).1.bind hb
  have hunpaged := (compileSelect_isListing hsource hjoins hdistinct hgrouped hp).1.isUnpaged_bind
    (compileSelect_isUnpaged hsource hjoins hdistinct hgrouped hp) hb
  obtain ⟨rs, hselected, hshown⟩ := (hbound.prepare hsettled hq).1.exists_selected
    (hbound.isUnpaged_prepare hsettled hq hunpaged) hP hl
  exact ⟨q, rs, ⟨p, b, hp, hb, hq⟩, hselected, hshown⟩

/-- **The plan by which a selection of one table selects records**: it lists records of the table,
decides the condition row by row or nothing, and carries what the items ask for.

**Proof sketch.** What the compilation says of the plan (`compileSelect_isListing`) is carried
through binding and preparing, neither of which changes the cargo (`QueryPlan.cargo_eq_of_prepare`).
-/
lemma Select.SelectsBy.isListing (h : s.SelectsBy config catalog params st q rs rows)
    (hsource : s.source = .named name rename) (hjoins : s.joins = [])
    (hdistinct : s.distinct = false) (hgrouped : s.isGrouped [] = false) :
    q.IsListing (name.schema.getD config.defaultNamespace) name.name ∧ q.isSettled ∧
      q.DecidesOnly s.condition ∧
      (∀ c ∈ Column.visible q.columns, ∃ i ∈ labelItems (rename.getD name.name) [] s.items,
        c = Column.ofItem (name.schema.getD config.defaultNamespace) i) ∧
      q.needsDigest =
        (labelItems (rename.getD name.name) [] s.items).any fun i => i.2.mentionsDigest := by
  obtain ⟨p, b, hp, hb, hq⟩ := h.planned
  obtain ⟨hlisting, hcondition, hvisible, hdigest, -⟩ :=
    compileSelect_isListing hsource hjoins hdistinct hgrouped hp
  obtain ⟨hbound, hsettled⟩ := hlisting.bind hb
  obtain ⟨hprepared, hready⟩ := hbound.prepare hsettled hq
  obtain ⟨hcols, hneeds, -⟩ := QueryPlan.cargo_eq_of_prepare hb hq
  refine ⟨hprepared, hready, hbound.decidesOnly_prepare hsettled hq
    (hlisting.decidesOnly_bind hcondition hb), fun c hc => ?_,
    hneeds.trans hdigest⟩
  rw [hcols, hvisible] at hc
  rcases Column.mem_of_mem_foldl_addNew hc with hc | hc
  · cases hc
  · obtain ⟨i, hi, rfl⟩ := List.mem_map.mp hc
    exact ⟨i, hi, rfl⟩

/-- The plans of two selections that differ in their items differ in their cargo. The queries inside
may be nested less deeply in one of them, which makes no difference for those that both have.

**Proof sketch.** Both selections are compiled with the greater of the two depths, where their plans
differ in the cargo only (`compileSelect_carrying`). Binding and preparing do not look at the cargo
(`QueryPlan.ignoresCargo_bind`, `QueryPlan.ignoresCargo_prepare`). -/
lemma Select.SelectsBy.carrying {q' : QueryPlan} {rs' : List Record}
    (h : s.SelectsBy config catalog params st q rs rows)
    (h' : Select.SelectsBy { s with items } config catalog params st q' rs' rows')
    (hsource : s.source = .named name rename) (hjoins : s.joins = [])
    (hdistinct : s.distinct = false) (hgrouped : s.isGrouped [] = false)
    (hgrouped' : Select.isGrouped { s with items } [] = false) :
    q' = q.carrying q'.cargo := by
  obtain ⟨p, b, hp, hb, hq⟩ := h.planned
  obtain ⟨p', b', hp', hb', hq'⟩ := h'.planned
  -- Both are compiled at the greater one of the two depths.
  obtain ⟨_, hdeep, rfl⟩ := follows_compileSelect_eq
    (fun q => compileBelow_mono _ (Nat.le_max_left _
      (Query.ofBody (.select { s with items })).depth) q) s [] none none p hp
  obtain ⟨_, hdeep', rfl⟩ := follows_compileSelect_eq
    (fun q => compileBelow_mono _ (Nat.le_max_right (Query.ofBody (.select s)).depth _) q)
      { s with items } [] none none p' hp'
  have hplan : p' = p.carrying p'.cargo :=
    compileSelect_carrying hsource hjoins hdistinct hgrouped hgrouped' hdeep hdeep'
  rw [hplan, ((QueryPlan.ignoresCargo_bind params).of_eq_ok hb).2] at hb'
  obtain rfl := Except.ok.inj hb'
  have hlast := ((QueryPlan.ignoresCargo_prepare _).of_reads hq).2 p'.cargo
  rw [Except.ok.inj (hq'.unique hlast)]
  rfl

/-- **The selected records do not depend on the select list.** Let two selections of one table that
differ in their items be answered, without joins, duplicates left out or groups. Each selects
records of the table by a plan and shows them as its rows. They select the same records in the same
order if the store decides the condition. If it is decided row by row, they do so if both of them or
none carry a digest that the condition asks for, and the condition overlooks what the items compute.

**Proof sketch.** The plans differ in their cargo (`Select.SelectsBy.carrying`), so that they find
the same records. A row filter is the condition itself (`QueryPlan.DecidesOnly`). What it says of a
record it says of the record's row (`QueryPlan.holdsOn_of_admits`), and that is the same for both
(`Expr.eval_ofRecord_digest`). -/
theorem Statement.answer_selectList (hsource : s.source = .named name rename)
    (hjoins : s.joins = []) (hdistinct : s.distinct = false) (hgrouped : s.isGrouped [] = false)
    (hgrouped' : Select.isGrouped { s with items } [] = false)
    (h : ((Statement.query (.ofBody (.select s))).answer config catalog params st).1 =
      .ok (.rows labels rows))
    (h' : ((Statement.query (.ofBody (.select { s with items }))).answer config catalog params
      st).1 = .ok (.rows labels' rows')) :
    ∃ q q' rs rs', s.SelectsBy config catalog params st q rs rows ∧
      Select.SelectsBy { s with items } config catalog params st q' rs' rows' ∧
      st.Lists (name.schema.getD config.defaultNamespace) name.name rs ∧
      ((q.rowFilter = none ∨ ∀ w ∈ s.condition,
          (w.mentionsDigest = true →
            (labelItems (rename.getD name.name) [] s.items).any (fun i => i.2.mentionsDigest) =
              (labelItems (rename.getD name.name) [] items).any (fun i => i.2.mentionsDigest)) ∧
          ∀ r ∈ st.recordsOf (name.schema.getD config.defaultNamespace) name.name,
            w.OverlooksItems (labelItems (rename.getD name.name) [] s.items) r ∧
              w.OverlooksItems (labelItems (rename.getD name.name) [] items) r) →
        rs' = rs) := by
  obtain ⟨q, rs, hq⟩ := Statement.selectsBy_of_answer hsource hjoins hdistinct hgrouped h
  obtain ⟨q', rs', hq'⟩ := Statement.selectsBy_of_answer (s := { s with items }) hsource hjoins
    hdistinct hgrouped' h'
  obtain ⟨hlisting, hsettled, hcondition, hvisible, hdigest⟩ :=
    hq.isListing hsource hjoins hdistinct hgrouped
  obtain ⟨-, -, -, hvisible', hdigest'⟩ := hq'.isListing hsource hjoins hdistinct hgrouped'
  have hcarrying := hq.carrying hq' hsource hjoins hdistinct hgrouped hgrouped'
  refine ⟨q, q', rs, rs', hq, hq', hlisting.lists_selected hsettled hq.selected, fun hw => ?_⟩
  have hselected' := hq'.selected
  rw [hcarrying] at hselected'
  refine QueryPlan.selected_carrying hq.selected hselected' fun set hset r hr a b ha hb => ?_
  rw [← hcarrying] at hb
  have hfilters : q'.rowFilter = q.rowFilter := by
    rw [hcarrying]
    rfl
  cases hfilter : q.rowFilter with
  | none =>
    rw [QueryPlan.eq_true_of_admits hfilter ha,
      QueryPlan.eq_true_of_admits (hfilters.trans hfilter) hb]
  | some e =>
    have he : e ∈ s.condition := hcondition.rowFilter e hfilter
    obtain ⟨hmentions, hover⟩ := (hw.resolve_left (by simp [hfilter])) e he
    have hmem : r ∈ st.recordsOf (name.schema.getD config.defaultNamespace) name.name := by
      rw [hlisting.ns] at hr
      rwa [← Option.some.inj (hlisting.set.symm.trans hset)] at hr
    obtain ⟨hown, hother⟩ := hover r hmem
    have hfirst := QueryPlan.holdsOn_of_admits hvisible hfilter hown ha
    have hsecond := QueryPlan.holdsOn_of_admits hvisible' (hfilters.trans hfilter) hother hb
    rw [Expr.holdsOn, Expr.eval_ofRecord_digest (b := q'.needsDigest) fun hmention => ?_] at hfirst
    · exact Except.ok.inj (hfirst.symm.trans hsecond)
    · rw [hdigest, hdigest', hmentions hmention]

end

/-- Owners of pets, and ten times the keys of pets, both of those pets whose key plus one is above
two. The condition is decided row by row.

**Proof sketch.** Both answers are evaluated, and so is that the condition overlooks the items in
every record of the set. The claim about the records is `Statement.answer_selectList`. -/
theorem Statement.answer_selectList_pets :
    let key : Expr := .column ⟨none, keyColumn⟩
    let s : Select := { Select.column "pets" "owner" with
      condition := some (.binary (.compare .gt)
        (.binary (.arith .add) key (.literal (.integer 1))) (.literal (.integer 2))) }
    let items : List SelectItem :=
      [.expr (.binary (.arith .mul) key (.literal (.integer 10))) (some "tens")]
    ∃ q q' rs,
      s.SelectsBy ⟨"test", 5000, none⟩ [] [] Store.village q rs
        [OrderedMap.empty.set "owner" (.text "Ada")] ∧
      Select.SelectsBy { s with items } ⟨"test", 5000, none⟩ [] [] Store.village q' rs
        [OrderedMap.empty.set "tens" (.integer 20)] := by
  intro key s items
  have hanswer : ((Statement.query (.ofBody (.select s))).answer ⟨"test", 5000, none⟩ [] []
      Store.village).1 = .ok (.rows ["owner"] [OrderedMap.empty.set "owner" (.text "Ada")]) :=
    eq_ok_of_toOption (by decide +kernel)
  have hanswer' : ((Statement.query (.ofBody (.select { s with items }))).answer
      ⟨"test", 5000, none⟩ [] [] Store.village).1 =
        .ok (.rows ["tens"] [OrderedMap.empty.set "tens" (.integer 20)]) :=
    eq_ok_of_toOption (by decide +kernel)
  obtain ⟨q, q', rs, rs', hq, hq', -, hsame⟩ := Statement.answer_selectList (s := s) rfl rfl rfl
    (by decide +kernel) (by decide +kernel) hanswer hanswer'
  obtain rfl := hsame (.inr fun w hw => by
    obtain rfl := Option.some.inj hw
    refine ⟨by decide +kernel, fun r hr => ⟨⟨?_, ?_⟩, ⟨?_, ?_⟩⟩⟩ <;>
    · revert r
      decide +kernel)
  exact ⟨q, q', rs', hq, hq'⟩

end RecordQuery
