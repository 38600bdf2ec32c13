import RecordQuery.Proofs.Cursor.Complete
import RecordQuery.Proofs.Expr.Eval
import RecordQuery.Proofs.Pipeline.Partners
import RecordQuery.Proofs.Row

set_option autoImplicit false

/-!
# References on joined rows

A joined row holds the values of the tables before the join under their labels, and those of every
joined table behind its name. A column of a joined table is looked up behind the name of its table
and then under its name alone; a column without a table under its name and then behind any name.
Records have no schema, so whether the second step is taken depends on the record. What a reference
finds on a joined row is the value of its own table, or else what another table has under the same
name.

## Main definitions

* `JoinedTuple` — what a joined row is made of; `JoinedTuple.row` is the row.
* `JoinedTuple.found` — the value that a reference has on the row.
* `JoinedTuple.own` — the value that its own table has.
* `JoinedTuple.Misleads` — another table answers for the own one.

## Main results

* `JoinedTuple.lookup?_row` — what a reference finds on a joined row.
* `Pipeline.joined_references` — the rows of joins are joined rows, and a reference has the value of
  its own table on them if no other table answers for it.
-/

namespace RecordQuery

/-! ## Labels of joined tables -/

/-- Texts with a last point are the same before and after it. -/
lemma eq_of_append_point {as bs cs ds : List Char} (h : as ++ '.' :: bs = cs ++ '.' :: ds)
    (hbs : '.' ∉ bs) (hds : '.' ∉ ds) : as = cs ∧ bs = ds := by
  rcases List.append_eq_append_iff.mp h with ⟨es, rfl, hes⟩ | ⟨es, rfl, hes⟩
  · cases es with
    | nil => exact ⟨by simp, by simpa using hes⟩
    | cons e es =>
      obtain ⟨rfl, rfl⟩ := List.cons.inj hes
      exact absurd (by simp) hbs
  · cases es with
    | nil => exact ⟨by simp, by simpa using hes.symm⟩
    | cons e es =>
      obtain ⟨rfl, rfl⟩ := List.cons.inj hes
      exact absurd (by simp) hds

/-- Whether a name has no point in it. -/
def isSimpleName (name : String) : Bool := !name.toList.contains '.'

/-- A simple name contains no point. -/
lemma not_mem_of_isSimpleName {name : String} (h : isSimpleName name = true) :
    '.' ∉ name.toList := by
  simpa [isSimpleName] using h

namespace JoinSpec

variable {j k : JoinSpec} {name other : String}

/-- A label of a joined table tells the table and the column. -/
lemma eq_of_label_eq (h : j.label name = k.label other) (hname : isSimpleName name = true)
    (hother : isSimpleName other = true) : j.qualifier = k.qualifier ∧ name = other := by
  have hchars := congrArg String.toList h
  simp only [label, String.toList_append, List.append_assoc] at hchars
  obtain ⟨hq, hn⟩ := eq_of_append_point hchars (not_mem_of_isSimpleName hname)
    (not_mem_of_isSimpleName hother)
  exact ⟨String.toList_inj.mp hq, String.toList_inj.mp hn⟩

/-- A label of a joined table has a point in it. -/
lemma label_ne_of_isSimpleName (hname : isSimpleName name = true) (other : String) :
    name ≠ j.label other := by
  rintro rfl
  simp [isSimpleName, label] at hname

/-- A label of a joined table ends with the name of its column behind a point. -/
lemma endsWith_label (hname : isSimpleName name = true) (hother : isSimpleName other = true) :
    Text.endsWith ("." ++ name) (j.label other) = decide (other = name) := by
  rw [Bool.eq_iff_iff, decide_eq_true_eq, Text.endsWith, List.isSuffixOf_iff_suffix]
  constructor
  · rintro ⟨as, has⟩
    simp only [label, String.toList_append, List.append_assoc] at has
    exact String.toList_inj.mp (eq_of_append_point has (not_mem_of_isSimpleName hname)
      (not_mem_of_isSimpleName hother)).2.symm
  · rintro rfl
    exact ⟨j.qualifier.toList, by simp [label]⟩

end JoinSpec

/-! ## Rows with one more table -/

namespace JoinSpec

/-- What a row becomes with a partner, or without one. -/
def extended (j : JoinSpec) (row : Row) : Option Record → Row
  | some r => j.joined row r
  | none => j.pad row

/-- What a joined table has under a name: a value of the partner or, without a partner, null under
the columns that are carried. -/
def value? (j : JoinSpec) (partner : Option Record) (name : String) : Option Value :=
  match partner with
  | some r => (Row.ofRecord r j.plan.needsDigest).get? name
  | none => if j.label name ∈ j.plan.columns.map Column.source then some .null else none

/-- Whether a joined table may have a partner: a record of the set or, in a left join, none. -/
def Takes (j : JoinSpec) (K : Store) : Option Record → Prop
  | some r => ∃ set, j.plan.set = some set ∧ r ∈ K.recordsOf j.plan.ns set
  | none => j.kind = .left

/-- No column that is carried of a joined table and no bin of the set has a point in its name. -/
structure IsSimple (j : JoinSpec) (K : Store) : Prop where
  /-- The columns that are carried. -/
  columns : ∀ c ∈ j.plan.columns, ∃ name, isSimpleName name = true ∧ c.source = j.label name
  /-- The bins. -/
  bins : ∀ set, j.plan.set = some set → ∀ r ∈ K.recordsOf j.plan.ns set, ∀ name ∈ r.bins.keys,
    isSimpleName name = true

end JoinSpec

/-- A row has become another one with the values of one more table. -/
structure Row.Widens (row out : Row) (j : JoinSpec) (partner : Option Record) : Prop where
  /-- The labels of the row come first. -/
  keys : row.keys <+: out.keys
  /-- The other labels are those of the table. -/
  only : ∀ label ∈ out.keys, label ∉ row.keys →
    ∃ name, isSimpleName name = true ∧ label = j.label name
  /-- Under the other labels there is what was there before. -/
  other : ∀ label, (∀ name, isSimpleName name = true → label ≠ j.label name) →
    out.get? label = row.get? label
  /-- Under a label of the table there is the value of the partner, if there was none before. -/
  own : ∀ name, row.get? (j.label name) = none →
    out.get? (j.label name) = j.value? partner name

namespace JoinSpec

variable {j : JoinSpec} {K : Store} {row : Row}

/-- **A row with a partner** has the values of the partner besides its own.

**Proof sketch.** Joining writes the row of the partner under the labels of the table. The labels
that are new are those of its columns, all of which have simple names; what stands under another
label stays, and under the label of a column there is what the partner has. -/
lemma widens_joined {r : Record} (hbins : ∀ name ∈ r.bins.keys, isSimpleName name = true) :
    row.Widens (j.joined row r) j (some r) := by
  rw [← j.extend_ofRecord row r]
  change row.Widens (row.writeAll j.label (Row.ofRecord r j.plan.needsDigest)) j (some r)
  have hsimple : ∀ name ∈ (Row.ofRecord r j.plan.needsDigest).keys, isSimpleName name = true := by
    intro name hname
    rcases Row.mem_keys_ofRecord hname with rfl | rfl | hbin
    · rfl
    · rfl
    · exact hbins name hbin
  have hkeys := OrderedMap.keys_writeAll j.label_injective row (Row.ofRecord r j.plan.needsDigest)
  refine ⟨hkeys ▸ List.prefix_append _ _, fun label hlabel hnot => ?_, fun label hne => ?_,
    fun name hnone => ?_⟩
  · rw [hkeys, List.mem_append] at hlabel
    obtain ⟨hmem, -⟩ := List.mem_filter.mp (hlabel.resolve_left hnot)
    obtain ⟨name, hname, rfl⟩ := List.mem_map.mp hmem
    exact ⟨name, hsimple name hname, rfl⟩
  · exact OrderedMap.get?_writeAll_of_ne _ _ fun name hname h =>
      hne name (hsimple name hname) h.symm
  · rw [OrderedMap.get?_writeAll j.label_injective, hnone, Option.or_none]
    rfl

/-- **A row without a partner** has null under the columns of the table besides its own.

**Proof sketch.** The padding has null under the labels of the joined table and leaves all others. A
label that is new is one of these, and each of them is inside the table by assumption. -/
lemma widens_pad
    (hcolumns : ∀ c ∈ j.plan.columns, ∃ name, isSimpleName name = true ∧ c.source = j.label name) :
    row.Widens (j.pad row) j none := by
  have hpad := j.isPadded_pad row
  have hsource : ∀ label ∈ j.plan.columns.map Column.source,
      ∃ name, isSimpleName name = true ∧ label = j.label name := by
    intro label hlabel
    obtain ⟨c, hc, rfl⟩ := List.mem_map.mp hlabel
    exact hcolumns c hc
  refine ⟨hpad.isPrefix.map _, fun label hlabel hnot => ?_, fun label hne => ?_,
    fun name hnone => ?_⟩
  · by_contra hother
    refine OrderedMap.get?_eq_none_iff.mp ?_ hlabel
    rw [hpad.get?, OrderedMap.get?_eq_none_iff.mpr hnot,
      if_neg fun hmem => hother (hsource label hmem)]
    rfl
  · rw [hpad.get?, if_neg, Option.or_none]
    intro hmem
    obtain ⟨name, hname, hlabel⟩ := hsource label hmem
    exact hne name hname hlabel
  · rw [hpad.get?, hnone, Option.none_or]
    rfl

/-- A row with a partner or without one. -/
lemma widens_extended (h : j.IsSimple K) {partner : Option Record} (htakes : j.Takes K partner) :
    row.Widens (j.extended row partner) j partner := by
  cases partner with
  | none => exact widens_pad h.columns
  | some r =>
    obtain ⟨set, hset, hr⟩ := htakes
    exact widens_joined (h.bins set hset r hr)

end JoinSpec

namespace Row

/-- The value under the first label that ends with a point and a name. -/
def behind? (row : Row) (name : String) : Option Value :=
  (row.entries.find? (fun e => Text.endsWith ("." ++ name) e.1)).map Prod.snd

/-- The first label that ends with a point and a name tells the value. -/
lemma behind?_eq (row : Row) (name : String) :
    row.behind? name = (row.keys.find? (Text.endsWith ("." ++ name))).bind row.get? := by
  rw [behind?, OrderedMap.keys, List.find?_map]
  change _ = ((row.entries.find? fun e => Text.endsWith ("." ++ name) e.1).map Prod.fst).bind _
  cases hfind : row.entries.find? (fun e => Text.endsWith ("." ++ name) e.1) with
  | none => rfl
  | some e => exact (OrderedMap.get?_eq_some_iff.mpr (List.mem_of_find?_eq_some hfind)).symm

variable {row out : Row} {j : JoinSpec} {partner : Option Record}

/-- **One more table answers behind those that are there.**

**Proof sketch.** The new labels stand behind the old ones, and one of them ends with the name only
if it is the label of the table for that name. -/
lemma Widens.behind? (h : row.Widens out j partner) {name : String}
    (hname : isSimpleName name = true) (hfree : row.get? (j.label name) = none) :
    out.behind? name = (row.behind? name).or (j.value? partner name) := by
  obtain ⟨added, hkeys⟩ := h.keys
  have hfree' := OrderedMap.get?_eq_none_iff.mp hfree
  rw [behind?_eq, behind?_eq, ← hkeys, List.find?_append, ← h.own name hfree]
  cases hold : row.keys.find? (Text.endsWith ("." ++ name)) with
  | some label =>
    have hmem := List.mem_of_find?_eq_some hold
    have hsame : out.get? label = row.get? label := by
      refine h.other label fun other hother hlabel => hfree' ?_
      have hends := List.find?_some hold
      rw [hlabel, JoinSpec.endsWith_label hname hother, decide_eq_true_eq] at hends
      rw [← hends, ← hlabel]
      exact hmem
    obtain ⟨v, hv⟩ := Option.ne_none_iff_exists'.mp fun hnone =>
      OrderedMap.get?_eq_none_iff.mp hnone hmem
    simp only [Option.some_or, Option.bind_some, hsame, hv]
  | none =>
    rw [Option.none_or, Option.bind_none, Option.none_or]
    cases hnew : added.find? (Text.endsWith ("." ++ name)) with
    | some label =>
      have hmem := List.mem_of_find?_eq_some hnew
      have hnot : label ∉ row.keys := by
        have hnodup : (row.keys ++ added).Nodup := hkeys ▸ out.nodup
        exact fun hrow => (List.disjoint_of_nodup_append hnodup) hrow hmem
      obtain ⟨other, hother, rfl⟩ :=
        h.only label (hkeys ▸ List.mem_append_right _ hmem) hnot
      have hends := List.find?_some hnew
      rw [JoinSpec.endsWith_label hname hother, decide_eq_true_eq] at hends
      rw [hends]
      rfl
    | none =>
      refine (OrderedMap.get?_eq_none_iff.mpr fun hmem => ?_).symm
      rw [← hkeys, List.mem_append] at hmem
      have hends := List.find?_eq_none.mp hnew _ (hmem.resolve_left hfree')
      rw [JoinSpec.endsWith_label hname hname] at hends
      exact hends (by simp)

end Row

/-! ## Joined rows -/

/-- What a joined row is made of: a row of the tables before the join and, for every joined table,
the partner that was taken, if there was one. -/
structure JoinedTuple where
  /-- The row of the tables before. -/
  base : Row
  /-- The joined tables and their partners, in order. -/
  partners : List (JoinSpec × Option Record)

namespace JoinedTuple

/-- The joined row. -/
def row (t : JoinedTuple) : Row :=
  t.partners.foldl (fun row p => p.1.extended row p.2) t.base

/-- The joined table of a name and its partner. -/
def partnerOf? (t : JoinedTuple) (table : String) : Option (JoinSpec × Option Record) :=
  t.partners.find? (fun p => p.1.qualifier == table)

/-- The value that the own table of a reference has: the value of the partner, null if there is
none or it has no such bin; for other tables the value of the row before the join. -/
def own (t : JoinedTuple) (c : ColumnRef) : Value :=
  match c.table.bind t.partnerOf? with
  | some (j, some r) => ((Row.ofRecord r j.plan.needsDigest).get? c.name).getD .null
  | some (_, none) => .null
  | none => (t.base.get? c.name).getD .null

/-- The value that a reference has on the joined row: the one of its own table or, if that has
none, the one that the row before the join has; without a table, after that of the row before the
join, the one of the first joined table that has any. -/
def found (t : JoinedTuple) (c : ColumnRef) : Value :=
  match c.table with
  | some table =>
    (((t.partnerOf? table).bind (fun p => p.1.value? p.2 c.name)).or
      (t.base.get? c.name)).getD .null
  | none =>
    ((t.base.get? c.name).or
      (t.partners.findSome? (fun p => p.1.value? p.2 c.name))).getD .null

/-- Another table answers for the own one: the row before the join for a joined table that has no
value, or a joined table for the row before the join. -/
def Misleads (t : JoinedTuple) (c : ColumnRef) : Prop :=
  match c.table with
  | some table => ∃ p, t.partnerOf? table = some p ∧ p.1.value? p.2 c.name = none ∧
      ∃ v, t.base.get? c.name = some v ∧ v ≠ .null
  | none => t.base.get? c.name = none ∧
      ∃ v, t.partners.findSome? (fun p => p.1.value? p.2 c.name) = some v ∧ v ≠ .null

/-- The value that a joined table has is the one of its partner; without a partner it is null. -/
lemma own_eq (t : JoinedTuple) (c : ColumnRef) :
    t.own c = ((match c.table.bind t.partnerOf? with
      | some p => p.1.value? p.2 c.name
      | none => t.base.get? c.name)).getD .null := by
  unfold own
  cases c.table.bind t.partnerOf? with
  | none => rfl
  | some p =>
    obtain ⟨j, partner⟩ := p
    cases partner with
    | some r => rfl
    | none =>
      simp only [JoinSpec.value?]
      split <;> rfl

/-- **A reference has the value of its own table if and only if no other table answers for it.** -/
theorem found_eq_own_iff (t : JoinedTuple) (c : ColumnRef) :
    t.found c = t.own c ↔ ¬t.Misleads c := by
  rw [own_eq]
  unfold found Misleads
  cases hc : c.table with
  | none =>
    simp only [Option.bind_none]
    cases hbase : t.base.get? c.name with
    | some v => simp
    | none => cases t.partners.findSome? (fun p => p.1.value? p.2 c.name) <;> simp
  | some table =>
    simp only [Option.bind_some]
    cases hpartner : t.partnerOf? table with
    | none => simp
    | some p =>
      simp only [Option.bind_some]
      cases hvalue : p.1.value? p.2 c.name with
      | some v => simp [hvalue]
      | none => cases hbase : t.base.get? c.name <;> simp [hvalue]

/-! ## What references find -/

/-- **What is found on a row to which tables are joined**, for a name that the row before has behind
no table: behind the name of a table the value of the table, under the labels of no table what was
there before, and behind any name what the first table has.

**Proof sketch.** Induction on the tables. Each adds labels of its own only, so it neither hides
those that are there nor those that follow. -/
lemma get?_foldl {name : String} (hname : isSimpleName name = true)
    {partners : List (JoinSpec × Option Record)} {base : Row}
    (hnodup : (partners.map fun p => p.1.qualifier).Nodup)
    (hwidens : ∀ p ∈ partners, ∀ row : Row, row.Widens (p.1.extended row p.2) p.1 p.2)
    (hfree : ∀ p ∈ partners, base.get? (p.1.label name) = none) :
    let row := partners.foldl (fun row p => p.1.extended row p.2) base
    (∀ p ∈ partners, row.get? (p.1.label name) = p.1.value? p.2 name) ∧
      (∀ label, (∀ p ∈ partners, ∀ n, isSimpleName n = true → label ≠ p.1.label n) →
        row.get? label = base.get? label) ∧
      row.behind? name =
        (base.behind? name).or (partners.findSome? fun p => p.1.value? p.2 name) := by
  induction partners generalizing base with
  | nil => exact ⟨by simp, fun label _ => rfl, by simp⟩
  | cons p partners ih =>
    rw [List.map_cons, List.nodup_cons] at hnodup
    obtain ⟨hnot, hnodup⟩ := hnodup
    have hw := hwidens p List.mem_cons_self base
    have hbase := hfree p List.mem_cons_self
    have hapart : ∀ q ∈ partners, ∀ n m, isSimpleName n = true → isSimpleName m = true →
        q.1.label n ≠ p.1.label m := fun q hq n m hn hm h =>
      hnot (List.mem_map.mpr ⟨q, hq, (JoinSpec.eq_of_label_eq h hn hm).1⟩)
    obtain ⟨hown, hother, hbehind⟩ := ih hnodup
      (fun q hq => hwidens q (List.mem_cons_of_mem p hq)) fun q hq => by
        rw [hw.other _ fun n hn => hapart q hq name n hname hn]
        exact hfree q (List.mem_cons_of_mem p hq)
    refine ⟨fun q hq => ?_, fun label hlabel => ?_, ?_⟩
    · rcases List.mem_cons.mp hq with rfl | hq
      · rw [List.foldl_cons, hother _ fun p hp n hn => (hapart p hp n name hn hname).symm]
        exact hw.own name hbase
      · exact hown q hq
    · rw [List.foldl_cons, hother label fun q hq => hlabel q (List.mem_cons_of_mem p hq)]
      exact hw.other label (hlabel p List.mem_cons_self)
    · rw [List.foldl_cons, hbehind, hw.behind? hname hbase, List.findSome?_cons, Option.or_assoc]
      cases p.1.value? p.2 name <;> rfl

/-- The row before the join has no label that a reference could take for one of a joined table. -/
def IsPlain (t : JoinedTuple) (name : String) : Prop :=
  isSimpleName name = true ∧ ∀ label ∈ t.base.keys, Text.endsWith ("." ++ name) label = false

section

variable {t : JoinedTuple} {K : Store}
  (hnodup : (t.partners.map fun p => p.1.qualifier).Nodup)
  (hwidens : ∀ p ∈ t.partners, ∀ row : Row, row.Widens (p.1.extended row p.2) p.1 p.2)

/-- What stands behind a point and a name is not in the row before the join. -/
lemma IsPlain.get?_eq_none {name : String} (h : t.IsPlain name) (table : String) :
    t.base.get? (table ++ "." ++ name) = none := by
  refine OrderedMap.get?_eq_none_iff.mpr fun hmem => ?_
  have hends : Text.endsWith ("." ++ name) (table ++ "." ++ name) = true :=
    List.isSuffixOf_iff_suffix.mpr ⟨table.toList, by simp⟩
  rw [h.2 _ hmem] at hends
  cases hends

/-- A joined table that has a name is known by it. -/
lemma qualifier_of_partnerOf? {table : String} {p : JoinSpec × Option Record}
    (h : t.partnerOf? table = some p) : p ∈ t.partners ∧ p.1.qualifier = table :=
  ⟨List.mem_of_find?_eq_some h, by simpa using List.find?_some h⟩

include hnodup in
/-- The joined table of a name is the one with this name. -/
lemma partnerOf?_of_mem {p : JoinSpec × Option Record} (hp : p ∈ t.partners) :
    t.partnerOf? p.1.qualifier = some p := by
  cases hfind : t.partnerOf? p.1.qualifier with
  | none => exact absurd (by simp) (List.find?_eq_none.mp hfind p hp)
  | some q =>
    obtain ⟨hq, hsame⟩ := qualifier_of_partnerOf? hfind
    exact congrArg some (List.inj_on_of_nodup_map hnodup hq hp hsame)

include hnodup hwidens

/-- **What a reference finds on a joined row** is the value of its own table or the one of another
table that answers for it.

**Proof sketch.** The bare name is the one of the base, since all labels of the joins are inside a
table. Without a table nothing is found behind the bare name in the base, so the joined rows are
searched for it. With a table that is joined its own value stands under the qualified name; another
table has no such label, neither in the base nor in a join, since a label determines its table. -/
theorem lookup?_row {c : ColumnRef} (h : t.IsPlain c.name) :
    (t.row.lookup? c).getD .null = t.found c := by
  obtain ⟨hown, hother, hbehind⟩ :=
    get?_foldl h.1 hnodup hwidens fun p _ => h.get?_eq_none p.1.qualifier
  have hbare : t.row.get? c.name = t.base.get? c.name :=
    hother c.name fun p _ n _ => JoinSpec.label_ne_of_isSimpleName h.1 n
  unfold Row.lookup? found
  cases c.table with
  | none =>
    have hnone : t.base.behind? c.name = none := by
      rw [Row.behind?_eq, List.find?_eq_none.mpr fun label hlabel => by simp [h.2 label hlabel]]
      rfl
    rw [hnone, Option.none_or] at hbehind
    simp only [hbare]
    exact congrArg (fun v => ((t.base.get? c.name).or v).getD .null) hbehind
  | some table =>
    simp only [hbare]
    cases hpartner : t.partnerOf? table with
    | some p =>
      obtain ⟨hp, rfl⟩ := qualifier_of_partnerOf? hpartner
      rw [show t.row.get? (p.1.qualifier ++ "." ++ c.name) = p.1.value? p.2 c.name from hown p hp]
      rfl
    | none =>
      have hnone : t.row.get? (table ++ "." ++ c.name) = none := by
        refine (hother _ fun p hp n hn hlabel => ?_).trans (h.get?_eq_none table)
        have hsame := JoinSpec.eq_of_label_eq (j := { p.1 with qualifier := table }) hlabel h.1 hn
        exact List.find?_eq_none.mp hpartner p hp (by simpa using hsame.1.symm)
      rw [hnone]
      rfl

/-- **The column of a joined table** is the value of that table. -/
theorem get?_row {p : JoinSpec × Option Record} (hp : p ∈ t.partners) {name : String}
    (h : t.IsPlain name) :
    (t.row.get? (p.1.label name)).getD .null = t.own ⟨some p.1.qualifier, name⟩ := by
  obtain ⟨hown, -⟩ := get?_foldl h.1 hnodup hwidens fun p _ => h.get?_eq_none p.1.qualifier
  rw [own_eq, Option.bind_some, partnerOf?_of_mem hnodup hp]
  exact congrArg (Option.getD · .null) (hown p hp)

end

end JoinedTuple

/-! ## Rows of joins -/

/-- The rows that come of each row come of some row. -/
lemma Listing.exists_of_mem_expand {g : Row → Except QueryError (List Row)} {l : Listing}
    {rows : List Row} (h : l.expand g = .ofRows rows) :
    l = .ofRows l.rows ∧ ∀ out ∈ rows, ∃ row ∈ l.rows, ∃ block, g row = .ok block ∧
      out ∈ block := by
  obtain ⟨blocks, hsame, hblocks, rfl⟩ := exists_of_expand h
  refine ⟨hsame, fun out hout => ?_⟩
  obtain ⟨block, hblock, hmem⟩ := List.mem_flatten.mp hout
  obtain ⟨row, hrow, hg⟩ := Outcome.exists_of_mem_mapM hblocks hblock
  exact ⟨row, hrow, block, hg, hmem⟩

/-- What a row becomes in a join is the row with a record of the joined set or, in a left join, with
nulls. -/
lemma JoinSpec.exists_extended {j : JoinSpec} {K : Store} {row out : Row} {block : List Row}
    (h : j.rowsFor K row = .ok block) (hout : out ∈ block) :
    ∃ partner, j.Takes K partner ∧ out = j.extended row partner := by
  simp only [rowsFor, Outcome.bind_eq_ok, Outcome.pure_eq_ok] at h
  obtain ⟨rows, hrows, rfl⟩ := h
  obtain ⟨rs, rfl, hrs⟩ := exists_records_of_found hrows
  unfold combine at hout
  split at hout
  · cases hout
  · rename_i hkind
    exact ⟨none, hkind, List.mem_singleton.mp hout⟩
  · rw [List.map_map, List.mem_map] at hout
    obtain ⟨r, hr, rfl⟩ := hout
    exact ⟨some r, hrs r hr, j.extend_ofRecord row r⟩

namespace JoinedTuple

/-- A joined row is made of the given joined tables and of records of their sets. -/
structure IsOf (t : JoinedTuple) (js : List JoinSpec) (K : Store) : Prop where
  /-- The joined tables. -/
  joins : t.partners.map Prod.fst = js
  /-- The partners. -/
  takes : ∀ p ∈ t.partners, p.1.Takes K p.2

end JoinedTuple

namespace Pipeline

/-- **The rows of joins are joined rows** of the rows before the joins.

**Proof sketch.** By induction on the joins. A row of the later joins comes from a row of the first
one, which extends a base with a partner or with nulls; this partner is put before those of the
later joins. -/
lemma exists_tuple {env : ExecutionEnv} {K : Store} {js : List JoinSpec} {input : Pipeline}
    {rows : List Row} (h : (js.foldl join input).listing env K = .ok (.ofRows rows)) :
    ∃ bases, input.listing env K = .ok (.ofRows bases) ∧ ∀ row ∈ rows,
      ∃ t : JoinedTuple, t.base ∈ bases ∧ t.IsOf js K ∧ t.row = row := by
  induction js generalizing input with
  | nil => exact ⟨rows, h, fun row hrow => ⟨⟨row, []⟩, hrow, ⟨rfl, by simp⟩, rfl⟩⟩
  | cons j js ih =>
    obtain ⟨mids, hmids, hrows⟩ := ih h
    obtain ⟨l, hl, hexpand⟩ : ∃ l, input.listing env K = .ok l ∧
        l.expand (j.rowsFor K) = .ofRows mids := Outcome.map_eq_ok.mp hmids
    obtain ⟨hsame, hblocks⟩ := Listing.exists_of_mem_expand hexpand
    refine ⟨l.rows, hsame ▸ hl, fun row hrow => ?_⟩
    obtain ⟨t, hmid, hof, rfl⟩ := hrows row hrow
    obtain ⟨base, hbase, block, hblock, hout⟩ := hblocks t.base hmid
    obtain ⟨partner, htakes, hextended⟩ := JoinSpec.exists_extended hblock hout
    refine ⟨⟨base, (j, partner) :: t.partners⟩, hbase, ⟨?_, ?_⟩, ?_⟩
    · rw [List.map_cons, hof.joins]
    · intro p hp
      rcases List.mem_cons.mp hp with rfl | hp
      · exact htakes
      · exact hof.takes p hp
    · rw [JoinedTuple.row, List.foldl_cons, ← hextended]
      rfl

/-- **References on the rows of joins.** Let the joined tables have different names, and no points
in the names of their bins and columns. Then every row that joins return, on which computed columns
and the expressions of an order are evaluated, is made of a row before the joins and, for every
joined table, of a record of its set or (in a left join) of nulls. An expression has the value there
that it has if every column refers to what is found for it: the value of its own table or, if
another table answers for that, the value of the other one. It is the value of the own table if and
only if no other table answers; the column itself, as it is selected, always is.

**Proof sketch.** By induction on the joins every row is a joined row (`Pipeline.exists_tuple`), on
which references are described by `JoinedTuple.lookup?_row`. -/
theorem joined_references {js : List JoinSpec} {input : Pipeline} {env : ExecutionEnv}
    {st last : Store} {rows : List Row}
    (hrows : ((js.foldl join input).cursor env).drain st = (.ok rows, last))
    (hnodup : (js.map JoinSpec.qualifier).Nodup) (hsimple : ∀ j ∈ js, j.IsSimple st) :
    ∃ bases mid, (input.cursor env).drain st = (.ok bases, mid) ∧ ∀ row ∈ rows,
      ∃ t : JoinedTuple, t.base ∈ bases ∧ t.IsOf js st ∧ t.row = row ∧
        (∀ (e : Expr) (params : List Value), (∀ c ∈ e.columns, t.IsPlain c.name) →
          e.eval params row = e.evalIn ⟨params, t.found, row.get?⟩) ∧
        (∀ c : ColumnRef, t.found c = t.own c ↔ ¬t.Misleads c) ∧
        ∀ p ∈ t.partners, ∀ name, t.IsPlain name →
          (row.get? (p.1.label name)).getD .null = t.own ⟨some p.1.qualifier, name⟩ := by
  obtain ⟨bases, hbases, htuples⟩ := exists_tuple (listing_of_drain hrows)
  obtain ⟨mid, hdrain, -⟩ := input.reads_drain env st st (.refl st)
  rw [hbases] at hdrain
  refine ⟨bases, mid, hdrain, fun row hrow => ?_⟩
  obtain ⟨t, hbase, hof, rfl⟩ := htuples row hrow
  have hnames : (t.partners.map fun p => p.1.qualifier).Nodup := by
    rw [← hof.joins, List.map_map] at hnodup
    exact hnodup
  have hwidens : ∀ p ∈ t.partners, ∀ row : Row, row.Widens (p.1.extended row p.2) p.1 p.2 := by
    intro p hp row
    have hjoin : p.1 ∈ js := hof.joins ▸ List.mem_map_of_mem hp
    exact JoinSpec.widens_extended (hsimple p.1 hjoin) (hof.takes p hp)
  refine ⟨t, hbase, hof, rfl, fun e params hplain => ?_, t.found_eq_own_iff, fun p hp name h =>
    JoinedTuple.get?_row hnames hwidens hp h⟩
  refine Expr.evalIn_congr e fun s hs => ?_
  cases s with
  | column c =>
    exact JoinedTuple.lookup?_row hnames hwidens (hplain c (Expr.mem_columns.mpr hs))
  | param index => rfl
  | call name args distinct => exact fun _ => rfl
  | _ => trivial

/-- An order has no note, so the note of the order is the one of the person; as a column it is null.

**Proof sketch.** `joined_references` gives a tuple for the one row. Its base is the person, and its
partner the only order, because the join is an inner one. The name is a simple one that no label of
the person ends in, so the reference has the value that the tuple finds for it. -/
theorem joined_references_note :
    let j : JoinSpec :=
      { kind := .inner
        qualifier := "o"
        plan := TablePlan.ofSet "ns" (some "orders") (some "o")
        outerKey := "PK"
        innerColumn := "person" }
    let person : Row := ⟨[("PK", .integer 1), ("note", .text "urgent")], by decide⟩
    let orders : RecordSet := ⟨[(.integer 10, ⟨[("person", .integer 1)], by decide⟩)], by decide⟩
    let st : Store := ⟨⟨[(("ns", "orders"), orders)], by decide⟩, [], .zero⟩
    let note : ColumnRef := ⟨some "o", "note"⟩
    ∃ row last, ((([j].foldl join (.rows [person] none)).cursor ⟨[], 0, none⟩).drain st) =
        (.ok [row], last) ∧
      ∃ t : JoinedTuple, t.row = row ∧ t.own note = .null ∧ t.Misleads note ∧
        (row.get? "o.note").getD .null = .null ∧
        (Expr.column note).eval [] row = .ok (.text "urgent") := by
  intro j person orders st note
  obtain ⟨row, last, hrows⟩ : ∃ row last,
      ((([j].foldl join (.rows [person] none)).cursor ⟨[], 0, none⟩).drain st) =
        (.ok [row], last) := ⟨_, _, rfl⟩
  have hsimple : j.IsSimple st :=
    ⟨by simp [j, TablePlan.ofSet], fun set hset => by obtain rfl := Option.some.inj hset; decide⟩
  obtain ⟨bases, mid, hbases, htuples⟩ :=
    joined_references hrows (by decide) (List.forall_mem_singleton.mpr hsimple)
  obtain ⟨⟨base, partners⟩, hbase, hof, hrow, heval, -, hcolumn⟩ := htuples row (by simp)
  have hperson : (Except.ok bases : Except QueryError (List Row)) = .ok [person] :=
    congrArg Prod.fst hbases.symm
  obtain rfl := Except.ok.inj hperson
  obtain rfl : base = person := by simpa using hbase
  obtain ⟨r, hr, rfl⟩ : ∃ r, r ∈ st.recordsOf "ns" "orders" ∧ partners = [(j, some r)] := by
    match partners, hof with
    | [(k, partner)], hof =>
      obtain rfl : k = j := by simpa using hof.joins
      cases partner with
      | none => cases hof.takes _ List.mem_cons_self
      | some r =>
        obtain ⟨set, hset, hr⟩ := hof.takes _ List.mem_cons_self
        obtain rfl := Option.some.inj hset
        exact ⟨r, hr, rfl⟩
    | [], hof => simpa using congrArg List.length hof.joins
    | _ :: _ :: _, hof => simpa using congrArg List.length hof.joins
  obtain rfl := List.mem_singleton.mp hr
  have hplain : isSimpleName "note" = true ∧
      ∀ label ∈ person.keys, Text.endsWith ("." ++ "note") label = false := by decide
  refine ⟨row, last, hrows, _, hrow, rfl, ⟨_, rfl, rfl, .text "urgent", rfl, nofun⟩,
    hcolumn _ List.mem_cons_self "note" hplain, ?_⟩
  rw [heval (.column note) [] fun c hc => ?_]
  · rfl
  · have hc : c ∈ [note] := hc
    rw [List.mem_singleton.mp hc]
    exact hplain

end Pipeline

end RecordQuery
