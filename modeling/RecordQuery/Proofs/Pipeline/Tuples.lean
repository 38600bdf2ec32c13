import RecordQuery.Proofs.Compile.Routing
import RecordQuery.Proofs.Pipeline.Matchings

set_option autoImplicit false

/-!
# Joined records

A joined row is made of records: one of the main table and, for every joined table, one or none. A
column reads the record of its own table. On the row it is found in its place, behind the name of
the table, whether the row stands for all tables or only for the first ones.

## Main definitions

* `JoinedRecords` — a record of the main table with its partners.
* `JoinedRecords.env` — what expressions refer to on joined records.

## Main results

* `JoinedRecords.getD_row` — a column is found in its place.
* `JoinedRecords.readsAt_main`, `JoinedRecords.readsAt_joined` — the references of a conjunct are
  read as the compiler takes them.
* `JoinedRecords.evalIn_append` — more partners do not change a value.
-/

namespace RecordQuery

/-- A record of the main table with its partners in the joined tables, as far as there are any. The
partners may be those of the first joined tables only. -/
structure JoinedRecords where
  /-- The record of the main table. -/
  main : Record
  /-- The partners, in order. -/
  partners : List (Option Record)

/-! ## Rows of tuples -/

/-- All labels of a record with simple names are simple. -/
lemma Record.isSimpleName_of_mem_keys {r : Record} (h : r.hasSimpleNames = true)
    {withDigest : Bool} {name : String} (hname : name ∈ (Row.ofRecord r withDigest).keys) :
    isSimpleName name = true := by
  rcases Row.mem_keys_ofRecord hname with rfl | rfl | hbin
  · rfl
  · rfl
  · have hbins := List.all_eq_true.mp h name hbin
    simp only [Bool.and_eq_true] at hbins
    exact hbins.2

namespace JoinSpec

variable {j : JoinSpec} {row : Row} {partner : Option Record} {name label : String}

/-- The row of a partner. -/
def partnerRow? (j : JoinSpec) (partner : Option Record) : Option Row :=
  partner.map fun r => Row.ofRecord r j.plan.needsDigest

/-- Under a label of another table a row stays as it was. A column that is padded was null before,
as it was absent. -/
lemma getD_extended_of_ne
    (h : ∀ out, j.partnerRow? partner = some out → ∀ name ∈ out.keys, j.label name ≠ label) :
    ((j.extended row partner).get? label).getD .null = (row.get? label).getD .null := by
  cases partner with
  | none =>
    rw [extended, (j.isPadded_pad row).get?]
    cases row.get? label with
    | some v => rfl
    | none => split <;> rfl
  | some r =>
    rw [extended, ← j.extend_ofRecord row r]
    refine congrArg (Option.getD · Value.null) ?_
    exact OrderedMap.get?_writeAll_of_ne row _ (h _ rfl)

/-- Under a label of the table there is the value of the partner. -/
lemma getD_extended_label (hfree : (row.get? (j.label name)).getD .null = .null) :
    ((j.extended row partner).get? (j.label name)).getD .null =
      ((j.partnerRow? partner).bind (·.get? name)).getD .null := by
  cases partner with
  | none => exact (getD_extended_of_ne fun out h => by cases h).trans hfree
  | some r =>
    rw [extended, ← j.extend_ofRecord row r]
    have hwritten := OrderedMap.get?_writeAll j.label_injective row
      (Row.ofRecord r j.plan.needsDigest) name
    have hsame : (j.extend row (Row.ofRecord r j.plan.needsDigest)).get? (j.label name) =
        ((Row.ofRecord r j.plan.needsDigest).get? name).or (row.get? (j.label name)) := hwritten
    rw [hsame]
    change _ = ((Row.ofRecord r j.plan.needsDigest).get? name).getD .null
    cases (Row.ofRecord r j.plan.needsDigest).get? name with
    | some v => rfl
    | none => exact hfree

end JoinSpec

namespace JoinedTuple

variable {base : Row} {L : List (JoinSpec × Option Record)} {name label : String}

/-- Under a label of no joined table a joined row is as the row before the joins. -/
lemma getD_row_of_ne (h : ∀ p ∈ L, ∀ out, p.1.partnerRow? p.2 = some out →
      ∀ name ∈ out.keys, p.1.label name ≠ label) :
    ((mk base L).row.get? label).getD .null = (base.get? label).getD .null := by
  induction L generalizing base with
  | nil => rfl
  | cons p L ih =>
    exact (ih fun q hq => h q (List.mem_cons_of_mem p hq)).trans
      (JoinSpec.getD_extended_of_ne (h p List.mem_cons_self))

/-- **Behind the name of a joined table there is the value of its partner.**

**Proof sketch.** By induction on the tables. Those before and those behind write under other
labels. -/
lemma getD_row_label (hnodup : (L.map fun p => p.1.qualifier).Nodup)
    (hnames : ∀ p ∈ L, ∀ r, p.2 = some r → r.hasSimpleNames = true)
    (hname : isSimpleName name = true) {p : JoinSpec × Option Record} (hp : p ∈ L)
    (hfree : (base.get? (p.1.label name)).getD .null = .null) :
    ((mk base L).row.get? (p.1.label name)).getD .null =
      ((p.1.partnerRow? p.2).bind (·.get? name)).getD .null := by
  have hother : ∀ q ∈ L, q.1.qualifier ≠ p.1.qualifier → ∀ out, q.1.partnerRow? q.2 = some out →
      ∀ other ∈ out.keys, q.1.label other ≠ p.1.label name := by
    intro q hq hne out hout other hmem hlabel
    obtain ⟨r, hr, rfl⟩ := Option.map_eq_some_iff.mp hout
    have hsimple := Record.isSimpleName_of_mem_keys (hnames q hq r hr) hmem
    exact hne (JoinSpec.eq_of_label_eq hlabel hsimple hname).1
  induction L generalizing base with
  | nil => cases hp
  | cons q L ih =>
    rw [List.map_cons, List.nodup_cons] at hnodup
    have hnames' : ∀ p ∈ L, ∀ r, p.2 = some r → r.hasSimpleNames = true :=
      fun p hp => hnames p (List.mem_cons_of_mem q hp)
    have hother' := fun p hp => hother p (List.mem_cons_of_mem q hp)
    rcases List.mem_cons.mp hp with rfl | hp
    · have hrest : ((mk (p.1.extended base p.2) L).row.get? (p.1.label name)).getD .null =
          ((p.1.extended base p.2).get? (p.1.label name)).getD .null :=
        getD_row_of_ne fun q hq => hother' q hq fun heq =>
          hnodup.1 (heq ▸ List.mem_map_of_mem (f := fun p => p.1.qualifier) hq)
      exact hrest.trans (JoinSpec.getD_extended_label hfree)
    · have hne : q.1.qualifier ≠ p.1.qualifier := fun heq =>
        hnodup.1 (heq ▸ List.mem_map_of_mem (f := fun p => p.1.qualifier) hp)
      exact ih hnodup.2 hnames' hp
        ((JoinSpec.getD_extended_of_ne (hother q List.mem_cons_self hne)).trans hfree) hother'

end JoinedTuple

/-! ## Columns of tuples -/

namespace JoinedRecords

variable {t : JoinedRecords} {q : QueryPlan} {params : List Value} {base : Row} {c : ColumnRef}
  {i : Nat}

/-- The row of the record of a table. -/
def row? (t : JoinedRecords) (q : QueryPlan) : Nat → Option Row
  | 0 => some (Row.ofRecord t.main q.needsDigest)
  | i + 1 => q.joins[i]?.bind fun j => t.partners[i]?.bind j.partnerRow?

/-- What expressions refer to on joined records: a column to what the record of its own table has
under its name. It is null if that is absent, as everything is where there is no record. -/
def env (t : JoinedRecords) (q : QueryPlan) (params : List Value) : EvalEnv :=
  ⟨params, fun c => ((q.scope.resolve c).toOption.bind fun i =>
    (t.row? q i).bind (·.get? c.name)).getD .null, fun _ => none⟩

/-- The value of a column whose table is known. -/
lemma column_env (hc : q.scope.resolve c = .ok i) :
    (t.env q params).column c = ((t.row? q i).bind (·.get? c.name)).getD .null := by
  simp only [env, hc]
  rfl

/-- More partners do not change the values of the columns of the first tables. -/
lemma column_append {main : Record} {ps qs : List (Option Record)} (hi : i ≤ ps.length)
    (hc : q.scope.resolve c = .ok i) :
    ((mk main (ps ++ qs)).env q params).column c = ((mk main ps).env q params).column c := by
  rw [column_env hc, column_env hc]
  cases i with
  | zero => rfl
  | succ i =>
    have hsame : (ps ++ qs)[i]? = ps[i]? := List.getElem?_append_left hi
    simp only [row?, hsame]

/-- **More partners do not change the value of an expression** over the first tables. -/
theorem evalIn_append {main : Record} {ps qs : List (Option Record)} {e : Expr}
    (h : ∀ c ∈ e.columns, ∃ i ≤ ps.length, q.scope.resolve c = .ok i) :
    e.evalIn ((mk main (ps ++ qs)).env q params) = e.evalIn ((mk main ps).env q params) := by
  refine Expr.evalIn_congr e fun s hs => ?_
  unfold EvalEnv.AgreeAt
  split
  · rename_i c
    obtain ⟨i, hi, hc⟩ := h c (Expr.mem_columns.mpr hs)
    exact column_append hi hc
  · rfl
  · exact fun _ => rfl
  · trivial

/-- All records have simple names. -/
structure HasSimpleNames (t : JoinedRecords) : Prop where
  /-- So has the record of the main table. -/
  main : t.main.hasSimpleNames = true
  /-- So have the partners. -/
  partners : ∀ r, some r ∈ t.partners → r.hasSimpleNames = true

/-- The place of a column of a joined table. -/
lemma rowKey_succ (hq : q.TablesApart) {j : JoinSpec} (hj : q.joins[i]? = some j) (name : String) :
    q.scope.rowKey (i + 1) name = j.label name := by
  have hqualifier : q.scope.qualifier (i + 1) = some j.qualifier := by
    have htable : q.scope[i + 1]? = some ⟨j.plan.set, j.plan.rename⟩ := by
      rw [QueryPlan.scope, List.getElem?_cons_succ, List.getElem?_map, hj]
      rfl
    rw [Scope.qualifier, htable]
    exact hq.named j (List.mem_of_getElem? hj)
  simp only [Scope.rowKey, hqualifier]
  rfl

/-- **A column is found in its place** on the row of joined records, if a row before the joins is
there as the record of the main table.

**Proof sketch.** A column of the main table stands under its name, which no join writes. A column
of a joined table stands under its label, behind which there is the value of the partner; the row
before the joins has nothing there, as the record of the main table has no such bin. -/
theorem getD_row (hq : q.TablesApart) (ht : t.HasSimpleNames)
    (hname : isSimpleName c.name = true) (hc : q.scope.resolve c = .ok i)
    (hi : i ≤ t.partners.length)
    (hbase : base.get? (q.scope.rowKey i c.name) =
      (Row.ofRecord t.main q.needsDigest).get? (q.scope.rowKey i c.name)) :
    ((JoinedTuple.mk base (q.joins.zip t.partners)).row.get? (q.scope.rowKey i c.name)).getD .null =
      (t.env q params).column c := by
  rw [column_env hc]
  cases i with
  | zero =>
    refine (JoinedTuple.getD_row_of_ne fun p _ out _ other _ => ?_).trans
      (congrArg (Option.getD · Value.null) hbase)
    exact (JoinSpec.label_ne_of_isSimpleName hname other).symm
  | succ i =>
    have hlt := Scope.lt_length_of_resolve (List.cons_ne_nil _ _) hc
    rw [List.length_cons, List.length_map, Nat.succ_lt_succ_iff] at hlt
    obtain ⟨j, hj⟩ : ∃ j, q.joins[i]? = some j := ⟨_, List.getElem?_eq_getElem hlt⟩
    obtain ⟨p, hp⟩ : ∃ p, t.partners[i]? = some p := ⟨_, List.getElem?_eq_getElem hi⟩
    have hrow : t.row? q (i + 1) = j.partnerRow? p := by simp only [row?, hj, hp, Option.bind_some]
    rw [rowKey_succ hq hj] at hbase ⊢
    rw [hrow]
    have hmem : (j, p) ∈ q.joins.zip t.partners :=
      List.mem_of_getElem? (List.getElem?_zip_eq_some.mpr ⟨hj, hp⟩)
    refine JoinedTuple.getD_row_label (p := (j, p)) ?_ (fun s hs r hr => ?_) hname hmem ?_
    · rw [List.zip_eq_zip_take_min, show (fun s : JoinSpec × Option Record => s.1.qualifier) =
        JoinSpec.qualifier ∘ Prod.fst from rfl, ← List.map_map, List.map_fst_zip (by simp)]
      exact ((List.take_sublist _ _).map JoinSpec.qualifier).nodup hq.nodup
    · exact ht.partners r (hr ▸ (List.of_mem_zip hs).2)
    · rw [hbase, Row.get?_ofRecord_of_point ht.main (by simp [JoinSpec.label])]
      rfl

/-- What the row of a record has under the name of a column of its own. -/
lemma getD_ofRecord {r : Record} (h : r.hasSimpleNames = true) (withDigest : Bool)
    (c : ColumnRef) :
    (c.name = keyColumn →
      ((Row.ofRecord r withDigest).get? c.name).getD .null = r.key.user.toValue) ∧
    (c.name ≠ keyColumn → c.name ≠ digestColumn →
      ((Row.ofRecord r withDigest).get? c.name).getD .null = (r.bin? c.name).getD .null) := by
  rw [← Row.lookup?_ofRecord h c]
  refine ⟨fun hkey => ?_, fun hkey hdigest => ?_⟩
  · rw [Row.lookup?_ofRecord_key h hkey]
    rfl
  · rw [Row.lookup?_ofRecord_bin h hkey hdigest]

/-- **The references of a conjunct on the main table** are read as the compiler takes them. -/
theorem readsAt_main {r : Record} (hr : r.hasSimpleNames = true) {ρ : Resolution}
    (hρ : ρ.Gives params) {e : Expr} (he : ∀ c ∈ e.columns, q.scope.resolve c = .ok 0) :
    ∀ s ∈ e.parts, ((mk r []).env q params).ReadsAt q.scope 0 ρ r s := by
  intro s hs
  unfold EvalEnv.ReadsAt
  split
  · rename_i c
    intro table htable
    have hc := he c (Expr.mem_columns.mpr hs)
    obtain rfl := Except.ok.inj (htable.symm.trans hc)
    rw [if_pos rfl, column_env hc]
    exact getD_ofRecord hr q.needsDigest c
  · exact fun v hv => (hρ _ v hv).symm
  · trivial

/-- **The references of a conjunct on a joined table** are read as the compiler takes them: columns
of the table on its record, and the others on the row of the tables before.

**Proof sketch.** By the table of the reference. On the joined table itself it is read on the
partner; in a table before it the last partner does not matter, and `getD_row` says where its column
is found. -/
theorem readsAt_joined (hq : q.TablesApart) (ht : t.HasSimpleNames) {r : Record}
    (hr : r.hasSimpleNames = true) (hlt : t.partners.length < q.joins.length) {e : Expr}
    (hnames : ∀ c ∈ e.columns, isSimpleName c.name = true)
    (he : ∀ c ∈ e.columns, ∃ i ≤ t.partners.length + 1, q.scope.resolve c = .ok i)
    (hbase : ∀ c ∈ e.columns, ∀ i, q.scope.resolve c = .ok i →
      base.get? (q.scope.rowKey i c.name) =
        (Row.ofRecord t.main q.needsDigest).get? (q.scope.rowKey i c.name)) :
    ∀ s ∈ e.parts, ((mk t.main (t.partners ++ [some r])).env q params).ReadsAt q.scope
      (t.partners.length + 1)
      (.ofRow params (JoinedTuple.mk base (q.joins.zip t.partners)).row) r s := by
  intro s hs
  unfold EvalEnv.ReadsAt
  split
  · rename_i c
    have hmem := Expr.mem_columns.mpr hs
    intro table htable
    split
    · rename_i heq
      subst heq
      have hj : q.joins[t.partners.length]? = some q.joins[t.partners.length] :=
        List.getElem?_eq_getElem hlt
      have hp : (t.partners ++ [some r])[t.partners.length]? = some (some r) :=
        List.getElem?_concat_length
      rw [column_env htable]
      simp only [row?, hj, hp, Option.bind_some, JoinSpec.partnerRow?, Option.map_some]
      exact getD_ofRecord hr _ c
    · rename_i hne
      obtain ⟨i, hi, hc⟩ := he c hmem
      obtain rfl := Except.ok.inj (htable.symm.trans hc)
      have hbefore : table ≤ t.partners.length := Nat.lt_succ_iff.mp (lt_of_le_of_ne hi hne)
      rw [column_append hbefore htable]
      exact (getD_row hq ht (hnames c hmem) htable hbefore (hbase c hmem table htable)).symm
  · exact fun v hv => ((Resolution.gives_ofRow params _) _ v hv).symm
  · trivial

end JoinedRecords

end RecordQuery
