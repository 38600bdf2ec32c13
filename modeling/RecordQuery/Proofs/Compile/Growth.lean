import Mathlib.Data.List.Forall2
import RecordQuery.Compile.Query
import RecordQuery.Proofs.Outcome

set_option autoImplicit false

/-!
# Plans to which columns are added

Between the tables of a selection and its limits, the compilation mostly adds columns: those that
are returned, those that expressions need, and those that groups and orders need. What a plan is
apart from its columns stays as it is meanwhile, so what is true of the plan of a selection can be
followed from one of the remaining steps to the next.

## Main definitions

* `QueryPlan.Grows` — columns of a kind were added to a plan.
* `TablePlan.SameReading`, `QueryPlan.SameReading` — two plans differ in what they carry at most.

## Main results

* `QueryPlan.Grows.sameReading`, `QueryPlan.Grows.wildcard_eq`, `QueryPlan.Grows.of_mem_columns` —
  what a plan with more columns is.
* `registerGrouped_grows`, `addItems_grows`, `planOrder_grows` — the steps that add columns.
-/

namespace RecordQuery

open Outcome

/-! ## Plans that differ in what they carry -/

/-- Two plans of a table differ at most in their columns and in whether they carry the digest. -/
def TablePlan.SameReading (t u : TablePlan) : Prop :=
  u = { t with columns := u.columns, needsDigest := u.needsDigest }

/-- Two joins differ at most in what the plans of their tables carry. -/
structure JoinSpec.SameReading (j k : JoinSpec) : Prop where
  /-- The plans of the tables. -/
  plan : j.plan.SameReading k.plan
  /-- The rest of the join. -/
  join : k = { j with plan := k.plan }

/-- Two plans differ at most in what they and their joined tables carry, and in whether all columns
are returned. -/
structure QueryPlan.SameReading (p q : QueryPlan) : Prop where
  /-- The main table. -/
  table : p.toTablePlan.SameReading q.toTablePlan
  /-- The joined tables. -/
  joins : List.Forall₂ JoinSpec.SameReading p.joins q.joins
  /-- The rest of the plan. -/
  rest : q = { p with toTablePlan := q.toTablePlan, wildcard := q.wildcard, joins := q.joins }

/-- A plan carries what it carries. -/
lemma TablePlan.SameReading.refl (t : TablePlan) : t.SameReading t := rfl

/-- One difference after another. -/
lemma TablePlan.SameReading.trans {t u v : TablePlan} (h : t.SameReading u)
    (h' : u.SameReading v) : t.SameReading v := by
  unfold SameReading at h'
  rw [h] at h'
  exact h'

/-- A join reads as it does. -/
lemma JoinSpec.SameReading.refl (j : JoinSpec) : j.SameReading j := ⟨.refl _, rfl⟩

/-- One difference after another. -/
lemma JoinSpec.SameReading.trans {j k l : JoinSpec} (h : j.SameReading k)
    (h' : k.SameReading l) : j.SameReading l := by
  refine ⟨h.plan.trans h'.plan, ?_⟩
  have hjoin := h'.join
  rw [h.join] at hjoin
  exact hjoin

/-- One difference after another, join by join. -/
lemma JoinSpec.sameReading_trans {js ks ls : List JoinSpec}
    (h : List.Forall₂ JoinSpec.SameReading js ks) (h' : List.Forall₂ JoinSpec.SameReading ks ls) :
    List.Forall₂ JoinSpec.SameReading js ls := by
  induction h generalizing ls with
  | nil => exact h'
  | cons hj _ ih =>
    cases h' with
    | cons hk hks => exact .cons (hj.trans hk) (ih hks)

namespace QueryPlan

variable {p q r : QueryPlan}

/-- A plan reads as it does. -/
lemma SameReading.refl (p : QueryPlan) : p.SameReading p :=
  ⟨.refl _, List.forall₂_same.mpr fun j _ => .refl j, by cases p; rfl⟩

/-- One difference after another. -/
lemma SameReading.trans (h : p.SameReading q) (h' : q.SameReading r) : p.SameReading r := by
  refine ⟨h.table.trans h'.table, JoinSpec.sameReading_trans h.joins h'.joins, ?_⟩
  have hrest := h'.rest
  rw [h.rest] at hrest
  exact hrest

/-- The main table carries something else. -/
lemma SameReading.mapTable {f : TablePlan → TablePlan} (hf : ∀ t, TablePlan.SameReading t (f t)) :
    p.SameReading (p.mapTable f) :=
  ⟨hf _, List.forall₂_same.mpr fun j _ => .refl j, rfl⟩

/-- A table carries something else. -/
lemma SameReading.modifyTable (table : Nat) {f : TablePlan → TablePlan}
    (hf : ∀ t, TablePlan.SameReading t (f t)) : p.SameReading (p.modifyTable table f) := by
  cases table with
  | zero => exact .mapTable hf
  | succ i =>
    refine ⟨.refl _, ?_, rfl⟩
    change List.Forall₂ _ p.joins (p.joins.modify i _)
    induction p.joins generalizing i with
    | nil => simp
    | cons j js ih =>
      cases i with
      | zero => exact .cons ⟨hf _, rfl⟩ (List.forall₂_same.mpr fun j _ => .refl j)
      | succ i => exact .cons (.refl j) (ih i)

/-- A column more. -/
lemma SameReading.register (table : Nat) (c : Column) : p.SameReading (p.register table c) := by
  unfold QueryPlan.register
  split
  · exact .refl p
  · have hadd : p.SameReading (p.mapTable fun t => { t with columns := c.add t.columns }) :=
      .mapTable fun _ => rfl
    simp only
    split
    · exact hadd
    · refine hadd.trans (.modifyTable table fun t => ?_)
      split <;> rfl

/-! ## Plans with more columns -/

/-- A plan to which columns with a property were added, one after the other; if `A` allows it,
all columns may be returned besides. -/
inductive Grows (A : Prop) (P : Column → Prop) (p : QueryPlan) : QueryPlan → Prop
  /-- No column was added. -/
  | refl : Grows A P p p
  /-- A column was added. -/
  | register {q : QueryPlan} (h : Grows A P p q) (table : Nat) {c : Column} (hc : P c) :
      Grows A P p (q.register table c)
  /-- The digest of a table is carried. -/
  | requireDigest {q : QueryPlan} (h : Grows A P p q) (table : Nat) :
      Grows A P p (q.requireDigest table)
  /-- All columns are returned. -/
  | star {q : QueryPlan} (h : Grows A P p q) (hstars : A) :
      Grows A P p { q with wildcard := true }

namespace Grows

variable {A : Prop} {P Q : Column → Prop}

/-- Some columns after others. -/
lemma trans (h : p.Grows A P q) (h' : q.Grows A P r) : p.Grows A P r := by
  induction h' with
  | refl => exact h
  | register _ table hc ih => exact ih.register table hc
  | requireDigest _ table ih => exact ih.requireDigest table
  | star _ hstars ih => exact ih.star hstars

/-- **More columns change nothing but what is carried.** -/
theorem sameReading (h : p.Grows A P q) : p.SameReading q := by
  induction h with
  | refl => exact .refl p
  | register _ table _ ih => exact ih.trans (.register table _)
  | requireDigest _ table ih => exact ih.trans (.modifyTable table fun _ => rfl)
  | star h hstars ih => exact ⟨ih.table, ih.joins, by rw [ih.rest]⟩

end Grows

/-- Another table's plan changes nothing about whether all columns are returned. -/
@[simp]
lemma wildcard_modifyTable (p : QueryPlan) (table : Nat) (f : TablePlan → TablePlan) :
    (p.modifyTable table f).wildcard = p.wildcard := by
  cases table <;> rfl

/-- Neither does a column more. -/
@[simp]
lemma wildcard_register (p : QueryPlan) (table : Nat) (c : Column) :
    (p.register table c).wildcard = p.wildcard := by
  unfold register
  split
  · rfl
  · simp only
    split
    · rfl
    · exact wildcard_modifyTable ..

/-- The columns of a plan of which a joined table is changed. -/
lemma columns_modifyTable_succ (p : QueryPlan) (i : Nat) (f : TablePlan → TablePlan) :
    (p.modifyTable (i + 1) f).columns = p.columns := rfl

/-- The columns of a plan with one more. -/
lemma mem_columns_register {table : Nat} {c d : Column} (h : d ∈ (p.register table c).columns) :
    d ∈ p.columns ∨ d = c := by
  have hadd : ∀ {cs : List Column}, d ∈ c.add cs → d ∈ cs ∨ d = c := by
    intro cs hd
    rw [Column.add, List.mem_append, List.mem_singleton] at hd
    refine hd.imp_left fun hd => ?_
    split at hd
    · exact List.mem_of_mem_eraseP hd
    · exact hd
  unfold register at h
  split at h
  · exact .inl h
  · simp only at h
    split at h
    · exact hadd h
    · cases table with
      | zero => contradiction
      | succ i =>
        rw [columns_modifyTable_succ] at h
        exact hadd h

/-- **Without a star no more than the named columns are returned.** -/
theorem Grows.wildcard_eq {P : Column → Prop} (h : p.Grows False P q) :
    q.wildcard = p.wildcard := by
  induction h with
  | refl => rfl
  | register _ table _ ih => rw [wildcard_register, ih]
  | requireDigest _ table ih => exact (wildcard_modifyTable ..).trans ih
  | star _ hstars _ => exact hstars.elim

/-- **A column of a plan with more columns** is one of those before or one of those added. -/
theorem Grows.of_mem_columns {A : Prop} {P : Column → Prop} (h : p.Grows A P q) {c : Column}
    (hc : c ∈ q.columns) : c ∈ p.columns ∨ P c := by
  induction h with
  | refl => exact .inl hc
  | register _ table hP ih =>
    rcases mem_columns_register hc with hc | rfl
    · exact ih hc
    · exact .inr hP
  | @requireDigest q _ table ih =>
    cases table with
    | zero => exact ih hc
    | succ i => exact ih hc
  | star _ _ ih => exact ih hc

end QueryPlan

/-! ## The steps that add columns -/

/-- A column is computed, if it is, by an expression with a property. -/
def Column.Computes (E : Expr → Prop) (c : Column) : Prop := ∀ e, c.value = .computed e → E e

section

variable {A : Prop} {E : Expr → Prop} {p q : QueryPlan} {scope : Scope} {groups : List String}

/-- The column of an aggregate. -/
lemma addAggregate_grows {e : Expr} {label : Option String} {hidden : Bool}
    (h : addAggregate p e label hidden = .ok q) : p.Grows A (Column.Computes E) q := by
  obtain ⟨spec, -, h⟩ := bind_eq_ok.mp h
  obtain rfl := Except.ok.inj h
  exact .register .refl 0 fun _ hvalue => by cases hvalue

/-- A column of grouped rows. -/
lemma addGroupedColumn_grows {c : ColumnRef}
    (h : addGroupedColumn scope groups p c = .ok q) : p.Grows A (Column.Computes E) q := by
  unfold addGroupedColumn at h
  split at h
  · obtain rfl := Except.ok.inj h
    exact .refl
  · obtain ⟨table, -, h⟩ := bind_eq_ok.mp h
    split at h
    · cases h
    · obtain rfl := Except.ok.inj h
      exact .register .refl 0 fun _ hvalue => by cases hvalue

mutual

/-- **What an expression over groups needs.**

**Proof sketch.** Recursion on the expression: an aggregate adds itself, a column is a grouping
column, and every other expression adds what its parts add, one after the other. -/
theorem registerGrouped_grows : (e : Expr) → {p q : QueryPlan} →
    registerGrouped scope groups p e = .ok q → p.Grows A (Column.Computes E) q
  | .call name args distinct, p, q, h => by
    unfold registerGrouped at h
    split at h
    · exact addAggregate_grows h
    · exact registerGroupedList_grows args h
  | .column c, p, q, h => addGroupedColumn_grows h
  | .binary _ l r, p, q, h => by
    obtain ⟨m, hm, h⟩ := bind_eq_ok.mp h
    exact (registerGrouped_grows l hm).trans (registerGrouped_grows r h)
  | .negative e, p, q, h | .not e, p, q, h | .isNull e _, p, q, h | .paren e, p, q, h
  | .inQuery e _ _, p, q, h => registerGrouped_grows e h
  | .between e low high _, p, q, h => by
    obtain ⟨m, hm, h⟩ := bind_eq_ok.mp h
    obtain ⟨n, hn, h⟩ := bind_eq_ok.mp h
    exact (registerGrouped_grows e hm).trans
      ((registerGrouped_grows low hn).trans (registerGrouped_grows high h))
  | .inList e items _, p, q, h => by
    obtain ⟨m, hm, h⟩ := bind_eq_ok.mp h
    exact (registerGrouped_grows e hm).trans (registerGroupedList_grows items h)
  | .array items, p, q, h => registerGroupedList_grows items h
  | .element e key, p, q, h => by
    obtain ⟨m, hm, h⟩ := bind_eq_ok.mp h
    exact (registerGrouped_grows e hm).trans (registerGrouped_grows key h)
  | .literal _, p, q, h | .param _, p, q, h | .scalarQuery _, p, q, h | .star, p, q, h => by
    obtain rfl := Except.ok.inj h
    exact .refl

/-- What several expressions over groups need. -/
theorem registerGroupedList_grows : (es : List Expr) → {p q : QueryPlan} →
    registerGroupedList scope groups p es = .ok q → p.Grows A (Column.Computes E) q
  | [], p, q, h => by
    obtain rfl := Except.ok.inj h
    exact .refl
  | e :: es, p, q, h => by
    obtain ⟨m, hm, h⟩ := bind_eq_ok.mp h
    exact (registerGrouped_grows e hm).trans (registerGroupedList_grows es h)

end

/-- A table that has to carry its digest for a column. -/
lemma requireDigest_grows (p : QueryPlan) (c : ColumnRef) (table : Nat) :
    p.Grows A (Column.Computes E)
      (if c.name = digestColumn then p.requireDigest table else p) := by
  split
  · exact .requireDigest .refl table
  · exact .refl

/-- The columns that an expression over single rows needs. -/
lemma registerColumns_grows {cs : List ColumnRef}
    (h : registerColumns scope p cs = .ok q) : p.Grows A (Column.Computes E) q := by
  induction cs generalizing p with
  | nil =>
    obtain rfl := Except.ok.inj h
    exact .refl
  | cons c cs ih =>
    obtain ⟨table, -, h⟩ := bind_eq_ok.mp h
    refine .trans (.register (requireDigest_grows p c table) table fun _ hvalue => ?_) (ih h)
    cases hvalue

/-- The value of an expression. -/
lemma addExpressionItem_grows {grouping : Option (List String)} {e : Expr} {label : Option String}
    (he : E e) (h : addExpressionItem scope grouping p e label = .ok q) :
    p.Grows A (Column.Computes E) q := by
  have hshown : ∀ m : QueryPlan,
      Column.Computes E (m.expressionColumn e.render label (.computed e) false) := by
    rintro m d hvalue
    obtain rfl := ColumnValue.computed.inj hvalue
    exact he
  unfold addExpressionItem at h
  split at h
  · obtain ⟨m, hm, h⟩ := bind_eq_ok.mp h
    obtain rfl := Except.ok.inj h
    exact (registerGrouped_grows e hm).register 0 (hshown m)
  · obtain ⟨m, hm, h⟩ := bind_eq_ok.mp h
    obtain rfl := Except.ok.inj h
    exact (registerColumns_grows hm).register 0 (hshown m)

/-- What a selected column shows is not computed. -/
lemma columnValue_ne_computed {grouping : Option (List String)} {table : Nat} {c : ColumnRef}
    {value : ColumnValue} (h : columnValue grouping table c = .ok value) (e : Expr) :
    value ≠ .computed e := by
  unfold columnValue at h
  simp only at h
  split at h
  · split at h
    · obtain rfl := Except.ok.inj h
      exact fun heq => by cases heq
    · cases h
  · obtain rfl := Except.ok.inj h
    split
    · exact fun heq => by cases heq
    · split <;> exact fun heq => by cases heq

/-- A returned column. -/
lemma addColumnItem_grows {grouping : Option (List String)} {c : ColumnRef}
    {label : Option String} (h : addColumnItem scope grouping p c label = .ok q) :
    p.Grows A (Column.Computes E) q := by
  obtain ⟨table, -, h⟩ := bind_eq_ok.mp h
  obtain ⟨value, hvalue, h⟩ := bind_eq_ok.mp h
  obtain rfl := Except.ok.inj h
  exact .register (requireDigest_grows p c table) table
    fun e heq => absurd heq (columnValue_ne_computed hvalue e)

/-- A selected expression. -/
lemma addExpr_grows {grouping : Option (List String)} {e : Expr} {label : Option String} (he : E e)
    (h : addExpr scope grouping p e label = .ok q) : p.Grows A (Column.Computes E) q := by
  unfold addExpr at h
  split at h
  · exact addColumnItem_grows h
  · split at h
    · exact addAggregate_grows h
    · split at h
      · exact addExpressionItem_grows he h
      · cases h

/-- **Returned items** are columns, and only a star asks for all of them. -/
theorem addItems_grows {grouping : Option (List String)} {items : List SelectItem}
    (hstar : .all ∈ items → A) (hitems : ∀ e label, .expr e label ∈ items → E e.unwrap)
    (h : addItems scope grouping p items = .ok q) : p.Grows A (Column.Computes E) q := by
  induction items generalizing p with
  | nil =>
    obtain rfl := Except.ok.inj h
    exact .refl
  | cons i items ih =>
    obtain ⟨m, hm, h⟩ := bind_eq_ok.mp h
    refine .trans ?_ (ih (fun hmem => hstar (by simp [hmem]))
      (fun e label hmem => hitems e label (by simp [hmem])) h)
    cases i with
    | expr e label => exact addExpr_grows (hitems e label (by simp)) hm
    | all =>
      simp only [addItem] at hm
      split at hm
      · cases hm
      · obtain rfl := Except.ok.inj hm
        exact .star .refl (hstar (by simp))

/-- What a sort key needs.

**Proof sketch.** Only a sort key over groups registers anything, and what it registers is a
grouping column or the parts of an expression (`registerGrouped_grows`). -/
lemma planOrderKey_grows {grouping : Option (List String)} {e : Expr} {key : OrderKey}
    (h : planOrderKey scope grouping p e = .ok (key, q)) : p.Grows A (Column.Computes E) q := by
  unfold planOrderKey at h
  split at h
  · split at h
    · obtain ⟨-, rfl⟩ := Prod.mk.inj (Except.ok.inj h)
      exact .refl
    · cases h
  · split at h
    · obtain ⟨-, rfl⟩ := Prod.mk.inj (Except.ok.inj h)
      exact .refl
    · unfold columnOrder at h
      split at h
      · simp only [bind_eq_ok, pure_eq_ok] at h
        obtain ⟨m, hm, table, -, h⟩ := h
        obtain ⟨-, rfl⟩ := Prod.mk.inj h
        exact addGroupedColumn_grows hm
      · simp only [bind_eq_ok, pure_eq_ok] at h
        obtain ⟨m, rfl, table, -, h⟩ := h
        obtain ⟨-, rfl⟩ := Prod.mk.inj h
        exact .refl
  · split at h
    · cases h
    · split at h
      · obtain ⟨-, rfl⟩ := Prod.mk.inj (Except.ok.inj h)
        exact .refl
      · obtain ⟨m, hm, h⟩ := bind_eq_ok.mp h
        obtain ⟨-, rfl⟩ := Prod.mk.inj (Except.ok.inj h)
        exact registerGrouped_grows e hm

/-- **What an order needs.** -/
theorem planOrder_grows {grouping : Option (List String)} {items : List OrderItem}
    {order : List OrderSpec} (h : planOrder scope grouping p items = .ok (order, q)) :
    p.Grows A (Column.Computes E) q := by
  induction items generalizing p order with
  | nil =>
    obtain ⟨-, rfl⟩ := Prod.mk.inj (Except.ok.inj h)
    exact .refl
  | cons o items ih =>
    simp only [planOrder, bind_eq_ok, pure_eq_ok] at h
    obtain ⟨⟨key, m⟩, hm, ⟨specs, last⟩, hlast, h⟩ := h
    obtain ⟨-, rfl⟩ := Prod.mk.inj h
    exact (planOrderKey_grows hm).trans (ih hlast)

/-- A condition on groups. -/
lemma addHaving_grows {e : Expr} (h : addHaving scope groups p e = .ok q) :
    ∃ m, p.Grows A (Column.Computes E) m ∧ q = { m with having := some e } := by
  unfold addHaving at h
  split at h
  · cases h
  · obtain ⟨m, hm, h⟩ := bind_eq_ok.mp h
    obtain rfl := Except.ok.inj h
    exact ⟨m, registerGrouped_grows e hm, rfl⟩

end

end RecordQuery
