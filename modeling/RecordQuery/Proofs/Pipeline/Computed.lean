import RecordQuery.Pipeline.Basic
import RecordQuery.Proofs.Expr.Eval
import RecordQuery.Proofs.Row

set_option autoImplicit false

/-!
# Computed values in rows

Computed values are put into the row on which they are computed, each in a place of its own, and
then under their labels. The row is also what later expressions are evaluated on, and what a column
finds there need not stand under its name. So an expression keeps its value as long as it overlooks
the places that were written.

## Main definitions

* `ColumnRef.strays` — a column finds what stands in a place that is not its name.
* `Expr.Overlooks` — an expression does not depend on what stands in a place.

## Main results

* `Expr.eval_computeRow` — an expression that overlooks the computed values keeps its value.
* `computeRow_values` — computed values that overlook those before them stand in their places.
* `get?_computeRow` — what is not written stays.
-/

namespace RecordQuery

open Outcome

/-! ## Columns and places -/

/-- Whether a column finds what stands in a place, though the place is not its name: a qualified
name finds what stands under all of it, a bare one what stands in a place that ends with it. -/
def ColumnRef.strays (c : ColumnRef) (place : String) : Bool :=
  match c.table with
  | some t => place == t ++ "." ++ c.name
  | none => Text.endsWith ("." ++ c.name) place

/-- A write changes nothing for a search by keys that does not look for its key. -/
lemma OrderedMap.find?_entries_set {K V : Type} [DecidableEq K] {m : OrderedMap K V} {k : K}
    {p : K → Bool} (hk : p k = false) (v : V) :
    (m.set k v).entries.find? (fun e => p e.1) = m.entries.find? (fun e => p e.1) := by
  by_cases hmem : k ∈ m.keys
  · rw [entries_set_of_mem hmem]
    induction m.entries with
    | nil => rfl
    | cons e es ih =>
      by_cases he : e.1 = k
      · simpa [List.find?_cons, he, hk] using ih
      · simp only [List.map_cons, if_neg he, List.find?_cons, ih]
  · rw [entries_set_of_not_mem hmem, List.find?_append]
    simp [hk]

namespace Row

variable {row : Row} {c : ColumnRef} {place : String}

/-- **A column that finds what stands under its name** and nothing else.

**Proof sketch.** A column of a table would first look under the qualified name, and a column
without a table would search for a name inside a table. Either place strays, and so by assumption is
either absent or not looked at, because the plain name is there. -/
lemma lookup?_eq_get? (h : ∀ place ∈ row.keys, c.strays place = true →
    c.table = none ∧ c.name ∈ row.keys) : row.lookup? c = row.get? c.name := by
  unfold lookup?
  cases htable : c.table with
  | some t =>
    have hnone : row.get? (t ++ "." ++ c.name) = none := by
      refine OrderedMap.get?_eq_none_iff.mpr fun hmem => ?_
      have hbare := (h _ hmem (by simp [ColumnRef.strays, htable])).1
      rw [htable] at hbare
      cases hbare
    simp only [hnone, Option.none_or]
  | none =>
    simp only
    cases hget : row.get? c.name with
    | some v => rfl
    | none =>
      have habsent := OrderedMap.get?_eq_none_iff.mp hget
      have hnone : row.entries.find? (fun e => Text.endsWith ("." ++ c.name) e.1) = none := by
        rw [List.find?_eq_none]
        intro e he hends
        have hstrays : c.strays e.1 = true := by
          simp only [ColumnRef.strays, htable]
          exact hends
        exact habsent (h e.1 (List.mem_map_of_mem he) hstrays).2
      rw [hnone]
      rfl

/-- A value in a place that a column does not find leaves what the column finds.

**Proof sketch.** Every place where the column looks is another one than that of the value: its name
and its qualified name by assumption, and a name inside a table because the plain name is found
first. -/
lemma lookup?_set (hname : c.name ≠ place)
    (hstrays : c.strays place = true → c.table = none ∧ c.name ∈ row.keys) (v : Value) :
    Row.lookup? (row.set place v) c = row.lookup? c := by
  have hget : (row.set place v).get? c.name = row.get? c.name := by
    rw [OrderedMap.get?_set, if_neg hname]
  unfold lookup?
  cases htable : c.table with
  | some t =>
    have hqualified : t ++ "." ++ c.name ≠ place := by
      rintro rfl
      have hbare := (hstrays (by simp [ColumnRef.strays, htable])).1
      rw [htable] at hbare
      cases hbare
    simp only [OrderedMap.get?_set, if_neg hname, if_neg hqualified]
  | none =>
    simp only [hget]
    cases hown : row.get? c.name with
    | some w => rfl
    | none =>
      have habsent := OrderedMap.get?_eq_none_iff.mp hown
      have hends : Text.endsWith ("." ++ c.name) place = false := by
        refine Bool.eq_false_iff.mpr fun hends => habsent (hstrays ?_).2
        simp only [ColumnRef.strays, htable]
        exact hends
      rw [OrderedMap.find?_entries_set (p := Text.endsWith ("." ++ c.name)) hends]

end Row

/-! ## Rows with and without the digest -/

/-- A key that is left out is not written; other writes go on as before. -/
lemma OrderedMap.erase_set {K V : Type} [DecidableEq K] (m : OrderedMap K V) (k l : K) (v : V) :
    (m.set k v).erase l = if k = l then m.erase l else (m.erase l).set k v := by
  refine ext_get? ?_ fun key hkey => ?_
  · by_cases hkl : k = l
    · subst hkl
      rw [if_pos rfl, keys_erase, keys_erase, keys_set]
      split <;> simp
    · rw [if_neg hkl, keys_erase, keys_set, keys_set, keys_erase]
      by_cases hk : k ∈ m.keys <;> simp [hk, hkl]
  · by_cases hkl : k = l
    · subst hkl
      rw [if_pos rfl, get?_erase, get?_erase, get?_set]
      split <;> rfl
    · rw [if_neg hkl, get?_erase, get?_set, get?_set, get?_erase]
      by_cases hl : key = l
      · subst hl
        simp [Ne.symm hkl]
      · simp [hl]

/-- A search by keys that does not look for a key does without it. -/
lemma OrderedMap.find?_entries_erase {K V : Type} [DecidableEq K] (m : OrderedMap K V) {l : K}
    {p : K → Bool} (hl : p l = false) :
    (m.erase l).entries.find? (fun e => p e.1) = m.entries.find? (fun e => p e.1) := by
  change (m.entries.filter _).find? _ = _
  rw [List.find?_filter]
  congr 1
  funext e
  by_cases he : e.1 = l <;> simp [he, hl]

namespace Row

variable {r : Record} {c : ColumnRef}

/-- But for the digest a row with the digest is one without. -/
lemma erase_ofRecord (r : Record) (withDigest : Bool) :
    (Row.ofRecord r withDigest).erase digestColumn =
      (Row.ofRecord r false).erase digestColumn := by
  have hfold : ∀ (es : List (String × Value)) (m n : Row),
      m.erase digestColumn = n.erase digestColumn →
        (es.foldl (fun row e => row.set e.1 e.2) m).erase digestColumn =
          (es.foldl (fun row e => row.set e.1 e.2) n).erase digestColumn := by
    intro es
    induction es with
    | nil => exact fun m n h => h
    | cons e es ih =>
      exact fun m n h => ih _ _ (by rw [OrderedMap.erase_set, OrderedMap.erase_set, h])
  refine hfold _ _ _ ?_
  cases withDigest
  · rfl
  · simp [OrderedMap.erase_set]

/-- But for the digest the same is found with the digest and without it. -/
lemma get?_ofRecord_digest {a b : Bool} {name : String} (h : name = digestColumn → a = b) :
    (Row.ofRecord r a).get? name = (Row.ofRecord r b).get? name := by
  rw [get?_ofRecord, get?_ofRecord]
  by_cases hname : name = digestColumn
  · rw [h hname]
  · simp [hname]

/-- But for the digest both have the same labels. -/
lemma mem_keys_ofRecord_digest {a b : Bool} {name : String} (h : name = digestColumn → a = b) :
    name ∈ (Row.ofRecord r a).keys ↔ name ∈ (Row.ofRecord r b).keys := by
  rw [← not_iff_not, ← OrderedMap.get?_eq_none_iff, ← OrderedMap.get?_eq_none_iff,
    get?_ofRecord_digest h]

/-- The row with the digest has all labels of the one without. -/
lemma keys_ofRecord_subset (r : Record) (withDigest : Bool) :
    (Row.ofRecord r withDigest).keys ⊆ (Row.ofRecord r true).keys := by
  intro name hname
  by_contra habsent
  rw [← OrderedMap.get?_eq_none_iff] at habsent
  have hdigest : name = digestColumn → withDigest = true := by
    rintro rfl
    rw [get?_ofRecord, if_pos ⟨rfl, rfl⟩] at habsent
    cases hbin : r.bin? digestColumn <;> rw [hbin] at habsent <;> cases habsent
  exact OrderedMap.get?_eq_none_iff.mp habsent ((mem_keys_ofRecord_digest hdigest).mp hname)

/-- **A column of another name** finds the same with the digest and without it.

**Proof sketch.** The digest stands under one name only. It has no point in it, so it is neither a
qualified name nor a name inside a table. -/
lemma lookup?_ofRecord_digest (hname : c.name ≠ digestColumn) (withDigest : Bool) :
    (Row.ofRecord r withDigest).lookup? c = (Row.ofRecord r false).lookup? c := by
  have hget : ∀ name, name ≠ digestColumn →
      (Row.ofRecord r withDigest).get? name = (Row.ofRecord r false).get? name := fun name h =>
    get?_ofRecord_digest fun heq => absurd heq h
  have hpoint : ∀ name : String, '.' ∈ name.toList → name ≠ digestColumn := by
    rintro name h rfl
    revert h
    decide
  unfold lookup?
  cases c.table with
  | some t => simp only [hget _ hname, hget _ (hpoint (t ++ "." ++ c.name) (by simp))]
  | none =>
    have hends : Text.endsWith ("." ++ c.name) digestColumn = false := by
      refine Bool.eq_false_iff.mpr fun hends => hpoint digestColumn ?_ rfl
      have hsuffix : ("." ++ c.name).toList <:+ digestColumn.toList :=
        List.isSuffixOf_iff_suffix.mp hends
      exact hsuffix.subset (by simp)
    simp only [hget _ hname]
    rw [← OrderedMap.find?_entries_erase _ (p := Text.endsWith ("." ++ c.name)) hends,
      erase_ofRecord, OrderedMap.find?_entries_erase _ (p := Text.endsWith ("." ++ c.name)) hends]

end Row

/-! ## Expressions and places -/

/-- An expression does not depend on what stands in a place of a row: none of its columns finds it
there, and none of its aggregates has its text for a name. A column that finds what stands under its
name looks no further. -/
structure Expr.Overlooks (e : Expr) (row : Row) (place : String) : Prop where
  /-- No column has the name of the place. -/
  names : ∀ c ∈ e.columns, c.name ≠ place
  /-- No column finds what stands there instead. -/
  strays : ∀ c ∈ e.columns, c.strays place = true → c.table = none ∧ c.name ∈ row.keys
  /-- No aggregate has the name of the place. -/
  calls : ∀ s ∈ e.parts, s.isAggregate = true → s.render ≠ place

/-- The columns and calls of an expression are listed. -/
instance (e : Expr) (row : Row) (place : String) : Decidable (e.Overlooks row place) :=
  decidable_of_iff ((∀ c ∈ e.columns, c.name ≠ place) ∧
      (∀ c ∈ e.columns, c.strays place = true → c.table = none ∧ c.name ∈ row.keys) ∧
      ∀ s ∈ e.parts, s.isAggregate = true → s.render ≠ place)
    ⟨fun ⟨names, strays, calls⟩ => ⟨names, strays, calls⟩,
      fun ⟨names, strays, calls⟩ => ⟨names, strays, calls⟩⟩

namespace Expr

variable {e : Expr} {row out : Row} {params : List Value} {place : String}

/-- An expression is evaluated on two rows alike if its columns and aggregates find the same. -/
lemma eval_congr {row' : Row} (hcolumns : ∀ c ∈ e.columns,
      (row.lookup? c).getD .null = (row'.lookup? c).getD .null)
    (hcalls : ∀ s ∈ e.parts, s.isAggregate = true → row.get? s.render = row'.get? s.render) :
    e.eval params row = e.eval params row' := by
  refine evalIn_congr e fun s hs => ?_
  cases s with
  | column c => exact hcolumns c (mem_columns.mpr hs)
  | param index => rfl
  | call name args distinct => exact fun hname => hcalls _ hs hname
  | _ => trivial

/-- More labels do not make an expression look at a place. -/
lemma Overlooks.mono (h : e.Overlooks row place) (hkeys : row.keys ⊆ out.keys) :
    e.Overlooks out place :=
  { h with strays := fun c hc hstrays => (h.strays c hc hstrays).imp_right fun hmem => hkeys hmem }

/-- **A value in a place that an expression overlooks** does not change the value of the
expression. -/
lemma eval_set (h : e.Overlooks row place) (v : Value) :
    e.eval params (row.set place v) = e.eval params row := by
  refine eval_congr (fun c hc => ?_) fun s hs haggregate => ?_
  · rw [Row.lookup?_set (h.names c hc) (h.strays c hc)]
  · rw [OrderedMap.get?_set, if_neg (h.calls s hs haggregate)]

end Expr

/-! ## Writing computed values -/

section

variable {params : List Value} {columns : List (String × Expr)} {labels : List (String × String)}
  {row out : Row}

/-- A write adds labels only. -/
lemma Row.keys_subset_set (row : Row) (place : String) (v : Value) :
    row.keys ⊆ (row.set place v).keys := by
  rw [OrderedMap.keys_set]
  split
  · exact List.Subset.refl _
  · exact List.subset_append_left _ _

/-- What every write of a computed value keeps is kept by all of them. -/
lemma computeColumns_induction {motive : Row → Prop}
    (hset : ∀ i ∈ columns, ∀ row v, motive row → motive (row.set i.1 v)) (hrow : motive row)
    (h : computeColumns params row columns = .ok out) : motive out := by
  induction columns generalizing row with
  | nil =>
    obtain rfl := Except.ok.inj h
    exact hrow
  | cons i columns ih =>
    obtain ⟨v, -, h⟩ := bind_eq_ok.mp h
    exact ih (fun j hj => hset j (List.mem_cons_of_mem i hj))
      (hset i List.mem_cons_self row v hrow) h

/-- What every write of a label keeps is kept by all of them. -/
lemma foldl_bindLabel_induction {motive : Row → Prop}
    (hset : ∀ l ∈ labels, ∀ row v, motive row → motive (row.set l.1 v)) (hrow : motive row) :
    motive (labels.foldl bindLabel row) := by
  induction labels generalizing row with
  | nil => exact hrow
  | cons l labels ih =>
    refine ih (fun m hm => hset m (List.mem_cons_of_mem l hm)) ?_
    unfold bindLabel
    split
    · exact hrow
    · split
      · exact hset l List.mem_cons_self row _ hrow
      · exact hrow

/-- **An expression that overlooks the computed values** and their labels keeps its value.

**Proof sketch.** By induction on the writes. Each of them leaves the value as it is and adds labels
only, so that the places behind it stay overlooked. -/
theorem Expr.eval_computeRow {e : Expr}
    (hcolumns : ∀ i ∈ columns, e.Overlooks row i.1) (hlabels : ∀ l ∈ labels, e.Overlooks row l.1)
    (h : computeRow params columns labels row = .ok out) :
    e.eval params out = e.eval params row := by
  let kept : Row → Prop := fun m => row.keys ⊆ m.keys ∧ e.eval params m = e.eval params row
  have hset : ∀ place, e.Overlooks row place → ∀ m v, kept m → kept (m.set place v) := by
    intro place hplace m v hm
    exact ⟨List.Subset.trans hm.1 (Row.keys_subset_set m place v),
      (eval_set (hplace.mono hm.1) v).trans hm.2⟩
  obtain ⟨m, hm, h⟩ := bind_eq_ok.mp h
  obtain rfl := Except.ok.inj h
  have hkept : kept m := computeColumns_induction (fun i hi => hset i.1 (hcolumns i hi))
    ⟨List.Subset.refl _, rfl⟩ hm
  exact (foldl_bindLabel_induction (fun l hl => hset l.1 (hlabels l hl)) hkept).2

/-- A label that is there already is not written. -/
lemma get?_foldl_bindLabel {name : String} (h : name ∈ labels.map Prod.fst → name ∈ row.keys) :
    (labels.foldl bindLabel row).get? name = row.get? name := by
  induction labels generalizing row with
  | nil => rfl
  | cons l labels ih =>
    have hone : (bindLabel row l).get? name = row.get? name ∧
        row.keys ⊆ (bindLabel row l).keys := by
      unfold bindLabel
      split
      · exact ⟨rfl, List.Subset.refl _⟩
      · rename_i habsent
        have hne : name ≠ l.1 := by
          rintro rfl
          exact habsent (OrderedMap.contains_eq_true.mpr (h (by simp)))
        split
        · exact ⟨by rw [OrderedMap.get?_set, if_neg hne], Row.keys_subset_set row l.1 _⟩
        · exact ⟨rfl, List.Subset.refl _⟩
    rw [List.foldl_cons, ih fun hmem => hone.2 (h (List.mem_cons_of_mem l.1 hmem)), hone.1]

/-- Where nothing is computed everything stays as it was. -/
lemma get?_computeColumns {name : String} (hname : name ∉ columns.map Prod.fst)
    (h : computeColumns params row columns = .ok out) : out.get? name = row.get? name := by
  refine computeColumns_induction (motive := fun m => m.get? name = row.get? name)
    (fun i hi m v hm => ?_) rfl h
  have hne : name ≠ i.1 := fun heq => hname (heq ▸ List.mem_map_of_mem hi)
  rw [OrderedMap.get?_set, if_neg hne, hm]

/-- **What is not written stays**: a place of no computed value that is a label only if something
stood there before. -/
lemma get?_computeRow {name : String} (hname : name ∉ columns.map Prod.fst)
    (hlabel : name ∈ labels.map Prod.fst → name ∈ row.keys)
    (h : computeRow params columns labels row = .ok out) : out.get? name = row.get? name := by
  obtain ⟨m, hm, h⟩ := bind_eq_ok.mp h
  obtain rfl := Except.ok.inj h
  have hsame := get?_computeColumns hname hm
  rw [get?_foldl_bindLabel fun hmem => ?_, hsame]
  by_contra habsent
  rw [← OrderedMap.get?_eq_none_iff, hsame, OrderedMap.get?_eq_none_iff] at habsent
  exact habsent (hlabel hmem)

/-- **Computed values that overlook those before them stand in their places**, if values in the same
place are those of the same expression.

**Proof sketch.** By induction on the values. The first one is written, which the others overlook,
so that they are the same as on the row before. It is not written again but by the same
expression. -/
lemma computeColumns_values
    (hoverlook : columns.Pairwise fun i j => j.2.Overlooks row i.1)
    (hsame : ∀ i ∈ columns, ∀ j ∈ columns, i.1 = j.1 → i.2 = j.2)
    (h : computeColumns params row columns = .ok out) :
    ∀ i ∈ columns, ∃ v, i.2.eval params row = .ok v ∧ out.get? i.1 = some v := by
  induction columns generalizing row with
  | nil => exact fun i hi => absurd hi List.not_mem_nil
  | cons first columns ih =>
    obtain ⟨v, hv, h⟩ := bind_eq_ok.mp h
    obtain ⟨hfirst, hothers⟩ := List.pairwise_cons.mp hoverlook
    have hrest := ih
      (hothers.imp fun hover => hover.mono (Row.keys_subset_set row first.1 v))
      (fun i hi j hj => hsame i (List.mem_cons_of_mem _ hi) j (List.mem_cons_of_mem _ hj)) h
    have heval : ∀ i ∈ columns, i.2.eval params (row.set first.1 v) = i.2.eval params row :=
      fun i hi => Expr.eval_set (hfirst i hi) v
    intro i hi
    rcases List.mem_cons.mp hi with rfl | hmem
    · refine ⟨v, hv, ?_⟩
      by_cases hagain : i.1 ∈ columns.map Prod.fst
      · obtain ⟨j, hj, hplace⟩ := List.mem_map.mp hagain
        obtain ⟨w, hw, hget⟩ := hrest j hj
        have hsecond : j.2 = i.2 := hsame j (List.mem_cons_of_mem _ hj) i hi hplace
        rw [heval j hj, hsecond, hv] at hw
        rw [← hplace, hget, Except.ok.inj hw]
      · rw [get?_computeColumns hagain h, OrderedMap.get?_set, if_pos rfl]
    · obtain ⟨w, hw, hget⟩ := hrest i hmem
      exact ⟨w, by rw [← heval i hmem, hw], hget⟩

/-- The same for a row with labels: these do not take the places of values. -/
theorem computeRow_values (hoverlook : columns.Pairwise fun i j => j.2.Overlooks row i.1)
    (hsame : ∀ i ∈ columns, ∀ j ∈ columns, i.1 = j.1 → i.2 = j.2)
    (h : computeRow params columns labels row = .ok out) :
    ∀ i ∈ columns, ∃ v, i.2.eval params row = .ok v ∧ out.get? i.1 = some v := by
  obtain ⟨m, hm, h⟩ := bind_eq_ok.mp h
  obtain rfl := Except.ok.inj h
  intro i hi
  obtain ⟨v, hv, hget⟩ := computeColumns_values hoverlook hsame hm i hi
  refine ⟨v, hv, ?_⟩
  rw [get?_foldl_bindLabel fun _ => ?_, hget]
  by_contra habsent
  rw [OrderedMap.get?_eq_none_iff.mpr habsent] at hget
  cases hget

end

end RecordQuery
