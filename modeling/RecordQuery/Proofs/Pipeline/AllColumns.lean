import RecordQuery.Pipeline.Projection
import RecordQuery.Proofs.OrderedMap
import RecordQuery.Proofs.Text.Search

set_option autoImplicit false

/-!
# All columns of a row

When all columns of a joined row are asked for, each of them gets a label while the returned row
grows: the name inside its table if nobody has that name, else its whole name. A name inside a table
that is given away is the name of no column of the row, and a whole name belongs to one column. So
the labels are all different, whatever points the names contain, and no column takes the place of
another.

## Main definitions

* `Projection.isShown` — the columns that are returned when all are asked for.
* `Projection.starLabel`, `Projection.starEntries` — their labels, and the columns under them.

## Main results

* `Projection.bareName_cases` — what the name of a column inside its table is.
* `Projection.starLabel_not_mem` — the label of one more column is new.
* `Projection.entries_allColumns` — the returned columns.
* `Projection.row_star` — all columns of a row are returned, each under a label of its own.
-/

namespace RecordQuery

namespace Projection

variable {p : Projection} {row : Row} {columns : List (String × Value)} {column : String × Value}
  {qualifiers : List String} {label : String}

/-! ## Names inside a table -/

/-- **The name of a column inside its table** is what follows the first of the tables that its name
begins with, and a point; a name that begins with none of them stays as it is. -/
theorem bareName_cases (qualifiers : List String) (name : String) :
    (∃ before q after rest, qualifiers = before ++ q :: after ∧
      (∀ other ∈ before, ∀ tail, name ≠ other ++ "." ++ tail) ∧
      name = q ++ "." ++ rest ∧ bareName qualifiers name = rest) ∨
    (∀ q ∈ qualifiers, ∀ rest, name ≠ q ++ "." ++ rest) ∧ bareName qualifiers name = name := by
  have hother : ∀ q, Text.dropPrefix? (q ++ ".") name = none → ∀ rest, name ≠ q ++ "." ++ rest :=
    fun q hq rest h => nomatch hq.symm.trans (Text.dropPrefix?_eq_some_iff.mpr h)
  cases hfirst : qualifiers.findSome? (fun q => Text.dropPrefix? (q ++ ".") name) with
  | none =>
    refine .inr ⟨fun q hq => hother q (List.findSome?_eq_none_iff.mp hfirst q hq), ?_⟩
    rw [bareName, hfirst, Option.getD_none]
  | some rest =>
    obtain ⟨before, q, after, hsplit, hq, hbefore⟩ := List.findSome?_eq_some_iff.mp hfirst
    refine .inl ⟨before, q, after, rest, hsplit,
      fun other hmem => hother other (hbefore other hmem),
      Text.dropPrefix?_eq_some_iff.mp hq, ?_⟩
    rw [bareName, hfirst, Option.getD_some]

/-- If no tables are joined, names stay as they are. -/
@[simp]
lemma bareName_nil (name : String) : bareName [] name = name := by
  obtain ⟨before, q, after, rest, h, -⟩ | ⟨-, h⟩ := bareName_cases [] name
  · cases before <;> cases h
  · exact h

/-! ## Labels of columns -/

/-- Whether a column is returned when all are asked for: it is neither computed nor the key of a
record nor the digest of a key. -/
def isShown (p : Projection) (column : String × Value) : Bool :=
  !(p.computed.contains column.1 || bareName p.qualifiers column.1 == keyColumn ||
    bareName p.qualifiers column.1 == digestColumn)

/-- The label of a column of a row that comes after others: its name inside its table, unless a
column of the row has that name or one of the others has it inside its table. Then it is the whole
name. -/
def starLabel (qualifiers : List String) (row : Row) (others : List (String × Value))
    (name : String) : String :=
  if bareName qualifiers name ∈ row.keys ∨
      bareName qualifiers name ∈ others.map (fun other => bareName qualifiers other.1) then name
  else bareName qualifiers name

/-- Columns of a row under their labels. -/
def starEntries (qualifiers : List String) (row : Row) (columns : List (String × Value)) :
    List (String × Value) :=
  columns.zipIdx.map fun column =>
    (starLabel qualifiers row (columns.take column.2) column.1.1, column.1.2)

/-- One more column. -/
lemma starEntries_concat (qualifiers : List String) (row : Row) (columns : List (String × Value))
    (column : String × Value) :
    starEntries qualifiers row (columns ++ [column]) =
      starEntries qualifiers row columns ++
        [(starLabel qualifiers row columns column.1, column.2)] := by
  rw [starEntries, starEntries, List.zipIdx_append, List.map_append]
  congr 1
  · refine List.map_congr_left fun c hc => ?_
    have hlt : c.2 < columns.length := List.snd_lt_of_mem_zipIdx hc
    rw [List.take_append_of_le_length (Nat.le_of_lt hlt)]
  · simp

/-- Columns keep their values. -/
lemma map_snd_starEntries (qualifiers : List String) (row : Row) (columns : List (String × Value)) :
    (starEntries qualifiers row columns).map Prod.snd = columns.map Prod.snd := by
  induction columns using List.reverseRecOn with
  | nil => rfl
  | append_singleton columns column ih =>
    rw [starEntries_concat, List.map_append, List.map_append, ih]
    rfl

/-! ## Labels -/

/-- A label is the name of its column, or a name inside a table that no column of the row has. -/
lemma of_mem_starEntries (h : label ∈ (starEntries qualifiers row columns).map Prod.fst) :
    label ∈ columns.map Prod.fst ∨
      label ∉ row.keys ∧ label ∈ columns.map fun other => bareName qualifiers other.1 := by
  induction columns using List.reverseRecOn with
  | nil => cases h
  | append_singleton columns column ih =>
    rw [starEntries_concat, List.map_append, List.mem_append] at h
    simp only [List.map_append, List.mem_append]
    rcases h with h | h
    · exact (ih h).imp Or.inl (And.imp_right Or.inl)
    · obtain rfl := List.mem_singleton.mp h
      unfold starLabel
      split
      · exact .inl (.inr (List.mem_singleton_self _))
      · next hfree => exact .inr ⟨fun hmem => hfree (.inl hmem), .inr (List.mem_singleton_self _)⟩

/-- A name inside a table that no column of the row has is the label of the first column with it. -/
lemma mem_starEntries (hfree : label ∉ row.keys)
    (h : label ∈ columns.map fun other => bareName qualifiers other.1) :
    label ∈ (starEntries qualifiers row columns).map Prod.fst := by
  induction columns using List.reverseRecOn with
  | nil => cases h
  | append_singleton columns column ih =>
    rw [starEntries_concat, List.map_append, List.mem_append]
    by_cases hbefore : label ∈ columns.map fun other => bareName qualifiers other.1
    · exact .inl (ih hbefore)
    · rw [List.map_append, List.mem_append] at h
      obtain rfl := List.mem_singleton.mp (h.resolve_left hbefore)
      refine .inr (List.mem_singleton.mpr ?_)
      rw [starLabel, if_neg (not_or.mpr ⟨hfree, hbefore⟩)]

/-- The label of one more column of the row is new. -/
lemma starLabel_not_mem (hcolumns : ∀ c ∈ columns, c.1 ∈ row.keys) (hrow : column.1 ∈ row.keys)
    (hnew : column.1 ∉ columns.map Prod.fst) :
    starLabel qualifiers row columns column.1 ∉
      (starEntries qualifiers row columns).map Prod.fst := by
  intro hmem
  unfold starLabel at hmem
  split at hmem
  · exact (of_mem_starEntries hmem).elim hnew fun h => h.1 hrow
  · next hfree =>
    obtain ⟨hfree, hothers⟩ := not_or.mp hfree
    refine (of_mem_starEntries hmem).elim (fun h => hfree ?_) fun h => hothers h.2
    obtain ⟨c, hc, hname⟩ := List.mem_map.mp h
    exact hname ▸ hcolumns c hc

/-! ## Returned columns -/

/-- A column that is shown goes to the end under its label.

**Proof sketch.** The label is the bare name unless this is taken, by the row or by a column
returned before. Since the returned columns stand under their labels, a bare name is among them if
and only if an earlier column has the same bare name or the name is one of the row. Such a label is
new, so it goes to the end. -/
lemma entries_addColumn {returned : Row} (hshown : p.isShown column = true)
    (hcolumns : ∀ c ∈ columns, c.1 ∈ row.keys) (hrow : column.1 ∈ row.keys)
    (hnew : column.1 ∉ columns.map Prod.fst)
    (hreturned : returned.entries = starEntries p.qualifiers row columns) :
    (p.addColumn row returned column).entries =
      starEntries p.qualifiers row (columns ++ [column]) := by
  have hkeys : returned.keys = (starEntries p.qualifiers row columns).map Prod.fst :=
    congrArg (List.map Prod.fst) hreturned
  have hlabel : p.addColumn row returned column =
      returned.set (starLabel p.qualifiers row columns column.1) column.2 := by
    have hskip := (Bool.not_eq_true' _).mp hshown
    unfold addColumn
    simp only [hskip, Bool.false_eq_true, if_false]
    rw [starLabel]
    by_cases hname : bareName p.qualifiers column.1 = column.1
    · simp [hname]
    · -- a name inside a table is taken if and only if the row or an earlier column has it
      have htaken : (bareName p.qualifiers column.1 ∈ row.keys ∨
            bareName p.qualifiers column.1 ∈ returned.keys) ↔
          (bareName p.qualifiers column.1 ∈ row.keys ∨ bareName p.qualifiers column.1 ∈
            columns.map fun other => bareName p.qualifiers other.1) := by
        rw [hkeys]
        refine or_congr_right' fun hfree => ⟨fun h => ?_, mem_starEntries hfree⟩
        refine (of_mem_starEntries h).elim (fun h => absurd ?_ hfree) And.right
        obtain ⟨c, hc, hname⟩ := List.mem_map.mp h
        exact hname ▸ hcolumns c hc
      simp only [bne_iff_ne, ne_eq, hname, not_false_eq_true, Bool.and_eq_true, Bool.or_eq_true,
        OrderedMap.contains_eq_true, true_and, htaken]
      split <;> rfl
  rw [hlabel, OrderedMap.entries_set_of_not_mem, hreturned, starEntries_concat]
  rw [hkeys]
  exact starLabel_not_mem hcolumns hrow hnew

/-- **The returned columns** are those that are shown, in order, each under its label.

**Proof sketch.** By induction on the columns that were looked at, from the end: what was returned
of them stands under their labels. A column that is not shown changes nothing. One that is shown is
new because the names of a row are distinct, and goes to the end. -/
theorem entries_allColumns (p : Projection) (row : Row) :
    (p.allColumns row).entries = starEntries p.qualifiers row (row.entries.filter p.isShown) := by
  suffices hfront : ∀ front back, row.entries = front ++ back →
      (front.foldl (p.addColumn row) .empty).entries =
        starEntries p.qualifiers row (front.filter p.isShown) from
    hfront row.entries [] (List.append_nil _).symm
  intro front
  induction front using List.reverseRecOn with
  | nil => exact fun _ _ => rfl
  | append_singleton front column ih =>
    intro back hentries
    have hreturned := ih (column :: back) (by rw [hentries, List.append_assoc]; rfl)
    rw [List.foldl_append, List.foldl_cons, List.foldl_nil, List.filter_append]
    cases hshown : p.isShown column with
    | false =>
      have hskip := (Bool.not_eq_false' _).mp hshown
      rw [List.filter_cons_of_neg (by simp [hshown]), List.filter_nil, List.append_nil, ← hreturned]
      simp only [addColumn, hskip, if_true]
    | true =>
      have hmem : ∀ c ∈ front ++ [column], c.1 ∈ row.keys := fun c hc =>
        List.mem_map_of_mem (hentries ▸ List.mem_append_left back hc)
      have hnew : column.1 ∉ front.map Prod.fst := fun h => by
        have hnodup := row.nodup
        rw [hentries, List.map_append, List.map_append] at hnodup
        exact (List.nodup_append.mp (List.nodup_append.mp hnodup).1).2.2 _ h _
          (List.mem_singleton_self _) rfl
      rw [List.filter_cons_of_pos hshown, List.filter_nil]
      refine entries_addColumn hshown (fun c hc => hmem c ?_) (hmem column (by simp))
        (fun h => hnew (List.Sublist.subset (List.filter_sublist.map _) h)) hreturned
      exact List.mem_append_left _ (List.mem_of_mem_filter hc)

/-- **All columns of a row are returned, each under a label of its own.** Let all columns be asked
for and nothing else. Then every row is returned, whatever its columns are called and whatever
tables are joined, with one column for each of its columns that is neither the key of a record nor
the digest of a key, in order and with its value. Its label is the name inside its table
(`bareName_cases`), unless a column of the row has that name or an earlier one has it inside its
table, and then the whole name. No two labels are the same. -/
theorem row_star (qualifiers : List String) (strict : Bool) (row : Row) :
    let shown := row.entries.filter fun column =>
      bareName qualifiers column.1 ≠ keyColumn ∧ bareName qualifiers column.1 ≠ digestColumn
    ∃ returned, Projection.row ⟨[], true, [], qualifiers, strict⟩ row = .ok returned ∧
      returned.entries = starEntries qualifiers row shown ∧
      returned.values = shown.map Prod.snd ∧ returned.keys.Nodup := by
  intro shown
  have hshown : row.entries.filter (isShown ⟨[], true, [], qualifiers, strict⟩) = shown := by
    refine List.filter_congr fun column _ => ?_
    rw [Bool.eq_iff_iff]
    simp [isShown]
  have hentries := entries_allColumns ⟨[], true, [], qualifiers, strict⟩ row
  rw [hshown] at hentries
  exact ⟨_, rfl, hentries, (congrArg (List.map Prod.snd) hentries).trans (map_snd_starEntries ..),
    OrderedMap.nodup _⟩

/-- Two joined tables with columns of the same names, and one with a point in the name of a column.
-/
example :
    let row := Row.ofValues ["PK", "name", "o.PK", "o.name", "o.person", "l.person", "o.l.note",
      "l.note"]
      (List.replicate 8 .null)
    (starEntries ["o", "l"] row (row.entries.filter
      (isShown ⟨[], true, [], ["o", "l"], false⟩))).map Prod.fst =
      ["name", "o.name", "person", "l.person", "o.l.note", "note"] := by
  decide +kernel

end Projection

end RecordQuery
