import RecordQuery.Proofs.Execution.Selected
import RecordQuery.Proofs.Row
import RecordQuery.Proofs.Store.Writing

set_option autoImplicit false

/-!
# What updates and deletions change

Updates and deletions select all their records before they write. A selected row shows the key of
its record, unless the record has a bin that is named like the key; so the record that is written is
the one that was selected. An update computes all values that it assigns to a record on the record
as it was selected; other records that it has written by then make no difference.

## Main definitions

* `UpdatePlan.valuesOf` — the values that an update assigns to a record.
* `Record.Assigned` — a record in which bins were assigned values.
* `Store.Removes`, `UpdatePlan.Changes` — a store from which records were removed, or in which they
  were updated, and that is otherwise as before.
* `UpdatePlan.Updates` — the latter in terms of the updated records, as it is proved.

## Main results

* `recordKeyOf_ofRecord` — a selected row shows the key of its record.
* `DeletePlan.exists_runRows`, `UpdatePlan.exists_runRows` — what is done to selected records.
* `Statement.execute_selected` — updates and deletions touch exactly the selected records.
-/

namespace RecordQuery

open Outcome

/-! ## Assigned bins -/

/-- The last of the values that a name is assigned. -/
def lastValue? (values : List (String × Value)) (name : String) : Option Value :=
  (values.reverse.find? (fun a => decide (a.1 = name))).map Prod.snd

/-- A record in which bins were assigned values. A null removes the bin; of several values for one
name the last one counts. All other bins are as before. -/
structure Record.Assigned (values : List (String × Value)) (r r' : Record) : Prop where
  /-- The key is the same. -/
  key : r'.key = r.key
  /-- An assigned bin has its last value, or is missing if that is null. -/
  assigned : ∀ name ∈ values.map Prod.fst,
    r'.bin? name = (lastValue? values name).filter (fun v => !v.isNull)
  /-- The other bins are the same, in the same order. -/
  others : r'.bins.entries.filter (fun e => decide (e.1 ∉ values.map Prod.fst)) =
    r.bins.entries.filter (fun e => decide (e.1 ∉ values.map Prod.fst))

section Bins

variable {params : List Value} {row : Row}

/-- All values are computed on the same row. -/
lemma assignedBins_eq (assignments : List (String × Expr)) (bins : Bins) :
    assignedBins params row assignments bins = (do
      let values ← assignments.mapM (fun a => do return (a.1, ← a.2.eval params row))
      return values.foldl (fun m a => m.insert a.1 a.2) bins) := by
  induction assignments generalizing bins with
  | nil => rfl
  | cons a assignments ih =>
    rw [assignedBins, List.mapM_cons]
    cases a.2.eval params row with
    | error e => rfl
    | ok v =>
      simp only [ok_bind, pure_bind, ih, bind_assoc]
      rfl

/-- A name that is assigned has a last value. -/
lemma isSome_lastValue? {values : List (String × Value)} {name : String} :
    (lastValue? values name).isSome = true ↔ name ∈ values.map Prod.fst := by
  rw [lastValue?, Option.isSome_map, List.find?_isSome]
  simp

namespace Store

/-- One bin is merged into a record. -/
def mergeBin (bins : Bins) (e : String × Value) : Bins :=
  if e.2.isNull then bins.erase e.1 else bins.insert e.1 e.2

/-- A merged bin is found unless it is null; the others are found as before. -/
lemma get?_mergeBin (bins : Bins) (e : String × Value) (name : String) :
    (mergeBin bins e).get? name =
      if name = e.1 then (some e.2).filter (fun v => !v.isNull) else bins.get? name := by
  unfold mergeBin
  cases hnull : e.2.isNull with
  | true =>
    by_cases hname : name = e.1 <;> simp [OrderedMap.get?_erase, Option.filter, hname, hnull]
  | false =>
    by_cases hname : name = e.1 <;> simp [OrderedMap.get?_insert, Option.filter, hname, hnull]

/-- The other bins stay where they are. -/
lemma filter_mergeBin {names : List String} (bins : Bins) {e : String × Value} (he : e.1 ∈ names) :
    (mergeBin bins e).entries.filter (fun f => decide (f.1 ∉ names)) =
      bins.entries.filter (fun f => decide (f.1 ∉ names)) := by
  have herase : (bins.erase e.1).entries.filter (fun f => decide (f.1 ∉ names)) =
      bins.entries.filter (fun f => decide (f.1 ∉ names)) := by
    rw [OrderedMap.erase, List.filter_filter]
    refine List.filter_congr fun f _ => ?_
    by_cases hf : f.1 ∈ names
    · simp [hf]
    · have hne : f.1 ≠ e.1 := fun h => hf (h ▸ he)
      simp [hf, hne]
  unfold mergeBin
  split
  · exact herase
  · rw [OrderedMap.insert, List.filter_append, herase]
    simp [he]

/-- **A merged bin is found** unless it is null; the others are found as before.

**Proof sketch.** Merging is a fold over the new bins (`hfold`). The names of these are different,
so the bin of a name is decided by the one new bin of that name, if there is any. -/
lemma get?_mergeBins (old new : Bins) (name : String) :
    (mergeBins old new).get? name =
      match new.get? name with
      | some v => (some v).filter (fun v => !v.isNull)
      | none => old.get? name := by
  have hfold : ∀ (es : List (String × Value)) (bins : Bins), (es.map Prod.fst).Nodup →
      (es.foldl mergeBin bins).get? name =
        match (es.find? (fun e => decide (e.1 = name))).map Prod.snd with
        | some v => (some v).filter (fun v => !v.isNull)
        | none => bins.get? name := by
    intro es
    induction es with
    | nil => exact fun _ _ => rfl
    | cons e es ih =>
      intro bins hnodup
      obtain ⟨hnot, hrest⟩ := List.nodup_cons.mp hnodup
      rw [List.foldl_cons, ih _ hrest]
      by_cases hname : e.1 = name
      · have hnone : es.find? (fun f => decide (f.1 = name)) = none := by
          rw [List.find?_eq_none]
          intro f hf heq
          rw [decide_eq_true_eq] at heq
          exact hnot (List.mem_map.mpr ⟨f, hf, heq.trans hname.symm⟩)
        simp [hnone, hname, get?_mergeBin]
      · have hne : ¬ name = e.1 := fun h => hname h.symm
        simp [hname, hne, get?_mergeBin]
  exact hfold new.entries old new.nodup

/-- The bins that are not merged stay where they are. -/
lemma filter_mergeBins {names : List String} (old new : Bins) (hnew : ∀ k ∈ new.keys, k ∈ names) :
    (mergeBins old new).entries.filter (fun e => decide (e.1 ∉ names)) =
      old.entries.filter (fun e => decide (e.1 ∉ names)) := by
  have hfold : ∀ (es : List (String × Value)) (bins : Bins), (∀ e ∈ es, e.1 ∈ names) →
      (es.foldl mergeBin bins).entries.filter (fun e => decide (e.1 ∉ names)) =
        bins.entries.filter (fun e => decide (e.1 ∉ names)) := by
    intro es
    induction es with
    | nil => exact fun _ _ => rfl
    | cons e es ih =>
      intro bins hes
      rw [List.foldl_cons, ih _ fun f hf => hes f (List.mem_cons_of_mem e hf),
        filter_mergeBin _ (hes e List.mem_cons_self)]
  exact hfold new.entries old fun e he => hnew e.1 (List.mem_map_of_mem he)

end Store

/-- **Merging the last values of an assignment** into a record assigns them. -/
lemma Record.assigned_mergeBins (values : List (String × Value)) (r : Record) :
    r.Assigned values { r with bins := Store.mergeBins r.bins (.ofInserts values) } := by
  have hfound : ∀ name, (OrderedMap.ofInserts values).get? name = lastValue? values name := by
    intro name
    rw [OrderedMap.ofInserts, OrderedMap.get?_foldl_insert, OrderedMap.get?_empty, Option.or_none,
      lastValue?]
  refine ⟨rfl, fun name hname => ?_, Store.filter_mergeBins _ _ fun name hname => ?_⟩
  · obtain ⟨v, hv⟩ := Option.isSome_iff_exists.mp (isSome_lastValue?.mpr hname)
    rw [Record.bin?, Store.get?_mergeBins, hfound, hv]
  · by_contra hnot
    rw [← isSome_lastValue?, ← hfound, Bool.not_eq_true, Option.isSome_eq_false_iff,
      Option.isNone_iff_eq_none, OrderedMap.get?_eq_none_iff] at hnot
    exact hnot hname

end Bins

/-! ## The records of a set after a write -/

namespace Store

variable {s : Store} {ns set : String} {r : Record}

/-- What stands under the key of a record of a set. -/
lemma get?_of_mem_recordsOf (h : r ∈ s.recordsOf ns set) :
    (s.recordSet ns set).get? r.key.user = some r.bins :=
  OrderedMap.get?_eq_some_iff.mpr (mem_recordsOf.mp h).2.2

/-- The key of a record of a set is there. -/
lemma mem_keys_of_mem_recordsOf (h : r ∈ s.recordsOf ns set) :
    r.key.user ∈ (s.recordSet ns set).keys :=
  List.mem_map_of_mem (mem_recordsOf.mp h).2.2

/-- The key of a record of a set. -/
lemma key_of_mem_recordsOf (h : r ∈ s.recordsOf ns set) : r.key = ⟨ns, set, r.key.user⟩ := by
  obtain ⟨hns, hset, -⟩ := mem_recordsOf.mp h
  rw [← hns, ← hset]

/-- No other record of the set has its key. -/
lemma eq_of_mem_recordsOf {x : Record} (hr : r ∈ s.recordsOf ns set)
    (hx : x ∈ s.recordsOf ns set) (hkey : x.key.user = r.key.user) : x = r :=
  List.inj_on_of_nodup_map (s.nodup_keys ns set) hx hr hkey

/-- The records after one of them got other bins. -/
lemma recordsOf_replace (h : r ∈ s.recordsOf ns set) (bins : Bins) :
    (s.withRecords ns set ((s.recordSet ns set).set r.key.user bins)).recordsOf ns set =
      (s.recordsOf ns set).map
        (fun x => if x.key.user = r.key.user then { x with bins } else x) := by
  rw [recordsOf, recordSet_withRecords,
    OrderedMap.entries_set_of_mem (mem_keys_of_mem_recordsOf h), recordsOf, List.map_map,
    List.map_map]
  refine List.map_congr_left fun e _ => ?_
  by_cases hkey : e.1 = r.key.user <;> simp [hkey]

/-- The records after one of them was removed. -/
lemma recordsOf_remove (s : Store) (ns set : String) (k : UserKey) :
    (s.withRecords ns set ((s.recordSet ns set).erase k)).recordsOf ns set =
      (s.recordsOf ns set).filter (fun x => decide (x.key.user ≠ k)) := by
  rw [recordsOf, recordSet_withRecords, OrderedMap.erase, recordsOf, List.filter_map]
  rfl

/-- **The other records of a list** are listed after a write that leaves records with other keys. -/
lemma Lists.tail {R : List Record} {t : Store} (h : s.Lists ns set (r :: R))
    (hleft : ∀ x ∈ s.recordsOf ns set, x.key.user ≠ r.key.user → x ∈ t.recordsOf ns set) :
    t.Lists ns set R := by
  obtain ⟨hnot, -⟩ := List.nodup_cons.mp h.nodup_keys
  refine ⟨fun x hx => hleft x (h.mem x (List.mem_cons_of_mem r hx)) fun hkey => ?_,
    (List.nodup_cons.mp h.nodup).2⟩
  exact hnot (List.mem_map.mpr ⟨x, hx, hkey⟩)

/-- The other records of a list after one of them got other bins. -/
lemma Lists.replace {R : List Record} (h : s.Lists ns set (r :: R)) (bins : Bins) :
    (s.withRecords ns set ((s.recordSet ns set).set r.key.user bins)).Lists ns set R := by
  refine h.tail fun x hx hkey => ?_
  rw [recordsOf_replace (h.mem r List.mem_cons_self)]
  exact List.mem_map.mpr ⟨x, hx, if_neg hkey⟩

/-- The other records of a list after one of them was removed. -/
lemma Lists.remove {R : List Record} (h : s.Lists ns set (r :: R)) :
    (s.withRecords ns set ((s.recordSet ns set).erase r.key.user)).Lists ns set R := by
  refine h.tail fun x hx hkey => ?_
  rw [recordsOf_remove]
  exact List.mem_filter.mpr ⟨hx, decide_eq_true hkey⟩

/-- Removing a record of a set. -/
lemma delete_of_mem_recordsOf (h : r ∈ s.recordsOf ns set) :
    s.delete r.key = (true, s.withRecords ns set ((s.recordSet ns set).erase r.key.user)) := by
  obtain ⟨rfl, rfl, -⟩ := mem_recordsOf.mp h
  exact delete_of_mem (mem_keys_of_mem_recordsOf h)

/-- Merging bins into a record of a set. -/
lemma put_of_mem_recordsOf (h : r ∈ s.recordsOf ns set) (bins : Bins) :
    s.put r.key bins .merge = (true, s.withRecords ns set
      ((s.recordSet ns set).set r.key.user (mergeBins r.bins bins))) := by
  obtain ⟨rfl, rfl, -⟩ := mem_recordsOf.mp h
  exact put_merge_of_get? (get?_of_mem_recordsOf h)

/-- Replacing the records of a set that is known makes no set known. -/
lemma keys_withRecords_of_mem (h : r ∈ s.recordsOf ns set) (records : RecordSet) :
    (s.withRecords ns set records).sets.keys = s.sets.keys := by
  rw [withRecords, OrderedMap.keys_set,
    if_pos (mem_keys_of_mem_recordSet (mem_keys_of_mem_recordsOf h))]

end Store

/-! ## Writing to selected records -/

/-- **A selected row shows the key of its record**, if the record has no bin of that name. -/
lemma recordKeyOf_ofRecord {p : QueryPlan} {r : Record} {withDigest : Bool}
    (hname : r.bin? keyColumn = none) (hns : r.key.ns = p.ns) (hset : p.set = some r.key.set) :
    recordKeyOf p (Row.ofRecord r withDigest) = .ok r.key := by
  have hne : keyColumn ≠ digestColumn := by decide
  have hkey : (Row.ofRecord r withDigest).get? keyColumn = some r.key.user.toValue := by
    rw [Row.get?_ofRecord, hname]
    simp [hne]
  simp only [recordKeyOf, hkey, UserKey.ofValue?_toValue, ok_bind, hset, Option.getD_some, ← hns]
  rfl

/-- Records were removed from a set, and nothing else was changed. -/
structure Store.Removes (ns set : String) (s : Store) (R : List Record) (t : Store) : Prop
    extends s.AlikeBut ns set t where
  /-- The same sets are known. -/
  known : t.sets.keys = s.sets.keys
  /-- The other records of the set are left, in the same order. -/
  records : t.recordsOf ns set =
    (s.recordsOf ns set).filter (fun r => decide (r.key.user ∉ R.map (fun x => x.key.user)))

/-- Without records nothing is removed. -/
lemma Store.Removes.nil (ns set : String) (s : Store) : Store.Removes ns set s [] s :=
  { Store.AlikeBut.refl ns set s with known := rfl, records := by simp }

/-- A record is removed and then others are. -/
lemma Store.Removes.cons {ns set : String} {s t : Store} {r : Record} {R : List Record}
    (hr : r ∈ s.recordsOf ns set)
    (h : (s.withRecords ns set ((s.recordSet ns set).erase r.key.user)).Removes ns set R t) :
    s.Removes ns set (r :: R) t := by
  refine { (Store.alikeBut_withRecords s ns set _).trans h.toAlikeBut with
    known := ?_, records := ?_ }
  · rw [h.known, Store.keys_withRecords_of_mem hr]
  · rw [h.records, Store.recordsOf_remove, List.filter_filter]
    refine List.filter_congr fun x _ => ?_
    simp only [List.map_cons, List.mem_cons, not_or, Bool.decide_and]
    exact Bool.and_comm _ _

/-- What a deletion does with the first of several rows. -/
lemma DeletePlan.runRows_cons {p : DeletePlan} {set : String} (hset : p.selection.set = some set)
    (withDigest : Bool) {s : Store} {r : Record} (hr : r ∈ s.recordsOf p.selection.ns set)
    (hname : r.bin? keyColumn = none) (rows : List Row) :
    p.runRows (Row.ofRecord r withDigest :: rows) s =
      (do return 1 + (← p.runRows rows) : StoreM Nat)
        (s.withRecords p.selection.ns set ((s.recordSet p.selection.ns set).erase r.key.user)) := by
  have hkey := Store.key_of_mem_recordsOf hr
  have hrecord : recordKeyOf p.selection (Row.ofRecord r withDigest) = .ok r.key :=
    recordKeyOf_ofRecord hname (by rw [hkey]) (by rw [hset, hkey])
  have hdelete : StoreM.delete r.key s = (.ok true, s.withRecords p.selection.ns set
      ((s.recordSet p.selection.ns set).erase r.key.user)) := by
    rw [StoreM.delete_run, Store.delete_of_mem_recordsOf hr]
  rw [DeletePlan.runRows, hrecord]
  refine (StoreM.bind_of_ok (a := r.key) rfl).trans ?_
  exact StoreM.bind_of_ok hdelete

/-- **Selected records are removed**, each of them. By induction on the records: removing the first
one leaves the others, for their keys differ from its key. -/
theorem DeletePlan.exists_runRows (p : DeletePlan) {set : String}
    (hset : p.selection.set = some set) (withDigest : Bool) {R : List Record} {s : Store}
    (hlists : s.Lists p.selection.ns set R)
    (hnames : ∀ r ∈ R, r.bin? keyColumn = none) :
    ∃ t, p.runRows (R.map (fun r => Row.ofRecord r withDigest)) s = (.ok R.length, t) ∧
      s.Removes p.selection.ns set R t := by
  induction R generalizing s with
  | nil => exact ⟨s, rfl, .nil _ _ s⟩
  | cons r R ih =>
    have hr := hlists.mem r List.mem_cons_self
    obtain ⟨t, hrun, hremoves⟩ :=
      ih hlists.remove fun x hx => hnames x (List.mem_cons_of_mem r hx)
    refine ⟨t, (runRows_cons hset withDigest hr (hnames r List.mem_cons_self) _).trans ?_,
      .cons hr hremoves⟩
    rw [StoreM.map_of_ok _ hrun, List.length_cons, Nat.add_comm]

/-! ## Updates -/

namespace UpdatePlan

variable {p : UpdatePlan} {params : List Value}

/-- The values that an update assigns to a record, each computed on the record as it is. The row on
which that is done shows the key of the record, and its digest if the selection asks for it. -/
def valuesOf (p : UpdatePlan) (params : List Value) (r : Record) :
    Except QueryError (List (String × Value)) :=
  p.assignments.mapM (fun a => do
    return (a.1, ← a.2.eval params (Row.ofRecord r p.selection.needsDigest)))

/-- The bins that are written are the last ones of these values. -/
lemma assignedBins_valuesOf (p : UpdatePlan) (params : List Value) (r : Record) :
    assignedBins params (Row.ofRecord r p.selection.needsDigest) p.assignments .empty =
      (do return .ofInserts (← p.valuesOf params r)) := assignedBins_eq p.assignments .empty

/-- The record after an update, if its values can be computed. -/
def updated (p : UpdatePlan) (params : List Value) (r : Record) : Record :=
  match p.valuesOf params r with
  | .ok values => { r with bins := Store.mergeBins r.bins (.ofInserts values) }
  | .error _ => r

/-- An update keeps the key. -/
lemma key_updated (params : List Value) (r : Record) : (p.updated params r).key = r.key := by
  unfold updated
  split <;> rfl

/-- Records of a set were updated, and nothing else was changed. -/
structure Changes (p : UpdatePlan) (params : List Value) (ns set : String) (s : Store)
    (R : List Record) (t : Store) : Prop extends s.AlikeBut ns set t where
  /-- The same sets are known. -/
  known : t.sets.keys = s.sets.keys
  /-- The records stand where they stood. Those that were updated were assigned the values that were
  computed on them as they were; the others are as before. -/
  records : ∃ f : Record → Record, t.recordsOf ns set = (s.recordsOf ns set).map f ∧
    (∀ r, r.key.user ∉ R.map (fun x => x.key.user) → f r = r) ∧
    ∀ r ∈ R, ∃ values, p.valuesOf params r = .ok values ∧ r.Assigned values (f r)

/-- The same in terms of the updated records. -/
structure Updates (p : UpdatePlan) (params : List Value) (ns set : String) (s : Store)
    (R : List Record) (t : Store) : Prop extends s.AlikeBut ns set t where
  /-- The same sets are known. -/
  known : t.sets.keys = s.sets.keys
  /-- The values of the records can be computed. -/
  values : ∀ r ∈ R, ∃ values, p.valuesOf params r = .ok values
  /-- The records with their keys are updated. -/
  records : t.recordsOf ns set = (s.recordsOf ns set).map
    (fun r => if r.key.user ∈ R.map (fun x => x.key.user) then p.updated params r else r)

section Updates

variable {ns set : String} {s t : Store} {r : Record} {R : List Record}

/-- Updates change the records as they should. -/
lemma Updates.changes (h : p.Updates params ns set s R t) : p.Changes params ns set s R t := by
  refine { h.toAlikeBut with
    known := h.known, records := ⟨_, h.records, fun r hr => if_neg hr, ?_⟩ }
  intro r hr
  obtain ⟨values, hvalues⟩ := h.values r hr
  refine ⟨values, hvalues, ?_⟩
  rw [if_pos (List.mem_map_of_mem hr), updated, hvalues]
  exact Record.assigned_mergeBins values r

/-- Without records nothing is updated. -/
lemma Updates.nil (p : UpdatePlan) (params : List Value) (ns set : String) (s : Store) :
    p.Updates params ns set s [] s :=
  { Store.AlikeBut.refl ns set s with known := rfl, values := by simp, records := by simp }

/-- The records after the first one was updated and then some of the others. -/
lemma map_updated_cons (hr : r ∈ s.recordsOf ns set) {touched : List UserKey}
    (hnot : r.key.user ∉ touched) :
    ((s.withRecords ns set ((s.recordSet ns set).set r.key.user
        (p.updated params r).bins)).recordsOf ns set).map
        (fun x => if x.key.user ∈ touched then p.updated params x else x) =
      (s.recordsOf ns set).map
        (fun x => if x.key.user ∈ r.key.user :: touched then p.updated params x else x) := by
  rw [Store.recordsOf_replace hr, List.map_map]
  refine List.map_congr_left fun x hx => ?_
  simp only [Function.comp_apply]
  by_cases hkey : x.key.user = r.key.user
  · obtain rfl := Store.eq_of_mem_recordsOf hr hx hkey
    simp only [if_true, List.mem_cons_self, if_neg hnot]
    rw [← p.key_updated params x]
  · simp only [List.mem_cons, hkey, false_or, if_false]

/-- **A record is updated** and then others with other keys are. -/
lemma Updates.cons (hr : r ∈ s.recordsOf ns set) {values : List (String × Value)}
    (hvalues : p.valuesOf params r = .ok values) (hnot : r.key.user ∉ R.map (fun x => x.key.user))
    (h : p.Updates params ns set (s.withRecords ns set ((s.recordSet ns set).set r.key.user
      (p.updated params r).bins)) R t) : p.Updates params ns set s (r :: R) t := by
  refine { (Store.alikeBut_withRecords s ns set _).trans h.toAlikeBut with
    known := ?_, values := fun x hx => ?_, records := ?_ }
  · rw [h.known, Store.keys_withRecords_of_mem hr]
  · rcases List.mem_cons.mp hx with rfl | hx
    · exact ⟨values, hvalues⟩
    · exact h.values x hx
  · rw [h.records, map_updated_cons hr hnot, List.map_cons]

end Updates

/-- What an update does to the first of several rows. -/
lemma runRows_cons_of_ok {set : String} (hset : p.selection.set = some set) {s : Store} {r : Record}
    (hr : r ∈ s.recordsOf p.selection.ns set) (hname : r.bin? keyColumn = none)
    {values : List (String × Value)} (hvalues : p.valuesOf params r = .ok values)
    (rows : List Row) :
    p.runRows params (Row.ofRecord r p.selection.needsDigest :: rows) s =
      (do return 1 + (← p.runRows params rows) : StoreM Nat)
        (s.withRecords p.selection.ns set ((s.recordSet p.selection.ns set).set r.key.user
          (p.updated params r).bins)) := by
  have hkey := Store.key_of_mem_recordsOf hr
  have hrecord : recordKeyOf p.selection (Row.ofRecord r p.selection.needsDigest) = .ok r.key :=
    recordKeyOf_ofRecord hname (by rw [hkey]) (by rw [hset, hkey])
  have hput : StoreM.put r.key (.ofInserts values) .merge s =
      (.ok true, s.withRecords p.selection.ns set ((s.recordSet p.selection.ns set).set r.key.user
        (p.updated params r).bins)) := by
    rw [StoreM.put_run, Store.put_of_mem_recordsOf hr, updated, hvalues]
  rw [runRows, hrecord, assignedBins_valuesOf, hvalues]
  refine (StoreM.bind_of_ok (a := r.key) rfl).trans ?_
  refine (StoreM.bind_of_ok (a := OrderedMap.ofInserts values) rfl).trans ?_
  exact StoreM.bind_of_ok hput

/-- A row whose values cannot be computed changes nothing. -/
lemma runRows_cons_of_error {set : String} (hset : p.selection.set = some set) {s : Store}
    {r : Record} (hr : r ∈ s.recordsOf p.selection.ns set) (hname : r.bin? keyColumn = none)
    {e : QueryError} (hvalues : p.valuesOf params r = .error e) (rows : List Row) :
    p.runRows params (Row.ofRecord r p.selection.needsDigest :: rows) s = (.error e, s) := by
  have hkey := Store.key_of_mem_recordsOf hr
  have hrecord : recordKeyOf p.selection (Row.ofRecord r p.selection.needsDigest) = .ok r.key :=
    recordKeyOf_ofRecord hname (by rw [hkey]) (by rw [hset, hkey])
  rw [runRows, hrecord, assignedBins_valuesOf, hvalues]
  rfl

/-- **Selected records are updated up to the first whose values cannot be computed.**

**Proof sketch.** By induction on the selected records. Updating the first one leaves the others as
they are, for their keys differ from its key; so what is assigned to them does not depend on it. -/
theorem exists_runRows (p : UpdatePlan) (params : List Value) {set : String}
    (hset : p.selection.set = some set) {R : List Record} {s : Store}
    (hlists : s.Lists p.selection.ns set R) (hnames : ∀ r ∈ R, r.bin? keyColumn = none) :
    ∃ done t, p.Updates params p.selection.ns set s (R.take done) t ∧
      ((done = R.length ∧ p.runRows params
          (R.map (fun r => Row.ofRecord r p.selection.needsDigest)) s = (.ok R.length, t)) ∨
        ∃ r e, R[done]? = some r ∧ p.valuesOf params r = .error e ∧ p.runRows params
          (R.map (fun r => Row.ofRecord r p.selection.needsDigest)) s = (.error e, t)) := by
  induction R generalizing s with
  | nil => exact ⟨0, s, .nil p params _ _ s, .inl ⟨rfl, rfl⟩⟩
  | cons r R ih =>
    have hr := hlists.mem r List.mem_cons_self
    have hname := hnames r List.mem_cons_self
    cases hvalues : p.valuesOf params r with
    | error e =>
      exact ⟨0, s, .nil p params _ _ s,
        .inr ⟨r, e, rfl, hvalues, runRows_cons_of_error hset hr hname hvalues _⟩⟩
    | ok values =>
      have hfirst := runRows_cons_of_ok hset hr hname hvalues
        (R.map (fun x => Row.ofRecord x p.selection.needsDigest))
      obtain ⟨done, t, hupdates, hend⟩ :=
        ih (hlists.replace _) fun x hx => hnames x (List.mem_cons_of_mem r hx)
      have hnot : r.key.user ∉ (R.take done).map (fun x => x.key.user) := fun h =>
        (List.nodup_cons.mp hlists.nodup_keys).1 (((List.take_sublist done R).map _).subset h)
      refine ⟨done + 1, t, .cons hr hvalues hnot hupdates, ?_⟩
      rcases hend with ⟨rfl, hrun⟩ | ⟨x, e, hx, hfails, hrun⟩
      · refine .inl ⟨rfl, hfirst.trans ?_⟩
        rw [StoreM.map_of_ok _ hrun, List.length_cons, Nat.add_comm]
      · exact .inr ⟨x, e, hx, hfails, hfirst.trans (StoreM.bind_of_error hrun)⟩

end UpdatePlan

/-! ## Statements -/

/-- A bound selection reads records of the store by the strategy for its conditions. -/
structure QueryPlan.IsSelection (p : QueryPlan) : Prop where
  /-- It has no source and reduces nothing. -/
  direct : p.IsDirect
  /-- Its strategy is the one for its conditions. -/
  settled : p.isSettled

/-- Binding the selection of an update or a deletion. -/
lemma QueryPlan.isSelection_of_bind {env : CompileEnv} {table : TableName} {condition : Option Expr}
    {params : List Value} {p q : QueryPlan} (hp : compileSelection env table condition = .ok p)
    (hq : p.bind params = .ok q) : q.IsSelection := by
  refine ⟨(compileSelection_isDirect hp).bind hq, ?_⟩
  rw [QueryPlan.bind_eq] at hq
  obtain ⟨source, -, hq⟩ := bind_eq_ok.mp hq
  obtain ⟨slots, -, hq⟩ := bind_eq_ok.mp hq
  simp only [QueryPlan.bindOwn, bind_eq_ok] at hq
  obtain ⟨joins, -, t, -, offset, -, limit, -, hq⟩ := hq
  split at hq
  · obtain ⟨filtered, -, hq⟩ := bind_eq_ok.mp hq
    exact isSettled_of_chooseStrategy hq
  · exact isSettled_of_chooseStrategy hq

/-- What a statement that is compiled and bound selects by. -/
def StatementPlan.selections : StatementPlan → List QueryPlan
  | update p => [p.selection]
  | delete p => [p.selection]
  | _ => []

/-- The selections of a statement that is compiled and bound.

**Proof sketch.** The compilation and the binding of each statement are taken apart. Only updates
and deletions have a selection, and it is a compiled selection that is bound
(`QueryPlan.isSelection_of_bind`). -/
lemma Statement.isSelection_of_bind {config : Config} {catalog : IndexCatalog}
    {params : List Value} {s : Statement} {b : BoundStatement}
    (h : (s.compile config catalog >>= fun e => e.bind params) = .ok b) :
    b.params = params ∧ ∀ p ∈ b.plan.selections, p.IsSelection := by
  obtain ⟨e, he, h⟩ := bind_eq_ok.mp h
  simp only [Statement.compile, bind_eq_ok, pure_eq_ok] at he
  obtain ⟨plan, hplan, rfl⟩ := he
  obtain ⟨-, bound, hbound, rfl⟩ := Executable.of_bind_eq_ok h
  refine ⟨rfl, ?_⟩
  cases s with
  | update s =>
    simp only [Statement.plan, Update.plan, bind_eq_ok, pure_eq_ok] at hplan
    obtain ⟨p, ⟨selection, hselection, -, -, limit, -, rfl⟩, rfl⟩ := hplan
    simp only [StatementPlan.bind, bind_eq_ok, pure_eq_ok] at hbound
    obtain ⟨q, hq, limit', -, rfl⟩ := hbound
    intro p hp
    obtain rfl := List.mem_singleton.mp hp
    exact QueryPlan.isSelection_of_bind hselection hq
  | delete s =>
    simp only [Statement.plan, Delete.plan, bind_eq_ok, pure_eq_ok] at hplan
    obtain ⟨p, ⟨selection, hselection, limit, -, rfl⟩, rfl⟩ := hplan
    simp only [StatementPlan.bind, bind_eq_ok, pure_eq_ok] at hbound
    obtain ⟨q, hq, limit', -, rfl⟩ := hbound
    intro p hp
    obtain rfl := List.mem_singleton.mp hp
    exact QueryPlan.isSelection_of_bind hselection hq
  | query q =>
    simp only [Statement.plan, bind_eq_ok, pure_eq_ok] at hplan
    obtain ⟨n, -, rfl⟩ := hplan
    simp only [StatementPlan.bind, bind_eq_ok, pure_eq_ok] at hbound
    obtain ⟨m, -, rfl⟩ := hbound
    simp [StatementPlan.selections]
  | insert s =>
    simp only [Statement.plan, bind_eq_ok, pure_eq_ok] at hplan
    obtain ⟨p, -, rfl⟩ := hplan
    obtain rfl := Except.ok.inj hbound
    simp [StatementPlan.selections]
  | truncate _ | createIndex _ | dropIndex _ _ =>
    obtain rfl := Except.ok.inj hplan
    obtain rfl := Except.ok.inj hbound
    simp [StatementPlan.selections]

/-! ### Carrying out updates and deletions -/

section Effects

variable {K : Store} {R : List Record} {ns set : String}

/-- A store that is like another one lists the same records. -/
lemma Store.Lists.of_alike {st : Store} (h : K.Lists ns set R) (hlike : st.Alike K) :
    st.Lists ns set R :=
  ⟨fun r hr => by rw [hlike.recordsOf]; exact h.mem r hr, h.nodup⟩

/-- Reading does not matter to what a deletion removes. -/
lemma Store.Removes.of_alike {st t : Store} (h : st.Removes ns set R t) (hlike : st.Alike K) :
    K.Removes ns set R t :=
  { (hlike.symm.alikeBut ns set).trans h.toAlikeBut with
    known := by rw [h.known, hlike.sets]
    records := by rw [h.records, hlike.recordsOf] }

/-- Reading does not matter to what an update changes. -/
lemma UpdatePlan.Changes.of_alike {p : UpdatePlan} {params : List Value} {st t : Store}
    (h : p.Changes params ns set st R t) (hlike : st.Alike K) : p.Changes params ns set K R t :=
  { (hlike.symm.alikeBut ns set).trans h.toAlikeBut with
    known := by rw [h.known, hlike.sets]
    records := by rw [← hlike.recordsOf]; exact h.records }

/-- A deletion removes what it selects. -/
theorem DeletePlan.exists_run {p : DeletePlan} (env : ExecutionEnv) (hp : p.selection.IsSelection)
    (hnames : ∀ ns set, ∀ r ∈ K.recordsOf ns set, r.bin? keyColumn = none)
    (hR : selectedRecords env K p.selection p.limit = .ok R) :
    ∃ set t, p.selection.set = some set ∧ K.Lists p.selection.ns set R ∧
      K.Removes p.selection.ns set R t ∧ p.run env K = (.ok R.length, t) := by
  obtain ⟨set, hset, hlists⟩ := lists_selectedRecords hp.direct hp.settled hR
  obtain ⟨st, hselect, hlike⟩ := reads_selectedRows env K hp.direct hp.settled p.limit K (.refl K)
  rw [hR] at hselect
  obtain ⟨t, hrun, hremoves⟩ := p.exists_runRows hset p.selection.needsDigest
    (hlists.of_alike hlike) fun r hr => hnames _ _ r (hlists.mem r hr)
  exact ⟨set, t, hset, hlists, hremoves.of_alike hlike, (StoreM.bind_of_ok hselect).trans hrun⟩

/-- An update changes what it selects. -/
theorem UpdatePlan.exists_run {p : UpdatePlan} (env : ExecutionEnv) (hp : p.selection.IsSelection)
    (hnames : ∀ ns set, ∀ r ∈ K.recordsOf ns set, r.bin? keyColumn = none)
    (hR : selectedRecords env K p.selection p.limit = .ok R) :
    ∃ set done t, p.selection.set = some set ∧ K.Lists p.selection.ns set R ∧
      p.Changes env.params p.selection.ns set K (R.take done) t ∧
      ((done = R.length ∧ p.run env K = (.ok R.length, t)) ∨
        ∃ r e, R[done]? = some r ∧ p.valuesOf env.params r = .error e ∧
          p.run env K = (.error e, t)) := by
  obtain ⟨set, hset, hlists⟩ := lists_selectedRecords hp.direct hp.settled hR
  obtain ⟨st, hselect, hlike⟩ := reads_selectedRows env K hp.direct hp.settled p.limit K (.refl K)
  rw [hR] at hselect
  obtain ⟨done, t, hupdates, hend⟩ := p.exists_runRows env.params hset (hlists.of_alike hlike)
    fun r hr => hnames _ _ r (hlists.mem r hr)
  refine ⟨set, done, t, hset, hlists, hupdates.changes.of_alike hlike, ?_⟩
  rcases hend with ⟨hdone, hrun⟩ | ⟨r, e, hr, hvalues, hrun⟩
  · exact .inl ⟨hdone, (StoreM.bind_of_ok hselect).trans hrun⟩
  · exact .inr ⟨r, e, hr, hvalues, (StoreM.bind_of_ok hselect).trans hrun⟩

/-- **Updates and deletions touch exactly the selected records.** Let no record have a bin that is
named like the key, and let a statement be compiled and bound.

If the selection of a deletion fails, the deletion fails and leaves all records. Otherwise it
removes the selected records, and no other, and returns their number.

If the selection of an update fails, so does the update, and all records are left. Otherwise the
selected records are updated one after the other: each is assigned the values that are computed on
it as it was before the statement, and nothing else is changed. If all values can be computed, the
update returns the number of selected records. Otherwise it fails, and exactly the records before
the first for which that is not possible have been updated.

**Proof sketch.** A failing selection fails the statement, and selecting only reads (`hfails`).
Otherwise the rows of the selection are those of its records, and the loop over them is described
record by record (`DeletePlan.exists_run`, `UpdatePlan.exists_run`). An update may end early, which
shows in the number of records that are done. -/
theorem Statement.execute_selected {config : Config} {catalog : IndexCatalog}
    {params : List Value} {s : Statement} {b : BoundStatement}
    (hbound : (s.compile config catalog >>= fun e => e.bind params) = .ok b) (K : Store)
    (hnames : ∀ ns set, ∀ r ∈ K.recordsOf ns set, r.bin? keyColumn = none) :
    (∀ p, b.plan = .delete p →
      (∀ e, selectedRecords b.env K p.selection p.limit = .error e →
        ∃ t, b.execute K = (.error e, t) ∧ t.Alike K) ∧
      ∀ R, selectedRecords b.env K p.selection p.limit = .ok R →
        ∃ set t, p.selection.set = some set ∧ K.Lists p.selection.ns set R ∧
          K.Removes p.selection.ns set R t ∧ b.execute K = (.ok (.affected R.length), t)) ∧
    ∀ p, b.plan = .update p →
      (∀ e, selectedRecords b.env K p.selection p.limit = .error e →
        ∃ t, b.execute K = (.error e, t) ∧ t.Alike K) ∧
      ∀ R, selectedRecords b.env K p.selection p.limit = .ok R →
        ∃ set done t, p.selection.set = some set ∧ K.Lists p.selection.ns set R ∧
          p.Changes params p.selection.ns set K (R.take done) t ∧
          ((done = R.length ∧ b.execute K = (.ok (.affected R.length), t)) ∨
            ∃ r e, R[done]? = some r ∧ p.valuesOf params r = .error e ∧
              b.execute K = (.error e, t)) := by
  obtain ⟨hparams, hselections⟩ := Statement.isSelection_of_bind hbound
  have hfails : ∀ (q : QueryPlan) (limit : Option RowBound) (e : QueryError), q.IsSelection →
      selectedRecords b.env K q limit = .error e →
        ∃ st, selectedRows b.env q limit K = (.error e, st) ∧ st.Alike K := by
    intro q limit e hq he
    obtain ⟨st, hselect, hlike⟩ := reads_selectedRows b.env K hq.direct hq.settled limit K (.refl K)
    rw [he] at hselect
    exact ⟨st, hselect, hlike⟩
  constructor
  · intro p hp
    rw [hp] at hselections
    have hselection := hselections p.selection (List.mem_singleton_self _)
    constructor
    · intro e he
      obtain ⟨st, hselect, hlike⟩ := hfails p.selection p.limit e hselection he
      rw [BoundStatement.execute, hp]
      exact ⟨st, StoreM.bind_of_error (StoreM.bind_of_error hselect), hlike⟩
    · intro R hR
      obtain ⟨set, t, hset, hlists, hremoves, hrun⟩ :=
        DeletePlan.exists_run b.env hselection hnames hR
      rw [BoundStatement.execute, hp]
      exact ⟨set, t, hset, hlists, hremoves, StoreM.map_of_ok _ hrun⟩
  · intro p hp
    rw [hp] at hselections
    have hselection := hselections p.selection (List.mem_singleton_self _)
    constructor
    · intro e he
      obtain ⟨st, hselect, hlike⟩ := hfails p.selection p.limit e hselection he
      rw [BoundStatement.execute, hp]
      exact ⟨st, StoreM.bind_of_error (StoreM.bind_of_error hselect), hlike⟩
    · intro R hR
      obtain ⟨set, done, t, hset, hlists, hchanges, hend⟩ :=
        UpdatePlan.exists_run b.env hselection hnames hR
      rw [show b.env.params = params from hparams] at hchanges hend
      refine ⟨set, done, t, hset, hlists, hchanges, ?_⟩
      rw [BoundStatement.execute, hp]
      rcases hend with ⟨hdone, hrun⟩ | ⟨r, e, hr, hvalues, hrun⟩
      · exact .inl ⟨hdone, StoreM.map_of_ok _ hrun⟩
      · exact .inr ⟨r, e, hr, hvalues, StoreM.bind_of_error hrun⟩

end Effects

/-- The update that a statement is compiled to, if it is one. -/
def StatementPlan.update? : StatementPlan → Option UpdatePlan
  | update p => some p
  | _ => none

/-- The plan of an update. -/
lemma StatementPlan.update?_eq_some {s : StatementPlan} {p : UpdatePlan} (h : s.update? = some p) :
    s = .update p := by
  cases s with
  | update q => exact congrArg _ (Option.some.inj h)
  | _ => cases h

/-- A store with two pairs of numbers, of which the second starts with zero. -/
def Store.pairs : Store :=
  let pair (a b : Int64) : Bins := (OrderedMap.empty.set "a" (.integer a)).set "b" (.integer b)
  { sets := OrderedMap.empty.set ("test", "pairs")
      ((OrderedMap.empty.set (.integer 1) (pair 3 4)).set (.integer 2) (pair 0 5))
    indexes := []
    counts := .zero }

/-- The update that puts `b` for `a` and twelve by `a` for `b`. -/
def Statement.divideByFirst : Statement :=
  .update ⟨⟨none, "pairs"⟩, [("a", .column ⟨none, "b"⟩),
    ("b", .binary (.arith .div) (.literal (.integer 12)) (.column ⟨none, "a"⟩))], none, none⟩

/-- Both pairs are selected. The first one is updated, and then twelve cannot be divided by the zero
of the second one; so the update fails, and the first pair alone has been updated.

**Proof sketch.** No pair has a bin that is named like the key. The run is evaluated once, up to
whether each selected record can be assigned its values; then `Statement.execute_selected` at this
store says what has been updated, and the record for which it fails can only be the second one. -/
theorem Statement.execute_divideByFirst :
    ∃ b p r r' set t,
      (divideByFirst.compile .standard [] >>= fun e => e.bind []) = .ok b ∧
      b.plan = .update p ∧ selectedRecords b.env .pairs p.selection p.limit = .ok [r, r'] ∧
      (∀ ns set, ∀ r ∈ Store.pairs.recordsOf ns set, r.bin? keyColumn = none) ∧
      p.Changes [] p.selection.ns set .pairs [r] t ∧
      b.execute .pairs = (.error .divisionByZero, t) := by
  have hnames : ∀ ns set, ∀ r ∈ Store.pairs.recordsOf ns set, r.bin? keyColumn = none := by
    intro ns set r hr
    by_cases hid : (ns, set) = ("test", "pairs")
    · obtain ⟨rfl, rfl⟩ := Prod.mk.inj hid
      have hall : ∀ r ∈ Store.pairs.recordsOf "test" "pairs", (r.bin? keyColumn).isNone = true := by
        decide
      exact Option.isNone_iff_eq_none.mp (hall r hr)
    · have hset : Store.pairs.recordSet ns set = .empty := by
        simp [Store.recordSet, Store.pairs, OrderedMap.get?_set, hid]
      simp [Store.recordsOf, hset, OrderedMap.empty] at hr
  have hrun : ((divideByFirst.compile .standard [] >>= fun e => e.bind []).toOption.bind fun b =>
      b.plan.update?.map fun p =>
        ((selectedRecords b.env .pairs p.selection p.limit).toOption.map fun R =>
            R.map fun r => (p.valuesOf [] r).toOption.isSome,
          (b.execute .pairs).1.map fun _ => ())) =
        some (some [true, false], .error .divisionByZero) := by
    decide +kernel
  obtain ⟨b, hb, hrun⟩ := Option.bind_eq_some_iff.mp hrun
  obtain ⟨p, hp, hrun⟩ := Option.map_eq_some_iff.mp hrun
  obtain ⟨hselected, hfails⟩ := Prod.mk.inj hrun
  obtain ⟨R, hR, hvalues⟩ := Option.map_eq_some_iff.mp hselected
  obtain ⟨r, R, rfl, hr, hvalues⟩ := List.map_eq_cons_iff.mp hvalues
  obtain ⟨r', R, rfl, -, hvalues⟩ := List.map_eq_cons_iff.mp hvalues
  obtain rfl := List.map_eq_nil_iff.mp hvalues
  have hb := eq_ok_of_toOption hb
  have hp := StatementPlan.update?_eq_some hp
  have hR := eq_ok_of_toOption hR
  obtain ⟨set, done, t, -, -, hchanges, hend⟩ :=
    ((Statement.execute_selected hb .pairs hnames).2 p hp).2 _ hR
  rcases hend with ⟨-, hok⟩ | ⟨x, e, hx, hvalue, herror⟩
  · rw [hok] at hfails
    cases hfails
  · rw [herror] at hfails
    obtain rfl := Except.error.inj hfails
    rcases done with _ | _ | done
    · obtain rfl := Option.some.inj hx
      rw [hvalue] at hr
      cases hr
    · exact ⟨b, p, r, r', set, t, hb, hp, hR, hnames, hchanges, herror⟩
    · cases hx

end RecordQuery
