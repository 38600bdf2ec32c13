import Mathlib.Data.List.Induction
import Mathlib.Data.List.Nodup
import RecordQuery.OrderedMap

set_option autoImplicit false

/-!
# Writing several entries

Rows grow by writing the entries of one map into another, under other names. What was there keeps
its place, so that such writes can be described without their order: by the keys and by what is
found under each.

## Main definitions

* `OrderedMap.writeAll` — a map into which another one is written, under other names.

## Main results

* `OrderedMap.ext_get?` — a map is fixed by its keys and by what is found under each.
* `OrderedMap.entries_set_of_not_mem`, `OrderedMap.entries_set_of_mem` — the entries after a write.
* `OrderedMap.mem_entries_set`, `OrderedMap.mem_entries_ofInserts` — each was there or was written.
* `OrderedMap.entries_ofInserts` — keys that are written once stand in the order of the writes.
* `OrderedMap.get?_foldl_set`, `OrderedMap.get?_foldl_insert`, `OrderedMap.keys_foldl_set` — reading
  after several writes.
* `OrderedMap.writeAll_set` — writing a map with one more entry under other names.
-/

namespace RecordQuery

namespace OrderedMap

variable {K L V : Type} [DecidableEq K] [DecidableEq L]

/-- **A map is fixed by its keys and by what is found under each.**

**Proof sketch.** Induction on the entries of both maps. The first keys are the same, so the first
values are what is found there; behind them the first key does not occur again, so looking up skips
it. -/
theorem ext_get? {m n : OrderedMap K V} (hkeys : m.keys = n.keys)
    (hget : ∀ k ∈ m.keys, m.get? k = n.get? k) : m = n := by
  obtain ⟨es, hes⟩ := m
  obtain ⟨fs, hfs⟩ := n
  suffices h : es = fs by subst h; rfl
  simp only [keys, get?] at hkeys hget
  clear hfs
  induction es generalizing fs with
  | nil => exact (List.map_eq_nil_iff.mp hkeys.symm).symm
  | cons e es ih =>
    obtain ⟨a, v⟩ := e
    cases fs with
    | nil => cases hkeys
    | cons f fs =>
      obtain ⟨b, w⟩ := f
      obtain ⟨rfl, hrest⟩ := List.cons.inj hkeys
      obtain ⟨hnot, hnodup⟩ := List.nodup_cons.mp hes
      have hhead : v = w := by simpa using hget a List.mem_cons_self
      subst hhead
      refine congrArg _ (ih hnodup fs hrest fun k hk => ?_)
      have hne : a ≠ k := fun h => hnot (h ▸ hk)
      simpa [hne] using hget k (List.mem_cons_of_mem a hk)

/-! ## Entries after a write -/

/-- A new key goes to the end. -/
lemma entries_set_of_not_mem {m : OrderedMap K V} {k : K} (h : k ∉ m.keys) (v : V) :
    (m.set k v).entries = m.entries ++ [(k, v)] := by
  unfold set
  rw [dif_neg fun hm => h (contains_eq_true.mp hm)]

/-- A key that is present gets its new value in its place. -/
lemma entries_set_of_mem {m : OrderedMap K V} {k : K} (h : k ∈ m.keys) (v : V) :
    (m.set k v).entries = m.entries.map (fun e => if e.1 = k then (k, v) else e) := by
  have hreplace : ∀ es : List (K × V),
      replaceIn k v es = es.map (fun e => if e.1 = k then (k, v) else e) := by
    intro es
    induction es with
    | nil => rfl
    | cons e es ih => rw [replaceIn, ih, List.map_cons]
  unfold set
  rw [dif_pos (contains_eq_true.mpr h)]
  exact hreplace m.entries

/-- What stands in a map after a write was there before or was written. -/
lemma mem_entries_set {m : OrderedMap K V} {k : K} {v : V} {e : K × V}
    (h : e ∈ (m.set k v).entries) : e ∈ m.entries ∨ e = (k, v) := by
  by_cases hk : k ∈ m.keys
  · rw [entries_set_of_mem hk] at h
    obtain ⟨f, hf, rfl⟩ := List.mem_map.mp h
    split
    · exact .inr rfl
    · exact .inl hf
  · rw [entries_set_of_not_mem hk, List.mem_append, List.mem_singleton] at h
    exact h

/-- The same for a write that moves its key to the end. -/
lemma mem_entries_insert {m : OrderedMap K V} {k : K} {v : V} {e : K × V}
    (h : e ∈ (m.insert k v).entries) : e ∈ m.entries ∨ e = (k, v) := by
  rcases List.mem_append.mp h with h | h
  · exact .inl (List.mem_of_mem_filter h)
  · exact .inr (List.mem_singleton.mp h)

/-- A new key goes to the end by such a write, too. -/
lemma entries_insert_of_not_mem {m : OrderedMap K V} {k : K} (h : k ∉ m.keys) (v : V) :
    (m.insert k v).entries = m.entries ++ [(k, v)] := by
  have herase : (m.erase k).entries = m.entries :=
    List.filter_eq_self.mpr fun e he => by
      simpa using fun heq : e.1 = k => h (heq ▸ List.mem_map_of_mem he)
  exact congrArg (· ++ [(k, v)]) herase

/-- What is written once under every key stands in the order of the writes. -/
lemma entries_ofInserts {es : List (K × V)} (hnodup : (es.map Prod.fst).Nodup) :
    (ofInserts es).entries = es := by
  induction es using List.reverseRecOn with
  | nil => rfl
  | append_singleton es e ih =>
    rw [List.map_append, List.map_singleton, List.nodup_append] at hnodup
    obtain ⟨hes, -, hnew⟩ := hnodup
    have hnot : e.1 ∉ (ofInserts es).keys := by
      rw [keys, ih hes]
      exact fun h => hnew e.1 h e.1 (List.mem_singleton_self e.1) rfl
    have hlast : ofInserts (es ++ [e]) = (ofInserts es).insert e.1 e.2 := List.foldl_append
    rw [hlast, entries_insert_of_not_mem hnot, ih hes]

/-- The same for several such writes, one after the other. -/
lemma mem_entries_ofInserts {es : List (K × V)} {e : K × V} (h : e ∈ (ofInserts es).entries) :
    e ∈ es := by
  suffices hfold : ∀ m : OrderedMap K V, e ∈ (es.foldl (fun m f => m.insert f.1 f.2) m).entries →
      e ∈ m.entries ∨ e ∈ es from (hfold empty h).resolve_left fun hnot => nomatch hnot
  clear h
  induction es with
  | nil => exact fun m h => .inl h
  | cons f es ih =>
    intro m h
    rcases ih _ h with h | h
    · exact (mem_entries_insert h).imp_right fun heq : e = f => heq ▸ List.mem_cons_self
    · exact .inr (List.mem_cons_of_mem f h)

/-! ## Several writes -/

/-- After several writes the last one of a key is found, else what was there before. -/
lemma get?_foldl_set (es : List (K × V)) (hnodup : (es.map Prod.fst).Nodup) (m : OrderedMap K V)
    (k : K) :
    (es.foldl (fun m e => m.set e.1 e.2) m).get? k =
      ((es.find? (fun e => decide (e.1 = k))).map Prod.snd).or (m.get? k) := by
  induction es generalizing m with
  | nil => rfl
  | cons e es ih =>
    obtain ⟨hnot, hrest⟩ := List.nodup_cons.mp hnodup
    rw [List.foldl_cons, ih hrest]
    by_cases hk : e.1 = k
    · subst hk
      have hnone : es.find? (fun f => decide (f.1 = e.1)) = none := by
        rw [List.find?_eq_none]
        intro f hf heq
        exact hnot (List.mem_map.mpr ⟨f, hf, by simpa using heq⟩)
      simp [hnone, get?_set]
    · have hne : ¬ k = e.1 := fun h => hk h.symm
      simp [hk, get?_set, hne]

/-- After several writes that move their keys to the end the last one of a key is found, too. -/
lemma get?_foldl_insert (es : List (K × V)) (m : OrderedMap K V) (k : K) :
    (es.foldl (fun m e => m.insert e.1 e.2) m).get? k =
      ((es.reverse.find? (fun e => decide (e.1 = k))).map Prod.snd).or (m.get? k) := by
  induction es using List.reverseRecOn with
  | nil => rfl
  | append_singleton es e ih =>
    rw [List.foldl_append, List.foldl_cons, List.foldl_nil, get?_insert, ih, List.reverse_append,
      List.reverse_singleton, List.singleton_append, List.find?_cons]
    by_cases hk : e.1 = k
    · simp [hk]
    · have hne : ¬ k = e.1 := fun h => hk h.symm
      simp [hk, hne]

/-- A key that is written last with one value has this value. -/
lemma get?_ofInserts_append {es fs : List (K × V)} {k : K} {v : V} (hmem : (k, v) ∈ fs)
    (hunique : ∀ e ∈ fs, e.1 = k → e.2 = v) : (ofInserts (es ++ fs)).get? k = some v := by
  have hsome : (fs.reverse.find? (fun e => decide (e.1 = k))).isSome = true :=
    List.find?_isSome.mpr ⟨(k, v), List.mem_reverse.mpr hmem, decide_eq_true rfl⟩
  obtain ⟨e, he⟩ := Option.isSome_iff_exists.mp hsome
  have hkey : e.1 = k := of_decide_eq_true (List.find?_some he :)
  have hvalue := hunique e (List.mem_reverse.mp (List.mem_of_find?_eq_some he)) hkey
  rw [ofInserts, get?_foldl_insert, List.reverse_append, List.find?_append, he, Option.some_or,
    Option.map_some, hvalue, Option.some_or]

/-- Several writes leave the keys where they are and put the new ones at the end. -/
lemma keys_foldl_set (es : List (K × V)) (hnodup : (es.map Prod.fst).Nodup) (m : OrderedMap K V) :
    (es.foldl (fun m e => m.set e.1 e.2) m).keys =
      m.keys ++ (es.map Prod.fst).filter (fun k => decide (k ∉ m.keys)) := by
  induction es generalizing m with
  | nil => simp
  | cons e es ih =>
    obtain ⟨hnot, hrest⟩ := List.nodup_cons.mp hnodup
    rw [List.foldl_cons, ih hrest, keys_set, List.map_cons, List.filter_cons]
    by_cases hk : e.1 ∈ m.keys
    · simp [hk]
    · have hsame : (es.map Prod.fst).filter (fun k => decide (k ∉ m.keys ++ [e.1])) =
          (es.map Prod.fst).filter (fun k => decide (k ∉ m.keys)) := by
        refine List.filter_congr fun k hkin => ?_
        have hne : k ≠ e.1 := fun h => hnot (h ▸ hkin)
        simp [hne]
      simp only [hk, if_false, hsame, not_false_eq_true, decide_true, if_true, List.append_assoc,
        List.singleton_append]

/-! ## Writing a map under other names -/

/-- A map into which the entries of another one are written, under other names. -/
def writeAll (m : OrderedMap L V) (rename : K → L) (n : OrderedMap K V) : OrderedMap L V :=
  n.entries.foldl (fun m e => m.set (rename e.1) e.2) m

section

variable {rename : K → L} (hinj : Function.Injective rename)

include hinj

/-- What is written is found under its new name. -/
lemma get?_writeAll (m : OrderedMap L V) (n : OrderedMap K V) (k : K) :
    (m.writeAll rename n).get? (rename k) = (n.get? k).or (m.get? (rename k)) := by
  have hnodup : ((n.entries.map fun e => (rename e.1, e.2)).map Prod.fst).Nodup := by
    rw [List.map_map, show Prod.fst ∘ (fun e : K × V => (rename e.1, e.2)) = rename ∘ Prod.fst
      from rfl, ← List.map_map]
    exact List.Nodup.map hinj n.nodup
  have hfold := get?_foldl_set _ hnodup m (rename k)
  rw [List.foldl_map] at hfold
  rw [writeAll, hfold, List.find?_map, get?]
  congr 1
  have hsame : (fun e : L × V => decide (e.1 = rename k)) ∘ (fun e : K × V => (rename e.1, e.2)) =
      fun e => decide (e.1 = k) := by
    funext e
    simp [hinj.eq_iff]
  rw [hsame, Option.map_map]
  rfl

omit [DecidableEq K] hinj in
/-- Under names that are not used for writing everything is as it was. -/
lemma get?_writeAll_of_ne (m : OrderedMap L V) (n : OrderedMap K V) {l : L}
    (hl : ∀ k ∈ n.keys, rename k ≠ l) : (m.writeAll rename n).get? l = m.get? l := by
  unfold writeAll
  have hes : ∀ e ∈ n.entries, rename e.1 ≠ l := fun e he => hl e.1 (List.mem_map_of_mem he)
  generalize n.entries = es at hes
  induction es generalizing m with
  | nil => rfl
  | cons e es ih =>
    rw [List.foldl_cons, ih _ fun f hf => hes f (List.mem_cons_of_mem e hf), get?_set,
      if_neg fun h => hes e List.mem_cons_self h.symm]

omit [DecidableEq K] in
/-- The new names that are used for writing stand at the end. -/
lemma keys_writeAll (m : OrderedMap L V) (n : OrderedMap K V) :
    (m.writeAll rename n).keys =
      m.keys ++ (n.keys.map rename).filter (fun l => decide (l ∉ m.keys)) := by
  have hmap : (n.entries.map fun e => (rename e.1, e.2)).map Prod.fst = n.keys.map rename := by
    rw [List.map_map, keys, List.map_map]
    rfl
  have hfold := keys_foldl_set (n.entries.map fun e => (rename e.1, e.2))
    (by rw [hmap]; exact List.Nodup.map hinj n.nodup) m
  rw [List.foldl_map, hmap] at hfold
  exact hfold

/-- **Writing a map with one more entry** writes the map and then the entry. -/
theorem writeAll_set (m : OrderedMap L V) (n : OrderedMap K V) (k : K) (v : V) :
    m.writeAll rename (n.set k v) = (m.writeAll rename n).set (rename k) v := by
  refine ext_get? ?_ fun l _ => ?_
  · simp only [keys_set, keys_writeAll hinj, List.mem_append, List.mem_filter, List.mem_map,
      hinj.eq_iff, exists_eq_right, decide_eq_true_eq]
    by_cases hk : k ∈ n.keys
    · by_cases hm : rename k ∈ m.keys <;> simp [hk, hm]
    · by_cases hm : rename k ∈ m.keys <;> simp [hk, hm]
  · by_cases hl : ∃ k', rename k' = l
    · obtain ⟨k', rfl⟩ := hl
      simp only [get?_writeAll hinj, get?_set, hinj.eq_iff]
      split <;> rfl
    · have hne : ∀ k', rename k' ≠ l := fun k' h => hl ⟨k', h⟩
      rw [get?_writeAll_of_ne _ _ fun k' _ => hne k', get?_set, if_neg fun h => hne k h.symm,
        get?_writeAll_of_ne _ _ fun k' _ => hne k']

/-- Writing a map into which another one was written writes one after the other. -/
lemma writeAll_writeAll (m : OrderedMap L V) (n : OrderedMap K V) (es : OrderedMap K V) :
    m.writeAll rename (n.writeAll id es) = (m.writeAll rename n).writeAll rename es := by
  have hlist : ∀ (es : List (K × V)) (n : OrderedMap K V),
      m.writeAll rename (es.foldl (fun n e => n.set e.1 e.2) n) =
        es.foldl (fun m e => m.set (rename e.1) e.2) (m.writeAll rename n) := by
    intro es
    induction es with
    | nil => exact fun n => rfl
    | cons e es ih =>
      intro n
      rw [List.foldl_cons, List.foldl_cons, ih, writeAll_set hinj]
  exact hlist es.entries n

end

end OrderedMap

end RecordQuery
