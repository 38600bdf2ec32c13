set_option autoImplicit false

/-!
# Ordered maps

A finite map that remembers an order of its keys. Rows, the bins of a record, the records of a
set and the sets of a store are all of this kind, and differ only in what a second write of a key
does to its place: `OrderedMap.set` leaves the key where it is, `OrderedMap.insert` moves it to
the end.

## Main definitions

* `OrderedMap` — entries in order, no key twice.
* `OrderedMap.get?`, `OrderedMap.contains`, `OrderedMap.keys`, `OrderedMap.values` — reading.
* `OrderedMap.set`, `OrderedMap.insert`, `OrderedMap.erase` — writing.

## Main results

* `OrderedMap.get?_set`, `OrderedMap.get?_insert`, `OrderedMap.get?_erase` — one reading law per
  write.
* `OrderedMap.keys_set`, `OrderedMap.keys_insert`, `OrderedMap.keys_erase` — where the keys stand
  afterwards.
-/

namespace RecordQuery

/-- A finite map with an order on its keys. No key occurs twice. -/
structure OrderedMap (K V : Type) where
  /-- The entries, in order. -/
  entries : List (K × V)
  /-- No key occurs twice. -/
  nodup : (entries.map Prod.fst).Nodup

namespace OrderedMap

variable {K V : Type}

/-- Two maps with the same entries in the same order are the same map. -/
@[ext]
theorem ext {m n : OrderedMap K V} (h : m.entries = n.entries) : m = n := by
  cases m; cases n; simp_all

/-- The map without entries. -/
def empty : OrderedMap K V := ⟨[], by simp⟩

/-- `∅` is the map without entries. -/
instance : EmptyCollection (OrderedMap K V) := ⟨empty⟩

/-- The map without entries stands for any map. -/
instance : Inhabited (OrderedMap K V) := ⟨empty⟩

/-- The keys, in order. -/
def keys (m : OrderedMap K V) : List K := m.entries.map Prod.fst

/-- The values, in the order of their keys. -/
def values (m : OrderedMap K V) : List V := m.entries.map Prod.snd

/-- The number of entries. -/
def size (m : OrderedMap K V) : Nat := m.entries.length

/-- Whether the map has no entry. -/
def isEmpty (m : OrderedMap K V) : Bool := m.entries.isEmpty

variable [DecidableEq K]

/-- The value of a key. -/
def get? (m : OrderedMap K V) (k : K) : Option V :=
  (m.entries.find? (fun e => decide (e.1 = k))).map Prod.snd

/-- Whether a key has a value. -/
def contains (m : OrderedMap K V) (k : K) : Bool :=
  m.entries.any (fun e => decide (e.1 = k))

/-- Gives the entries of key `k` the value `v`, in place. -/
def replaceIn (k : K) (v : V) : List (K × V) → List (K × V)
  | [] => []
  | e :: es => (if e.1 = k then (k, v) else e) :: replaceIn k v es

/-- A value in place leaves the keys where they are. -/
theorem map_fst_replaceIn (k : K) (v : V) (es : List (K × V)) :
    (replaceIn k v es).map Prod.fst = es.map Prod.fst := by
  induction es with
  | nil => rfl
  | cons e es ih => by_cases h : e.1 = k <;> simp [replaceIn, h, ih]

/-- A key has a value if it is among the keys. -/
theorem contains_eq_true {m : OrderedMap K V} {k : K} :
    m.contains k = true ↔ k ∈ m.keys := by
  simp [contains, keys]

/-- Writes a value. A key that is present keeps its place, a new one goes to the end. -/
def set (m : OrderedMap K V) (k : K) (v : V) : OrderedMap K V :=
  if h : m.contains k = true then
    ⟨replaceIn k v m.entries, by rw [map_fst_replaceIn]; exact m.nodup⟩
  else
    ⟨m.entries ++ [(k, v)], by
      have hk : k ∉ m.entries.map Prod.fst := fun hm => h (contains_eq_true.mpr hm)
      rw [List.map_append, List.nodup_append]
      refine ⟨m.nodup, by simp, ?_⟩
      intro a ha b hb hab
      simp only [List.map_cons, List.map_nil, List.mem_singleton] at hb
      exact hk (hb ▸ hab ▸ ha)⟩

/-- Removes a key; the other keys keep their order. -/
def erase (m : OrderedMap K V) (k : K) : OrderedMap K V :=
  ⟨m.entries.filter (fun e => decide (e.1 ≠ k)),
    m.nodup.sublist (List.Sublist.map _ List.filter_sublist)⟩

/-- A key that is removed is gone. -/
theorem not_mem_keys_erase (m : OrderedMap K V) (k : K) : k ∉ (m.erase k).keys := by
  simp [keys, erase]

/-- Writes a value and moves its key to the end. -/
def insert (m : OrderedMap K V) (k : K) (v : V) : OrderedMap K V :=
  ⟨(m.erase k).entries ++ [(k, v)], by
    rw [List.map_append, List.nodup_append]
    refine ⟨(m.erase k).nodup, by simp, ?_⟩
    intro a ha b hb hab
    simp only [List.map_cons, List.map_nil, List.mem_singleton] at hb
    subst hb
    subst hab
    exact not_mem_keys_erase m a ha⟩

/-- The map after `set` of each pair in turn. -/
def ofPairs (ps : List (K × V)) : OrderedMap K V :=
  ps.foldl (fun m p => m.set p.1 p.2) empty

/-- The map after `insert` of each pair in turn. -/
def ofInserts (ps : List (K × V)) : OrderedMap K V :=
  ps.foldl (fun m p => m.insert p.1 p.2) empty

/-- The entries whose value passes a test, in order. -/
def filterValues (m : OrderedMap K V) (p : V → Bool) : OrderedMap K V :=
  ⟨m.entries.filter (fun e => p e.2),
    m.nodup.sublist (List.Sublist.map _ List.filter_sublist)⟩

/-! ## Reading after a write -/

/-- There is nothing to read in the empty map. -/
@[simp]
theorem get?_empty (k : K) : (empty : OrderedMap K V).get? k = none := rfl

/-- Nothing is read under a key that is not among the keys. -/
theorem get?_eq_none_iff {m : OrderedMap K V} {k : K} : m.get? k = none ↔ k ∉ m.keys := by
  simp only [get?, keys, Option.map_eq_none_iff, List.find?_eq_none, decide_eq_true_eq,
    List.mem_map, Prod.exists, exists_and_right, exists_eq_right, not_exists]
  constructor
  · intro h v hv; exact h _ hv rfl
  · rintro h ⟨a, v⟩ hv rfl; exact h v hv

/-- Reading after a value was put in place.

**Proof sketch.** Induction on the entries. The first one either has the key that is written, and
then is read under it only, or it is left as it is; behind it the induction hypothesis applies. -/
theorem find?_replaceIn (k l : K) (v : V) (es : List (K × V)) :
    ((replaceIn k v es).find? (fun e => decide (e.1 = l))).map Prod.snd =
      if l = k ∧ k ∈ es.map Prod.fst then some v
      else (es.find? (fun e => decide (e.1 = l))).map Prod.snd := by
  induction es with
  | nil => simp [replaceIn]
  | cons e es ih =>
    obtain ⟨a, w⟩ := e
    rw [replaceIn]
    by_cases ha : a = k
    · subst ha
      by_cases hl : l = a
      · subst hl; simp
      · have hne : a ≠ l := fun h => hl h.symm
        rw [List.find?_cons_of_neg (by simp [hne]), List.find?_cons_of_neg (by simp [hne]), ih]
        simp [hl]
    · rw [if_neg ha]
      by_cases hl : a = l
      · subst hl; simp [ha]
      · have hka : k ≠ a := fun h => ha h.symm
        rw [List.find?_cons_of_neg (by simp [hl]), List.find?_cons_of_neg (by simp [hl]), ih]
        simp only [List.map_cons, List.mem_cons, hka, false_or]

/-- Reading after `set`. -/
theorem get?_set (m : OrderedMap K V) (k l : K) (v : V) :
    (m.set k v).get? l = if l = k then some v else m.get? l := by
  unfold set
  split
  · rename_i h
    have hk : k ∈ m.entries.map Prod.fst := contains_eq_true.mp h
    simp only [get?]
    rw [find?_replaceIn]
    simp only [hk, and_true]
  · rename_i h
    have hk : k ∉ m.keys := fun hm => h (contains_eq_true.mpr hm)
    simp only [get?, List.find?_append]
    by_cases hl : l = k
    · subst hl
      have hn : m.entries.find? (fun e => decide (e.1 = l)) = none := by
        have := get?_eq_none_iff.mpr hk
        simpa [get?] using this
      simp [hn]
    · have hne : k ≠ l := fun h => hl h.symm
      simp [hl, hne]

/-- Reading after `erase`. -/
theorem get?_erase (m : OrderedMap K V) (k l : K) :
    (m.erase k).get? l = if l = k then none else m.get? l := by
  by_cases hl : l = k
  · subst hl
    rw [if_pos rfl]
    exact get?_eq_none_iff.mpr (not_mem_keys_erase m l)
  · rw [if_neg hl]
    simp only [get?, erase, List.find?_filter]
    congr 2
    funext e
    by_cases he : e.1 = l
    · simp [he, hl]
    · simp [he]

/-- Reading after `insert`. -/
theorem get?_insert (m : OrderedMap K V) (k l : K) (v : V) :
    (m.insert k v).get? l = if l = k then some v else m.get? l := by
  have happ : (m.insert k v).get? l = ((m.erase k).get? l).or (if l = k then some v else none) := by
    simp only [get?, insert, List.find?_append]
    cases hf : (m.erase k).entries.find? (fun e => decide (e.1 = l)) with
    | some e => simp
    | none =>
      by_cases hl : l = k
      · subst hl; simp
      · have hne : k ≠ l := fun h => hl h.symm
        simp [hl, hne]
  rw [happ, get?_erase]
  by_cases hl : l = k <;> simp [hl]

/-! ## Where the keys stand after a write -/

/-- A key that is present stays where it is, and a new one goes to the end. -/
theorem keys_set (m : OrderedMap K V) (k : K) (v : V) :
    (m.set k v).keys = if k ∈ m.keys then m.keys else m.keys ++ [k] := by
  unfold set
  split
  · rename_i h
    rw [if_pos (contains_eq_true.mp h)]
    exact map_fst_replaceIn k v m.entries
  · rename_i h
    rw [if_neg (fun hm => h (contains_eq_true.mpr hm))]
    simp [keys]

/-- The other keys keep their order. -/
theorem keys_erase (m : OrderedMap K V) (k : K) :
    (m.erase k).keys = m.keys.filter (fun l => decide (l ≠ k)) := by
  simp only [keys, erase, List.filter_map]
  rfl

/-- A key goes to the end, also one that is present. -/
theorem keys_insert (m : OrderedMap K V) (k : K) (v : V) :
    (m.insert k v).keys = m.keys.filter (fun l => decide (l ≠ k)) ++ [k] := by
  rw [← keys_erase]
  simp [keys, insert]

end OrderedMap

end RecordQuery
