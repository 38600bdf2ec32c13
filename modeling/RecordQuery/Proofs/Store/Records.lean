import Mathlib.Data.List.Nodup
import Mathlib.Data.List.Perm.Basic
import RecordQuery.Proofs.Store.Reading

set_option autoImplicit false

/-!
# Records of a set

A set holds one record under each of its keys. Looking up keys and going through the set therefore
come to the same records.

## Main definitions

* `Record.hasKey` — the record stands under one of several keys.

## Main results

* `Store.find?_eq_some_iff` — what is found under a key is the record of the set with this key.
* `Store.find?_toList` — looking up one key is going through the set.
* `Store.perm_filterMap_find?` — looking up several keys is going through the set, but for the
  order.
* `Store.select_eq_filter` — a scan without an index.
* `filterExcept_eq_ok`, `filterExcept_append` — the records that a program accepts.
-/

namespace RecordQuery

/-! ## Records that a program accepts -/

section Filtering

variable {α : Type} {p : α → Except QueryError Bool}

/-- If a test never fails, it keeps the elements that it accepts. -/
lemma filterExcept_eq_ok {as : List α} {accepts : α → Bool} (h : ∀ a ∈ as, p a = .ok (accepts a)) :
    filterExcept p as = .ok (as.filter accepts) := by
  induction as with
  | nil => rfl
  | cons a as ih =>
    have hrest := ih fun b hb => h b (by simp [hb])
    simp only [filterExcept, h a (by simp), hrest, Outcome.ok_bind]
    cases haccepts : accepts a <;> simp [haccepts, pure, Except.pure]

/-- Elements are tested one after the other. -/
lemma filterExcept_append (as bs : List α) :
    filterExcept p (as ++ bs) = (do
      let kept ← filterExcept p as
      let others ← filterExcept p bs
      return kept ++ others) := by
  induction as with
  | nil =>
    simp only [List.nil_append, filterExcept]
    cases filterExcept p bs <;> rfl
  | cons a as ih =>
    simp only [List.cons_append, filterExcept, ih]
    cases p a with
    | error e => rfl
    | ok keep =>
      cases filterExcept p as with
      | error e => rfl
      | ok kept =>
        cases filterExcept p bs with
        | error e => rfl
        | ok others => cases keep <;> rfl

/-- What is kept was there, in the same order. -/
lemma sublist_filterExcept {as kept : List α} (h : filterExcept p as = .ok kept) :
    kept.Sublist as := by
  induction as generalizing kept with
  | nil =>
    obtain rfl := Except.ok.inj h
    exact .slnil
  | cons a as ih =>
    simp only [filterExcept, Outcome.bind_eq_ok, Outcome.pure_eq_ok] at h
    obtain ⟨keep, -, rest, hrest, rfl⟩ := h
    cases keep with
    | false => exact (ih hrest).cons a
    | true => exact (ih hrest).cons_cons a

end Filtering

/-! ## Keys -/

namespace OrderedMap

variable {K V : Type} [DecidableEq K]

/-- A value is found under a key if both are an entry. -/
lemma get?_eq_some_iff {m : OrderedMap K V} {k : K} {v : V} :
    m.get? k = some v ↔ (k, v) ∈ m.entries := by
  rw [get?, Option.map_eq_some_iff]
  constructor
  · rintro ⟨e, he, rfl⟩
    have hkey : e.1 = k := by simpa using List.find?_some he
    rw [← hkey]
    exact List.mem_of_find?_eq_some he
  · intro hmem
    obtain ⟨e, he⟩ : ∃ e, m.entries.find? (fun e => decide (e.1 = k)) = some e := by
      rw [← Option.isSome_iff_exists, List.find?_isSome]
      exact ⟨(k, v), hmem, by simp⟩
    have hkey : e.1 = k := by simpa using List.find?_some he
    have heq := List.inj_on_of_nodup_map m.nodup (List.mem_of_find?_eq_some he) hmem hkey
    exact ⟨e, he, by rw [heq]⟩

end OrderedMap

/-- Whether a record stands under one of several keys. -/
def Record.hasKey (ks : List UserKey) (r : Record) : Bool := decide (r.key.user ∈ ks)

namespace Store

variable {K : Store} {ns set : String} {r : Record}

/-- A record of a set carries the name of the set and stands under its key. -/
lemma mem_recordsOf : r ∈ K.recordsOf ns set ↔
    r.key.ns = ns ∧ r.key.set = set ∧ (r.key.user, r.bins) ∈ (K.recordSet ns set).entries := by
  rw [recordsOf, List.mem_map]
  constructor
  · rintro ⟨e, he, rfl⟩
    exact ⟨rfl, rfl, he⟩
  · rintro ⟨rfl, rfl, he⟩
    exact ⟨_, he, rfl⟩

/-- **What is found under a key** is the record of the set with this key. -/
lemma find?_eq_some_iff {k : UserKey} :
    K.find? ⟨ns, set, k⟩ = some r ↔ r ∈ K.recordsOf ns set ∧ r.key.user = k := by
  rw [find?, Option.map_eq_some_iff, mem_recordsOf]
  constructor
  · rintro ⟨bins, hbins, rfl⟩
    exact ⟨⟨rfl, rfl, OrderedMap.get?_eq_some_iff.mp hbins⟩, rfl⟩
  · rintro ⟨⟨hns, hset, he⟩, rfl⟩
    refine ⟨r.bins, OrderedMap.get?_eq_some_iff.mpr he, ?_⟩
    rw [← hns, ← hset]

/-- No two records of a set have the same key. -/
lemma nodup_keys (K : Store) (ns set : String) :
    ((K.recordsOf ns set).map (fun r => r.key.user)).Nodup := by
  rw [recordsOf, List.map_map]
  exact (K.recordSet ns set).nodup

/-- No record is twice in a set. -/
lemma nodup_recordsOf (K : Store) (ns set : String) : (K.recordsOf ns set).Nodup :=
  (nodup_keys K ns set).of_map

/-- There are as many records as the size of the set says. -/
lemma length_recordsOf (K : Store) (ns set : String) :
    (K.recordsOf ns set).length = K.size ns set := by
  rw [recordsOf, List.length_map]
  rfl

/-- No record is found under two keys. -/
lemma nodup_filterMap_find? {ks : List UserKey} (hks : ks.Nodup) :
    (ks.filterMap (fun k => K.find? ⟨ns, set, k⟩)).Nodup := by
  refine hks.filterMap fun k l r hk hl => ?_
  rw [Option.mem_def, find?_eq_some_iff] at hk hl
  exact hk.2.symm.trans hl.2

/-- **Looking up several keys is going through the set**, but for the order: no key may be looked
up twice. -/
lemma perm_filterMap_find? (K : Store) (ns set : String) {ks : List UserKey} (hks : ks.Nodup) :
    (ks.filterMap (fun k => K.find? ⟨ns, set, k⟩)).Perm
      ((K.recordsOf ns set).filter (Record.hasKey ks)) := by
  refine (List.perm_ext_iff_of_nodup (nodup_filterMap_find? hks)
    ((nodup_recordsOf K ns set).filter _)).mpr fun r => ?_
  simp only [List.mem_filterMap, List.mem_filter, find?_eq_some_iff, Record.hasKey,
    decide_eq_true_eq]
  constructor
  · rintro ⟨k, hk, hr, rfl⟩
    exact ⟨hr, hk⟩
  · rintro ⟨hr, hk⟩
    exact ⟨_, hk, hr, rfl⟩

/-- Looking up one key is going through the set. -/
lemma find?_toList (K : Store) (ns set : String) (k : UserKey) :
    (K.find? ⟨ns, set, k⟩).toList = (K.recordsOf ns set).filter (Record.hasKey [k]) := by
  have hperm := perm_filterMap_find? K ns set (List.nodup_singleton k)
  cases hfind : K.find? ⟨ns, set, k⟩ with
  | none =>
    simp only [List.filterMap_cons, hfind, List.filterMap_nil] at hperm
    exact hperm.nil_eq
  | some r =>
    simp only [List.filterMap_cons, hfind, List.filterMap_nil] at hperm
    exact hperm.singleton_eq

/-! ## Scans -/

/-- Without an index all records of a set are visited. -/
lemma filter_visits_none (rs : List Record) : rs.filter (visits none) = rs :=
  List.filter_eq_self.mpr fun _ _ => rfl

/-- **A scan without an index** returns the records of the set on which its program decides so. -/
lemma select_eq_filter {program : Program} {test : Record → Bool}
    (h : ∀ r, program.run r = .ok (test r)) :
    K.select ⟨ns, set, none, program⟩ = .ok ((K.recordsOf ns set).filter test) := by
  simp only [select, filter_visits_none]
  exact filterExcept_eq_ok fun r _ => h r

end Store

end RecordQuery
