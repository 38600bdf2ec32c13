import RecordQuery.Proofs.Outcome
import RecordQuery.Store.Basic

set_option autoImplicit false

/-!
# Computations that only read

Queries change nothing in the store but the counts of its readings. A computation that only reads
has the same outcome on all stores with the same sets and indexes and leaves these as they are.

## Main definitions

* `Store.Alike` — two stores have the same sets and indexes.
* `StoreM.Reads` — a computation has a given outcome on all stores like a given one.
* `StoreM.Follows` — a computation returns on such stores whenever another one does, and something
  related.
* `StoreM.Repeats`, `StoreM.Agrees` — two computations return the same on one store.

## Main results

* `StoreM.Reads.bind`, `StoreM.Reads.map` — sequences of computations that only read.
* `StoreM.reads_get`, `StoreM.reads_getMany`, `StoreM.reads_scan`, `StoreM.reads_aggregate` — the
  four ways to read.
-/

namespace RecordQuery

/-- Two stores have the same sets and indexes; they may have been read differently often. -/
structure Store.Alike (s t : Store) : Prop where
  /-- The sets are the same. -/
  sets : s.sets = t.sets
  /-- The indexes are the same. -/
  indexes : s.indexes = t.indexes

namespace Store

variable {s t : Store}

/-- A store is like itself. -/
lemma Alike.refl (s : Store) : s.Alike s := ⟨rfl, rfl⟩

/-- Likeness is symmetric. -/
lemma Alike.symm (h : s.Alike t) : t.Alike s := ⟨h.sets.symm, h.indexes.symm⟩

/-- Likeness is transitive. -/
lemma Alike.trans {u : Store} (h : s.Alike t) (h' : t.Alike u) : s.Alike u :=
  ⟨h.sets.trans h'.sets, h.indexes.trans h'.indexes⟩

/-- The counts do not matter. -/
lemma Alike.withCounts (h : s.Alike t) (counts : AccessCounts) :
    ({ s with counts } : Store).Alike t := ⟨h.sets, h.indexes⟩

/-- Like stores hold the same records. -/
lemma Alike.recordSet (h : s.Alike t) (ns set : String) :
    s.recordSet ns set = t.recordSet ns set := by
  rw [Store.recordSet, Store.recordSet, h.sets]

/-- Like stores have sets of the same size. -/
lemma Alike.size (h : s.Alike t) (ns set : String) : s.size ns set = t.size ns set := by
  rw [Store.size, Store.size, h.recordSet]

/-- Like stores find the same record under a key. -/
lemma Alike.find? (h : s.Alike t) (k : RecordKey) : s.find? k = t.find? k := by
  rw [Store.find?, Store.find?, h.recordSet]

/-- Like stores hold the same records in the same order. -/
lemma Alike.recordsOf (h : s.Alike t) (ns set : String) :
    s.recordsOf ns set = t.recordsOf ns set := by
  rw [Store.recordsOf, Store.recordsOf, h.recordSet]

/-- Like stores have an index for the same filters. -/
lemma Alike.serves (h : s.Alike t) (ns set : String) (f : IndexFilter) :
    s.serves ns set f = t.serves ns set f := by
  rw [Store.serves, Store.serves, h.indexes]

/-- A scan finds the same records in like stores. -/
lemma Alike.select (h : s.Alike t) (q : ScanRequest) : s.select q = t.select q := by
  simp only [Store.select, h.recordsOf, h.serves]

/-- An aggregation forms the same groups in like stores. -/
lemma Alike.reduce (h : s.Alike t) (q : ScanRequest) (call : ReducerCall) :
    s.reduce q call = t.reduce q call := by
  simp only [Store.reduce, h.select]

end Store

namespace StoreM

variable {α β : Type} {K : Store}

/-- A computation has a given outcome on all stores that are like a given one, and leaves them like
it. -/
def Reads (m : StoreM α) (K : Store) (outcome : Except QueryError α) : Prop :=
  ∀ st : Store, st.Alike K → ∃ st', m st = (outcome, st') ∧ st'.Alike K

namespace Reads

/-- Returning something reads nothing. -/
lemma pure (a : α) : Reads (pure a : StoreM α) K (.ok a) := fun st h => ⟨st, rfl, h⟩

/-- Failing reads nothing. -/
lemma throw (e : QueryError) : Reads (throw e : StoreM α) K (.error e) := fun st h => ⟨st, rfl, h⟩

/-- A computation without the store reads nothing. -/
lemma lift (x : Except QueryError α) : Reads (liftM x : StoreM α) K x := by
  intro st h
  cases x with
  | ok a => exact ⟨st, rfl, h⟩
  | error e => exact ⟨st, rfl, h⟩

/-- **A sequence of computations that only read** only reads. -/
lemma bind {m : StoreM α} {f : α → StoreM β} {x : Except QueryError α}
    {g : α → Except QueryError β} (hm : Reads m K x) (hf : ∀ a, x = .ok a → Reads (f a) K (g a)) :
    Reads (m >>= f) K (x >>= g) := by
  intro st h
  obtain ⟨mid, hmid, hlike⟩ := hm st h
  have hrun : (m >>= f) st = ExceptT.bindCont f x mid := by
    change ExceptT.bindCont f (m st).1 (m st).2 = _
    rw [hmid]
  rw [hrun]
  cases x with
  | error e => exact ⟨mid, rfl, hlike⟩
  | ok a => exact hf a rfl mid hlike

/-- What follows a computation that returns something. -/
lemma andThen {m : StoreM α} {f : α → StoreM β} {a : α} {y : Except QueryError β}
    (hm : Reads m K (.ok a)) (hf : Reads (f a) K y) : Reads (m >>= f) K y :=
  hm.bind (g := fun _ => y) fun _ hb => Except.ok.inj hb ▸ hf

/-- A computation whose outcome is changed. -/
lemma map {m : StoreM α} {x : Except QueryError α} (hm : Reads m K x) (f : α → β) :
    Reads (do return f (← m)) K (do return f (← x)) :=
  hm.bind fun a _ => pure (f a)

/-- The outcome of a computation that only reads is one. -/
lemma unique {m : StoreM α} {x y : Except QueryError α} (hx : Reads m K x) (hy : Reads m K y) :
    x = y := by
  obtain ⟨st, hst, -⟩ := hx K (.refl K)
  obtain ⟨st', hst', -⟩ := hy K (.refl K)
  rw [hst] at hst'
  exact congrArg Prod.fst hst'

end Reads

/-- Counting a reading changes nothing else. -/
lemma reads_count (f : AccessCounts → AccessCounts) : Reads (count f) K (.ok ()) :=
  fun st h => ⟨_, rfl, h.withCounts (f st.counts)⟩

/-- What is computed from the store, if it is the same for all stores that are like a given one. -/
lemma reads_getThe {f : Store → StoreM α} {x : Except QueryError α}
    (hf : ∀ st : Store, st.Alike K → Reads (f st) K x) : Reads (getThe Store >>= f) K x :=
  fun st h => hf st h st h

/-- Looking up a key finds its record. -/
lemma reads_get (k : RecordKey) : Reads (get k) K (.ok (K.find? k)) :=
  (reads_count _).bind (g := fun _ => .ok (K.find? k)) fun _ _ => reads_getThe fun st h => by
    rw [h.find? k]
    exact .pure _

/-- Looking up several keys finds their records. -/
lemma reads_getMany (ks : List RecordKey) : Reads (getMany ks) K (.ok (ks.map K.find?)) :=
  (reads_count _).bind (g := fun _ => .ok (ks.map K.find?)) fun _ _ => reads_getThe fun st h => by
    rw [show st.find? = K.find? from funext h.find?]
    exact .pure _

/-- A scan finds what it selects. -/
lemma reads_scan (q : ScanRequest) : Reads (scan q) K (K.select q) :=
  (reads_count _).bind (g := fun _ => K.select q) fun _ _ => reads_getThe fun st h => by
    rw [h.select q]
    exact .lift _

/-- An aggregation forms the groups of what it selects. -/
lemma reads_aggregate (q : ScanRequest) (call : ReducerCall) :
    Reads (aggregate q call) K (K.reduce q call) :=
  (reads_count _).bind (g := fun _ => K.reduce q call) fun _ _ => reads_getThe fun st h => by
    rw [h.reduce q call]
    exact .lift _

/-! ## Computations that follow others -/

/-- Whenever the first computation returns on a store that is like a given one, so does the second
one, and what they return is related. Both leave the store like it. -/
def Follows (K : Store) (R : α → β → Prop) (m : StoreM α) (m' : StoreM β) : Prop :=
  ∀ st st', st.Alike K → st'.Alike K → ∀ a last, m st = (.ok a, last) →
    ∃ b last', m' st' = (.ok b, last') ∧ R a b ∧ last.Alike K ∧ last'.Alike K

namespace Follows

variable {γ δ : Type} {R : α → β → Prop} {S : γ → δ → Prop}

/-- Two computations that only read and whose outcomes follow each other. -/
lemma of_reads {m : StoreM α} {m' : StoreM β} {x : Except QueryError α} {y : Except QueryError β}
    (hm : Reads m K x) (hm' : Reads m' K y) (h : Outcome.Follows R x y) : Follows K R m m' := by
  intro st st' hst hst' a last hrun
  obtain ⟨after, hafter, hlike⟩ := hm st hst
  obtain ⟨rfl, rfl⟩ := Prod.mk.inj (hafter.symm.trans hrun)
  obtain ⟨b, hb, hab⟩ := h a rfl
  obtain ⟨last', hrun', hlike'⟩ := hm' st' hst'
  exact ⟨b, last', by rw [hrun', hb], hab, hlike, hlike'⟩

/-- Two computations without the store. -/
lemma lift {x : Except QueryError α} {y : Except QueryError β} (h : Outcome.Follows R x y) :
    Follows K R (liftM x) (liftM y) := of_reads (.lift x) (.lift y) h

/-- Two computations that only return. -/
lemma pure {a : α} {b : β} (h : R a b) : Follows K R (pure a) (pure b) :=
  of_reads (.pure a) (.pure b) (.ok h)

/-- **Sequences of computations that follow each other.** -/
lemma bind {m : StoreM α} {m' : StoreM β} {f : α → StoreM γ} {f' : β → StoreM δ}
    (h : Follows K R m m') (hf : ∀ a b, R a b → Follows K S (f a) (f' b)) :
    Follows K S (m >>= f) (m' >>= f') := by
  intro st st' hst hst' c last hrun
  have hcont : ExceptT.bindCont f (m st).1 (m st).2 = (.ok c, last) := hrun
  rcases hm : m st with ⟨a | a, mid⟩
  · rw [hm] at hcont
    cases hcont
  · rw [hm] at hcont
    obtain ⟨b, mid', hm', hab, hmid, hmid'⟩ := h st st' hst hst' a mid hm
    obtain ⟨d, last', hrun', hcd, hlike⟩ := hf a b hab mid mid' hmid hmid' c last hcont
    refine ⟨d, last', ?_, hcd, hlike⟩
    change ExceptT.bindCont f' (m' st').1 (m' st').2 = _
    rw [hm']
    exact hrun'

/-- Computations whose outcomes are changed. -/
lemma map {m : StoreM α} {m' : StoreM β} {f : α → γ} {f' : β → δ} (h : Follows K R m m')
    (hf : ∀ a b, R a b → S (f a) (f' b)) :
    Follows K S (do return f (← m)) (do return f' (← m')) :=
  h.bind fun a b hab => pure (hf a b hab)

end Follows

/-! ## Writes to like stores -/

/-- On like stores two computations have the same outcome, and they leave the stores like each
other. -/
def Same (m m' : StoreM α) : Prop :=
  ∀ st st', st.Alike st' → (m st).1 = (m' st').1 ∧ (m st).2.Alike (m' st').2

namespace Same

/-- A computation without the store. -/
lemma lift (x : Except QueryError α) : Same (liftM x : StoreM α) (liftM x) := by
  intro st st' h
  cases x with
  | error e => exact ⟨rfl, h⟩
  | ok a => exact ⟨rfl, h⟩

/-- A computation that only returns. -/
lemma pure (a : α) : Same (pure a : StoreM α) (pure a) := fun _ _ h => ⟨rfl, h⟩

/-- Sequences of computations. -/
lemma bind {m m' : StoreM α} {f f' : α → StoreM β} (h : Same m m') (hf : ∀ a, Same (f a) (f' a)) :
    Same (m >>= f) (m' >>= f') := by
  intro st st' hst
  obtain ⟨houtcome, hlike⟩ := h st st' hst
  change (ExceptT.bindCont f (m st).1 (m st).2).1 = (ExceptT.bindCont f' (m' st').1 (m' st').2).1 ∧
    Store.Alike (ExceptT.bindCont f (m st).1 (m st).2).2
      (ExceptT.bindCont f' (m' st').1 (m' st').2).2
  rw [← houtcome]
  cases (m st).1 with
  | error e => exact ⟨rfl, hlike⟩
  | ok a => exact hf a _ _ hlike

/-- Writing a record. -/
lemma put (k : RecordKey) (bins : Bins) (mode : WriteMode) :
    Same (StoreM.put k bins mode) (StoreM.put k bins mode) := by
  intro st st' h
  have hset := h.recordSet k.ns k.set
  have hput : (st.put k bins mode).1 = (st'.put k bins mode).1 ∧
      (st.put k bins mode).2.Alike (st'.put k bins mode).2 := by
    simp only [Store.put, hset]
    split
    · exact ⟨rfl, h⟩
    · exact ⟨rfl, ⟨by rw [h.sets], h.indexes⟩⟩
    · exact ⟨rfl, ⟨by rw [h.sets], h.indexes⟩⟩
  exact ⟨congrArg Except.ok hput.1, hput.2⟩

/-- Removing a record. -/
lemma delete (k : RecordKey) : Same (StoreM.delete k) (StoreM.delete k) := by
  intro st st' h
  have hset := h.recordSet k.ns k.set
  have hdelete : (st.delete k).1 = (st'.delete k).1 ∧ (st.delete k).2.Alike (st'.delete k).2 := by
    simp only [Store.delete, hset]
    split
    · exact ⟨rfl, ⟨by rw [h.sets], h.indexes⟩⟩
    · exact ⟨rfl, h⟩
  exact ⟨congrArg Except.ok hdelete.1, hdelete.2⟩

end Same

/-- Whenever the first computation returns on a store, the second one returns the same on it, and
they leave like stores. -/
def Repeats (m m' : StoreM α) (st : Store) : Prop :=
  ∀ a last, m st = (.ok a, last) → ∃ last', m' st = (.ok a, last') ∧ last'.Alike last

/-- If two computations return on a store, they return the same, and they leave like stores. -/
def Agrees (m m' : StoreM α) (st : Store) : Prop :=
  ∀ a last a' last', m st = (.ok a, last) → m' st = (.ok a', last') → a = a' ∧ last'.Alike last

/-- A computation that returns the same whenever another one returns agrees with it. -/
lemma Repeats.agrees {m m' : StoreM α} {st : Store} (h : Repeats m m' st) : Agrees m m' st := by
  intro a last a' last' hrun hrun'
  obtain ⟨mid, hmid, hlike⟩ := h a last hrun
  obtain ⟨hsame, rfl⟩ := Prod.mk.inj (hmid.symm.trans hrun')
  exact ⟨Except.ok.inj hsame, hlike⟩

/-- Computations that come after steps without the store agree if they do wherever these return. -/
lemma Agrees.lift_bind {γ : Type} {x : Except QueryError α} {y : Except QueryError γ}
    {f : α → StoreM β} {f' : γ → StoreM β} {st : Store}
    (h : ∀ a b, x = .ok a → y = .ok b → Agrees (f a) (f' b) st) :
    Agrees (liftM x >>= f) (liftM y >>= f') st := by
  intro c last c' last' hrun hrun'
  cases x with
  | error e => cases hrun
  | ok a =>
    cases y with
    | error e => cases hrun'
    | ok b => exact h a b rfl rfl c last c' last' hrun hrun'

/-- Computations that come after steps without the store. -/
lemma Repeats.lift_bind {γ : Type} {R : α → γ → Prop} {x : Except QueryError α}
    {y : Except QueryError γ} {f : α → StoreM β} {f' : γ → StoreM β} {st : Store}
    (h : Outcome.Follows R x y) (hf : ∀ a b, R a b → Repeats (f a) (f' b) st) :
    Repeats (liftM x >>= f) (liftM y >>= f') st := by
  intro c last hrun
  cases x with
  | error e => cases hrun
  | ok a =>
    obtain ⟨b, rfl, hab⟩ := h a rfl
    exact hf a b hab c last hrun

/-- Computations that follow each other and return the same. -/
lemma Follows.repeats {m m' : StoreM α} (h : Follows K Eq m m') : Repeats m m' K := by
  intro a last hrun
  obtain ⟨b, last', hrun', rfl, hlast, hlast'⟩ := h K K (.refl K) (.refl K) a last hrun
  exact ⟨last', hrun', hlast'.trans hlast.symm⟩

/-- Computations that follow each other, with writes afterwards. -/
lemma Follows.bind_same {R : α → α → Prop} {m m' : StoreM α} {f f' : α → StoreM β}
    (h : Follows K R m m') (hf : ∀ a b, R a b → Same (f a) (f' b)) :
    Repeats (m >>= f) (m' >>= f') K := by
  intro c last hrun
  have hcont : ExceptT.bindCont f (m K).1 (m K).2 = (.ok c, last) := hrun
  rcases hm : m K with ⟨a | a, mid⟩
  · rw [hm] at hcont
    cases hcont
  · rw [hm] at hcont
    obtain ⟨b, mid', hm', hab, hmid, hmid'⟩ := h K K (.refl K) (.refl K) a mid hm
    obtain ⟨houtcome, hlike⟩ := hf a b hab mid mid' (hmid.trans hmid'.symm)
    have hfirst : f a mid = (.ok c, last) := hcont
    rw [hfirst] at houtcome hlike
    refine ⟨(f' b mid').2, ?_, hlike.symm⟩
    change ExceptT.bindCont f' (m' K).1 (m' K).2 = _
    rw [hm']
    exact Prod.ext houtcome.symm rfl

end StoreM

end RecordQuery
