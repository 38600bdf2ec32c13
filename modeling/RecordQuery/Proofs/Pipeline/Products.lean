import RecordQuery.Proofs.Pipeline.Records
import RecordQuery.Proofs.Pipeline.Tuples

set_option autoImplicit false

/-!
# Rows that show joined records

The rows of an unpaged plan without a reduction show joined records, in whatever order: there is one
row for every record of the main table that the plan takes, with every choice of partners.

## Main definitions

* `QueryPlan.based`, `QueryPlan.displayed` — the row with which the joins begin for a record, and
  the row that a plan returns for joined records.
* `QueryPlan.tuples` — the joined records that a test admits.
* `QueryPlan.Shows` — rows that show joined records.

## Main results

* `QueryPlan.IsRunnable.shows_tuples` — the rows of a plan show the joined records that it takes.
-/

namespace RecordQuery

open Outcome

/-! ## Lists of outcomes -/

section

variable {α β γ δ ε : Type} {f : α → Except ε β} {as bs : List α}

/-- Elements in another order become the same in another order. -/
lemma Outcome.exists_perm_of_mapM (h : as.Perm bs) {cs : List β} (hcs : as.mapM f = .ok cs) :
    ∃ ds, bs.mapM f = .ok ds ∧ cs.Perm ds := by
  induction h generalizing cs with
  | nil => exact ⟨cs, hcs, .refl cs⟩
  | cons a _ ih =>
    simp only [List.mapM_cons, bind_eq_ok, pure_eq_ok] at hcs
    obtain ⟨c, hc, rest, hrest, rfl⟩ := hcs
    obtain ⟨ds, hds, hperm⟩ := ih hrest
    exact ⟨c :: ds, by simp only [List.mapM_cons, hc, hds, ok_bind]; rfl, hperm.cons c⟩
  | swap a b as =>
    simp only [List.mapM_cons, bind_eq_ok, pure_eq_ok] at hcs
    obtain ⟨c, hc, -, ⟨d, hd, rest, hrest, rfl⟩, rfl⟩ := hcs
    exact ⟨d :: c :: rest, by simp only [List.mapM_cons, hc, hd, hrest, ok_bind]; rfl,
      .swap d c rest⟩
  | trans _ _ ih ih' =>
    obtain ⟨ds, hds, hperm⟩ := ih hcs
    obtain ⟨es, hes, hperm'⟩ := ih' hds
    exact ⟨es, hes, hperm.trans hperm'⟩

/-- Elements that come of others become what comes of that which the others become. -/
lemma Outcome.mapM_flatMap {g : α → List γ} {k : β → List δ} {h : γ → Except ε δ}
    {outs : List β} (houts : as.mapM f = .ok outs)
    (hg : ∀ a ∈ as, ∀ b, f a = .ok b → (g a).mapM h = .ok (k b)) :
    (as.flatMap g).mapM h = .ok (outs.flatMap k) := by
  induction as generalizing outs with
  | nil =>
    obtain rfl := Except.ok.inj houts
    rfl
  | cons a as ih =>
    simp only [List.mapM_cons, bind_eq_ok, pure_eq_ok] at houts
    obtain ⟨b, hb, rest, hrest, rfl⟩ := houts
    rw [List.flatMap_cons, List.flatMap_cons, List.mapM_append, hg a List.mem_cons_self b hb,
      ih hrest fun c hc => hg c (List.mem_cons_of_mem a hc)]
    rfl

end

/-- The elements that pass a test are those on which it comes to true. -/
lemma eq_filter_of_filterExcept {α : Type} {p : α → Except QueryError Bool} {as kept : List α}
    (h : filterExcept p as = .ok kept) : kept = as.filter fun a => (p a).toOption.getD false := by
  induction as generalizing kept with
  | nil => exact (Except.ok.inj h).symm
  | cons a as ih =>
    simp only [filterExcept, bind_eq_ok, pure_eq_ok] at h
    obtain ⟨passes, hpasses, rest, hrest, rfl⟩ := h
    rw [List.filter_cons, hpasses, ← ih hrest]
    rfl

/-- **Rows in order**, none of them left out, are the rows that there were. -/
lemma Pipeline.exists_of_paged {P : Pipeline} {env : ExecutionEnv} {K : Store}
    {order : List OrderSpec} {rows : List Row}
    (h : (P.paged order none none).listing env K = .ok (.ofRows rows)) :
    ∃ items, P.listing env K = .ok (.ofRows items) ∧ rows.Perm items := by
  change (if order.isEmpty then P else P.sort order none).listing env K = _ at h
  split at h
  · exact ⟨rows, h, .refl rows⟩
  · obtain ⟨below, hbelow, hsorted⟩ := map_eq_ok.mp h
    obtain ⟨hall, hperm⟩ := Listing.exists_of_sort hsorted
    exact ⟨below.rows, hall ▸ hbelow, hperm⟩

namespace QueryPlan

variable {p : QueryPlan} {params : List Value} {env : ExecutionEnv} {K : Store} {P : Pipeline}

/-! ## Joined records of a plan -/

/-- The row with which the joins begin for a record of the main table: its own row with the values
that are computed before the joins. -/
def based (p : QueryPlan) (params : List Value) (r : Record) : Except QueryError Row :=
  Pipeline.computedRow params p.earlyColumns true (Row.ofRecord r p.needsDigest)

/-- The row of joined records, with the values that are computed before the joins. -/
def joinedRow (p : QueryPlan) (params : List Value) (t : JoinedRecords) :
    Except QueryError Row := do
  return (JoinedTuple.mk (← p.based params t.main) (p.joins.zip t.partners)).row

/-- The row that a plan returns for joined records. -/
def displayed (p : QueryPlan) (params : List Value) (t : JoinedRecords) :
    Except QueryError Row := do
  (Projection.ofPlan p).row
    (← Pipeline.computedRow params p.lateColumns false (← p.joinedRow params t))

/-- A record of the main table, put together with partners as far as a test admits them. The test is
asked as soon as there is one more partner. -/
def tuplesOf (p : QueryPlan) (params : List Value) (K : Store) (keep : JoinedRecords → Bool)
    (r : Record) : List JoinedRecords :=
  match p.based params r with
  | .ok base => (JoinSpec.matchings K (fun ps => keep ⟨r, ps⟩) p.joins base).map (.mk r)
  | .error _ => []

/-- The joined records of a plan that a test admits: each record of the main table that it admits
alone, put together with partners. -/
def tuples (p : QueryPlan) (params : List Value) (K : Store) (keep : JoinedRecords → Bool) :
    List JoinedRecords :=
  ((K.recordsOf p.ns (p.set.getD "")).filter fun r => keep ⟨r, []⟩).flatMap
    (p.tuplesOf params K keep)

/-- Rows show joined records, in whatever order. -/
def Shows (p : QueryPlan) (params : List Value) (ts : List JoinedRecords) (rows : List Row) :
    Prop :=
  ∃ shown, ts.mapM (p.displayed params) = .ok shown ∧ rows.Perm shown

/-- Whether a plan takes a record of the main table: the store accepts it, and its row filter, if
there is one, lets it pass. -/
def takes (p : QueryPlan) (params : List Value) (r : Record) : Bool :=
  p.accepts r && (p.based params r >>= p.passes params).toOption.getD false

/-! ## Plans that can be run -/

/-- A plan without unknowns, for which there are no indexes and whose rows are neither reduced nor
limited. -/
structure IsRunnable (p : QueryPlan) : Prop where
  /-- There are no indexes. -/
  indexes : p.indexes = []
  /-- The store can decide the conditions on the main table. -/
  known : p.toTablePlan.isKnown = true
  /-- The strategy is the one for the conditions. -/
  settled : p.isSettled
  /-- The joined tables. -/
  joins : ∀ j ∈ p.joins, j.IsRunnable
  /-- The rows are neither reduced nor limited. -/
  unreduced : p.IsUnreduced

namespace IsRunnable

/-- **The stages of such a plan.** -/
lemma exists_pipeline (h : p.IsRunnable) (hP : p.pipeline = .ok P) :
    ∃ access, TableAccess.ofPlan p.toTablePlan = .ok access ∧
      P = ((((p.joins.foldl .join (((Pipeline.fetch access).computed p.earlyColumns true).filtered
        p.rowFilter)).computed p.lateColumns false).paged p.orderBy none none)).project
          (.ofPlan p) := by
  rw [pipeline_eq, h.unreduced.source] at hP
  obtain ⟨input, hinput, hP⟩ := bind_eq_ok.mp hP
  obtain rfl := Except.ok.inj hinput
  obtain ⟨base, hbase, hP⟩ := bind_eq_ok.mp hP
  simp only [Pipeline.ofSource, h.unreduced.reduction] at hbase
  obtain ⟨access, haccess, hbase⟩ := bind_eq_ok.mp hbase
  obtain rfl := Except.ok.inj hbase
  simp only [h.unreduced.reduction, h.unreduced.having, h.unreduced.offset,
    h.unreduced.limit] at hP
  exact ⟨access, haccess, (Except.ok.inj hP).symm⟩

/-- **The records that the strategy of such a plan finds** are those that the store accepts. -/
lemma perm_records (h : p.IsRunnable) {access : TableAccess}
    (haccess : TableAccess.ofPlan p.toTablePlan = .ok access) {found : List Record}
    (hfound : access.records K = .ok found) :
    found.Perm ((K.recordsOf p.ns (p.set.getD "")).filter p.accepts) := by
  obtain ⟨s, hs, htable⟩ := h.settled.exists_strategy (by rw [h.unreduced.source]; rfl)
  obtain ⟨s', hs', -, hfinds⟩ := TablePlan.exists_readingStrategy h.known h.indexes
  have hreading : p.strategyFor = p.readingStrategy := by
    unfold strategyFor
    rw [h.unreduced.reduction]
  obtain rfl := Except.ok.inj ((hreading ▸ hs).symm.trans hs')
  obtain ⟨hns, hset, -⟩ := TableAccess.of_ofPlan haccess
  rw [htable] at haccess
  obtain ⟨rs, hrs, hperm⟩ := hfinds access K (Pipeline.strategy_of_ofPlan haccess)
  obtain rfl := Except.ok.inj (hrs.symm.trans hfound)
  rwa [hns, show access.set = p.set.getD "" by rw [hset]; rfl] at hperm

/-- The rows with which the joins begin are those of the records that the plan takes. -/
lemma exists_bases (h : p.IsRunnable) {access : TableAccess}
    (haccess : TableAccess.ofPlan p.toTablePlan = .ok access) {bases : List Row}
    (hl : ((((Pipeline.fetch access).computed p.earlyColumns true).filtered p.rowFilter)).listing
      env K = .ok (.ofRows bases)) :
    ∃ taken : List Record, taken.mapM (p.based env.params) = .ok bases ∧
      taken.Perm ((K.recordsOf p.ns (p.set.getD "")).filter (p.takes env.params)) := by
  obtain ⟨items, hitems, htested⟩ := Pipeline.exists_of_filtered hl
  rw [Pipeline.listing_computed_rows] at hitems
  obtain ⟨fetched, hfetched, hcomputed⟩ := map_eq_ok.mp hitems
  obtain ⟨found, hfound, rfl⟩ := exists_of_found haccess hfetched
  obtain ⟨-, hbased⟩ := Listing.exists_of_mapRows hcomputed
  rw [Listing.ofRows, List.mapM_map] at hbased
  obtain ⟨taken, htaken, hbases⟩ := exists_of_filterExcept_mapM hbased htested
  refine ⟨taken, hbases, ?_⟩
  rw [eq_filter_of_filterExcept htaken]
  refine ((h.perm_records haccess hfound).filter _).trans (.of_eq ?_)
  rw [List.filter_filter]
  exact List.filter_congr fun r _ => Bool.and_comm ..

/-- **The rows of a plan show the joined records that it takes**, each once.

**Proof sketch.** From the last stage down a listing without a failure was made of one without a
failure. The joins put the rows of the records together with partners (`Pipeline.perm_of_joins`),
the stages before them choose the records (`QueryPlan.IsRunnable.exists_bases`), and those behind
them change the rows one by one or sort them. -/
theorem shows_tuples (h : p.IsRunnable) (hP : p.pipeline = .ok P) {rows : List Row}
    (hl : P.listing env K = .ok (.ofRows rows)) :
    p.Shows env.params (p.tuples env.params K fun t =>
      !t.partners.isEmpty || p.takes env.params t.main) rows := by
  obtain ⟨access, haccess, rfl⟩ := h.exists_pipeline hP
  obtain ⟨paged, hpaged, hrows⟩ := map_eq_ok.mp hl
  obtain ⟨hsorted, hprojected⟩ := Listing.exists_of_mapRows hrows
  rw [hsorted] at hpaged
  obtain ⟨late, hlate, hperm⟩ := Pipeline.exists_of_paged hpaged
  rw [Pipeline.listing_computed_rows] at hlate
  obtain ⟨joined, hjoined, hcomputed⟩ := map_eq_ok.mp hlate
  obtain ⟨hall, hlate⟩ := Listing.exists_of_mapRows hcomputed
  rw [hall] at hjoined
  obtain ⟨bases, hbases, hpartners⟩ := Pipeline.perm_of_joins h.joins hjoined
  obtain ⟨taken, htaken, hrecords⟩ := h.exists_bases haccess hbases
  -- The rows behind the joins, in the order of the joined records of the records that are taken.
  have htuples : (taken.flatMap (p.tuplesOf env.params K fun _ => true)).mapM
      (p.joinedRow env.params) = .ok (bases.flatMap fun base =>
        (JoinSpec.matchings K (fun _ => true) p.joins base).map fun ps =>
          (JoinedTuple.mk base (p.joins.zip ps)).row) := by
    refine mapM_flatMap htaken fun r _ base hbase => ?_
    rw [tuplesOf, hbase, List.mapM_map]
    refine mapM_eq_map fun ps _ => ?_
    simp only [Function.comp, joinedRow, hbase, ok_bind]
    rfl
  obtain ⟨lates, hlates, hlater⟩ := exists_perm_of_mapM hpartners hlate
  obtain ⟨shown, hshown, hsame⟩ := exists_perm_of_mapM (hperm.trans hlater) hprojected
  have hdisplayed := mapM_bind htuples (mapM_bind hlates hshown)
  have hall : (taken.flatMap (p.tuplesOf env.params K fun _ => true)).Perm
      (p.tuples env.params K fun t => !t.partners.isEmpty || p.takes env.params t.main) := by
    refine (hrecords.flatMap_right _).trans (.of_eq ?_)
    refine List.flatMap_congr fun r hr => ?_
    have htakes : ∀ ps : List (Option Record),
        (!ps.isEmpty || p.takes env.params r) = true := fun ps => by
      rw [(List.mem_filter.mp hr).2, Bool.or_true]
    unfold tuplesOf
    simp only [htakes]
  obtain ⟨others, hothers, hlast⟩ := exists_perm_of_mapM hall hdisplayed
  exact ⟨others, hothers, hsame.trans hlast⟩

end IsRunnable

end QueryPlan

end RecordQuery
