import RecordQuery.Proofs.Pipeline.Computed
import RecordQuery.Proofs.Plan.Cargo

set_option autoImplicit false

/-!
# Rows that show records

The rows of a plan that lists records of a set each show one of these: the record's row with the
computed values, cut down to what is returned. The stages in between choose among the rows and sort
them. Unpaged they only choose, and then the records that are shown are those that the strategy
finds and the row filter admits, in the order in which they are found.

## Main definitions

* `QueryPlan.carried`, `QueryPlan.display` — the row that a plan carries for a record, and the one
  that it returns.
* `QueryPlan.admits`, `QueryPlan.selected` — the records that the row filter of a plan lets pass,
  and those that the plan selects.
* `Listing.Shows` — the rows of a listing show records of a set.

## Main results

* `QueryPlan.IsListing.shows_records` — the rows of a plan that lists records show them.
* `QueryPlan.IsListing.exists_selected` — those of an unpaged plan show the records that it
  selects.
-/

namespace RecordQuery

open Outcome

/-! ## Lists of outcomes -/

section

variable {α β γ ε : Type} {f : α → Except ε β} {as : List α} {bs : List β}

/-- Elements that are all changed stand opposite to what becomes of them. -/
lemma Outcome.forall₂_of_mapM (h : as.mapM f = .ok bs) :
    List.Forall₂ (fun a b => f a = .ok b) as bs := by
  induction as generalizing bs with
  | nil =>
    obtain rfl := Except.ok.inj h
    exact .nil
  | cons a as ih =>
    simp only [List.mapM_cons, bind_eq_ok, pure_eq_ok] at h
    obtain ⟨b, hb, rest, hrest, rfl⟩ := h
    exact .cons hb (ih hrest)

/-- Elements that are all changed in a way that is known. -/
lemma Outcome.mapM_eq_map {g : α → β} (h : ∀ a ∈ as, f a = .ok (g a)) :
    as.mapM f = .ok (as.map g) := by
  induction as with
  | nil => rfl
  | cons a as ih =>
    simp only [List.mapM_cons, h a List.mem_cons_self, ok_bind,
      ih fun b hb => h b (List.mem_cons_of_mem a hb)]
    rfl

/-- One change after another. -/
lemma Outcome.mapM_bind {g : β → Except ε γ} {cs : List γ} (h : as.mapM f = .ok bs)
    (hg : bs.mapM g = .ok cs) : as.mapM (fun a => f a >>= g) = .ok cs := by
  induction as generalizing bs cs with
  | nil =>
    obtain rfl := Except.ok.inj h
    exact hg
  | cons a as ih =>
    simp only [List.mapM_cons, bind_eq_ok, pure_eq_ok] at h
    obtain ⟨b, hb, rest, hrest, rfl⟩ := h
    simp only [List.mapM_cons, bind_eq_ok, pure_eq_ok] at hg
    obtain ⟨c, hc, others, hothers, rfl⟩ := hg
    simp only [List.mapM_cons, hb, hc, ih hrest hothers, ok_bind]
    rfl

/-- The elements opposite to a part of a list, in order. -/
lemma exists_forall₂_of_sublist {R : α → β → Prop} {kept : List β} (h : List.Forall₂ R as bs)
    (hkept : kept.Sublist bs) : ∃ cs, cs.Sublist as ∧ List.Forall₂ R cs kept := by
  induction hkept generalizing as with
  | slnil =>
    cases h
    exact ⟨[], .slnil, .nil⟩
  | cons b _ ih =>
    cases h with
    | cons hb hrest =>
      obtain ⟨cs, hcs, hforall⟩ := ih hrest
      exact ⟨cs, hcs.cons _, hforall⟩
  | cons_cons b _ ih =>
    cases h with
    | cons hb hrest =>
      obtain ⟨cs, hcs, hforall⟩ := ih hrest
      exact ⟨_, hcs.cons_cons _, .cons hb hforall⟩

/-- The elements opposite to a part of a list, in whatever order. -/
lemma exists_forall₂_of_subperm {R : α → β → Prop} {kept : List β} (h : List.Forall₂ R as bs)
    (hkept : kept.Subperm bs) : ∃ cs, cs.Subperm as ∧ List.Forall₂ R cs kept := by
  obtain ⟨sub, hperm, hsub⟩ := hkept
  obtain ⟨opposite, hopposite, hforall⟩ := exists_forall₂_of_sublist h hsub
  obtain ⟨cs, hcs, hsame⟩ := List.perm_comp_forall₂ hperm.symm hforall.flip
  exact ⟨cs, ⟨opposite, hsame.symm, hopposite⟩, hcs.flip⟩

end

/-- Testing elements that were changed tests the elements.

**Proof sketch.** By induction on the elements. What is tested of the first element is its image,
and if this is kept then so is the element. -/
lemma exists_of_filterExcept_mapM {α β : Type} {f : α → Except QueryError β}
    {keep : β → Except QueryError Bool} {as : List α} {bs kept : List β} (h : as.mapM f = .ok bs)
    (hkept : filterExcept keep bs = .ok kept) :
    ∃ cs, filterExcept (fun a => f a >>= keep) as = .ok cs ∧ cs.mapM f = .ok kept := by
  induction as generalizing bs kept with
  | nil =>
    obtain rfl := Except.ok.inj h
    obtain rfl := Except.ok.inj hkept
    exact ⟨[], rfl, rfl⟩
  | cons a as ih =>
    simp only [List.mapM_cons, bind_eq_ok, pure_eq_ok] at h
    obtain ⟨b, hb, rest, hrest, rfl⟩ := h
    simp only [filterExcept, bind_eq_ok, pure_eq_ok] at hkept
    obtain ⟨passes, hpasses, others, hothers, rfl⟩ := hkept
    obtain ⟨cs, hcs, hmap⟩ := ih hrest hothers
    simp only [filterExcept, hb, hpasses, hcs, ok_bind]
    cases passes with
    | false => exact ⟨cs, rfl, hmap⟩
    | true =>
      refine ⟨a :: cs, rfl, ?_⟩
      simp only [List.mapM_cons, hb, hmap, ok_bind]
      rfl

/-! ## Rows of records -/

namespace QueryPlan

variable {p : QueryPlan} {params : List Value}

/-- A row with the computed values of a plan, and with their labels. -/
def compute (p : QueryPlan) (params : List Value) (row : Row) : Except QueryError Row :=
  computeRow params (p.computedColumns.map (fun c => (c.1.source, c.2)))
    ((p.computedColumns.filter (fun c => c.1.label != c.1.source)).map
      (fun c => (c.1.label, c.1.source))) row

/-- The row that a plan carries for a record: the record's row with the computed values. -/
def carried (p : QueryPlan) (params : List Value) (r : Record) : Except QueryError Row :=
  p.compute params (Row.ofRecord r p.needsDigest)

/-- The row that a plan returns for a record. -/
def display (p : QueryPlan) (params : List Value) (r : Record) : Except QueryError Row := do
  (Projection.ofPlan p).row (← p.carried params r)

/-- Whether the row filter of a plan, if it has one, lets a row pass. -/
def passes (p : QueryPlan) (params : List Value) (row : Row) : Except QueryError Bool :=
  match p.rowFilter with
  | some e => e.holdsOn params row
  | none => return true

/-- Whether it lets a record pass. -/
def admits (p : QueryPlan) (params : List Value) (r : Record) : Except QueryError Bool := do
  p.passes params (← p.carried params r)

/-- The records that a plan selects: of those that its strategy finds the ones that its row filter
lets pass. -/
def selected (p : QueryPlan) (params : List Value) (K : Store) :
    Except QueryError (List Record) := do
  let access ← TableAccess.ofPlan p.toTablePlan
  filterExcept (p.admits params) (← access.records K)

end QueryPlan

/-! ## Listings that show records -/

namespace Listing

variable {K : Store} {ns set : String} {f : Record → Except QueryError Row} {l m : Listing}

/-- Rows that are changed one by one are the changed ones up to a failure. -/
lemma exists_prefix_of_mapRows (g : Row → Except QueryError Row) (l : Listing) :
    ∃ items, items <+: l.rows ∧ items.mapM g = .ok (l.mapRows g).rows := by
  obtain ⟨rows, failure⟩ := l
  simp only [mapRows, expand]
  induction rows with
  | nil => exact ⟨[], List.nil_prefix, rfl⟩
  | cons row rows ih =>
    rw [expandRows]
    cases hrow : g row with
    | error e => exact ⟨[], List.nil_prefix, rfl⟩
    | ok out =>
      obtain ⟨items, hitems, hmap⟩ := ih
      refine ⟨row :: items, (List.prefix_cons_inj row).mpr hitems, ?_⟩
      simp only [List.mapM_cons, hrow, hmap, ok_bind]
      rfl

/-- Rows that pass a test stand in their order. -/
lemma sublist_filter (keep : Row → Except QueryError Bool) (l : Listing) :
    (l.filter keep).rows.Sublist l.rows := by
  obtain ⟨rows, failure⟩ := l
  simp only [filter, expand]
  induction rows with
  | nil => exact .slnil
  | cons row rows ih =>
    rw [expandRows, passing]
    cases keep row with
    | error e => exact List.nil_sublist _
    | ok passes =>
      cases passes with
      | false => exact ih.cons row
      | true => exact ih.cons_cons row

/-- The rows of a window stand in their order. -/
lemma sublist_window (offset : Nat) (limit : Option Nat) (l : Listing) :
    (l.window offset limit).rows.Sublist l.rows := by
  cases limit with
  | none => exact List.drop_sublist offset l.rows
  | some n => exact (List.take_sublist n _).trans (List.drop_sublist offset l.rows)

/-- The rows that a sort holds, sorted, are those that it is given. -/
lemma perm_sortKeyed {env : ExecutionEnv} {order : List OrderSpec} {all : List KeyedRow}
    (hall : fold (holdRow env order) l.failure [] l.rows = .ok all) :
    (sortKeyed order none all.reverse).Perm l.rows := by
  refine ((perm_stableSort _ _).map Prod.snd).trans (List.Perm.of_eq ?_)
  rw [List.map_reverse, map_snd_fold_holdRow hall]
  simp

/-- Sorted rows are among those that are sorted. -/
lemma subperm_sort (env : ExecutionEnv) (order : List OrderSpec) (top : Option Nat) (l : Listing) :
    (l.buffered (holdRow env order) [] (fun held => sortKeyed order top held.reverse)).rows.Subperm
      l.rows := by
  unfold buffered
  split
  · rename_i all hall
    refine List.Subperm.trans (List.Sublist.subperm ?_) (perm_sortKeyed hall).subperm
    cases top with
    | none => exact List.Sublist.refl _
    | some n => exact List.take_sublist n _
  · exact List.nil_subperm

/-- Rows that are taken in without a failure have none behind them. -/
lemma eq_none_of_fold {β : Type} {f : β → Row → Except QueryError β} {failure : Option QueryError}
    {b out : β} {rows : List Row} (h : fold f failure b rows = .ok out) : failure = none := by
  induction rows generalizing b with
  | nil =>
    cases failure with
    | none => rfl
    | some e => cases h
  | cons row rows ih =>
    obtain ⟨next, -, h⟩ := bind_eq_ok.mp h
    exact ih h

/-- **The rows that were sorted**, if there is no failure. -/
lemma exists_of_sort {env : ExecutionEnv} {order : List OrderSpec} {rows : List Row}
    (h : l.buffered (holdRow env order) [] (fun held => sortKeyed order none held.reverse) =
      .ofRows rows) : l = .ofRows l.rows ∧ rows.Perm l.rows := by
  unfold buffered at h
  split at h
  · rename_i all hall
    obtain ⟨rfl, -⟩ := Listing.mk.inj h
    refine ⟨?_, perm_sortKeyed hall⟩
    obtain ⟨rows, failure⟩ := l
    rw [show failure = none from eq_none_of_fold hall]
    rfl
  · cases h

/-- The rows of a listing show records of a set, none of them twice. -/
def Shows (K : Store) (ns set : String) (f : Record → Except QueryError Row) (l : Listing) : Prop :=
  ∃ rs, K.Lists ns set rs ∧ List.Forall₂ (fun r row => f r = .ok row) rs l.rows

/-- **Rows that are chosen and sorted** show records as before. -/
lemma Shows.of_subperm (h : l.Shows K ns set f) (hsub : m.rows.Subperm l.rows) :
    m.Shows K ns set f := by
  obtain ⟨rs, hrs, hrows⟩ := h
  obtain ⟨kept, hkept, hforall⟩ := exists_forall₂_of_subperm hrows hsub
  obtain ⟨sub, hperm, hsublist⟩ := hkept
  exact ⟨kept, ⟨fun r hr => hrs.mem r (hsublist.subset (hperm.symm.subset hr)),
    hperm.nodup_iff.mp (hsublist.nodup hrs.nodup)⟩, hforall⟩

/-- **Rows that are changed** show records with the change. -/
lemma Shows.mapRows (h : l.Shows K ns set f) (g : Row → Except QueryError Row) :
    (l.mapRows g).Shows K ns set fun r => f r >>= g := by
  obtain ⟨items, hitems, hmap⟩ := exists_prefix_of_mapRows g l
  obtain ⟨rs, hrs, hrows⟩ : (ofRows items).Shows K ns set f :=
    h.of_subperm hitems.sublist.subperm
  refine ⟨rs, hrs, ?_⟩
  simp only [ofRows] at hrows
  have hchanged := forall₂_of_mapM hmap
  generalize (l.mapRows g).rows = outs at hchanged
  clear hrs hmap hitems
  induction hrows generalizing outs with
  | nil =>
    cases hchanged
    exact .nil
  | cons hfirst hrest ih =>
    cases hchanged with
    | cons hout houts =>
      refine .cons ?_ (ih _ houts)
      change f _ >>= g = _
      rw [hfirst, ok_bind, hout]

/-- Rows without a change. -/
lemma mapRows_ok (l : Listing) : l.mapRows .ok = l := by
  obtain ⟨rows, failure⟩ := l
  simp only [mapRows, expand]
  induction rows with
  | nil => rfl
  | cons row rows ih =>
    rw [expandRows, ih]
    rfl

end Listing

/-! ## Plans that list records -/

namespace Pipeline

variable {env : ExecutionEnv} {K : Store} {P : Pipeline}

/-- The stages for no row filter and for some. -/
lemma listing_filtered_eq (condition : Option Expr) :
    (P.filtered condition).listing env K = (P.listing env K).map fun l =>
      condition.elim l fun e => l.filter fun row => e.holdsOn env.params row := by
  cases condition with
  | none =>
    change _ = (P.listing env K).map id
    rw [Except.map_id]
    rfl
  | some e => rfl

/-- A row with computed values and, on request, their labels. -/
def computedRow (params : List Value) (columns : List (Column × Expr)) (withLabels : Bool)
    (row : Row) : Except QueryError Row :=
  computeRow params (columns.map (fun c => (c.1.source, c.2)))
    (if withLabels then
      (columns.filter (fun c => c.1.label != c.1.source)).map (fun c => (c.1.label, c.1.source))
    else []) row

/-- The stage of computed values, if there are any. -/
lemma listing_computed_rows (columns : List (Column × Expr)) (withLabels : Bool) :
    (P.computed columns withLabels).listing env K =
      (P.listing env K).map (.mapRows (computedRow env.params columns withLabels)) := by
  unfold computed
  split
  · rename_i hnone
    have hcolumns : columns = [] := List.isEmpty_iff.mp hnone
    have hcompute : computedRow env.params columns withLabels = .ok := by
      funext row
      unfold computedRow
      rw [hcolumns]
      cases withLabels <;> rfl
    have hid : Listing.mapRows .ok = id := funext Listing.mapRows_ok
    rw [hcompute, hid, Except.map_id]
    rfl
  · rfl

/-- The stage of all computed values of a plan. -/
lemma listing_computed_eq (p : QueryPlan) :
    (P.computed p.computedColumns true).listing env K =
      (P.listing env K).map (.mapRows (p.compute env.params)) :=
  listing_computed_rows p.computedColumns true

/-- The rows that a row filter was given, if there is no failure. -/
lemma exists_of_filtered {p : QueryPlan} {rows : List Row}
    (h : (P.filtered p.rowFilter).listing env K = .ok (.ofRows rows)) :
    ∃ items, P.listing env K = .ok (.ofRows items) ∧
      filterExcept (p.passes env.params) items = .ok rows := by
  unfold QueryPlan.passes
  rw [listing_filtered_eq] at h
  obtain ⟨below, hbelow, h⟩ := map_eq_ok.mp h
  cases hfilter : p.rowFilter with
  | none =>
    rw [hfilter] at h
    have hall : filterExcept (fun _ => return true) rows = .ok (rows.filter fun _ => true) :=
      filterExcept_eq_ok fun _ _ => rfl
    rw [List.filter_true] at hall
    exact ⟨rows, by rw [hbelow, ← h]; rfl, hall⟩
  | some e =>
    rw [hfilter] at h
    obtain ⟨hitems, hkept⟩ := Listing.exists_of_filter h
    exact ⟨below.rows, by rw [hbelow, ← hitems], hkept⟩

/-- **Paged rows are among those that are paged**. -/
lemma shows_paged {ns set : String} {f : Record → Except QueryError Row} {order : List OrderSpec}
    {offset limit : Option UInt64} {l : Listing}
    (hP : ∀ m, P.listing env K = .ok m → m.Shows K ns set f)
    (h : (P.paged order offset limit).listing env K = .ok l) : l.Shows K ns set f := by
  unfold paged at h
  simp only at h
  have hsorted : ∀ m, (if order.isEmpty then P else
      P.sort order (topRows offset limit)).listing env K = .ok m → m.Shows K ns set f := by
    intro m hm
    split at hm
    · exact hP m hm
    · obtain ⟨below, hbelow, rfl⟩ := map_eq_ok.mp hm
      exact (hP below hbelow).of_subperm (Listing.subperm_sort env order _ below)
  split at h
  · exact hsorted l h
  · obtain ⟨below, hbelow, rfl⟩ := map_eq_ok.mp h
    exact (hsorted below hbelow).of_subperm (Listing.sublist_window _ _ below).subperm

end Pipeline

namespace QueryPlan

variable {p : QueryPlan} {env : ExecutionEnv} {K : Store} {ns set : String} {P : Pipeline}

/-- The rows of the records that the strategy of a plan finds. -/
lemma exists_of_found {access : TableAccess}
    (haccess : TableAccess.ofPlan p.toTablePlan = .ok access) {l : Listing}
    (hl : (Pipeline.fetch access).listing env K = .ok l) :
    ∃ found, access.records K = .ok found ∧
      l = .ofRows (found.map fun r => Row.ofRecord r p.needsDigest) := by
  obtain ⟨rows, hrows, rfl⟩ := map_eq_ok.mp hl
  obtain ⟨found, hfound, hrows⟩ := bind_eq_ok.mp hrows
  obtain rfl := Except.ok.inj hrows
  refine ⟨found, hfound, ?_⟩
  rw [TableAccess.rowsOf, (TableAccess.of_ofPlan haccess).2.2]

namespace IsListing

/-- **The stages of a plan that lists records.**

**Proof sketch.** The assembly of the pipeline is taken apart. Without joins all computed columns
are early ones, and without a reduction, conditions on groups and joins no stage stands between the
row filter and the page. -/
lemma exists_pipeline (h : p.IsListing ns set) (hP : p.pipeline = .ok P) :
    ∃ access offset limit, TableAccess.ofPlan p.toTablePlan = .ok access ∧
      p.offset.mapM RowBound.value = .ok offset ∧ p.limit.mapM RowBound.value = .ok limit ∧
      P = ((((Pipeline.fetch access).computed p.computedColumns true).filtered p.rowFilter).paged
        p.orderBy offset limit).project (.ofPlan p) := by
  -- Without joins every value is computed before the row filter, and none after it.
  have hnone : p.refersToJoin = fun _ => false := by
    funext e
    simp only [refersToJoin, h.joins, List.any_nil]
    refine List.any_eq_false.mpr fun c _ => ?_
    split <;> exact Bool.noConfusion
  have hearly : p.earlyColumns = p.computedColumns := by simp [earlyColumns, hnone]
  have hlate : p.lateColumns = [] := by simp [lateColumns, hnone]
  rw [pipeline_eq, h.source] at hP
  obtain ⟨input, hinput, hP⟩ := bind_eq_ok.mp hP
  obtain rfl := Except.ok.inj hinput
  obtain ⟨base, hbase, hP⟩ := bind_eq_ok.mp hP
  simp only [Pipeline.ofSource, h.reduction] at hbase
  obtain ⟨access, haccess, hbase⟩ := bind_eq_ok.mp hbase
  obtain rfl := Except.ok.inj hbase
  obtain ⟨offset, hoffset, hP⟩ := bind_eq_ok.mp hP
  obtain ⟨limit, hlimit, hP⟩ := bind_eq_ok.mp hP
  simp only [hearly, hlate, h.reduction, h.joins, h.having] at hP
  exact ⟨access, offset, limit, haccess, hoffset, hlimit, (Except.ok.inj hP).symm⟩

/-- The records that the strategy of a settled listing finds. -/
lemma lists_records (h : p.IsListing ns set) (hsettled : p.isSettled) {access : TableAccess}
    (haccess : TableAccess.ofPlan p.toTablePlan = .ok access) {found : List Record}
    (hfound : access.records K = .ok found) : K.Lists ns set found := by
  obtain ⟨hns, hset, -⟩ := TableAccess.of_ofPlan haccess
  have hsame : access.set = set := Option.some.inj (hset.symm.trans h.set)
  refine ⟨fun r hr => ?_, TableAccess.nodup_records
    (isProper_of_isSettled hsettled ⟨h.source, h.reduction⟩ haccess) hfound⟩
  rw [← h.ns, ← hns, ← hsame]
  exact TableAccess.mem_recordsOf_of_records hfound hr

/-- **The rows of a plan that lists records show them**: each is what the plan returns for a record
of the set, and no record is shown twice. -/
theorem shows_records (h : p.IsListing ns set) (hsettled : p.isSettled) (hP : p.pipeline = .ok P)
    {l : Listing} (hl : P.listing env K = .ok l) : l.Shows K ns set (p.display env.params) := by
  obtain ⟨access, offset, limit, haccess, -, -, rfl⟩ := h.exists_pipeline hP
  obtain ⟨paged, hpaged, rfl⟩ := map_eq_ok.mp hl
  refine Listing.Shows.mapRows (Pipeline.shows_paged (fun m hm => ?_) hpaged) _
  rw [Pipeline.listing_filtered_eq, Pipeline.listing_computed_eq] at hm
  obtain ⟨computed, hcomputed, rfl⟩ := map_eq_ok.mp hm
  obtain ⟨fetched, hfetched, rfl⟩ := map_eq_ok.mp hcomputed
  obtain ⟨found, hfound, rfl⟩ := exists_of_found haccess hfetched
  have hshows : (Listing.ofRows (found.map fun r => Row.ofRecord r p.needsDigest)).Shows K ns set
      fun r => .ok (Row.ofRecord r p.needsDigest) :=
    ⟨found, h.lists_records hsettled haccess hfound,
      List.forall₂_map_right_iff.mpr (List.forall₂_same.mpr fun r _ => rfl)⟩
  have hcarried := hshows.mapRows (p.compute env.params)
  cases p.rowFilter with
  | none => exact hcarried
  | some e => exact hcarried.of_subperm (Listing.sublist_filter _ _).subperm

/-- Selected records are records of the set, none of them twice. -/
lemma lists_selected (h : p.IsListing ns set) (hsettled : p.isSettled) {params : List Value}
    {rs : List Record} (hrs : p.selected params K = .ok rs) : K.Lists ns set rs := by
  obtain ⟨access, haccess, hrs⟩ := bind_eq_ok.mp hrs
  obtain ⟨found, hfound, hrs⟩ := bind_eq_ok.mp hrs
  have hlists := h.lists_records hsettled haccess hfound
  have hsub := sublist_filterExcept hrs
  exact ⟨fun r hr => hlists.mem r (hsub.subset hr), hsub.nodup hlists.nodup⟩

/-- **The rows of an unpaged plan show the records that it selects**, all of them in order.

**Proof sketch.** From the last stage down: a listing without a failure was made of one without a
failure. The page is everything, the rows that were displayed are those that passed the test, and
these were computed from records that were found. -/
theorem exists_selected (h : p.IsListing ns set) (hunpaged : p.IsUnpaged)
    (hP : p.pipeline = .ok P) {rows : List Row} (hl : P.listing env K = .ok (.ofRows rows)) :
    ∃ rs, p.selected env.params K = .ok rs ∧ rs.mapM (p.display env.params) = .ok rows := by
  obtain ⟨access, offset, limit, haccess, hoffset, hlimit, rfl⟩ := h.exists_pipeline hP
  rw [hunpaged.offset] at hoffset
  rw [hunpaged.limit] at hlimit
  obtain rfl := Except.ok.inj hoffset
  obtain rfl := Except.ok.inj hlimit
  rw [hunpaged.orderBy] at hl
  -- From the last stage down: a listing without a failure was made of one without a failure.
  obtain ⟨paged, hpaged, hrows⟩ := map_eq_ok.mp hl
  obtain ⟨hkept, hdisplayed⟩ := Listing.exists_of_mapRows hrows
  rw [hkept] at hpaged
  obtain ⟨items, hitems, htested⟩ := Pipeline.exists_of_filtered hpaged
  rw [Pipeline.listing_computed_eq] at hitems
  obtain ⟨fetched, hfetched, hcomputed⟩ := map_eq_ok.mp hitems
  obtain ⟨found, hfound, rfl⟩ := exists_of_found haccess hfetched
  obtain ⟨-, hcarried⟩ := Listing.exists_of_mapRows hcomputed
  rw [Listing.ofRows, List.mapM_map] at hcarried
  obtain ⟨rs, hrs, hmap⟩ := exists_of_filterExcept_mapM hcarried htested
  refine ⟨rs, ?_, mapM_bind hmap hdisplayed⟩
  simp only [selected, haccess, hfound, ok_bind]
  exact hrs

end IsListing

end QueryPlan

end RecordQuery
