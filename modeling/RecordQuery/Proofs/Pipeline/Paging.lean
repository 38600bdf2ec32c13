import RecordQuery.Proofs.Cursor.Complete
import RecordQuery.Proofs.Pipeline.Passes
import RecordQuery.Proofs.Value.Order

set_option autoImplicit false

/-!
# Pages of sorted rows

The rows of a page are those between its offset and its limit in the stable sort of all rows, also
where the sort is cut off behind the last row that can be returned. So pages that follow each other
are consecutive pieces of one list.

## Main definitions

* `compareRows` — the lexicographic comparison of rows by their sort keys.
* `pageOf` — the rows between an offset and a limit; `pagesFrom` — pages that follow each other.

## Main results

* `compareRows_eq` — the sort compares rows lexicographically.
* `preorderOn_compareRows` — rows whose keys have numbers that are apart are totally preordered.
* `takeLimit_drop_sortKeyed` — where a sort is cut off does not show in a page.
* `Pipeline.paged_drain` — what the pages hold.
-/

namespace RecordQuery

open Outcome

/-! ## The comparison of keys -/

/-- The direction of a sort key on a comparison. -/
def OrderSpec.direct (spec : OrderSpec) (o : Ordering) : Ordering :=
  if spec.descending then o.swap else o

/-- **The comparison of two rows by their sort keys**, lexicographically: every key is compared by
the order of values, in its direction, and the first of these comparisons that tells the rows apart
decides. -/
def compareRows (order : List OrderSpec) (a b : KeyedRow) : Ordering :=
  ((order.zip (a.1.zip b.1)).map fun k => k.1.direct (k.2.1.sortOrder k.2.2)).foldr
    Ordering.then .eq

/-- A comparison the other way round is the reverse in both directions. -/
lemma OrderSpec.direct_swap (spec : OrderSpec) (o : Ordering) :
    spec.direct o.swap = (spec.direct o).swap := by
  unfold direct
  split <;> rfl

/-- A direction keeps what a preorder says about three comparisons. -/
lemma Composes.direct {p q r : Ordering} (h : Composes p q r) (spec : OrderSpec) :
    Composes (spec.direct p) (spec.direct q) (spec.direct r) := by
  unfold OrderSpec.direct
  split
  · exact h.swap
  · exact h

/-- The sort compares the first key, and the others if it does not tell them apart. -/
lemma compareKeys_cons (spec : OrderSpec) (specs : List OrderSpec) (v w : Value)
    (vs ws : List Value) :
    compareKeys (spec :: specs) (v :: vs) (w :: ws) =
      (spec.direct (v.sortOrder w)).then (compareKeys specs vs ws) := by
  rw [compareKeys]
  unfold OrderSpec.direct
  cases v.sortOrder w <;> cases spec.descending <;> rfl

/-- Without sort keys everything is the same. -/
lemma compareKeys_nil (vs ws : List Value) : compareKeys [] vs ws = .eq := by
  cases vs <;> cases ws <;> rfl

/-- **The sort compares rows lexicographically.** By induction on the order; if values for a key are
missing on one side, both comparisons end there. -/
theorem compareRows_eq (order : List OrderSpec) (a b : KeyedRow) :
    compareRows order a b = compareKeys order a.1 b.1 := by
  obtain ⟨vs, r⟩ := a
  obtain ⟨ws, s⟩ := b
  induction order generalizing vs ws with
  | nil => exact (compareKeys_nil vs ws).symm
  | cons spec specs ih =>
    cases vs with
    | nil => rfl
    | cons v vs =>
      cases ws with
      | nil => rfl
      | cons w ws =>
        rw [compareKeys_cons, ← ih vs ws]
        rfl

/-- Rows sorted lexicographically are sorted as the sort does it. -/
lemma stableSort_compareRows (order : List OrderSpec) (keyed : List KeyedRow) :
    stableSort (fun a b => compareRows order a b == .lt) keyed =
      stableSort (fun a b => compareKeys order a.1 b.1 == .lt) keyed := by
  simp only [compareRows_eq]

/-- Keys of the length of their order, with numbers among given ones. -/
def KeysAmong (N : Set Value) (order : List OrderSpec) (key : List Value) : Prop :=
  key.length = order.length ∧ ∀ v ∈ key, ∀ n ∈ v.numbers, n ∈ N

/-- Keys for a longer order have a first value. -/
lemma KeysAmong.exists_cons {N : Set Value} {spec : OrderSpec} {specs : List OrderSpec}
    {key : List Value} (h : KeysAmong N (spec :: specs) key) :
    ∃ v vs, key = v :: vs ∧ (∀ n ∈ v.numbers, n ∈ N) ∧ KeysAmong N specs vs := by
  obtain ⟨hlength, hnumbers⟩ := h
  cases key with
  | nil => simp at hlength
  | cons v vs =>
    exact ⟨v, vs, rfl, hnumbers v (by simp), by simpa using hlength,
      fun w hw => hnumbers w (by simp [hw])⟩

/-- **Rows are totally preordered by keys whose numbers are apart.**

**Proof sketch.** By induction on the order: the first key that differs decides, so the comparison
is the lexicographic one of two comparisons that can be swapped and composed. -/
theorem preorderOn_compareKeys {N : Set Value} (hN : Value.Apart N) (order : List OrderSpec) :
    PreorderOn (compareKeys order) (KeysAmong N order) := by
  induction order with
  | nil =>
    constructor
    · intro a b _ _
      rw [compareKeys_nil, compareKeys_nil]
      rfl
    · intro a b c _ _ _
      simp only [compareKeys_nil]
      simp [Composes]
  | cons spec specs ih =>
    constructor
    · intro a b ha hb
      obtain ⟨v, vs, rfl, -, hvs⟩ := ha.exists_cons
      obtain ⟨w, ws, rfl, -, hws⟩ := hb.exists_cons
      rw [compareKeys_cons, compareKeys_cons, Ordering.swap_then, ← OrderSpec.direct_swap,
        ← Value.sortOrder_swap v w, ← ih.swap vs ws hvs hws]
    · intro a b c ha hb hc
      obtain ⟨u, us, rfl, hu, hus⟩ := ha.exists_cons
      obtain ⟨v, vs, rfl, hv, hvs⟩ := hb.exists_cons
      obtain ⟨w, ws, rfl, hw, hws⟩ := hc.exists_cons
      simp only [compareKeys_cons]
      exact ((hN.composes_sortOrder u v w hu hv hw).direct spec).lex fun _ _ =>
        ih.composes us vs ws hus hvs hws

/-- The same of rows with such keys. -/
lemma preorderOn_compareRows {N : Set Value} (hN : Value.Apart N) (order : List OrderSpec) :
    PreorderOn (compareRows order) fun k => KeysAmong N order k.1 := by
  have hsame : compareRows order = fun a b => compareKeys order a.1 b.1 :=
    funext₂ (compareRows_eq order)
  rw [hsame]
  exact (preorderOn_compareKeys hN order).comap Prod.fst

/-- The keys of a row have the length of their order. -/
lemma length_sortKey {params : List Value} {row : Row} {order : List OrderSpec} {key : List Value}
    (h : sortKey params row order = .ok key) : key.length = order.length := by
  induction order generalizing key with
  | nil =>
    obtain rfl := Except.ok.inj h
    rfl
  | cons spec specs ih =>
    simp only [sortKey, bind_eq_ok, pure_eq_ok] at h
    obtain ⟨v, -, vs, hvs, rfl⟩ := h
    rw [List.length_cons, List.length_cons, ih hvs]

/-! ## Pages -/

/-- The rows between an offset and a limit. -/
def pageOf (offset limit : Option UInt64) (rows : List Row) : List Row :=
  takeLimit (limit.map UInt64.toNat) (rows.drop (offset.getD 0).toNat)

/-- Offsets and sizes of pages that follow each other, the first one behind some rows. -/
def pagesFrom (offset : Nat) : List Nat → List (Nat × Nat)
  | [] => []
  | n :: sizes => (offset, n) :: pagesFrom (offset + n) sizes

/-- **Where a sort is cut off does not show.** All rows of a page stand among the first ones, as
many as offset and limit are together; fewer rows than `2 ^ 64` are not cut off by the bound on that
sum.

**Proof sketch.** The sort keeps as many rows as offset and limit are together, or the highest
number there is, which no list of rows reaches. Dropping the offset and taking the limit stays below
that. -/
lemma takeLimit_drop_sortKeyed (order : List OrderSpec) (offset limit : Option UInt64)
    {keyed : List KeyedRow} (hlength : keyed.length < 2 ^ 64) :
    pageOf offset limit (sortKeyed order (Pipeline.topRows offset limit) keyed) =
      pageOf offset limit ((stableSort (fun a b => compareRows order a b == .lt) keyed).map
        Prod.snd) := by
  rw [stableSort_compareRows]
  cases limit with
  | none => rfl
  | some l =>
    generalize hrows : (stableSort (fun a b => compareKeys order a.1 b.1 == .lt) keyed).map
      Prod.snd = rows
    have hle : rows.length ≤ UInt64.size - 1 := by
      rw [← hrows, List.length_map, (perm_stableSort _ keyed).length_eq]
      simp only [UInt64.size]
      omega
    have hcut : sortKeyed order (Pipeline.topRows offset (some l)) keyed =
        rows.take (min ((offset.getD 0).toNat + l.toNat) (UInt64.size - 1)) :=
      hrows ▸ rfl
    simp only [hcut, pageOf, takeLimit, Option.map_some]
    rw [List.drop_take, List.take_take, List.take_eq_take_iff, List.length_drop]
    omega

/-- Pages that follow each other, and the rest behind them, are the rows from the first page on. -/
lemma flatten_pagesFrom (rows : List Row) (offset : Nat) (sizes : List Nat) :
    ((pagesFrom offset sizes).map fun page => (rows.drop page.1).take page.2).flatten ++
      rows.drop (offset + sizes.sum) = rows.drop offset := by
  induction sizes generalizing offset with
  | nil => simp [pagesFrom]
  | cons n sizes ih =>
    rw [pagesFrom, List.map_cons, List.flatten_cons, List.append_assoc, List.sum_cons,
      ← Nat.add_assoc, ih, ← List.drop_drop, List.take_append_drop]

/-- A page with an offset and a limit below `2 ^ 64`. -/
lemma pageOf_ofNat {offset limit : Nat} (ho : offset < 2 ^ 64) (hl : limit < 2 ^ 64)
    (rows : List Row) :
    pageOf (some (.ofNat offset)) (some (.ofNat limit)) rows = (rows.drop offset).take limit := by
  simp only [pageOf, takeLimit, Option.map_some, Option.getD_some]
  rw [UInt64.toNat_ofNat_of_lt' ho, UInt64.toNat_ofNat_of_lt' hl]

/-- A page without a limit ends with the rows. -/
lemma pageOf_ofNat_none {offset : Nat} (ho : offset < 2 ^ 64) (rows : List Row) :
    pageOf (some (.ofNat offset)) none rows = rows.drop offset := by
  simp only [pageOf, takeLimit, Option.map_none, Option.getD_some]
  rw [UInt64.toNat_ofNat_of_lt' ho]

/-- A page ends where the pages behind it begin, or before. -/
lemma end_le_of_mem_pagesFrom {page : Nat × Nat} {offset : Nat} {sizes : List Nat}
    (h : page ∈ pagesFrom offset sizes) : page.1 + page.2 ≤ offset + sizes.sum := by
  induction sizes generalizing offset with
  | nil => cases h
  | cons n sizes ih =>
    rw [List.sum_cons]
    rcases List.mem_cons.mp h with rfl | h
    · simp only
      omega
    · have := ih h
      omega

namespace Pipeline

variable {env : ExecutionEnv} {K : Store} {input : Pipeline} {order : List OrderSpec}
  {rows : List Row} {keyed : List KeyedRow}

/-- A pipeline that is read to an end has just the rows that are read. -/
lemma listing_of_reads {P : Pipeline} (h : (P.cursor env).drain.Reads K (.ok rows)) :
    P.listing env K = .ok (.ofRows rows) := by
  obtain ⟨l, hl, hcomplete⟩ := bind_eq_ok.mp ((reads_drain env K P).unique h)
  rw [hl, Listing.eq_ofRows_of_complete hcomplete]

/-- A sort that may hold all rows computes all keys. -/
lemma sortRows_of_keys {top : Option Nat} (hroom : ∀ most ∈ env.maxSortRows, rows.length ≤ most)
    (hkeyed : rows.mapM (fun row => do return (← sortKey env.params row order, row)) = .ok keyed) :
    sortRows env order top rows = .ok (sortKeyed order top keyed) := by
  unfold sortRows
  cases hmost : env.maxSortRows with
  | none => exact congrArg (· >>= _) hkeyed
  | some most =>
    exact (if_neg (Nat.not_lt.mpr (hroom most hmost))).trans (congrArg (· >>= _) hkeyed)

/-- Rows in order are those with keys, sorted; without an order they stay as they are. -/
lemma listing_sorted (hinput : input.listing env K = .ok (.ofRows rows))
    (hroom : ∀ most ∈ env.maxSortRows, rows.length ≤ most)
    (hkeyed : rows.mapM (fun row => do return (← sortKey env.params row order, row)) = .ok keyed)
    (top : Option Nat) :
    (if order.isEmpty then input else input.sort order top).listing env K =
      .ok (.ofRows (if order.isEmpty then rows else sortKeyed order top keyed)) := by
  split
  · exact hinput
  · rw [listing, hinput]
    exact congrArg Except.ok (Listing.buffered_of_sortRows (sortRows_of_keys hroom hkeyed))

/-- **The rows of a page** are those between its offset and its limit in the stable sort.

**Proof sketch.** The keyed rows are the rows with their keys. An order without keys ties all rows,
so the stable sort leaves them; another order sorts them, and where it is cut off does not show on
the page. Without offset and limit there is no window, and the page is everything. -/
lemma listing_page (hinput : input.listing env K = .ok (.ofRows rows))
    (hlength : rows.length < 2 ^ 64) (hroom : ∀ most ∈ env.maxSortRows, rows.length ≤ most)
    (hkeyed : rows.mapM (fun row => do return (← sortKey env.params row order, row)) = .ok keyed)
    (offset limit : Option UInt64) :
    (input.paged order offset limit).listing env K =
      .ok (.ofRows (pageOf offset limit
        ((stableSort (fun a b => compareRows order a b == .lt) keyed).map Prod.snd))) := by
  have hrows : keyed.map Prod.snd = rows := by
    have := map_eq_map_of_mapM (k := Prod.snd) (g := id) hkeyed fun row _ k hk => by
      simp only [bind_eq_ok, pure_eq_ok] at hk
      obtain ⟨key, -, rfl⟩ := hk
      rfl
    rwa [List.map_id] at this
  have hsorted := listing_sorted hinput hroom hkeyed (topRows offset limit)
  have hpage : pageOf offset limit
      (if order.isEmpty then rows else sortKeyed order (topRows offset limit) keyed) =
        pageOf offset limit ((stableSort (fun a b => compareRows order a b == .lt) keyed).map
          Prod.snd) := by
    cases order with
    | nil =>
      rw [stableSort_of_ties (fun a b => by rw [compareRows_eq, compareKeys_nil]; rfl), hrows]
      rfl
    | cons spec specs =>
      refine takeLimit_drop_sortKeyed _ _ _ ?_
      rwa [← hrows, List.length_map] at hlength
  rw [← hpage, paged]
  by_cases hnone : (offset.isNone && limit.isNone) = true
  · simp only [Bool.and_eq_true, Option.isNone_iff_eq_none] at hnone
    obtain ⟨rfl, rfl⟩ := hnone
    simpa [pageOf, takeLimit] using hsorted
  · rw [if_neg hnone, listing, hsorted]
    exact congrArg Except.ok (Listing.window_ofRows _ _ _)

/-- Keys without a float are keys with numbers that are apart. -/
lemma keysAmong_of_no_float
    (hkeyed : rows.mapM (fun row => do return (← sortKey env.params row order, row)) = .ok keyed)
    (hfloat : ∀ k ∈ keyed, ∀ v ∈ k.1, ∀ x, Value.float x ∉ v.numbers) :
    ∀ k ∈ keyed, KeysAmong {n | ∀ x, n ≠ Value.float x} order k.1 := by
  intro k hk
  obtain ⟨row, -, hrow⟩ := exists_of_mem_mapM hkeyed hk
  simp only [bind_eq_ok, pure_eq_ok] at hrow
  obtain ⟨key, hkey, rfl⟩ := hrow
  refine ⟨length_sortKey hkey, fun v hv n hn x hx => ?_⟩
  exact hfloat _ hk v hv x (hx ▸ hn)

/-- **Pages are windows of the stable sort.** Take rows that a pipeline returns, no more than a sort
may hold, and suppose that no sort key holds a float. These rows have one stable sort by their keys,
compared lexicographically, each in its direction.
Whatever the offset and the limit, the rows of the page are those between them in this sort; so
pages that follow each other, with the rest behind them, are the sorted rows, piece by piece.

**Proof sketch.** The sort compares rows lexicographically (`compareRows_eq`). Keys without floats
are totally preordered, so the insertion sort of the rows is their one stable sort. It is cut off
behind offset and limit together, or not at all where this sum is too large for 64 bits, since there
are fewer rows than that. -/
theorem paged_drain (env : ExecutionEnv) (K : Store) (input : Pipeline) (order : List OrderSpec)
    {rows : List Row} {keyed : List KeyedRow}
    (hinput : (input.cursor env).drain.Reads K (.ok rows)) (hlength : rows.length < 2 ^ 64)
    (hroom : ∀ most ∈ env.maxSortRows, rows.length ≤ most)
    (hkeyed : rows.mapM (fun row => do return (← sortKey env.params row order, row)) = .ok keyed)
    (hfloat : ∀ k ∈ keyed, ∀ v ∈ k.1, ∀ x, Value.float x ∉ v.numbers) :
    ∃ sorted : List KeyedRow, IsStableSort (compareRows order) keyed sorted ∧
      (∀ other, IsStableSort (compareRows order) keyed other → other = sorted) ∧
      (∀ offset limit : Option UInt64,
        ((input.paged order offset limit).cursor env).drain.Reads K
          (.ok (pageOf offset limit (sorted.map Prod.snd)))) ∧
      ∀ sizes : List Nat, sizes.sum < 2 ^ 64 → ∃ (pages : List (List Row)) (rest : List Row),
        List.Forall₂ (fun page out =>
          ((input.paged order (some (.ofNat page.1)) (some (.ofNat page.2))).cursor env).drain.Reads
            K (.ok out)) (pagesFrom 0 sizes) pages ∧
        ((input.paged order (some (.ofNat sizes.sum)) none).cursor env).drain.Reads K (.ok rest) ∧
        pages.flatten ++ rest = sorted.map Prod.snd := by
  have hlisting := listing_of_reads hinput
  have hkeys := keysAmong_of_no_float hkeyed hfloat
  have hapart : Value.Apart {n | ∀ x, n ≠ Value.float x} :=
    Value.apart_of_no_float fun x hx => hx x rfl
  have hpre := preorderOn_compareRows hapart order
  have hsorted := hpre.isStableSort_stableSort hkeys
  have hpage : ∀ offset limit : Option UInt64,
      ((input.paged order offset limit).cursor env).drain.Reads K (.ok (pageOf offset limit
        ((stableSort (fun a b => compareRows order a b == .lt) keyed).map Prod.snd))) := by
    intro offset limit
    have hdrain := reads_drain env K (input.paged order offset limit)
    rwa [listing_page hlisting hlength hroom hkeyed offset limit] at hdrain
  generalize stableSort (fun a b => compareRows order a b == .lt) keyed = sorted at hsorted hpage
  refine ⟨sorted, hsorted, fun other hother => hother.unique hpre hkeys hsorted, hpage,
    fun sizes hsizes => ⟨(pagesFrom 0 sizes).map fun page =>
      ((sorted.map Prod.snd).drop page.1).take page.2, (sorted.map Prod.snd).drop sizes.sum,
      ?_, ?_, ?_⟩⟩
  · rw [List.forall₂_map_right_iff, List.forall₂_same]
    intro page hmem
    have hend := end_le_of_mem_pagesFrom hmem
    have hreads := hpage (some (.ofNat page.1)) (some (.ofNat page.2))
    rwa [pageOf_ofNat (by omega) (by omega)] at hreads
  · have hreads := hpage (some (.ofNat sizes.sum)) none
    rwa [pageOf_ofNat_none hsizes] at hreads
  · simpa using flatten_pagesFrom (sorted.map Prod.snd) 0 sizes

/-- A row with a rank, a name and a number. -/
def ranked (rank : Int64) (name : String) (number : Int64) : Row :=
  .ofValues ["rank", "name", "number"] [.integer rank, .text name, .integer number]

/-- Rows from the highest rank down, those of one rank by their names, and those of one name as they
stood. The last page asks for as many rows as a limit can say, so that offset and limit together do
not fit into 64 bits.

**Proof sketch.** The keys are computed. The rows that are named are a permutation of them, in order
and stable, so `paged_drain` says that they are the sorted ones; the pages are those it names. -/
theorem paged_drain_ranked :
    let rows := [ranked 1 "b" 1, ranked 2 "a" 2, ranked 1 "a" 3, ranked 2 "a" 4]
    let order : List OrderSpec := [⟨.column "rank", true⟩, ⟨.column "name", false⟩]
    let page (offset limit : Option UInt64) (out : List Row) : Prop :=
      (((Pipeline.rows rows none).paged order offset limit).cursor ⟨[], 0, some 4⟩).drain.Reads
        .empty (.ok out)
    page none none [ranked 2 "a" 2, ranked 2 "a" 4, ranked 1 "a" 3, ranked 1 "b" 1] ∧
      page (some 1) (some 2) [ranked 2 "a" 4, ranked 1 "a" 3] ∧
      page (some 2) (some 18446744073709551615) [ranked 1 "a" 3, ranked 1 "b" 1] := by
  intro rows order page
  let key (rank : Int64) (name : String) : List Value := [.integer rank, .text name]
  have hkeyed : rows.mapM (fun row => do return (← sortKey [] row order, row)) =
      .ok [(key 1 "b", ranked 1 "b" 1), (key 2 "a", ranked 2 "a" 2), (key 1 "a", ranked 1 "a" 3),
        (key 2 "a", ranked 2 "a" 4)] := rfl
  obtain ⟨sorted, -, hunique, hpage, -⟩ :=
    paged_drain ⟨[], 0, some 4⟩ .empty (.rows rows none) order (reads_drain _ _ (.rows rows none))
      (by decide) (by decide) hkeyed (by simp [key, Value.numbers])
  obtain rfl := hunique
    [(key 2 "a", ranked 2 "a" 2), (key 2 "a", ranked 2 "a" 4), (key 1 "a", ranked 1 "a" 3),
      (key 1 "b", ranked 1 "b" 1)]
    { perm := (List.perm_append_singleton _ [_, _, _]).trans (.cons _ (.cons _ (.swap ..)))
      pairwise := by decide +kernel
      stable := by
        simp only [List.forall_mem_cons]
        exact ⟨rfl, rfl, rfl, rfl, List.forall_mem_nil _⟩ }
  exact ⟨hpage none none, hpage (some 1) (some 2), hpage (some 2) (some 18446744073709551615)⟩

end Pipeline

end RecordQuery
