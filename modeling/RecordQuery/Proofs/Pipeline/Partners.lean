import RecordQuery.Proofs.OrderedMap
import RecordQuery.Proofs.Pipeline.Listing
import RecordQuery.Proofs.Predicate.Outer

set_option autoImplicit false

/-!
# The reference join

What a join computes can be said without probes: a record is the partner of a row if the joined
column equals the value of the row and the record satisfies the conditions on the joined table. The
row becomes one row for every partner; without a partner it is dropped, or kept with nulls. The
stage comes to the same by another way: for every row it fills the condition, adds the equality to
it or to the condition on the key, and lets the plan choose between lookups and a scan.

## Main definitions

* `JoinSpec.isPartner` — whether a record is the partner of a row.
* `JoinSpec.partnersIn` — the partners of a row in a store.
* `JoinSpec.joined` — a row with the values of a partner.
* `Row.IsPadded` — a row with null under those of several labels that it lacks.
* `JoinSpec.IsBlock` — what a row becomes.

## Main results

* `JoinSpec.exists_found` — the probe of a row finds its partners.
* `Pipeline.join_drain` — the join of rows is the reference join.
-/

namespace RecordQuery

/-- A row with null under those of several labels that it lacks; otherwise it is as it was. -/
structure Row.IsPadded (row : Row) (labels : List String) (padded : Row) : Prop where
  /-- What the row had comes first. -/
  isPrefix : row.entries <+: padded.entries
  /-- What is found under a label. -/
  get? : ∀ label, padded.get? label =
    (row.get? label).or (if label ∈ labels then some .null else none)

namespace JoinSpec

variable {j : JoinSpec} {K : Store} {row : Row} {set : String}

/-! ## The reference -/

/-- The label under which a joined row shows a column of the joined table. -/
def label (j : JoinSpec) (name : String) : String := j.qualifier ++ "." ++ name

/-- The value of the joined column in a record: its key or a bin. -/
def innerValue? (j : JoinSpec) (r : Record) : Option Value :=
  if j.innerColumn = keyColumn then some r.key.user.toValue else r.bin? j.innerColumn

/-- Whether a record is a partner of a row: the joined column equals the value of the row, and the
record satisfies the conditions on the joined table. A value that is absent or null equals
nothing. -/
def isPartner (j : JoinSpec) (row : Row) (r : Record) : Bool :=
  (row.get? j.outerKey).any (fun v => (j.innerValue? r).any (fun w => w.meets .eq v)) &&
    (j.plan.condition.all (Condition.holdsFor row r) &&
      j.plan.keyCondition.all (KeyCondition.holdsIn .unknown r.key.user))

/-- The partners of a row in a set of a store. -/
def partnersIn (j : JoinSpec) (K : Store) (set : String) (row : Row) : List Record :=
  (K.recordsOf j.plan.ns set).filter (j.isPartner row)

/-- A row with the key of a partner, on request the digest of the key, and the bins of the partner
under the name of the joined table. -/
def joined (j : JoinSpec) (row : Row) (r : Record) : Row :=
  let keyed := row.set (j.label keyColumn) r.key.user.toValue
  let keyed :=
    if j.plan.needsDigest then keyed.set (j.label digestColumn) (.blob r.key.digest) else keyed
  r.bins.entries.foldl (fun out e => out.set (j.label e.1) e.2) keyed

/-- What a row becomes: one row for every partner; without a partner nothing in an inner join, and
in a left join the row with nulls. -/
structure IsBlock (j : JoinSpec) (row : Row) (partners : List Record) (block : List Row) :
    Prop where
  /-- A row for every partner. -/
  matched : partners ≠ [] → block.Perm (partners.map (j.joined row))
  /-- Nothing without a partner in an inner join. -/
  dropped : partners = [] → j.kind = .inner → block = []
  /-- The row with nulls without a partner in a left join. -/
  padded : partners = [] → j.kind = .left →
    ∃ padded, block = [padded] ∧ row.IsPadded (j.plan.columns.map Column.source) padded

/-- Whether the store can compare with the values of a row that a join reads: the one for which it
looks and, if there is one, those in the condition on the joined table. -/
def readsJoinable (j : JoinSpec) (row : Row) : Bool :=
  (row.get? j.outerKey).all fun v => v.isNull ||
    (v.isJoinable && j.plan.condition.all fun c =>
      c.outers.all fun source => (row.get? source).all Value.isJoinable)

/-! ## Rows -/

/-- Names stay apart under the name of the joined table. -/
lemma label_injective (j : JoinSpec) : Function.Injective j.label := by
  intro a b h
  simpa [label] using h

/-- **A row is extended by a partner** by writing what the partner has. -/
theorem extend_ofRecord (j : JoinSpec) (row : Row) (r : Record) :
    j.extend row (Row.ofRecord r j.plan.needsDigest) = j.joined row r := by
  have hextend : ∀ m : Row, j.extend row m = row.writeAll j.label m := fun m => rfl
  have hset := OrderedMap.writeAll_set j.label_injective row
  rw [hextend, Row.ofRecord, joined]
  refine (OrderedMap.writeAll_writeAll j.label_injective row _ r.bins).trans ?_
  refine congrArg (fun m : Row => m.writeAll j.label r.bins) ?_
  split
  · rw [hset, hset]
    rfl
  · rw [hset]
    rfl

/-- The rows that the rows of some records make are their joined rows, in the same order. -/
lemma perm_map_extend {rows : List Row} {rs : List Record} (row : Row)
    (h : rows.Perm (rs.map fun r => Row.ofRecord r j.plan.needsDigest)) :
    (rows.map (j.extend row)).Perm (rs.map (j.joined row)) := by
  have hmap := h.map (j.extend row)
  rwa [List.map_map, show j.extend row ∘ (fun r => Row.ofRecord r j.plan.needsDigest) =
    j.joined row from funext fun r => j.extend_ofRecord row r] at hmap

/-- **Padding a row** writes null where it lacks a value.

**Proof sketch.** By induction on the columns. A column that the row has stays as it is; one that it
lacks goes to the end with null, and is not written again. -/
theorem isPadded_pad (j : JoinSpec) (row : Row) :
    row.IsPadded (j.plan.columns.map Column.source) (j.pad row) := by
  unfold pad
  generalize j.plan.columns = columns
  induction columns generalizing row with
  | nil => exact ⟨List.prefix_refl _, fun label => by simp⟩
  | cons c columns ih =>
    rw [List.foldl_cons, List.map_cons]
    by_cases hc : row.contains c.source = true
    · rw [if_pos hc]
      obtain ⟨v, hv⟩ : ∃ v, row.get? c.source = some v :=
        Option.ne_none_iff_exists'.mp fun hnone =>
          OrderedMap.get?_eq_none_iff.mp hnone (OrderedMap.contains_eq_true.mp hc)
      refine ⟨(ih row).isPrefix, fun label => ?_⟩
      rw [(ih row).get? label]
      by_cases hlabel : label = c.source
      · rw [hlabel, hv]
        rfl
      · simp [hlabel]
    · rw [if_neg hc]
      have hnone : row.get? c.source = none :=
        OrderedMap.get?_eq_none_iff.mpr fun hm => hc (OrderedMap.contains_eq_true.mpr hm)
      have hwritten : (row.set c.source .null).entries = row.entries ++ [(c.source, .null)] := by
        rw [OrderedMap.set, dif_neg hc]
      refine ⟨List.IsPrefix.trans ⟨_, hwritten.symm⟩ (ih _).isPrefix, fun label => ?_⟩
      rw [(ih _).get? label, OrderedMap.get?_set]
      by_cases hlabel : label = c.source
      · simp [hlabel, hnone]
      · simp [hlabel]

/-! ## Probes -/

/-- **The condition that the joined column equals a value** says so.

**Proof sketch.** If the column is the key, then the value is an integer or a text, since it is
resolved and not null, and keys are compared as such. Otherwise the condition is on a bin and is
read with the resolved operand. -/
lemma exists_matchValue? (j : JoinSpec) (p : TablePlan) {o : Operand}
    (hresolved : o.isResolved = true) (hnull : o ≠ .null) :
    ∃ n : NativeCondition, j.matchValue? p o = some (p.addNative n) ∧ n.isKnown = true ∧
      ∀ r, n.holdsIn .unknown r = o.accepts o.kind .eq (j.innerValue? r) := by
  unfold matchValue? innerValue?
  by_cases hkey : j.innerColumn = keyColumn
  · simp only [if_pos hkey]
    cases o with
    | integer i =>
      refine ⟨.key (.equal (.key (.integer i))), rfl, rfl, fun r => ?_⟩
      cases hk : r.key.user <;> simp only [NativeCondition.holdsIn, hk] <;> rfl
    | text s =>
      refine ⟨.key (.equal (.key (.text s))), rfl, rfl, fun r => ?_⟩
      cases hk : r.key.user <;> simp only [NativeCondition.holdsIn, hk] <;> rfl
    | null => exact absurd rfl hnull
    | _ => cases hresolved
  · simp only [if_neg hkey]
    refine ⟨.bins (.ofOperand j.innerColumn .eq o), rfl, ?_, fun r => ?_⟩
    · simp [NativeCondition.isKnown, Condition.isResolved, Condition.ofOperand,
        Condition.unresolved?, hresolved]
    · rw [NativeCondition.holdsIn, Condition.ofOperand, Condition.holdsIn,
        Resolution.operand_of_isResolved hresolved]

/-- The condition on the joined table with the values of a row. -/
lemma exists_filled {c : Option Condition}
    (hcondition : c.all (Condition.isWithin .outersOnly) = true)
    (hrow : c.all (fun d => d.outers.all fun source => (row.get? source).all Value.isJoinable) =
      true) :
    ∃ filled, c.mapM (Condition.fillOuter row) = .ok filled ∧
      filled.all Condition.isResolved = true ∧
      ∀ r, filled.all (Condition.holdsIn .unknown r) = c.all (Condition.holdsFor row r) := by
  cases c with
  | none => exact ⟨none, rfl, rfl, fun r => rfl⟩
  | some c =>
    have hjoinable : ∀ source ∈ c.outers, ∀ v, row.get? source = some v →
        v.isJoinable = true := fun source hs v hv => by
      simpa [hv] using List.all_eq_true.mp hrow source hs
    obtain ⟨d, hd, hholds⟩ := Condition.exists_fillOuter c hcondition hjoinable
    have hresolved : d.isResolved = true := by
      have hwithin := Condition.isWithin_fillOuter hd hcondition
      rw [Condition.isResolved, (Condition.isResolved_iff d).mpr hwithin]
      rfl
    refine ⟨some d, by rw [Option.mapM_some, hd]; rfl, hresolved, fun r => ?_⟩
    rw [Option.all_some, Option.all_some, Condition.holdsIn_eq_holds hresolved, hholds]

/-- What the plan that finds the partners of a row is chosen for. -/
lemma probe?_eq_ok {v : Value} {o : Operand} {filled : Option Condition} {q : TablePlan}
    {s : AccessStrategy} (hv : row.get? j.outerKey = some v) (hnull : v ≠ .null)
    (ho : v.joinOperand = .ok o)
    (hfilled : j.plan.condition.mapM (Condition.fillOuter row) = .ok filled)
    (hmatch : j.matchValue? { j.plan with condition := filled } o = some q)
    (hs : q.readingStrategy = .ok s) : j.probe? row = .ok (some { q with strategy := some s }) := by
  have hchosen : q.chooseStrategy = .ok { q with strategy := some s } :=
    TablePlan.chooseStrategy_eq_ok.mpr ⟨s, hs, rfl⟩
  unfold probe?
  rw [hv]
  split
  · contradiction
  · rename_i heq
    exact absurd (Option.some.inj heq) hnull
  · rename_i heq
    obtain rfl := Option.some.inj heq
    simp only [ho, hfilled, hmatch, hchosen, Outcome.ok_bind]
    rfl

variable (hset : j.plan.set = some set) (hindexes : j.plan.indexes = [])
  (hcondition : j.plan.condition.all (Condition.isWithin .outersOnly) = true)
  (hkey : j.plan.keyCondition.all KeyCondition.isComparable = true)

include hset hindexes hcondition hkey

/-- **The probe of a row finds its partners**, in whatever order.

**Proof sketch.** A row without a value has no partner and is not probed. Otherwise the filled
condition, the condition on the key and the equality are conditions that the store can run, so that
the plan with them finds the records that satisfy them (`TablePlan.exists_readingStrategy`). These
are the partners. -/
theorem exists_found (hread : j.readsJoinable row = true) :
    ∃ rows, j.found K row = .ok rows ∧
      rows.Perm ((j.partnersIn K set row).map (fun r => Row.ofRecord r j.plan.needsDigest)) := by
  have hnobody : (∀ r, j.isPartner row r = false) → j.probe? row = .ok none →
      ∃ rows, j.found K row = .ok rows ∧
        rows.Perm ((j.partnersIn K set row).map (fun r => Row.ofRecord r j.plan.needsDigest)) := by
    intro hpartner hprobe
    refine ⟨[], by rw [found, hprobe]; rfl, ?_⟩
    simp [partnersIn, hpartner]
  cases hv : row.get? j.outerKey with
  | none => exact hnobody (fun r => by simp [isPartner, hv]) (by simp [probe?, hv])
  | some v =>
    by_cases hnull : v = .null
    · subst hnull
      exact hnobody (fun r => by simp [isPartner, hv]) (by simp [probe?, hv])
    · have hnot : v.isNull = false := by cases v <;> first | rfl | exact absurd rfl hnull
      obtain ⟨hjoinable, hrow⟩ : v.isJoinable = true ∧ j.plan.condition.all (fun c =>
          c.outers.all fun source => (row.get? source).all Value.isJoinable) = true := by
        simpa [readsJoinable, hv, hnot] using hread
      obtain ⟨o, ho, hresolved, haccepts⟩ := Value.exists_joinOperand hjoinable
      have hne : o ≠ .null := by
        rintro rfl
        cases v <;> simp [Value.joinOperand] at ho hnull
      obtain ⟨filled, hfilled, hknown, hholds⟩ := exists_filled hcondition hrow
      obtain ⟨n, hmatch, hn, hequal⟩ :=
        j.exists_matchValue? { j.plan with condition := filled } hresolved hne
      obtain ⟨q, hadd⟩ : ∃ q, TablePlan.addNative { j.plan with condition := filled } n = q :=
        ⟨_, rfl⟩
      rw [hadd] at hmatch
      have hq : q.isKnown = true := by
        rw [← hadd]
        refine TablePlan.isKnown_addNative ?_ hn
        rw [TablePlan.isKnown, Bool.and_eq_true]
        exact ⟨hknown, hkey⟩
      have hsame : q.indexes = [] ∧ q.ns = j.plan.ns ∧ q.set = some set ∧
          q.needsDigest = j.plan.needsDigest := by
        rw [← hset, ← hindexes, ← hadd]
        cases n <;> exact ⟨rfl, rfl, rfl, rfl⟩
      obtain ⟨s, hs, hfinds⟩ := TablePlan.exists_readingStrategy hq hsame.1
      have hprobe := probe?_eq_ok hv hnull ho hfilled hmatch hs
      obtain ⟨rs, hrs, hperm⟩ := hfinds.2 ⟨q.ns, set, s, q.needsDigest⟩ K rfl
      have hpartner : q.accepts = j.isPartner row := by
        rw [TablePlan.accepts_eq .unknown hq, ← hadd]
        funext r
        rw [TablePlan.holdsIn_addNative, hequal, haccepts, Bool.and_comm, isPartner, hv,
          TablePlan.holdsIn, hholds]
        rfl
      refine ⟨rs.map (fun r => Row.ofRecord r q.needsDigest), ?_, ?_⟩
      · have haccess : TableAccess.ofPlan { q with strategy := some s } =
            .ok ⟨q.ns, set, s, q.needsDigest⟩ := by
          simp only [TableAccess.ofPlan, hsame.2.2.1]
        simp only [found, hprobe, haccess, Outcome.ok_bind, TableAccess.found, hrs]
        rfl
      · rw [hsame.2.2.2]
        rw [hpartner, hsame.2.1] at hperm
        exact hperm.map _

/-- **A row becomes its block.**

**Proof sketch.** The partners are found in whatever order, and there are none if and only if no
record is a partner. By the kind of join, and by whether there are any, the block is what it says.
-/
theorem exists_rowsFor (hread : j.readsJoinable row = true) :
    ∃ block, j.rowsFor K row = .ok block ∧ j.IsBlock row (j.partnersIn K set row) block := by
  obtain ⟨rows, hfound, hperm⟩ :=
    exists_found (K := K) hset hindexes hcondition hkey hread
  refine ⟨j.combine row rows, by rw [rowsFor, hfound]; rfl, ?_⟩
  have hextend := perm_map_extend row hperm
  have hnil : rows = [] ↔ j.partnersIn K set row = [] := by
    rw [← List.length_eq_zero_iff, hperm.length_eq, List.length_map, List.length_eq_zero_iff]
  unfold combine
  cases hrows : rows with
  | nil =>
    have hpartners := hnil.mp hrows
    refine ⟨fun h => absurd hpartners h, fun _ hkind => ?_, fun _ hkind => ?_⟩
    · simp only [hkind]
    · exact ⟨j.pad row, by simp only [hkind], j.isPadded_pad row⟩
  | cons first rest =>
    have hpartners : j.partnersIn K set row ≠ [] := fun h => by simp [hnil.mpr h] at hrows
    refine ⟨fun _ => ?_, fun h => absurd h hpartners, fun h => absurd h hpartners⟩
    rw [hrows] at hextend
    cases j.kind <;> exact hextend

end JoinSpec

/-! ## Joins of rows -/

/-- Rows that each become a list of rows become these lists one after the other. -/
lemma Listing.exists_expandRows {g : Row → Except QueryError (List Row)}
    {P : Row → List Row → Prop} {rows : List Row}
    (h : ∀ row ∈ rows, ∃ block, g row = .ok block ∧ P row block) :
    ∃ blocks, expandRows g none rows = .ofRows blocks.flatten ∧ List.Forall₂ P rows blocks := by
  induction rows with
  | nil => exact ⟨[], rfl, .nil⟩
  | cons row rows ih =>
    obtain ⟨block, hblock, hrow⟩ := h row List.mem_cons_self
    obtain ⟨blocks, hblocks, hrows⟩ := ih fun r hr => h r (List.mem_cons_of_mem row hr)
    refine ⟨block :: blocks, ?_, .cons hrow hrows⟩
    rw [expandRows, hblock, hblocks]
    rfl

namespace Pipeline

/-- A pipeline that is read to the end has a listing without a failure. -/
lemma listing_of_drain {env : ExecutionEnv} {P : Pipeline} {st mid : Store} {rows : List Row}
    (h : (P.cursor env).drain st = (.ok rows, mid)) : P.listing env st = .ok (.ofRows rows) := by
  obtain ⟨st', hdrain, -⟩ := P.reads_drain env st st (.refl st)
  have hcomplete : (P.listing env st >>= Listing.complete) = .ok rows :=
    (congrArg Prod.fst (hdrain.symm.trans h))
  obtain ⟨⟨items, failure⟩, hlisting, hl⟩ := Outcome.bind_eq_ok.mp hcomplete
  cases failure with
  | some e => cases hl
  | none =>
    obtain rfl := Except.ok.inj hl
    exact hlisting

/-- **The join of rows is the reference join.** Let the plan of the joined table have no indexes,
its condition hold no unknowns but values of the row, and its condition on the key hold integers and
texts. Then joining the rows that a pipeline returns (given rows, records or the rows of another
join) succeeds, if no value that is read of them is a float, bytes or a list, and leaves the store
as it is. Every row becomes its block, and the blocks stand in the order of the rows: a row for
every partner, which is the row with what the partner has; without a partner nothing in an inner
join, and the row with nulls in a left join.

**Proof sketch.** By induction on the rows, each of which becomes its block
(`JoinSpec.exists_rowsFor`), whichever strategy its probe chooses. The cursor, which holds rows back
until they are asked for, returns what is listed (`Pipeline.reads_drain`). -/
theorem join_drain {j : JoinSpec} {set : String} (hset : j.plan.set = some set)
    (hindexes : j.plan.indexes = [])
    (hcondition : j.plan.condition.all (Condition.isWithin .outersOnly) = true)
    (hkey : j.plan.keyCondition.all KeyCondition.isComparable = true) {env : ExecutionEnv}
    {input : Pipeline} {outers : List Row} {st mid : Store}
    (hinput : (input.cursor env).drain st = (.ok outers, mid))
    (hread : ∀ row ∈ outers, j.readsJoinable row = true) :
    ∃ blocks st', ((join input j).cursor env).drain st = (.ok blocks.flatten, st') ∧
      st'.Alike st ∧
      List.Forall₂ (fun row => j.IsBlock row (j.partnersIn st set row)) outers blocks := by
  obtain ⟨blocks, hblocks, hrows⟩ := Listing.exists_expandRows (g := j.rowsFor st)
    fun row hrow => JoinSpec.exists_rowsFor hset hindexes hcondition hkey (hread row hrow)
  obtain ⟨st', hdrain, hlike⟩ := (join input j).reads_drain env st st (.refl st)
  refine ⟨blocks, st', ?_, hlike, hrows⟩
  have hlisting : (join input j).listing env st = .ok (.ofRows blocks.flatten) := by
    rw [listing, listing_of_drain hinput, ← hblocks]
    rfl
  rw [hdrain, hlisting]
  rfl

/-- In a left join of people with the orders that are not theirs, the first, who has an order,
becomes a row with it, and the second, who has none, a row with null. The condition refers to a
value of the row, a truth value that counts as `1`.

**Proof sketch.** The join is of one set, without indexes, with conditions that are known, and its
input is drained by evaluation; `join_drain` applies. -/
theorem join_drain_people :
    let j : JoinSpec :=
      { kind := .left
        qualifier := "o"
        plan :=
          { TablePlan.ofSet "ns" (some "orders") (some "o") with
            condition := some (.ofOperand "paid" .eq (.outer "flag"))
            keyCondition := some (.notEqual (.key (.integer 12)))
            columns := [⟨"ns", some "o", "paid", "paid", "o.paid", .bin, false⟩] }
        outerKey := "PK"
        innerColumn := "person" }
    let rows : List Row := [⟨[("PK", .integer 1), ("flag", .boolean true)], by decide⟩,
      ⟨[("PK", .integer 2)], by decide⟩]
    let orders : RecordSet := ⟨[(.integer 10, ⟨[("person", .integer 1), ("paid", .integer 1)],
      by decide⟩), (.integer 11, ⟨[("person", .integer 2)], by decide⟩)], by decide⟩
    let st : Store := ⟨⟨[(("ns", "orders"), orders)], by decide⟩, [], .zero⟩
    ∃ blocks st', ((join (.rows rows none) j).cursor ⟨[], 0, none⟩).drain st =
        (.ok blocks.flatten, st') ∧
      List.Forall₂ (fun row => j.IsBlock row (j.partnersIn st "orders" row)) rows blocks := by
  intro j rows orders st
  have hinput : (((Pipeline.rows rows none).cursor ⟨[], 0, none⟩).drain st) = (.ok rows, st) := rfl
  obtain ⟨blocks, st', hdrain, -, hblocks⟩ :=
    join_drain (j := j) rfl rfl rfl rfl hinput (by decide)
  exact ⟨blocks, st', hdrain, hblocks⟩

/-- A joined row may carry more than the key and the bins of the partner: the digest of the key, if
a column of the query asks for it.

**Proof sketch.** The partner is computed, and the joined row has one column more than the two that
are named. -/
theorem join_digest :
    let j : JoinSpec :=
      { kind := .inner
        qualifier := "o"
        plan := { TablePlan.ofSet "ns" (some "orders") (some "o") with needsDigest := true }
        outerKey := "PK"
        innerColumn := "person" }
    let row : Row := ⟨[("PK", .integer 1)], by decide⟩
    let bins : Bins := ⟨[("person", .integer 1)], by decide⟩
    let st : Store := ⟨⟨[(("ns", "orders"), ⟨[(.integer 10, bins)], by decide⟩)], by decide⟩, [],
      .zero⟩
    j.plan.condition = none ∧ j.plan.keyCondition = none ∧ j.readsJoinable row = true ∧
      j.partnersIn st "orders" row = [⟨⟨"ns", "orders", .integer 10⟩, bins⟩] ∧
      (((join (.rows [row] none) j).cursor ⟨[], 0, none⟩).drain st).1 ≠
        .ok [(row.set "o.PK" (.integer 10)).set "o.person" (.integer 1)] := by
  intro j row bins st
  refine ⟨rfl, rfl, by decide, rfl, fun h => ?_⟩
  have hkeys : (((join (.rows [row] none) j).cursor ⟨[], 0, none⟩).drain st).1.map
      (List.map OrderedMap.keys) = .ok [["PK", "o.PK", "o.PK_DIGEST", "o.person"]] := rfl
  rw [h] at hkeys
  exact absurd (Except.ok.inj hkeys) (by decide)

end Pipeline

end RecordQuery
