import RecordQuery.Proofs.Cursor.Complete
import RecordQuery.Proofs.Fault.Access
import RecordQuery.Proofs.Pipeline.Catalog
import RecordQuery.Proofs.Pipeline.Passes
import RecordQuery.Proofs.Plan.Distinct
import RecordQuery.Proofs.Reducer.Group
import RecordQuery.Proofs.Row

set_option autoImplicit false

/-!
# Rows without duplicates

The plan of a selection of one column without duplicates leaves it to a reducer which values there
are, whether the store applies it to the records that it finds or it is applied to the rows of a
query. Either way its inputs are the rows that the selection with duplicates returns, so that it
lists their values, each once.

## Main definitions

* `Row.single` — a row with one value.

## Main results

* `QueryPlan.Returns.row_eq` — the row that is returned of what is read.
* `QueryPlan.Returns.reduced_rows` — the rows that are returned of what is reduced.
* `TablePlan.exists_reducingStrategy` — the store reduces the records that the programs of a plan
  accept.
* `QueryPlan.Deduplicates.rows` — the rows of the two plans.
-/

namespace RecordQuery

open Outcome

/-- A row with one value. -/
def Row.single (label : String) (v : Value) : Row := OrderedMap.empty.set label v

/-- A row with one value is fixed by it. -/
lemma Row.single_injective (label : String) : Function.Injective (Row.single label) := by
  intro v w h
  have hget := congrArg (fun row : Row => row.get? label) h
  simpa [Row.single, OrderedMap.get?_set] using hget

/-! ## Places in rows -/

namespace QueryPlan

variable {c : Column} {p q : QueryPlan}

/-- What is filled with one more column: the place of the column, or its label if no column has that
for its place.

**Proof sketch.** The two additions are taken apart: first the pair of the bin and the place, unless
one has this place, then the pair of the bin and the label, if it is not a place. -/
lemma mem_addOutput {sources : List String} {m : OutputMapping} {d : Column} {e : String × String}
    (h : e ∈ addOutput sources m d) :
    e ∈ m ∨ (d.outputBin? = some e.1 ∧
      (e.2 = d.source ∨ (e.2 = d.label ∧ d.label ∉ sources))) := by
  unfold addOutput at h
  split at h
  · exact .inl h
  · rename_i bin hbin
    have hown : ∀ f, f ∈ (if m.any (fun e => e.2 == d.source) then m else m ++ [(bin, d.source)]) →
        f ∈ m ∨ f = (bin, d.source) := by
      intro f hf
      split at hf
      · exact .inl hf
      · simpa using hf
    simp only at h
    split at h
    · rename_i hlabel
      rcases List.mem_append.mp h with h | h
      · rcases hown e h with h | rfl
        · exact .inl h
        · exact .inr ⟨hbin, .inl rfl⟩
      · obtain rfl := List.mem_singleton.mp h
        exact .inr ⟨hbin, .inr ⟨rfl, hlabel.2⟩⟩
    · rcases hown e h with h | rfl
      · exact .inl h
      · exact .inr ⟨hbin, .inl rfl⟩

/-- What was filled stays so with one more column. -/
lemma subset_addOutput (sources : List String) (m : OutputMapping) (d : Column) :
    m ⊆ addOutput sources m d := by
  intro e he
  unfold addOutput
  split
  · exact he
  · simp only
    split <;> split <;> simp [he]

/-- The place of a column that shows a bin is filled with it. -/
lemma exists_mem_addOutput (sources : List String) (m : OutputMapping) {d : Column} {bin : String}
    (hbin : d.outputBin? = some bin) : ∃ e ∈ addOutput sources m d, e.2 = d.source := by
  unfold addOutput
  rw [hbin]
  by_cases hany : m.any (fun e => e.2 == d.source) = true
  · obtain ⟨e, he, hsource⟩ := List.any_eq_true.mp hany
    refine ⟨e, ?_, by simpa using hsource⟩
    simp only [hany, if_true]
    split <;> simp [he]
  · refine ⟨(bin, d.source), ?_, rfl⟩
    simp only [if_neg hany]
    split <;> simp

/-- What the output of a reducer fills comes of a column: its place, or its label if no column has
that for its place. -/
lemma exists_of_mem_outputMapping {e : String × String} (h : e ∈ p.outputMapping) :
    ∃ d ∈ p.columns, d.outputBin? = some e.1 ∧
      (e.2 = d.source ∨ (e.2 = d.label ∧ d.label ∉ p.columns.map Column.source)) := by
  unfold outputMapping at h
  generalize p.columns.map Column.source = sources at h ⊢
  have hfold : ∀ (cs : List Column) (m : OutputMapping), e ∈ cs.foldl (addOutput sources) m →
      e ∈ m ∨ ∃ d ∈ cs, d.outputBin? = some e.1 ∧
        (e.2 = d.source ∨ (e.2 = d.label ∧ d.label ∉ sources)) := by
    intro cs
    induction cs with
    | nil => exact fun m hm => .inl hm
    | cons d cs ih =>
      intro m hm
      rcases ih _ hm with hm | ⟨d', hd', hbin⟩
      · exact (mem_addOutput hm).imp_right fun h => ⟨d, List.mem_cons_self, h⟩
      · exact .inr ⟨d', List.mem_cons_of_mem d hd', hbin⟩
  exact (hfold p.columns [] h).resolve_left List.not_mem_nil

/-- The places of all columns that show bins are filled. -/
lemma exists_mem_outputMapping {d : Column} (hd : d ∈ p.columns) {bin : String}
    (hbin : d.outputBin? = some bin) : ∃ e ∈ p.outputMapping, e.2 = d.source := by
  unfold outputMapping
  generalize p.columns.map Column.source = sources
  have hfold : ∀ (cs : List Column) (m : OutputMapping), (∃ e ∈ m, e.2 = d.source) ∨ d ∈ cs →
      ∃ e ∈ cs.foldl (addOutput sources) m, e.2 = d.source := by
    intro cs
    induction cs with
    | nil => exact fun m h => h.elim id fun h => absurd h List.not_mem_nil
    | cons c cs ih =>
      intro m h
      refine ih _ ?_
      rcases h with ⟨e, he, hsource⟩ | h
      · exact .inl ⟨e, subset_addOutput sources m c he, hsource⟩
      · rcases List.mem_cons.mp h with rfl | h
        · exact .inl (exists_mem_addOutput sources m hbin)
        · exact .inr h
  exact hfold p.columns [] (.inr hd)

namespace Returns

/-- The returned column is one that is carried. -/
lemma mem (h : p.Returns c) : c ∈ p.columns :=
  (List.mem_filter.mp (h.visible ▸ List.mem_singleton_self c)).1

/-- A column that is not returned is carried for its bin. -/
lemma eq_or_carried (h : p.Returns c) {d : Column} (hd : d ∈ p.columns) :
    d = c ∨ d.value = .bin := by
  by_cases hvisible : d.isVisible = true
  · left
    have hmem : d ∈ Column.visible p.columns := List.mem_filter.mpr ⟨hd, hvisible⟩
    rw [h.visible] at hmem
    exact List.mem_singleton.mp hmem
  · exact .inr ((h.own d hd).carried (by simpa using hvisible))

/-- Every column shows a bin. -/
lemma value_eq (h : p.Returns c) {d : Column} (hd : d ∈ p.columns) : d.value = .bin :=
  (h.eq_or_carried hd).elim (fun heq => heq ▸ h.value) id

/-- The place of the returned column is named after its bin. -/
lemma source_eq (h : p.Returns c) : c.source = c.name := (h.own c h.mem).source h.value

/-- The returned column is neither the key nor its digest. -/
lemma isBin (h : p.Returns c) : c.name ≠ keyColumn ∧ c.name ≠ digestColumn := by
  have hmem : c ∈ Column.visible p.columns := h.visible ▸ List.mem_singleton_self c
  exact (h.own c h.mem).isBin h.value (List.mem_filter.mp hmem).2

/-- **What is reduced shows the bin** in the place of the returned column. -/
lemma get?_outputMapping (h : p.Returns c) (bins : Bins) :
    (p.outputMapping.row bins).get? c.source = some ((bins.get? c.name).getD .null) := by
  have hbin : ∀ d ∈ p.columns, d.outputBin? = some d.source := fun d hd => by
    rw [Column.outputBin?, h.value_eq hd, (h.own d hd).source (h.value_eq hd)]
  have hsource : c.source ∈ p.columns.map Column.source := List.mem_map_of_mem h.mem
  refine OutputMapping.get?_row (exists_mem_outputMapping h.mem (hbin c h.mem))
    (fun e he htarget => ?_) bins
  obtain ⟨d, hd, hshown, htaken | ⟨htaken, hfree⟩⟩ := exists_of_mem_outputMapping he
  · rw [hbin d hd, ← htaken, htarget, h.source_eq] at hshown
    exact (Option.some.inj hshown).symm
  · rw [← htaken, htarget] at hfree
    exact absurd hsource hfree

/-! ## Rows -/

/-- **The row that is returned of what is read** has the value under its label. -/
lemma row_eq (h : p.Returns c) {row out : Row} (hout : (Projection.ofPlan p).row row = .ok out) :
    out = .single c.label ((row.get? c.name).getD .null) := by
  have hcolumns : (Projection.ofPlan p).columns = [(c.source, c.label)] := by
    rw [Projection.ofPlan, Projection.ofColumns, h.visible]
    rfl
  have hwildcard : (Projection.ofPlan p).wildcard = false := h.wildcard
  rw [Projection.row, hcolumns, hwildcard, if_neg Bool.false_ne_true, Projection.addLabelled,
    hwildcard, Bool.false_and, if_neg Bool.false_ne_true, h.source_eq] at hout
  split at hout
  · rename_i v hv
    rw [hv]
    exact (Except.ok.inj hout).symm
  · rename_i hnone
    rw [hnone]
    split at hout
    · cases hout
    · exact (Except.ok.inj hout).symm

/-- **The rows that are returned of what is reduced** have the values of the inputs, each once, if
every value equals itself.

**Proof sketch.** The groups have the distinct keys of the inputs, since every value equals itself.
Every group is described by the one value that its key holds, so the rows are the single rows of
these values. They differ because a single row determines its value. -/
theorem reduced_rows (h : p.Returns c) {inputs : List (String → Option Value)} {outs : List Row}
    (hself : ∀ lookup ∈ inputs,
      ((lookup c.name).getD .null).equal ((lookup c.name).getD .null) = true)
    (houts : (((⟨[c.name], []⟩ : Reducer).reduce inputs).map p.outputMapping.row).mapM
      (Projection.ofPlan p).row = .ok outs) :
    outs.Nodup ∧
      ∀ row, row ∈ outs ↔ ∃ lookup ∈ inputs, row = .single c.label
        ((lookup c.name).getD .null) := by
  let r : Reducer := ⟨[c.name], []⟩
  have hkey : ∀ lookup, r.keyOf lookup = [(lookup c.name).getD .null] := fun _ => rfl
  obtain ⟨hnodup, hmem⟩ := @Groups.keys_ofInputs r inputs fun lookup hlookup => by
    rw [hkey, Value.equalList, hself lookup hlookup]
    rfl
  -- every group is described by the one value that its key holds
  have hrows : outs = (Groups.ofInputs r inputs).keys.map fun k =>
      Row.single c.label (k.headD .null) := by
    have hreduce : (r.reduce inputs).map p.outputMapping.row =
        (Groups.ofInputs r inputs).map fun g => p.outputMapping.row (r.describe g) :=
      List.map_map
    rw [hreduce, List.mapM_map] at houts
    rw [Groups.keys, List.map_map]
    refine eq_map_of_mapM houts fun g hg out hout => ?_
    obtain ⟨lookup, -, hlookup⟩ := List.mem_map.mp ((hmem g.1).mp (List.mem_map_of_mem hg))
    have hdescribed : (r.describe g).get? c.name = some ((lookup c.name).getD .null) := by
      simp [r, Reducer.describe, ← hlookup, hkey, OrderedMap.ofInserts, OrderedMap.get?_insert]
    rw [h.row_eq hout, ← h.source_eq, h.get?_outputMapping, hdescribed, Function.comp_apply,
      ← hlookup, hkey]
    rfl
  subst hrows
  refine ⟨hnodup.map_on ?_, fun row => ?_⟩
  · intro k hk l hl heq
    obtain ⟨lookup, -, rfl⟩ := List.mem_map.mp ((hmem k).mp hk)
    obtain ⟨lookup', -, rfl⟩ := List.mem_map.mp ((hmem l).mp hl)
    have hvalues : (lookup c.name).getD .null = (lookup' c.name).getD .null :=
      Row.single_injective c.label heq
    rw [hkey, hkey, hvalues]
  · simp only [List.mem_map]
    constructor
    · rintro ⟨k, hk, rfl⟩
      obtain ⟨lookup, hlookup, rfl⟩ := List.mem_map.mp ((hmem k).mp hk)
      exact ⟨lookup, hlookup, rfl⟩
    · rintro ⟨lookup, hlookup, rfl⟩
      exact ⟨r.keyOf lookup, (hmem _).mpr (List.mem_map_of_mem hlookup), rfl⟩

end Returns

end QueryPlan

/-! ## Reducing in the store -/

namespace TablePlan

variable {p : TablePlan}

/-- If a plan without unknowns has a strategy for reducing, the store can run its programs. -/
lemma isKnown_of_reducingStrategy {call : ReducerCall} {s : AccessStrategy}
    (h : p.isWithin .none = true) (hs : p.reducingStrategy call = .ok s) : p.isKnown = true := by
  rw [isKnown, isResolved_of_isWithin h, Bool.true_and]
  rw [isWithin, Bool.and_eq_true, Option.all_eq_true _ p.keyCondition] at h
  refine (Option.all_eq_true _ _).mpr fun c hc => ?_
  obtain ⟨program, hprogram⟩ := exists_program_of_reducingStrategy hs hc
  exact KeyCondition.isComparable_of_program c (h.2 c hc) program hprogram

/-- **The store reduces the records that the programs of a plan accept.**

**Proof sketch.** Without indexes nothing is left to an index, so the program is the conjunction of
that of the bins and that of the keys. Both run without failure to what they say of the record, and
their conjunction to what the plan accepts. -/
theorem exists_reducingStrategy (hknown : p.isKnown = true) (hindexes : p.indexes = [])
    (call : ReducerCall) :
    ∃ program, p.reducingStrategy call = .ok (.aggregation none program call) ∧
      ∀ r, program.run r = .ok (p.accepts r) := by
  rw [accepts_eq .unknown hknown]
  simp only [isKnown, Bool.and_eq_true] at hknown
  have hbins := run_programOf_condition .unknown hknown.1
  unfold reducingStrategy
  rw [filterAndResidual_nil hindexes]
  cases hk : p.keyCondition with
  | none =>
    refine ⟨Program.conjunction [Condition.programOf p.condition], rfl, fun r => ?_⟩
    have hrun : ∀ q ∈ [Condition.programOf p.condition], q.run r =
        .ok (p.condition.all (Condition.holdsIn .unknown r)) := fun q hq =>
      List.mem_singleton.mp hq ▸ hbins r
    rw [Program.run_conjunction hrun]
    simp [holdsIn, hk]
  | some c =>
    have hcmp : c.isComparable = true := by simpa [hk] using hknown.2
    obtain ⟨q, hq, -, hrun⟩ := KeyCondition.program_run .unknown hcmp
    refine ⟨Program.conjunction [Condition.programOf p.condition, q], ?_, fun r => ?_⟩
    · simp only [hq, ok_bind]
      rfl
    · rw [Program.run_both (hbins r) (hrun r)]
      simp [holdsIn, hk]

end TablePlan

/-! ## Pipelines -/

section

variable {c : Column} {p q : QueryPlan}

/-- A plan that returns a column computes nothing. -/
lemma QueryPlan.Returns.computedColumns_eq (h : p.Returns c) : p.computedColumns = [] := by
  refine List.filterMap_eq_nil_iff.mpr fun d hd => ?_
  rw [h.value_eq hd]

/-- The pipeline of a plan that computes, joins, orders and cuts off nothing. -/
lemma Pipeline.ofPlan_eq (hcomputed : q.computedColumns = []) (hhaving : q.having = none)
    (hjoins : q.joins = []) (horder : q.orderBy = []) (hoffset : q.offset = none)
    (hlimit : q.limit = none) (source : Option Pipeline) :
    Pipeline.ofPlan q source = (do
      let base ← ofSource q source
      let kept := if q.reduction.isNone then base.filtered q.rowFilter else base
      return kept.project (.ofPlan q)) := by
  have hearly : q.earlyColumns = [] := by rw [QueryPlan.earlyColumns, hcomputed]; rfl
  have hlate : q.lateColumns = [] := by rw [QueryPlan.lateColumns, hcomputed]; rfl
  unfold Pipeline.ofPlan
  simp only [hearly, hlate, hhaving, hjoins, horder, hoffset, hlimit]
  rfl

/-- The pipeline of a plan that returns a column. -/
lemma Pipeline.ofPlan_returns (h : p.Returns c) (source : Option Pipeline) :
    Pipeline.ofPlan p source = (do
      let base ← ofSource p source
      return (base.filtered p.rowFilter).project (.ofPlan p)) := by
  rw [ofPlan_eq h.computedColumns_eq h.having h.joins h.orderBy h.offset h.limit, h.reduction]
  rfl

/-- The pipeline of the plan that reduces the rows of such a plan. -/
lemma Pipeline.ofPlan_deduplicated (h : p.Returns c) (s : Option AccessStrategy)
    (source : Option Pipeline) :
    Pipeline.ofPlan (p.deduplicated c s) source = (do
      let base ← ofSource (p.deduplicated c s) source
      return base.project (.ofPlan p)) :=
  ofPlan_eq (q := p.deduplicated c s) h.computedColumns_eq h.having h.joins h.orderBy h.offset
    h.limit source

/-- The set that the access to a table reads. -/
lemma TableAccess.place_of_ofPlan {t : TablePlan} {a : TableAccess} (h : ofPlan t = .ok a) :
    a.ns = t.ns ∧ t.set = some a.set := by
  unfold ofPlan at h
  split at h
  · cases h
  · cases h
  · rename_i set s hset hstrategy
    obtain rfl := Except.ok.inj h
    exact ⟨rfl, hset⟩

/-- The reducer that lists the values of a column. -/
lemma Reducer.ofCall?_distinct (name : String) :
    Reducer.ofCall? (.distinct name) = .ok ⟨[name], []⟩ := rfl

/-- What the two plans read, if they read a set: both the records that their programs accept.

**Proof sketch.** The one plan finds, in whatever order, the records that its programs accept. The
other one reduces them, since its program accepts the same records of the same set. A row shows what
the bin of its record holds, because the column is neither the key nor the digest. -/
lemma QueryPlan.Deduplicates.reads_set {K : Store} {s : Option AccessStrategy} {a a' : TableAccess}
    {rows out : List Row} (h : Deduplicates c p (p.deduplicated c s)) (hsource : p.source = none)
    (hwithin : p.isWithin .none = true) (ha : TableAccess.ofPlan p.toTablePlan = .ok a)
    (ha' : TableAccess.ofPlan (p.deduplicated c s).toTablePlan = .ok a')
    (hrows : a.found K = .ok rows) (hout : a'.groups p.outputMapping K = .ok out) :
    ∃ inputs : List (String → Option Value),
      out = ((⟨[c.name], []⟩ : Reducer).reduce inputs).map p.outputMapping.row ∧
        ∀ v, (∃ row ∈ rows, row.get? c.name = v) ↔ ∃ lookup ∈ inputs, lookup c.name = v := by
  obtain ⟨t, ht, htable⟩ := h.settled.exists_strategy (by simp [hsource])
  obtain ⟨t', ht', htable'⟩ := h.settled'.exists_strategy (by simp [deduplicated, hsource])
  have hread : p.readingStrategy = .ok t := by simpa [strategyFor, h.returns.reduction] using ht
  have hreduce : p.reducingStrategy (.distinct c.name) = .ok t' := ht'
  have hknown := TablePlan.isKnown_of_reducingStrategy hwithin hreduce
  obtain ⟨_, hfound, hfinds⟩ := TablePlan.exists_readingStrategy hknown h.returns.indexes
  obtain rfl := Except.ok.inj (hread.symm.trans hfound)
  obtain ⟨program, hprogram, hruns⟩ :=
    TablePlan.exists_reducingStrategy hknown h.returns.indexes (.distinct c.name)
  obtain rfl := Except.ok.inj (hreduce.symm.trans hprogram)
  obtain ⟨hns, hset⟩ := TableAccess.place_of_ofPlan ha
  obtain ⟨hns', hset'⟩ := TableAccess.place_of_ofPlan ha'
  rw [htable] at ha
  rw [htable'] at ha'
  -- the strategy finds these records, in whatever order
  obtain ⟨rs, hrs, hperm⟩ := hfinds.2 a K (Pipeline.strategy_of_ofPlan ha)
  obtain rfl : a.rowsOf rs = rows := by
    rw [TableAccess.found, hrs] at hrows
    exact Except.ok.inj hrows
  -- and these are reduced
  have hplace : a'.ns = a.ns ∧ a'.set = a.set :=
    ⟨hns'.trans hns.symm, Option.some.inj (hset'.symm.trans hset)⟩
  have hselect : K.select ⟨a'.ns, a'.set, none, program⟩ =
      .ok ((K.recordsOf a.ns a.set).filter p.accepts) := by
    rw [hplace.1, hplace.2]
    exact Store.select_eq_filter hruns
  refine ⟨((K.recordsOf a.ns a.set).filter p.accepts).map Record.bin?, ?_, fun v => ?_⟩
  · simp only [TableAccess.groups, Pipeline.strategy_of_ofPlan ha', Store.reduce,
      Reducer.ofCall?_distinct, hselect, ok_bind] at hout
    exact (Except.ok.inj hout).symm
  · obtain ⟨hkey, hdigest⟩ := h.returns.isBin
    have hget : ∀ r : Record, (Row.ofRecord r a.withDigest).get? c.name = r.bin? c.name := by
      intro r
      rw [Row.get?_ofRecord]
      simp [hkey, hdigest]
    simp only [TableAccess.rowsOf, List.mem_map, exists_exists_and_eq_and, hget, hperm.mem_iff]

/-- What the two plans read, if their rows come from a query: both its rows that pass the filter. -/
lemma Listing.exists_inputs_of_grouped {name : String} {mapping : OutputMapping}
    {rows out : List Row}
    (h : (ofRows rows).grouped (.distinct name) mapping = .ok (ofRows out)) :
    ∃ inputs : List (String → Option Value),
      out = ((⟨[name], []⟩ : Reducer).reduce inputs).map mapping.row ∧
        ∀ v, (∃ row ∈ rows, row.get? name = v) ↔ ∃ lookup ∈ inputs, lookup name = v := by
  refine ⟨rows.map OrderedMap.get?, ?_, fun v => by simp⟩
  have hgrouped : (ofRows rows).grouped (.distinct name) mapping = .ok (ofRows
      (((⟨[name], []⟩ : Reducer).reduce (rows.map OrderedMap.get?)).map mapping.row)) :=
    grouped_of_groupRows rfl
  exact (Listing.mk.inj (Except.ok.inj (h.symm.trans hgrouped))).1

/-- Whatever the source, the two plans read the same values.

**Proof sketch.** A set is read by both with programs that accept the same records. The rows of a
nested plan are filtered by both, and then either returned or reduced. -/
lemma QueryPlan.Deduplicates.exists_inputs {env : ExecutionEnv} {K : Store}
    {s : Option AccessStrategy} {input : Option Pipeline} {base base' : Pipeline}
    {rows out : List Row} (h : Deduplicates c p (p.deduplicated c s))
    (hwithin : p.isWithin .none = true) (hinput : sourcePipeline p.source = .ok input)
    (hbase : Pipeline.ofSource p input = .ok base)
    (hbase' : Pipeline.ofSource (p.deduplicated c s) input = .ok base')
    (hl : (base.filtered p.rowFilter).listing env K = .ok (.ofRows rows))
    (hl' : base'.listing env K = .ok (.ofRows out)) :
    ∃ inputs : List (String → Option Value),
      out = ((⟨[c.name], []⟩ : Reducer).reduce inputs).map p.outputMapping.row ∧
        ∀ v, (∃ row ∈ rows, row.get? c.name = v) ↔ ∃ lookup ∈ inputs, lookup c.name = v := by
  have hreturns := h.returns
  cases hsource : p.source with
  | none =>
    rw [hsource] at hinput
    obtain rfl := Except.ok.inj hinput
    rw [h.rowFilter hsource] at hl
    simp only [Pipeline.ofSource, hreturns.reduction, deduplicated, bind_eq_ok, pure_eq_ok]
      at hbase hbase'
    obtain ⟨a, ha, rfl⟩ := hbase
    obtain ⟨a', ha', rfl⟩ := hbase'
    obtain ⟨found, hfound, heq⟩ := map_eq_ok.mp hl
    obtain ⟨groups, hgroups, heq'⟩ := map_eq_ok.mp hl'
    obtain rfl := (Listing.mk.inj heq).1
    obtain rfl := (Listing.mk.inj heq').1
    exact h.reads_set hsource hwithin ha ha' hfound hgroups
  | some n =>
    rw [hsource] at hinput
    obtain ⟨X, -, hX⟩ := bind_eq_ok.mp hinput
    obtain rfl := Except.ok.inj hX
    simp only [Pipeline.ofSource, hreturns.reduction, deduplicated] at hbase hbase'
    obtain rfl := Except.ok.inj hbase
    obtain rfl := Except.ok.inj hbase'
    obtain ⟨l, hfiltered, hgrouped⟩ := bind_eq_ok.mp hl'
    obtain rfl := Except.ok.inj (hl.symm.trans hfiltered)
    exact Listing.exists_inputs_of_grouped hgrouped

/-- **The rows of the two plans of a selection.** Where both are read to the end, the plan without
duplicates returns the rows of the other one, each once, if every value equals itself.

**Proof sketch.** Both pipelines are taken apart into a base and a projection. Both bases read the
same values (`QueryPlan.Deduplicates.exists_inputs`). The plain rows are the single rows of these
values, so the values equal themselves, and `reduced_rows` says that the distinct rows are the same
single rows, each once. -/
theorem QueryPlan.Deduplicates.rows {env : ExecutionEnv} {K : Store} {P Q : Pipeline}
    {plain distinct : List Row} (h : Deduplicates c p q) (hwithin : p.isWithin .none = true)
    (hp : p.pipeline = .ok P) (hq : q.pipeline = .ok Q)
    (hplain : P.listing env K = .ok (.ofRows plain))
    (hdistinct : Q.listing env K = .ok (.ofRows distinct))
    (hvalues : ∀ row ∈ plain, ∀ v ∈ row.values, v.equal v = true) :
    distinct.Nodup ∧ ∀ row, row ∈ distinct ↔ row ∈ plain := by
  obtain ⟨s, rfl⟩ := h.eq
  have hreturns := h.returns
  rw [QueryPlan.pipeline_eq] at hp hq
  obtain ⟨input, hinput, hp⟩ := bind_eq_ok.mp hp
  obtain ⟨input', hinput', hq⟩ := bind_eq_ok.mp hq
  obtain rfl := Except.ok.inj (hinput.symm.trans hinput')
  rw [Pipeline.ofPlan_returns hreturns] at hp
  rw [Pipeline.ofPlan_deduplicated hreturns] at hq
  obtain ⟨base, hbase, hp⟩ := bind_eq_ok.mp hp
  obtain ⟨base', hbase', hq⟩ := bind_eq_ok.mp hq
  obtain rfl := Except.ok.inj hp
  obtain rfl := Except.ok.inj hq
  obtain ⟨l, hl, hmapped⟩ := map_eq_ok.mp hplain
  obtain ⟨l', hl', hmapped'⟩ := map_eq_ok.mp hdistinct
  obtain ⟨hrows, hshown⟩ := Listing.exists_of_mapRows hmapped
  obtain ⟨hrows', hshown'⟩ := Listing.exists_of_mapRows hmapped'
  obtain ⟨rows, failure⟩ := l
  obtain ⟨out, failure'⟩ := l'
  obtain rfl : failure = none := (Listing.mk.inj hrows).2
  obtain rfl : failure' = none := (Listing.mk.inj hrows').2
  obtain ⟨inputs, rfl, hinputs⟩ := h.exists_inputs hwithin hinput hbase hbase' hl hl'
  have hplainRows : plain = rows.map fun row =>
      Row.single c.label ((row.get? c.name).getD .null) :=
    eq_map_of_mapM hshown fun row _ out hout => hreturns.row_eq hout
  have hself : ∀ lookup ∈ inputs,
      ((lookup c.name).getD .null).equal ((lookup c.name).getD .null) = true := by
    intro lookup hlookup
    obtain ⟨row, hrow, hv⟩ := (hinputs (lookup c.name)).mpr ⟨lookup, hlookup, rfl⟩
    have hplainRow : Row.single c.label ((lookup c.name).getD .null) ∈ plain := by
      rw [hplainRows, ← hv]
      exact List.mem_map_of_mem hrow
    exact hvalues _ hplainRow _ (List.mem_singleton_self _)
  obtain ⟨hnodup, hmem⟩ := hreturns.reduced_rows hself hshown'
  refine ⟨hnodup, fun row => (hmem row).trans ?_⟩
  rw [hplainRows, List.mem_map]
  constructor
  · rintro ⟨lookup, hlookup, rfl⟩
    obtain ⟨row, hrow, hv⟩ := (hinputs (lookup c.name)).mpr ⟨lookup, hlookup, rfl⟩
    exact ⟨row, hrow, by rw [hv]⟩
  · rintro ⟨row, hrow, rfl⟩
    obtain ⟨lookup, hlookup, hv⟩ := (hinputs (row.get? c.name)).mp ⟨row, hrow, rfl⟩
    exact ⟨lookup, hlookup, by rw [hv]⟩

end

end RecordQuery
