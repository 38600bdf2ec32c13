import RecordQuery.Pipeline.Basic
import RecordQuery.Proofs.Cursor.Stage
import RecordQuery.Proofs.Plan.Strategy

set_option autoImplicit false

/-!
# Rows of plans

A plan that neither reduces nor reads a query chooses a strategy, and the pipeline that fetches by
this strategy returns the records that the programs of the plan accept.

## Main results

* `Pipeline.drain_fetch` — what is fetched is what the strategy finds.
* `QueryPlan.fetch_drain` — what is fetched is what the programs accept, each record once.
-/

namespace RecordQuery

/-- Fetching by a strategy that finds the records that pass a test returns their rows. -/
lemma Pipeline.drain_fetch {a : TableAccess} {test : Record → Bool} (h : a.strategy.Finds test)
    (env : ExecutionEnv) (st : Store) :
    ∃ rows st', ((fetch a).cursor env).drain st = (.ok rows, st') ∧ st'.Alike st ∧
      rows.Perm (((st.recordsOf a.ns a.set).filter test).map
        (fun r => Row.ofRecord r a.withDigest)) := by
  obtain ⟨rs, hrs, hperm⟩ := h.2 a st rfl
  have hdrain : (((fetch a).cursor env).drain).Reads st
      ((a.found st).map Listing.ofRows >>= Listing.complete) :=
    (Cursor.lists_ofLoad (a.reads_load env.batchSize st) a.bound).drain
  have hfound : a.found st = .ok (a.rowsOf rs) := by
    rw [TableAccess.found, hrs]
    rfl
  rw [hfound] at hdrain
  obtain ⟨st', hrun, hlike⟩ := hdrain st (.refl st)
  exact ⟨a.rowsOf rs, st', hrun, hlike, hperm.map _⟩

namespace QueryPlan

/-- **What a plan fetches is what its programs accept.** A plan without a reduction, a source and
indexes, whose conditions the store can run, chooses a strategy; fetching by it succeeds, leaves the
store as it is and returns one row for every record of the set that both programs accept, in
whatever order. These are also the rows that a scan with both programs returns. This holds for
lookups of one key, for lookups of several keys in parts of any size and for scans.

**Proof sketch.** The chosen strategy finds these records (`TablePlan.exists_readingStrategy`), as
the scan does (`TablePlan.exists_scan`); loading returns what a strategy finds
(`TableAccess.reads_load`), and the cursor passes on what is loaded. -/
theorem fetch_drain {p : QueryPlan} {set : String} (hset : p.set = some set)
    (hsource : p.source = none) (hreduction : p.reduction = none) (hindexes : p.indexes = [])
    (hcondition : p.condition.all Condition.isResolved = true)
    (hkey : p.keyCondition.all KeyCondition.isComparable = true) (env : ExecutionEnv)
    (st : Store) :
    ∃ chosen access rows st', p.chooseStrategy = .ok chosen ∧
      TableAccess.ofPlan chosen.toTablePlan = .ok access ∧
      ((Pipeline.fetch access).cursor env).drain st = (.ok rows, st') ∧ st'.Alike st ∧
      rows.Perm (((st.recordsOf p.ns set).filter p.accepts).map
        (fun r => Row.ofRecord r p.needsDigest)) ∧
      ∃ keys scanned last, p.keyCondition.mapM KeyCondition.program = .ok keys ∧
        ((Pipeline.fetch ⟨p.ns, set, .fullScan (Condition.programOf p.condition) keys,
          p.needsDigest⟩).cursor env).drain st = (.ok scanned, last) ∧ rows.Perm scanned := by
  have hknown : p.isKnown = true := by
    rw [TablePlan.isKnown, hcondition, hkey]
    rfl
  obtain ⟨s, hs, hfinds⟩ := TablePlan.exists_readingStrategy hknown hindexes
  obtain ⟨keys, hkeys, hscan⟩ := TablePlan.exists_scan hknown
  let access : TableAccess := ⟨p.ns, set, s, p.needsDigest⟩
  obtain ⟨rows, st', hrun, hlike, hperm⟩ := Pipeline.drain_fetch (a := access) hfinds env st
  obtain ⟨scanned, last, hscanned, -, hsame⟩ := Pipeline.drain_fetch
    (a := ⟨p.ns, set, .fullScan (Condition.programOf p.condition) keys, p.needsDigest⟩) hscan env st
  have haccess : TableAccess.ofPlan { p.toTablePlan with strategy := some s } = .ok access := by
    simp only [TableAccess.ofPlan, hset]
    rfl
  exact ⟨_, access, rows, st', chooseStrategy_eq hsource hreduction hs, haccess, hrun, hlike, hperm,
    keys, scanned, last, hkeys, hscanned, hperm.trans hsame.symm⟩

/-- The records with the keys `1` and `2` are fetched, each once, though one of the keys is named
twice and a third one does not exist; the record whose bin does not satisfy the condition is not.

**Proof sketch.** `fetch_drain` gives the strategy, the access, the run and a permutation of the
accepted records, which are these two. -/
theorem fetch_drain_keys :
    let p : QueryPlan := .ofTable
      { TablePlan.ofSet "ns" (some "s") none with
        condition := some (.compare "n" .integer .gt (.integer 0))
        keyCondition := some (.among [.key (.integer 2), .key (.integer 1), .key (.integer 2),
          .key (.integer 3), .key (.integer 4)]) }
    let set : RecordSet := ⟨[(.integer 1, ⟨[("n", .integer 5)], by decide⟩),
      (.integer 2, ⟨[("n", .integer 6)], by decide⟩),
      (.integer 3, ⟨[("n", .integer 0)], by decide⟩),
      (.text "1", ⟨[("n", .integer 5)], by decide⟩)], by decide⟩
    let st : Store := ⟨⟨[(("ns", "s"), set)], by decide⟩, [], .zero⟩
    ∃ chosen access rows st', p.chooseStrategy = .ok chosen ∧
      TableAccess.ofPlan chosen.toTablePlan = .ok access ∧
      ((Pipeline.fetch access).cursor ⟨[], 0, none⟩).drain st = (.ok rows, st') ∧
      rows.Perm ([1, 2].map fun k =>
        Row.ofRecord ⟨⟨"ns", "s", .integer k⟩, ⟨[("n", .integer (k + 4))], by simp⟩⟩ false) := by
  intro p set st
  have hset : p.set = some "s" := rfl
  obtain ⟨chosen, access, rows, st', hchosen, haccess, hrun, -, hperm, -⟩ :=
    fetch_drain hset rfl rfl rfl rfl rfl ⟨[], 0, none⟩ st
  exact ⟨chosen, access, rows, st', hchosen, haccess, hrun, hperm⟩

end QueryPlan

end RecordQuery
