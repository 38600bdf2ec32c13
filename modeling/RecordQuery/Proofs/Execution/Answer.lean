import RecordQuery.Execution.Statement
import RecordQuery.Proofs.Pipeline.Listing
import RecordQuery.Proofs.Value.Encoding

set_option autoImplicit false

/-!
# Answers

What a program sees of a statement is the rows that it reads to the end, or the number of records
that were changed. A stream of rows is read to the end of the listing of its pipeline.

## Main definitions

* `Answer` — rows under their labels, or a number of records.
* `Statement.answer` — what a statement answers when it is compiled, bound and carried out.

## Main results

* `RowStream.reads_answer` — a stream is read to the end of the listing of its pipeline.
* `Statement.reads_query`, `Statement.reads_answer` — so is the stream that a query opens.
-/

namespace RecordQuery

open Outcome

/-! ## Streams -/

namespace RowStream

variable {K : Store} {failure : Option QueryError} {rows : List Row} {r : RowStream}

/-- A stream that has not ended passes on the row of its cursor. -/
lemma next_of_row {row : Row} {s' : (r.pipeline.cursor r.env).State} {st st' : Store}
    (hended : r.ended = false)
    (hnext : (r.pipeline.cursor r.env).next r.state st = (.ok (some row), s', st')) :
    r.next st = (.ok (some row), { r with state := s' }, st') := by
  rw [next, if_neg (by simp [hended]), hnext]

/-- A stream ends with its cursor. -/
lemma next_of_last {s' : (r.pipeline.cursor r.env).State} {st st' : Store}
    (hended : r.ended = false)
    (hnext : (r.pipeline.cursor r.env).next r.state st = (Cursor.lastAnswer failure, s', st')) :
    r.next st = (Cursor.lastAnswer failure, ({ r with state := s' } : RowStream).close, st') := by
  rw [next, if_neg (by simp [hended]), hnext]
  cases failure <;> rfl

/-- Reading a stream returns the rows ahead of its cursor, if it may ask often enough.

**Proof sketch.** Induction on the rows, with the number of questions that are left. Each row is one
answer of the cursor below; the last answer ends the stream. -/
lemma read_of_yields {n : Nat} (h : (r.pipeline.cursor r.env).Yields K failure rows r.state)
    (hended : r.ended = false) (hn : rows.length < n) {st : Store} (hst : st.Alike K) :
    ∃ r' st', r.read n st = (⟨rows, Cursor.lastEnding failure⟩, r', st') ∧ st'.Alike K := by
  induction rows generalizing n r st with
  | nil =>
    obtain ⟨s', st', hnext, hlike⟩ := h.next_nil hst
    cases n with
    | zero => cases hn
    | succ n =>
      refine ⟨({ r with state := s' } : RowStream).close, st', ?_, hlike⟩
      rw [read, next_of_last hended hnext]
      cases failure <;> rfl
  | cons row rows ih =>
    obtain ⟨s', st', hnext, hlike, hrest⟩ := h.next_cons hst
    cases n with
    | zero => cases hn
    | succ n =>
      have hlt : rows.length < n := by
        rw [List.length_cons] at hn
        omega
      obtain ⟨r', st'', hread, hlike'⟩ := ih (r := { r with state := s' }) hrest hended hlt hlike
      refine ⟨r', st'', ?_, hlike'⟩
      rw [read, next_of_row hended hnext]
      simp only [hread]

/-- How a complete reading ends. -/
lemma complete_lastEnding (l : Listing) :
    (⟨l.rows, Cursor.lastEnding l.failure⟩ : Cursor.Reading).complete = l.complete := by
  unfold Cursor.Reading.complete Cursor.lastEnding Listing.complete
  cases l.failure <;> rfl

end RowStream

/-! ## Answers -/

/-- What a program sees of a statement. -/
inductive Answer where
  /-- The labels of the columns, and the rows. -/
  | rows (labels : List String) (rows : List Row)
  /-- How many records were changed. -/
  | affected (n : Nat)

/-- Whether two rows are the same, down to the bits of floats. -/
def Row.identical (r s : Row) : Bool :=
  decide (r.keys = s.keys) && Value.identicalList r.values s.values

/-- That is when they are equal. -/
lemma Row.identical_iff {r s : Row} : r.identical s = true ↔ r = s := by
  rw [identical, Bool.and_eq_true, decide_eq_true_iff, Value.identicalList_iff]
  refine ⟨fun h => OrderedMap.ext ?_, fun h => h ▸ ⟨rfl, rfl⟩⟩
  rw [← List.zip_unzip r.entries, ← List.zip_unzip s.entries, List.unzip_eq_map,
    List.unzip_eq_map]
  exact congrArg₂ List.zip h.1 h.2

/-- The same for several rows. -/
lemma Row.isEqv_identical_iff {rs ss : List Row} : rs.isEqv ss identical = true ↔ rs = ss := by
  induction rs generalizing ss with
  | nil => cases ss <;> simp [List.isEqv]
  | cons r rs ih =>
    cases ss with
    | nil => simp [List.isEqv]
    | cons s ss => rw [List.isEqv, Bool.and_eq_true, identical_iff, ih, List.cons.injEq]

namespace Answer

/-- Whether two answers are the same, down to the bits of floats. -/
def identical : Answer → Answer → Bool
  | rows l rs, rows m ss => decide (l = m) && rs.isEqv ss Row.identical
  | affected m, affected n => decide (m = n)
  | _, _ => false

/-- That is when they are equal. -/
lemma identical_iff {a b : Answer} : a.identical b = true ↔ a = b := by
  cases a <;> cases b <;> simp [identical, Row.isEqv_identical_iff]

/-- Answers are equal if and only if they are identical. -/
instance : DecidableEq Answer := fun _ _ => decidable_of_iff _ identical_iff

end Answer

/-- All that an outcome answers: the rows of a stream are read to the end. -/
def Outcome.answer : Outcome → StoreM Answer
  | rows s => do return .rows s.labels (← (Outcome.rows s).collect)
  | affected n => return .affected n

/-- **A stream is read to the end of the listing of its pipeline.**

**Proof sketch.** The cursor of the pipeline has the listing of the pipeline
(`Pipeline.lists_cursor`). If opening it fails, so does the stream; otherwise reading returns the
rows ahead (`read_of_yields`), and collecting them fails exactly if the listing has a failure behind
its rows. -/
theorem RowStream.reads_answer (env : ExecutionEnv) (labels : List String) (P : Pipeline)
    (K : Store) :
    (start env labels P >>= fun s => (Outcome.rows s).answer).Reads K
      (do return .rows labels (← P.listing env K >>= Listing.complete)) := by
  intro st hst
  obtain ⟨s, mid, hinit, hlike, hyields⟩ := P.lists_cursor env K st hst
  have hrun : (start env labels P >>= fun s => (Outcome.rows s).answer) st =
      ExceptT.bindCont (fun s => (Outcome.rows s).answer) (start env labels P st).1
        (start env labels P st).2 := rfl
  rw [hrun, start, hinit]
  cases hlisting : P.listing env K with
  | error e => exact ⟨mid, rfl, hlike⟩
  | ok l =>
    obtain ⟨r', last, hread, hlike'⟩ := read_of_yields
      (r := ⟨labels, env, P, s, false⟩) (hyields l hlisting) rfl
      (Nat.lt_succ_of_le ((hyields l hlisting).length_le hlike)) hlike
    have hcollect : (Outcome.rows ⟨labels, env, P, s, false⟩).collect mid = (l.complete, last) :=
      (congrArg (fun done : Cursor.Reading × RowStream × Store => (done.1.complete, done.2.2))
        hread).trans (Prod.ext (complete_lastEnding l) rfl)
    refine ⟨last, ?_, hlike'⟩
    change ExceptT.bindCont (fun rows => (pure (.rows labels rows) : StoreM Answer))
      ((Outcome.rows ⟨labels, env, P, s, false⟩).collect mid).1
      ((Outcome.rows ⟨labels, env, P, s, false⟩).collect mid).2 = _
    rw [hcollect]
    cases hcomplete : l.complete with
    | error e => simp only [ok_bind, hcomplete, error_bind]; rfl
    | ok rows => simp only [ok_bind, hcomplete]; rfl

/-- What a statement answers when it is compiled, bound and carried out. -/
def Statement.answer (config : Config) (catalog : IndexCatalog) (params : List Value)
    (s : Statement) : StoreM Answer := do
  let compiled ← s.compile config catalog
  let bound ← compiled.bind params
  (← bound.execute).answer

/-- **A query is answered with the listing of its pipeline**, or with the failure of preparing it.

**Proof sketch.** Executing a bound query prepares it, makes the pipeline and starts a stream
(`hsteps`), which is read to its end (`RowStream.reads_answer`). -/
theorem Statement.reads_query {config : Config} {catalog : IndexCatalog} {params : List Value}
    {s : Statement} {n : QueryNode} {outcome : Except QueryError QueryNode} {K : Store}
    (hbound : (s.compile config catalog >>= fun e => e.bind params) =
      .ok ⟨.query n, params, config⟩)
    (hprepared : (n.prepare ⟨params, config.batchSize, config.maxSortRows⟩).Reads K outcome) :
    (s.answer config catalog params).Reads K (outcome >>= fun m => m.pipeline >>= fun P => do
      return .rows m.labels (← P.listing ⟨params, config.batchSize, config.maxSortRows⟩ K >>=
        Listing.complete)) := by
  have hopened : (openQuery ⟨params, config.batchSize, config.maxSortRows⟩ n >>= fun stream =>
      (Outcome.rows stream).answer).Reads K (outcome >>= fun m => m.pipeline >>= fun P => do
        return .rows m.labels (← P.listing ⟨params, config.batchSize, config.maxSortRows⟩ K >>=
          Listing.complete)) := by
    have hsteps : (openQuery ⟨params, config.batchSize, config.maxSortRows⟩ n >>= fun stream =>
        (Outcome.rows stream).answer) =
          n.prepare ⟨params, config.batchSize, config.maxSortRows⟩ >>= fun m =>
            liftM m.pipeline >>= fun P =>
              RowStream.start ⟨params, config.batchSize, config.maxSortRows⟩ m.labels P >>=
                fun stream => (Outcome.rows stream).answer := by
      simp only [openQuery, bind_assoc]
    rw [hsteps]
    exact hprepared.bind fun m _ => (StoreM.Reads.lift m.pipeline).bind fun P _ =>
      RowStream.reads_answer ⟨params, config.batchSize, config.maxSortRows⟩ m.labels P K
  unfold Statement.answer
  cases hcompiled : s.compile config catalog with
  | error e => rw [hcompiled] at hbound; cases hbound
  | ok e =>
    rw [hcompiled] at hbound
    have hbind : e.bind params = .ok ⟨.query n, params, config⟩ := hbound
    have hexecute : (⟨.query n, params, config⟩ : BoundStatement).execute >>= Outcome.answer =
        openQuery ⟨params, config.batchSize, config.maxSortRows⟩ n >>= fun stream =>
          (Outcome.rows stream).answer := by
      simp only [BoundStatement.execute, bind_assoc, pure_bind]
      rfl
    rw [← hexecute] at hopened
    change (liftM (e.bind params) >>= fun b => b.execute >>= Outcome.answer).Reads K _
    rw [hbind]
    exact hopened

/-- A query that is prepared and has a pipeline is answered with the listing of that. -/
theorem Statement.reads_answer {config : Config} {catalog : IndexCatalog} {params : List Value}
    {s : Statement} {n m : QueryNode} {P : Pipeline} {K : Store}
    (hbound : (s.compile config catalog >>= fun e => e.bind params) =
      .ok ⟨.query n, params, config⟩)
    (hprepared : (n.prepare ⟨params, config.batchSize, config.maxSortRows⟩).Reads K (.ok m))
    (hpipeline : m.pipeline = .ok P) :
    (s.answer config catalog params).Reads K (do
      return .rows m.labels (← P.listing ⟨params, config.batchSize, config.maxSortRows⟩ K >>=
        Listing.complete)) := by
  have hanswer := Statement.reads_query hbound hprepared
  rw [ok_bind, hpipeline, ok_bind] at hanswer
  exact hanswer

end RecordQuery
