import RecordQuery.Proofs.Compile.Derived
import RecordQuery.Proofs.Execution.Catalog
import RecordQuery.Proofs.Execution.SetOperation
import RecordQuery.Proofs.Pipeline.Grouped

set_option autoImplicit false

/-!
# Grouping in the store and outside of it

A grouped selection from a set leaves it to the store to group the records. Made from the query of
these records, the same selection groups the rows that this query returns. Both are answered alike,
but for the labels that tell the name of the table.

## Main results

* `Statement.answer_overRecords` — a grouped selection from a set and from the query of its records.
* `Statement.labels_overRecords` — a repeated column is labelled with the name of the set, which is
  missing where the query has no name.
-/

namespace RecordQuery

open Outcome

section

variable {config : Config} {catalog : IndexCatalog} {params : List Value} {st : Store}

/-- The query of the records compiles to the plan of a selection. -/
lemma exists_of_compileBelow_records {env : CompileEnv} {bound : Nat} {s : Select} {n : QueryNode}
    (h : compileBelow env bound ⟨.select s.records, [], none, none⟩ = .ok n) :
    ∃ base, n = .plan base ∧
      compileSelect env (compileBelow env (bound - 1)) s.records [] none none = .ok base := by
  cases bound with
  | zero => cases h
  | succ bound =>
    obtain ⟨base, hbase, h⟩ := bind_eq_ok.mp h
    exact ⟨base, (Except.ok.inj h).symm, hbase⟩

/-- A selection that is answered compiles to a plan that binds.

**Proof sketch.** An answered query was compiled and bound (`Statement.exists_node_of_answer`), and
a selection is compiled and bound to a single plan. If preparing that plan changes nothing, the
answer lists its pipeline (`Statement.lists_of_prepare`). -/
lemma Statement.exists_bound_of_answer {s : Select} {orderBy : List OrderItem}
    {limit offset : Option Expr} {answer : Answer}
    (h : ((Statement.query ⟨.select s, orderBy, limit, offset⟩).answer config catalog params
      st).1 = .ok answer) :
    ∃ p q bound, compileSelect ⟨config.defaultNamespace, catalog⟩
        (compileBelow ⟨config.defaultNamespace, catalog⟩ bound) s orderBy limit offset = .ok p ∧
      p.bind params = .ok q ∧
      ((q.prepare ⟨params, config.batchSize, config.maxSortRows⟩ = pure q) → ∃ P rows,
        q.pipeline = .ok P ∧
          P.listing ⟨params, config.batchSize, config.maxSortRows⟩ st = .ok (.ofRows rows) ∧
          answer = .rows q.labels rows) := by
  obtain ⟨n, m, hn, hm, hparams⟩ := Statement.exists_node_of_answer h
  obtain ⟨p, hp, hplan⟩ := bind_eq_ok.mp hn
  obtain rfl := Except.ok.inj hplan
  obtain ⟨q, hq, hbound⟩ := bind_eq_ok.mp hm
  obtain rfl := Except.ok.inj hbound
  refine ⟨p, q, _, hp, hq, fun hprepare => ?_⟩
  have hprepared : ((QueryNode.plan q).prepare ⟨params, config.batchSize,
      config.maxSortRows⟩).Reads st (.ok (.plan q)) := by
    rw [QueryNode.prepare, hprepare, pure_bind]
    exact .pure _
  exact Statement.lists_of_prepare hn hparams hm hprepared h

/-- **Grouping in the store and outside of it agree.** Let a grouped selection from a set be
answered, and the same selection from the query of the records that satisfy its condition. Then both
answers have the same labels and the same rows in the same order, if the store decides the condition
by bins, and the query goes by the name of the set or no column that is selected without a label has
the label of an item before it.

**Proof sketch.** The two selections compile to plans that group the same records
(`agree_compileSelect`), and this stays so until they are carried out
(`QueryPlan.GroupsAlike.bind`, `QueryPlan.GroupsAlike.prepare`). Then the reducer is fed the same
values in the same order (`QueryPlan.GroupsAlike.rows`). -/
theorem Statement.answer_overRecords {s : Select} {name : TableName} {rename byname : Option String}
    {orderBy : List OrderItem} {limit offset : Option Expr} {answer answer' : Answer}
    (hsource : s.source = .named name rename) (hjoins : s.joins = [])
    (hgrouped : s.isGrouped orderBy = true)
    (hnative : ∀ w ∈ s.condition, w.IsOnBins ⟨some name.name, rename⟩)
    (hlabels : byname = some (rename.getD name.name) ∨ LabelsApart s.items)
    (hstore : ((Statement.query ⟨.select s, orderBy, limit, offset⟩).answer config catalog params
      st).1 = .ok answer)
    (hrows : ((Statement.query ⟨.select (s.overRecords byname), orderBy, limit, offset⟩).answer
      config catalog params st).1 = .ok answer') : answer' = answer := by
  obtain ⟨p, q, _, hp, hq, hlists⟩ := Statement.exists_bound_of_answer hstore
  obtain ⟨p', q', _, hp', hq', hlists'⟩ := Statement.exists_bound_of_answer hrows
  obtain ⟨base, hcompiled⟩ := agree_compileSelect hsource hjoins hgrouped hnative hlabels
    (fun _ hn => exists_of_compileBelow_records hn) p p' hp hp'
  obtain ⟨bound, hbound⟩ := hcompiled.bind hq hq'
  obtain ⟨hprepare, hprepare'⟩ := hbound.prepare ⟨params, config.batchSize, config.maxSortRows⟩
  obtain ⟨P, rows, hP, hl, rfl⟩ := hlists hprepare
  obtain ⟨P', rows', hP', hl', rfl⟩ := hlists' hprepare'
  rw [hbound.rows hP hP' hl hl', hbound.columns.labels_eq]

end

/-- The owners of Ada's pets, twice, and how many pets each has. -/
def Select.petsOfAda : Select :=
  let owner : Expr := .column ⟨none, "owner"⟩
  ⟨false, [.expr owner none, .expr owner none, .expr (.call "COUNT" [.star] false) (some "n")],
    .named ⟨none, "pets"⟩ none, [], some (.binary (.compare .eq) owner (.literal (.text "Ada"))),
    [owner], none⟩

/-- The store decides by bins whose pets these are. -/
lemma Select.isOnBins_petsOfAda :
    ∀ w ∈ Select.petsOfAda.condition, w.IsOnBins ⟨some "pets", none⟩ := by
  intro w hw
  obtain rfl := Option.some.inj hw
  exact ⟨[.ofOperand "owner" .eq (.text "Ada")], rfl⟩

/-- Ada's pets in a village, counted by the store and outside of it.

**Proof sketch.** Both statements are evaluated to the same rows. The claim about them is
`Statement.answer_overRecords` at this selection, whose condition is on bins
(`Select.isOnBins_petsOfAda`). -/
theorem Statement.answer_overRecords_pets :
    let order : List OrderItem := [⟨.column ⟨none, "n"⟩, false⟩]
    let counts : Answer := .rows ["owner", "pets.owner", "n"]
      [((OrderedMap.empty.set "owner" (.text "Ada")).set "pets.owner" (.text "Ada")).set "n"
        (.integer 2)]
    ((Statement.query ⟨.select .petsOfAda, order, none, none⟩).answer ⟨"test", 5000, none⟩ [] []
        Store.village).1 = .ok counts ∧
      ∃ answer, ((Statement.query ⟨.select (Select.petsOfAda.overRecords (some "pets")), order,
        none, none⟩).answer ⟨"test", 5000, none⟩ [] [] Store.village).1 = .ok answer ∧
          answer = counts := by
  intro order counts
  have hstore : ((Statement.query ⟨.select .petsOfAda, order, none, none⟩).answer
      ⟨"test", 5000, none⟩ [] [] Store.village).1 = .ok counts :=
    eq_ok_of_toOption (by decide +kernel)
  have hrows : ((Statement.query ⟨.select (Select.petsOfAda.overRecords (some "pets")), order, none,
      none⟩).answer ⟨"test", 5000, none⟩ [] [] Store.village).1 = .ok counts :=
    eq_ok_of_toOption (by decide +kernel)
  have hsource : Select.petsOfAda.source = .named ⟨none, "pets"⟩ none := rfl
  have hjoins : Select.petsOfAda.joins = [] := rfl
  have hgrouped : Select.petsOfAda.isGrouped order = true := by decide
  have hanswer := Statement.answer_overRecords hsource hjoins hgrouped Select.isOnBins_petsOfAda
    (.inl rfl) hstore hrows
  exact ⟨hstore, counts, hrows, hanswer⟩

/-- **A repeated column is labelled with the name of the set.** The query of the records has no name
here, so what the second column shows stands under the label of the first one, and the rows have a
column less. -/
theorem Statement.labels_overRecords :
    Select.petsOfAda.source = .named ⟨none, "pets"⟩ none ∧ Select.petsOfAda.joins = [] ∧
      Select.petsOfAda.isGrouped [] = true ∧
      (∀ w ∈ Select.petsOfAda.condition, w.IsOnBins ⟨some "pets", none⟩) ∧
      ((Statement.query (.ofBody (.select .petsOfAda))).answer ⟨"test", 5000, none⟩ [] []
        Store.village).1 = .ok (.rows ["owner", "pets.owner", "n"]
          [((OrderedMap.empty.set "owner" (.text "Ada")).set "pets.owner" (.text "Ada")).set "n"
            (.integer 2)]) ∧
      ((Statement.query (.ofBody (.select (Select.petsOfAda.overRecords none)))).answer
        ⟨"test", 5000, none⟩ [] [] Store.village).1 = .ok (.rows ["owner", "n"]
          [(OrderedMap.empty.set "owner" (.text "Ada")).set "n" (.integer 2)]) :=
  ⟨rfl, rfl, rfl, Select.isOnBins_petsOfAda, eq_ok_of_toOption (by decide +kernel),
    eq_ok_of_toOption (by decide +kernel)⟩

end RecordQuery
