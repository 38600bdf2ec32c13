import RecordQuery.Proofs.Compile.Distinct
import RecordQuery.Proofs.Execution.Catalog
import RecordQuery.Proofs.Execution.SetOperation
import RecordQuery.Proofs.Pipeline.Distinct

set_option autoImplicit false

/-!
# Selections without duplicates

A selection from one table or one query is answered without duplicates with the different rows of
the answer with duplicates, each once, unless it is grouped: then the duplicates stay.

## Main results

* `Statement.answer_distinct` — the answers with and without duplicates.
-/

namespace RecordQuery

open Outcome

section

variable {config : Config} {params : List Value} {st : Store}

/-- **Leaving out duplicates leaves out nothing else.** Let a selection without joins be answered
with and without duplicates. Then both answers have the same labels, and if the values equal
themselves, as all but some floats do, the rows without duplicates are those with duplicates, each
once. If the selection is grouped, its rows stay as they are, with their duplicates. Indexes that
the store backs do not change the answers.

**Proof sketch.** Not grouped, both selections compile to the same plan, but that one reduces what
the other one shows (`compileSelect_deduplicates`), and this stays so until they are carried out
(`QueryPlan.Deduplicates.bind`, `QueryPlan.Deduplicates.prepare`). Then the inputs of the reducer
hold the values of the rows (`QueryPlan.Deduplicates.rows`). Grouped, both compile to the same plan
(`compileSelect_grouped`). -/
theorem Statement.answer_distinct {s : Select} {labels labels' : List String}
    {plain distinct : List Row} (hjoins : s.joins = [])
    (hplain : ((Statement.query (.ofBody (.select { s with distinct := false }))).answer config []
      params st).1 = .ok (.rows labels plain))
    (hdistinct : ((Statement.query (.ofBody (.select { s with distinct := true }))).answer config []
      params st).1 = .ok (.rows labels' distinct)) :
    labels' = labels ∧
      (s.isGrouped [] = false → (∀ row ∈ plain, ∀ v ∈ row.values, v.equal v = true) →
        distinct.Nodup ∧ ∀ row, row ∈ distinct ↔ row ∈ plain) ∧
      (s.isGrouped [] = true → distinct = plain) ∧
      ∀ catalog, st.Backs catalog →
        ((Statement.query (.ofBody (.select { s with distinct := false }))).answer config catalog
          params st).1 = .ok (.rows labels plain) ∧
        ((Statement.query (.ofBody (.select { s with distinct := true }))).answer config catalog
          params st).1 = .ok (.rows labels' distinct) := by
  obtain ⟨p, q, r, P, hp, hq, hr, -, hprepared, hlabels, hP, hl⟩ :=
    Statement.lists_of_answer hplain
  obtain ⟨p', q', r', P', hp', hq', hr', -, -, hlabels', hP', hl'⟩ :=
    Statement.lists_of_answer hdistinct
  have hbacked : ∀ {b : Bool} {answer : Answer},
      ((Statement.query (.ofBody (.select { s with distinct := b }))).answer
        config [] params st).1 =
          .ok answer → ∀ catalog, st.Backs catalog →
        ((Statement.query (.ofBody (.select { s with distinct := b }))).answer config catalog params
          st).1 = .ok answer := by
    intro b answer h catalog hst
    obtain ⟨last, hlast, -⟩ := Statement.answer_of_backs hst config _ params answer _
      (Prod.ext h rfl)
    rw [hlast]
  have hcatalogs := fun catalog hst =>
    And.intro (hbacked hplain catalog hst) (hbacked hdistinct catalog hst)
  cases hgrouped : s.isGrouped [] with
  | true =>
    rw [compileSelect_grouped hgrouped] at hp'
    obtain rfl := Except.ok.inj (hp.symm.trans hp')
    obtain rfl := Except.ok.inj (hq.symm.trans hq')
    obtain rfl := Except.ok.inj (hr.unique hr')
    obtain rfl := Except.ok.inj (hP.symm.trans hP')
    have hrows : plain = distinct :=
      (Listing.mk.inj (Except.ok.inj (hl.symm.trans hl'))).1
    exact ⟨hlabels'.trans hlabels.symm, fun h => absurd h Bool.noConfusion, fun _ => hrows.symm,
      hcatalogs⟩
  | false =>
    obtain ⟨c, h⟩ := compileSelect_deduplicates rfl hjoins hgrouped hp hp'
    have hprepare := (h.bind hq hq').prepare hr hr'
    refine ⟨?_, fun _ hvalues => hprepare.rows hprepared.table hP hP' hl hl' hvalues,
      fun h => absurd h Bool.noConfusion, hcatalogs⟩
    obtain ⟨t, rfl⟩ := hprepare.eq
    exact hlabels'.trans hlabels.symm

end

/-- The owners of pets in a village without duplicates, told from those with duplicates. -/
theorem Statement.answer_distinct_owners :
    let ada : Row := OrderedMap.empty.set "owner" (.text "Ada")
    ∃ distinct, ((Statement.query (.ofBody (.select
        { Select.column "pets" "owner" with distinct := true }))).answer ⟨"test", 5000, none⟩ [] []
          Store.village).1 = .ok (.rows ["owner"] distinct) ∧
      distinct.Nodup ∧ ∀ row, row ∈ distinct ↔ row ∈ [ada, ada] := by
  intro ada
  have hplain : ((Statement.query (.ofBody (.select
      { Select.column "pets" "owner" with distinct := false }))).answer ⟨"test", 5000, none⟩ [] []
        Store.village).1 = .ok (.rows ["owner"] [ada, ada]) :=
    eq_ok_of_toOption (by decide +kernel)
  have hdistinct : ((Statement.query (.ofBody (.select
      { Select.column "pets" "owner" with distinct := true }))).answer ⟨"test", 5000, none⟩ [] []
        Store.village).1 = .ok (.rows ["owner"] [ada]) :=
    eq_ok_of_toOption (by decide +kernel)
  obtain ⟨-, hrows, -⟩ := Statement.answer_distinct rfl hplain hdistinct
  obtain ⟨hnodup, hmem⟩ := hrows (by decide +kernel) (by decide +kernel)
  exact ⟨[ada], hdistinct, hnodup, hmem⟩

end RecordQuery
