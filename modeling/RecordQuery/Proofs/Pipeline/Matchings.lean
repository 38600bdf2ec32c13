import Mathlib.Data.List.Infix
import RecordQuery.Proofs.Pipeline.Joined
import RecordQuery.Proofs.Predicate.Meaning

set_option autoImplicit false

/-!
# Joins as products

A chain of joins puts every row together with partners, one of each joined table. A partner may
depend on those before it. A condition on a joined table is a condition on its partners: it is
decided as soon as there is one, before a left join keeps a row without. If the tables of left joins
have no conditions, it makes no difference whether partners are left out at once or afterwards.

## Main definitions

* `JoinSpec.test` — whether a record satisfies the conditions on the joined table.
* `JoinSpec.choices`, `JoinSpec.matchings` — the partners that a row is put together with, as far as
  a test admits them.
* `JoinSpec.Narrows` — a joined table without conditions and the same with conditions.

## Main results

* `Pipeline.perm_of_joins` — the rows of joins are the rows before with all their partners.
* `JoinSpec.matchings_of_narrows` — with conditions there are the partners that these admit.
* `JoinSpec.matchings_eq_filter` — partners may be left out afterwards if none of a left join is.
-/

namespace RecordQuery

open Outcome

namespace JoinSpec

variable {j k : JoinSpec} {js ks : List JoinSpec} {K : Store} {row : Row}

/-! ## Partners of one table -/

/-- Whether a record satisfies the conditions on the joined table, for the row to which it is
joined. -/
def test (j : JoinSpec) (row : Row) (r : Record) : Bool :=
  j.plan.condition.all (Condition.holdsFor row r) &&
    j.plan.keyCondition.all (KeyCondition.holdsIn .unknown r.key.user)

/-- The partners that a row is put together with, one at a time, of those that a test admits: in a
left join there is none if no such record is a partner. -/
def choices (j : JoinSpec) (K : Store) (keep : Record → Bool) (row : Row) : List (Option Record) :=
  match (j.partnersIn K (j.plan.set.getD "") row).filter keep, j.kind with
  | [], .inner => []
  | [], .left => [none]
  | rs, _ => rs.map some

/-- A row with a value that the store cannot compare with is not joined.

**Proof sketch.** By the value of the row. Without one, or with null, nothing is looked up. Any
other one has been read as an operand, and the condition has been filled from values of the row that
have been read so. -/
lemma readsJoinable_of_found {rows : List Row} (h : j.found K row = .ok rows) :
    j.readsJoinable row = true := by
  obtain ⟨probe, hprobe, -⟩ := bind_eq_ok.mp h
  unfold probe? at hprobe
  unfold readsJoinable
  cases hv : row.get? j.outerKey with
  | none => rfl
  | some v =>
    rw [hv] at hprobe
    rw [Option.all_some, Bool.or_eq_true, Bool.and_eq_true]
    split at hprobe
    · rename_i heq
      cases heq
    · rename_i heq
      obtain rfl := Option.some.inj heq
      exact .inl rfl
    · rename_i w _ heq
      obtain rfl := Option.some.inj heq
      right
      obtain ⟨o, ho, hprobe⟩ := bind_eq_ok.mp hprobe
      obtain ⟨filled, hfilled, -⟩ := bind_eq_ok.mp hprobe
      constructor
      · cases v <;> first | rfl | cases ho
      · rcases mapM_eq_ok hfilled with ⟨hnone, -⟩ | ⟨c, d, hc, -, hd⟩
        · rw [hnone]
          rfl
        · rw [hc, Option.all_some, List.all_eq_true]
          exact fun s hs => Condition.isJoinable_of_fillOuter c d hd s hs

/-- The store can be asked for the partners of a row: they are in a set without indexes, and the
conditions hold no unknowns but values of the row. -/
structure IsRunnable (j : JoinSpec) : Prop where
  /-- The set. -/
  set : j.plan.set.isSome = true
  /-- There are no indexes. -/
  indexes : j.plan.indexes = []
  /-- The condition on the bins. -/
  condition : j.plan.condition.all (Condition.isWithin .outersOnly) = true
  /-- The condition on the key. -/
  keyCondition : j.plan.keyCondition.all KeyCondition.isComparable = true

/-- **A row becomes one row for every choice of a partner**, in whatever order.

**Proof sketch.** The partners that are found are those the condition names, in whatever order. With
partners both kinds of join extend the row with each of them, and without any an inner join has no
row and a left join one. -/
theorem perm_of_rowsFor (hj : j.IsRunnable) {block : List Row}
    (h : j.rowsFor K row = .ok block) :
    block.Perm ((j.choices K (fun _ => true) row).map (j.extended row)) := by
  obtain ⟨set, hset⟩ := Option.isSome_iff_exists.mp hj.set
  obtain ⟨rows, hrows, hblock⟩ := bind_eq_ok.mp h
  obtain rfl := Except.ok.inj hblock
  obtain ⟨found, hfound, hperm⟩ := exists_found hset hj.indexes hj.condition hj.keyCondition
    (readsJoinable_of_found hrows)
  obtain rfl := Except.ok.inj (hrows.symm.trans hfound)
  have hextend := perm_map_extend row hperm
  have hlength := hperm.length_eq
  rw [choices, hset, Option.getD_some, List.filter_true]
  cases hpartners : j.partnersIn K set row with
  | nil =>
    rw [hpartners] at hlength
    obtain rfl := List.length_eq_zero_iff.mp hlength
    unfold combine
    cases j.kind <;> exact .refl _
  | cons r rs =>
    rw [hpartners] at hextend hlength
    cases rows with
    | nil => cases hlength
    | cons first rest =>
      unfold combine
      rw [List.map_map]
      cases j.kind <;> exact hextend

/-! ## Partners of several tables -/

/-- The partners that a row is put together with, one of each joined table, as far as a test admits
them. The test is asked as soon as there is one more. -/
def matchings (K : Store) :
    (List (Option Record) → Bool) → List JoinSpec → Row → List (List (Option Record))
  | _, [], _ => [[]]
  | keep, j :: js, row =>
    (j.choices K (fun r => keep [some r]) row).flatMap fun p =>
      (matchings K (fun ps => keep (p :: ps)) js (j.extended row p)).map (p :: ·)

variable {keep : List (Option Record) → Bool}

/-- There is one partner of each joined table. -/
lemma length_of_mem_matchings {ps : List (Option Record)} (h : ps ∈ matchings K keep js row) :
    ps.length = js.length := by
  induction js generalizing row ps keep with
  | nil =>
    obtain rfl := List.mem_singleton.mp h
    rfl
  | cons j js ih =>
    obtain ⟨p, -, hps⟩ := List.mem_flatMap.mp h
    obtain ⟨qs, hqs, rfl⟩ := List.mem_map.mp hps
    rw [List.length_cons, List.length_cons, ih hqs]

/-- A partner is one that its table may have. -/
lemma takes_of_mem_choices {test : Record → Bool} {p : Option Record}
    (hset : j.plan.set.isSome = true) (h : p ∈ j.choices K test row) : j.Takes K p := by
  obtain ⟨set, hset⟩ := Option.isSome_iff_exists.mp hset
  unfold choices at h
  rw [hset, Option.getD_some] at h
  split at h
  · cases h
  · rename_i hkind
    obtain rfl := List.mem_singleton.mp h
    exact hkind
  · obtain ⟨r, hr, rfl⟩ := List.mem_map.mp h
    exact ⟨set, hset, (List.mem_filter.mp (List.mem_filter.mp hr).1).1⟩

end JoinSpec

/-- Lists that are the same up to their order, one after the other. -/
lemma perm_flatten_of_mapM {α β ε : Type} {f : α → Except ε (List β)} {g : α → List β}
    {as : List α} {blocks : List (List β)} (h : as.mapM f = .ok blocks)
    (hg : ∀ a ∈ as, ∀ block, f a = .ok block → block.Perm (g a)) :
    blocks.flatten.Perm (as.flatMap g) := by
  induction as generalizing blocks with
  | nil =>
    obtain rfl := Except.ok.inj h
    exact .refl _
  | cons a as ih =>
    simp only [List.mapM_cons, bind_eq_ok, pure_eq_ok] at h
    obtain ⟨block, hblock, rest, hrest, rfl⟩ := h
    rw [List.flatten_cons, List.flatMap_cons]
    exact (hg a List.mem_cons_self block hblock).append
      (ih hrest fun b hb => hg b (List.mem_cons_of_mem a hb))

/-- **The rows of joins are the rows before with all their partners**, in whatever order.

**Proof sketch.** Induction on the joins. The first one turns every row into one row for every
partner, and the others put together with these what they put together with the rows. -/
theorem Pipeline.perm_of_joins {env : ExecutionEnv} {K : Store} {js : List JoinSpec}
    {input : Pipeline} {rows : List Row} (hjs : ∀ j ∈ js, j.IsRunnable)
    (h : (js.foldl join input).listing env K = .ok (.ofRows rows)) :
    ∃ bases, input.listing env K = .ok (.ofRows bases) ∧
      rows.Perm (bases.flatMap fun base => (JoinSpec.matchings K (fun _ => true) js base).map
        fun ps => (JoinedTuple.mk base (js.zip ps)).row) := by
  induction js generalizing input with
  | nil =>
    refine ⟨rows, h, ?_⟩
    have hsame : rows.flatMap (fun base => (JoinSpec.matchings K (fun _ => true) [] base).map
        fun ps => (JoinedTuple.mk base (List.zip [] ps)).row) = rows := List.flatMap_singleton' rows
    rw [hsame]
  | cons j js ih =>
    obtain ⟨mids, hmids, hrows⟩ := ih (fun k hk => hjs k (List.mem_cons_of_mem j hk)) h
    obtain ⟨l, hl, hexpand⟩ : ∃ l, input.listing env K = .ok l ∧
        l.expand (j.rowsFor K) = .ofRows mids := map_eq_ok.mp hmids
    obtain ⟨blocks, hsame, hblocks, rfl⟩ := Listing.exists_of_expand hexpand
    refine ⟨l.rows, hsame ▸ hl, hrows.trans ?_⟩
    have hfirst := perm_flatten_of_mapM
      (g := fun row => (j.choices K (fun _ => true) row).map (j.extended row)) hblocks
      fun row _ block hblock => JoinSpec.perm_of_rowsFor (hjs j List.mem_cons_self) hblock
    refine (hfirst.flatMap_right _).trans (.of_eq ?_)
    rw [List.flatMap_assoc]
    refine List.flatMap_congr fun base _ => ?_
    rw [List.flatMap_map, JoinSpec.matchings, List.map_flatMap]
    refine List.flatMap_congr fun p _ => ?_
    rw [List.map_map]
    rfl

namespace JoinSpec

variable {j k : JoinSpec} {js ks : List JoinSpec} {K : Store} {row : Row}

/-! ## Conditions on joined tables -/

/-- The joined table with other conditions. -/
def withConditions (j : JoinSpec) (c : Option Condition) (k : Option KeyCondition)
    (s : Option AccessStrategy) : JoinSpec :=
  { j with plan := { j.plan with condition := c, keyCondition := k, strategy := s } }

/-- A joined table without conditions and the same with conditions. -/
structure Narrows (j k : JoinSpec) : Prop where
  /-- They are the same but for conditions. -/
  eq : k = j.withConditions k.plan.condition k.plan.keyCondition k.plan.strategy
  /-- The first one has no condition on the bins. -/
  condition : j.plan.condition = none
  /-- The first one has no condition on the key. -/
  keyCondition : j.plan.keyCondition = none

namespace Narrows

/-- A row becomes the same with a partner. -/
lemma extended_eq (h : j.Narrows k) : k.extended = j.extended := by
  rw [h.eq]
  funext row p
  cases p <;> rfl

/-- The partners with conditions are those that satisfy them. -/
lemma partnersIn_eq (h : j.Narrows k) (set : String) :
    k.partnersIn K set row = (j.partnersIn K set row).filter (k.test row) := by
  have hplain : ∀ r, j.test row r = true := fun r => by
    rw [test, h.condition, h.keyCondition]
    rfl
  have hsame : k.partnersIn K set row =
      (K.recordsOf j.plan.ns set).filter fun r =>
        ((row.get? j.outerKey).any fun v => (j.innerValue? r).any fun w => w.meets .eq v) &&
          k.test row r := by
    rw [h.eq]
    rfl
  rw [hsame, partnersIn, List.filter_filter]
  refine List.filter_congr fun r _ => ?_
  rw [Bool.and_comm]
  refine congrArg (k.test row r && ·) ?_
  have hpartner : j.isPartner row r = (((row.get? j.outerKey).any fun v =>
      (j.innerValue? r).any fun w => w.meets .eq v) && j.test row r) := rfl
  rw [hpartner, hplain, Bool.and_true]

/-- With conditions a row is put together with those partners that satisfy them. -/
lemma choices_eq (h : j.Narrows k) {keep : Record → Bool}
    (hkeep : ∀ r ∈ K.recordsOf j.plan.ns (j.plan.set.getD ""), k.test row r = keep r) :
    k.choices K (fun _ => true) row = j.choices K keep row := by
  have hset : k.plan.set = j.plan.set := by
    rw [h.eq]
    rfl
  have hkind : k.kind = j.kind := by
    rw [h.eq]
    rfl
  have hfilter : (j.partnersIn K (j.plan.set.getD "") row).filter (k.test row) =
      (j.partnersIn K (j.plan.set.getD "") row).filter keep :=
    List.filter_congr fun r hr => hkeep r (List.mem_filter.mp hr).1
  unfold choices
  rw [List.filter_true, hset, hkind, h.partnersIn_eq, hfilter]

end Narrows

/-- **With conditions a row is put together with the partners that these admit**: a test that agrees
with the conditions on each partner, for the row with the partners before it, is asked as soon as
they are.

**Proof sketch.** Induction on the joined tables. With conditions the first one offers those
partners that the test admits (`JoinSpec.Narrows.choices_eq`), and with each of them the row becomes
the same. -/
theorem matchings_of_narrows {keep : List (Option Record) → Bool} (h : List.Forall₂ Narrows js ks)
    (hset : ∀ j ∈ js, j.plan.set.isSome = true)
    (hkeep : ∀ (ps : List (Option Record)) (k : JoinSpec) (r : Record),
      (∀ q ∈ js.zip ps, q.1.Takes K q.2) → ks[ps.length]? = some k →
      r ∈ K.recordsOf k.plan.ns (k.plan.set.getD "") →
      k.test (JoinedTuple.mk row (js.zip ps)).row r = keep (ps ++ [some r])) :
    matchings K (fun _ => true) ks row = matchings K keep js row := by
  induction h generalizing row keep with
  | nil => rfl
  | @cons j k js ks hfirst hrest ih =>
    have hrecords : K.recordsOf k.plan.ns (k.plan.set.getD "") =
        K.recordsOf j.plan.ns (j.plan.set.getD "") := by
      rw [hfirst.eq]
      rfl
    have hchoices : k.choices K (fun _ => true) row = j.choices K (fun r => keep [some r]) row :=
      hfirst.choices_eq fun r hr => hkeep [] k r (fun q hq => nomatch hq) rfl (hrecords ▸ hr)
    rw [matchings, matchings, hchoices, hfirst.extended_eq]
    refine List.flatMap_congr fun p hp => congrArg (List.map (p :: ·)) ?_
    have htakes : j.Takes K p := takes_of_mem_choices (hset j List.mem_cons_self) hp
    refine ih (fun l hl => hset l (List.mem_cons_of_mem j hl)) fun ps l r hps hl hr => ?_
    refine hkeep (p :: ps) l r (fun q hq => ?_) hl hr
    rcases List.mem_cons.mp hq with rfl | hq
    · exact htakes
    · exact hps q hq

/-! ## Partners that are left out afterwards -/

/-- What is left out at once is left out of what comes of it. -/
lemma flatMap_filter {α β : Type} (as : List α) (p : α → Bool) (g : α → List β) :
    (as.filter p).flatMap g = as.flatMap fun a => if p a then g a else [] := by
  induction as with
  | nil => rfl
  | cons a as ih =>
    rw [List.filter_cons, List.flatMap_cons]
    cases p a with
    | true => exact congrArg (g a ++ ·) ih
    | false => exact ih

/-- The partners that a test admits, if it admits all of a left join.

**Proof sketch.** By the kind of the join. In a left join everything is kept. In an inner one the
choices are the partners, and filtering them commutes with the choice. -/
lemma choices_eq_filter {keep : Option Record → Bool}
    (hleft : j.kind = .left → ∀ p, keep p = true) :
    j.choices K (fun r => keep (some r)) row =
      (j.choices K (fun _ => true) row).filter keep := by
  unfold choices
  rw [List.filter_true]
  cases hkind : j.kind with
  | left =>
    have hall : (fun p => keep p) = fun _ => true := funext (hleft hkind)
    rw [show keep = fun _ => true from hall, List.filter_true, List.filter_true]
  | inner =>
    cases hpartners : j.partnersIn K (j.plan.set.getD "") row with
    | nil => rfl
    | cons r rs =>
      simp only
      rw [List.filter_map]
      cases hfilter : (r :: rs).filter fun r => keep (some r) with
      | nil =>
        rw [show keep ∘ some = fun r => keep (some r) from rfl, hfilter]
        rfl
      | cons s ss =>
        rw [show keep ∘ some = fun r => keep (some r) from rfl, hfilter]

/-- **Partners may be left out afterwards**, if a test admits all of a left join: what is admitted
at once are those of all partners of which the test admits every first part.

**Proof sketch.** Induction on the joined tables. The first one offers those of its partners that
the test admits (`JoinSpec.choices_eq_filter`); what comes of the others is left out as a whole. -/
theorem matchings_eq_filter {keep : List (Option Record) → Bool}
    (hleft : ∀ (i : Nat) (j : JoinSpec), js[i]? = some j → j.kind = .left →
      ∀ ps : List (Option Record), ps.length = i + 1 → keep ps = true) :
    matchings K keep js row =
      (matchings K (fun _ => true) js row).filter fun ps => ps.inits.tail.all keep := by
  induction js generalizing row keep with
  | nil => rfl
  | cons j js ih =>
    have hchoices : j.choices K (fun r => keep [some r]) row =
        (j.choices K (fun _ => true) row).filter fun p => keep [p] :=
      choices_eq_filter fun hkind p => hleft 0 j rfl hkind [p] rfl
    rw [matchings, matchings, hchoices, flatMap_filter, List.filter_flatMap]
    refine List.flatMap_congr fun p _ => ?_
    have hrest : matchings K (fun ps => keep (p :: ps)) js (j.extended row p) =
        (matchings K (fun _ => true) js (j.extended row p)).filter fun ps =>
          ps.inits.tail.all fun qs => keep (p :: qs) :=
      ih fun i k hk hkind ps hps => hleft (i + 1) k hk hkind (p :: ps)
        (by rw [List.length_cons, hps])
    rw [hrest, List.filter_map]
    have hparts : ((fun ps : List (Option Record) => ps.inits.tail.all keep) ∘ (p :: ·)) =
        fun ps => keep [p] && ps.inits.tail.all fun qs => keep (p :: qs) := by
      funext ps
      cases ps with
      | nil => simp
      | cons q qs => simp [Function.comp_def]
    rw [hparts]
    cases hp : keep [p] with
    | true => rfl
    | false => simp

end JoinSpec

end RecordQuery
