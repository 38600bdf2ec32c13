import Mathlib.Data.List.Forall2
import Mathlib.Tactic.Common
import RecordQuery.Predicate.Program

set_option autoImplicit false

/-!
# Runs of predicate programs

Programs are put together out of parts that were programs of their own. A part that decides a
record on the empty stack decides it in the same way above other stack items, so the conjunction of
programs is the conjunction of their decisions.

## Main results

* `Program.step_append`, `Program.runFrom_append_stack` — items below are left alone.
* `Program.combine_results` — a logical operator combines the results of the parts before it.
* `Program.run_conjunction` — the conjunction of programs accepts what all of them accept.
* `Program.conjunction_decides` — it does so above any stack, too.
-/

namespace RecordQuery.Program

variable {r : Record}

/-! ## Stack items below -/

/-- Combining the topmost results leaves the items below alone. -/
lemma combine_append {n : Nat} {f : List Bool → Bool} {stack next : List StackItem}
    (base : List StackItem) (h : combine n f stack = .ok next) :
    combine n f (stack ++ base) = .ok (next ++ base) := by
  unfold combine at h ⊢
  by_cases hlen : stack.length < n
  · simp [hlen] at h
  · have hle : n ≤ stack.length := by omega
    have hlen' : ¬ (stack ++ base).length < n := by rw [List.length_append]; omega
    rw [if_neg hlen] at h
    rw [if_neg hlen', List.take_append_of_le_length hle, List.drop_append_of_le_length hle]
    cases hres : results? (stack.take n).reverse with
    | none => simp [hres] at h
    | some bs =>
      simp only [hres, Except.ok.injEq] at h ⊢
      rw [← h, List.cons_append]

/-- An instruction leaves the items below those that it needs alone. -/
lemma step_append {i : Instruction} {stack next : List StackItem} (base : List StackItem)
    (h : step r stack i = .ok next) : step r (stack ++ base) i = .ok (next ++ base) := by
  cases i with
  | bin name kind => simp only [step, Except.ok.injEq] at h ⊢; rw [← h]; rfl
  | key kind => simp only [step, Except.ok.injEq] at h ⊢; rw [← h]; rfl
  | value o =>
    simp only [step] at h ⊢
    split at h
    · rename_i ho
      rw [Except.ok.injEq] at h
      rw [if_pos ho, ← h, List.cons_append]
    · cases h
  | compare c =>
    simp only [step] at h
    split at h
    · rw [Except.ok.injEq] at h; rw [← h]; rfl
    · cases h
  | all n => exact combine_append base h
  | any n => exact combine_append base h

/-- **A program leaves the items below those that it needs alone.** -/
lemma runFrom_append_stack {p : Program} {stack next : List StackItem} (base : List StackItem)
    (h : runFrom r stack p = .ok next) : runFrom r (stack ++ base) p = .ok (next ++ base) := by
  induction p generalizing stack with
  | nil => simp only [runFrom, Except.ok.injEq] at h ⊢; rw [h]
  | cons i is ih =>
    cases hstep : step r stack i with
    | error e => simp [runFrom, hstep] at h
    | ok mid =>
      simp only [runFrom, hstep] at h
      simp only [runFrom, step_append base hstep]
      exact ih h

/-! ## Decisions -/

/-- The empty program accepts every record. -/
@[simp]
lemma run_nil : run [] r = .ok true := rfl

/-- A program with an instruction decides a record by the one result that it leaves. -/
lemma run_eq_ok_iff {p : Program} {b : Bool} (hne : p ≠ []) :
    run p r = .ok b ↔ runFrom r [] p = .ok [.result b] := by
  have hempty : p.isEmpty = false := by simpa using hne
  simp only [run, hempty, Bool.false_eq_true, if_false]
  constructor
  · intro h
    split at h
    · rename_i b' hrun
      rw [Except.ok.injEq] at h
      rw [hrun, h]
    · cases h
    · cases h
  · intro h
    rw [h]

/-- A program that decides a record pushes its decision. -/
lemma runFrom_of_run {p : Program} {b : Bool} (hne : p ≠ []) (h : run p r = .ok b)
    (stack : List StackItem) : runFrom r stack p = .ok (.result b :: stack) :=
  runFrom_append_stack stack ((run_eq_ok_iff hne).mp h)

/-! ## Combining results -/

/-- Results on a stack are read as the truth values that they hold. -/
@[simp]
lemma results?_map_result (bs : List Bool) : results? (bs.map StackItem.result) = some bs := by
  induction bs with
  | nil => rfl
  | cons b bs ih => simp [results?, ih]

/-- The results of several parts, the last one on top, are combined in the order of the parts. -/
lemma combine_results (f : List Bool → Bool) (bs : List Bool) (stack : List StackItem) :
    combine bs.length f ((bs.map StackItem.result).reverse ++ stack) =
      .ok (.result (f bs) :: stack) := by
  have hlen : ((bs.map StackItem.result).reverse).length = bs.length := by simp
  have htake : (((bs.map StackItem.result).reverse ++ stack).take bs.length).reverse =
      bs.map StackItem.result := by
    rw [List.take_left' hlen, List.reverse_reverse]
  have hdrop : ((bs.map StackItem.result).reverse ++ stack).drop bs.length = stack :=
    List.drop_left' hlen
  have hle : ¬ ((bs.map StackItem.result).reverse ++ stack).length < bs.length := by
    rw [List.length_append, hlen]; omega
  rw [combine, if_neg hle, htake, results?_map_result, hdrop]

/-- Programs that decide a record push their decisions one after the other. -/
lemma runFrom_flatten {accepts : Program → Bool} {ps : List Program} (hne : ∀ p ∈ ps, p ≠ [])
    (h : ∀ p ∈ ps, run p r = .ok (accepts p)) (stack : List StackItem) :
    runFrom r stack ps.flatten =
      .ok (((ps.map accepts).map StackItem.result).reverse ++ stack) := by
  induction ps generalizing stack with
  | nil => rfl
  | cons p ps ih =>
    have hfirst := runFrom_of_run (hne p (by simp)) (h p (by simp)) stack
    have hrest := ih (fun q hq => hne q (by simp [hq])) (fun q hq => h q (by simp [hq]))
      (.result (accepts p) :: stack)
    simp [runFrom_append, hfirst, hrest]

/-- A program without instructions adds nothing to a conjunction. -/
lemma all_filter_nonempty {accepts : Program → Bool} {ps : List Program}
    (h : ∀ p ∈ ps, run p r = .ok (accepts p)) :
    (ps.filter (fun p => !p.isEmpty)).all accepts = ps.all accepts := by
  induction ps with
  | nil => rfl
  | cons p ps ih =>
    have hrest := ih fun q hq => h q (by simp [hq])
    cases p with
    | nil =>
      have hrun := h [] (by simp)
      rw [run_nil, Except.ok.injEq] at hrun
      simpa [← hrun] using hrest
    | cons i is => simpa using congrArg (accepts (i :: is) && ·) hrest

/-- **The conjunction of programs accepts what all of them accept**, whatever the programs are, as
long as each of them decides the record.

**Proof sketch.** The programs with instructions push their decisions one after the other. Of two
or more decisions the last instruction makes their conjunction; one decision stands for itself; of
no program nothing is left, and the empty program accepts. -/
theorem run_conjunction {accepts : Program → Bool} {ps : List Program}
    (h : ∀ p ∈ ps, run p r = .ok (accepts p)) :
    run (conjunction ps) r = .ok (ps.all accepts) := by
  rw [← all_filter_nonempty h]
  set present := ps.filter (fun p => !p.isEmpty) with hpresent
  have hmem : ∀ p ∈ present, p ≠ [] ∧ run p r = .ok (accepts p) := by
    intro p hp
    rw [hpresent, List.mem_filter] at hp
    exact ⟨by simpa using hp.2, h p hp.1⟩
  have hrun := runFrom_flatten (fun p hp => (hmem p hp).1) (fun p hp => (hmem p hp).2) []
  have hdef : conjunction ps =
      present.flatten ++ (if 1 < present.length then [.all present.length] else []) := rfl
  rw [hdef]
  match hshape : present with
  | [] => rfl
  | [p] =>
    have hp := hmem p (by simp)
    simpa using hp.2
  | p :: q :: rest =>
    have hne : (p :: q :: rest).flatten ++ [Instruction.all (p :: q :: rest).length] ≠ [] := by
      simp
    have hcombine := combine_results (fun bs => bs.all id) ((p :: q :: rest).map accepts) []
    rw [List.length_map] at hcombine
    rw [if_pos (by simp), run_eq_ok_iff hne, runFrom_append, hrun]
    simp only [runFrom, step, hcombine, List.all_map]
    rfl

/-- The conjunction of programs is empty if all of them are. -/
lemma conjunction_eq_nil_iff {ps : List Program} : conjunction ps = [] ↔ ∀ p ∈ ps, p = [] := by
  set present := ps.filter (fun p => !p.isEmpty) with hpresent
  have hdef : conjunction ps =
      present.flatten ++ (if 1 < present.length then [.all present.length] else []) := rfl
  have hmem : present = [] ↔ ∀ p ∈ ps, p = [] := by simp [hpresent, List.filter_eq_nil_iff]
  rw [← hmem, hdef]
  constructor
  · intro h
    have hflatten := List.flatten_eq_nil_iff.mp (List.append_eq_nil_iff.mp h).1
    refine List.eq_nil_iff_forall_not_mem.mpr fun p hp => ?_
    rw [hflatten p hp, hpresent, List.mem_filter] at hp
    simp at hp
  · intro h
    rw [h]
    rfl

/-- The decisions of programs, one for each, are what a function of the programs returns. -/
lemma decisions_eq {ps : List Program} {bs : List Bool}
    (h : List.Forall₂ (fun p b => run p r = .ok b) ps bs) :
    (∀ p ∈ ps, run p r = .ok ((run p r).toOption.getD false)) ∧
      bs = ps.map (fun p => (run p r).toOption.getD false) := by
  induction h with
  | nil => simp
  | cons hfirst _ ih =>
    obtain ⟨hrest, rfl⟩ := ih
    refine ⟨List.forall_mem_cons.mpr ⟨by rw [hfirst]; rfl, hrest⟩, ?_⟩
    rw [List.map_cons, hfirst]
    rfl

/-- **Conjunction of programs is logical conjunction**, for all lists of instructions that decide
the record when they run on their own. The conjunction decides it by all of their decisions, where
an empty program has accepted. It does the same above any stack: it pushes this one result, or
nothing if it has nothing to run.

**Proof sketch.** `run_conjunction` on the empty stack; what a program does there it does above
every stack (`runFrom_of_run`). -/
theorem conjunction_decides {ps : List Program} {bs : List Bool}
    (h : List.Forall₂ (fun p b => run p r = .ok b) ps bs) :
    run (conjunction ps) r = .ok (bs.all id) ∧ (∀ b, ([], b) ∈ ps.zip bs → b = true) ∧
      ∀ stack, runFrom r stack (conjunction ps) =
        .ok (if ∀ p ∈ ps, p = [] then stack else .result (bs.all id) :: stack) := by
  have hrun : run (conjunction ps) r = .ok (bs.all id) := by
    obtain ⟨hdecided, rfl⟩ := decisions_eq h
    rw [run_conjunction hdecided, List.all_map]
    rfl
  refine ⟨hrun, fun b hb => ?_, fun stack => ?_⟩
  · have hempty := List.forall₂_zip h hb
    rw [run_nil, Except.ok.injEq] at hempty
    exact hempty.symm
  · by_cases hnil : ∀ p ∈ ps, p = []
    · rw [if_pos hnil, conjunction_eq_nil_iff.mpr hnil]
      rfl
    · rw [if_neg hnil]
      exact runFrom_of_run (mt conjunction_eq_nil_iff.mp hnil) hrun stack

/-- A program that rejects, an empty one, and one of three instructions that leaves one result of
two: above another result their conjunction pushes that it rejects. -/
theorem conjunction_decides_mixed :
    let r : Record := ⟨⟨"ns", "s", .integer 1⟩, OrderedMap.empty⟩
    let ps : List Program := [[.any 0], [], [.any 0, .all 0, .any 2]]
    List.Forall₂ (fun p b => run p r = .ok b) ps [false, true, true] ∧
      runFrom r [.result true] (conjunction ps) = .ok [.result false, .result true] := by
  intro r ps
  have hps : List.Forall₂ (fun p b => run p r = .ok b) ps [false, true, true] :=
    .cons rfl (.cons rfl (.cons rfl .nil))
  exact ⟨hps, (conjunction_decides hps).2.2 [.result true]⟩

/-! ## Parts that run -/

/-- If several programs run one after the other, each of them runs. -/
lemma runFrom_of_flatten {ps : List Program} {stack next : List StackItem}
    (h : runFrom r stack ps.flatten = .ok next) {p : Program} (hp : p ∈ ps) :
    ∃ before after, runFrom r before p = .ok after := by
  induction ps generalizing stack with
  | nil => cases hp
  | cons q ps ih =>
    rw [List.flatten_cons, runFrom_append] at h
    cases hq : runFrom r stack q with
    | error e => simp [hq] at h
    | ok mid =>
      simp only [hq] at h
      rcases List.mem_cons.mp hp with rfl | hp
      · exact ⟨stack, mid, hq⟩
      · exact ih h hp

/-- If the conjunction of programs decides a record, each of them runs on it. -/
lemma runFrom_of_conjunction {ps : List Program} {b : Bool} (h : run (conjunction ps) r = .ok b)
    {p : Program} (hp : p ∈ ps) : ∃ before after, runFrom r before p = .ok after := by
  by_cases hne : p = []
  · subst hne
    exact ⟨[], [], rfl⟩
  · set present := ps.filter (fun p => !p.isEmpty) with hpresent
    have hmem : p ∈ present := by
      rw [hpresent, List.mem_filter]
      exact ⟨hp, by simpa using hne⟩
    have hdef : conjunction ps =
        present.flatten ++ (if 1 < present.length then [.all present.length] else []) := rfl
    have hconj : conjunction ps ≠ [] := fun hempty => hne (conjunction_eq_nil_iff.mp hempty p hp)
    rw [run_eq_ok_iff hconj, hdef, runFrom_append] at h
    cases hrun : runFrom r [] present.flatten with
    | error e => simp [hrun] at h
    | ok mid => exact runFrom_of_flatten hrun hmem

end RecordQuery.Program
