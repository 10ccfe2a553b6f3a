import AiFund.Proof.Plans
import AiFund.Proof.Rotation

/-!
# The form of a plan

What `planStages` returns is numbered from one, looks back only at its own stages and carries the
attempts it was given. An initiation is a chain from its author over the verifiers that come first
in the alphabet to its finalizer.
-/

namespace AiFund

open UnitOfWork

variable {args : PlanArgs} {stages : List StageIn} {verifiers : List String}

/-- The stages are numbered from one in their order, each depends on an earlier one, if on any, and
all have the attempts of the arguments. -/
structure WellFormed (args : PlanArgs) (stages : List StageIn) : Prop where
  seqs : stages.map (·.seq) = (List.range stages.length).map fun (i : Nat) => (i : Int) + 1
  depends : DependsBack stages
  maxAttempts : ∀ stage ∈ stages, stage.maxAttempts = args.maxAttempts

/-- The verifiers are the `k` contributors that come first in the alphabet, or all of them. -/
structure Firsts (contributors : List String) (k : Int) (verifiers : List String) : Prop where
  length : (verifiers.length : Int) = min (max k 0) contributors.length
  sorted : ∃ rest, (verifiers ++ rest).Perm contributors ∧ (verifiers ++ rest).Pairwise (· ≤ ·)

/-- Author, verifiers, data checker if there is to be one, and finalizer, each after the first
depending on the one before. -/
structure InitiationForm (args : PlanArgs) (k : Int) (stages : List StageIn) : Prop where
  houses : ∃ verifiers, Firsts args.contributors k verifiers ∧
    stages.map (fun stage => (stage.role, stage.house)) =
      (.author, args.lead) :: verifiers.map (fun c => (.verifier, .str c)) ++
        (if args.includeDataChecker then
          [(.dataChecker, (args.contributors.head?.map Json.str).getD args.lead)] else []) ++
        [(.finalizer, args.lead)]
  depends : ∀ (i : Nat) (stage : StageIn), stages[i]? = some stage →
    stage.dependsOnSeq = if i = 0 then none else some (i : Int)

/-! ## Every run type -/

theorem seqs_eq (h : ∀ (i : Nat) (stage : StageIn), stages[i]? = some stage → stage.seq = i + 1) :
    stages.map (·.seq) = (List.range stages.length).map fun (i : Nat) => (i : Int) + 1 := by
  refine List.ext_getElem (by simp) fun i hi _ => ?_
  have hlt : i < stages.length := by simpa using hi
  rw [List.getElem_map, List.getElem_map, List.getElem_range]
  exact h i _ (List.getElem?_eq_getElem hlt)

theorem Chain.wellFormed (h : Chain stages)
    (hmax : ∀ stage ∈ stages, stage.maxAttempts = args.maxAttempts) : WellFormed args stages :=
  ⟨seqs_eq h.seq, h.dependsBack, hmax⟩

theorem WellFormed.single {stage : StageIn} (hseq : stage.seq = 1)
    (hdepends : stage.dependsOnSeq = none) (hmax : stage.maxAttempts = args.maxAttempts) :
    WellFormed args [stage] :=
  (Chain.single hseq hdepends).wellFormed (List.forall_mem_singleton.2 hmax)

theorem PlanArgs.maxAttempts_review {stage : StageIn} (h : stage ∈ args.review verifiers) :
    stage.maxAttempts = args.maxAttempts :=
  args.maxAttempts_of_mem (List.mem_append_left _ h)

theorem planStages_wellFormed_of_ok {runType : String} (h : planStages runType args = .ok stages) :
    WellFormed args stages := by
  by_cases hreview : runType = "deep_review"
  · subst hreview
    obtain ⟨-, verifiers, -, -, rfl⟩ := planDeepReview_iff.1 h
    exact (Chain.review args verifiers).wellFormed fun _ => args.maxAttempts_review
  unfold planStages at h
  split at h
  · obtain ⟨-, verifiers, -, -, rfl⟩ := planInitiation_iff.1 h
    exact (Chain.initiationStages args verifiers).wellFormed fun _ => args.maxAttempts_of_mem
  · exact absurd rfl hreview
  · obtain ⟨_, -, h⟩ := ok_bind_iff.1 h
    cases h
    exact .single rfl rfl rfl
  · cases h
    exact .single rfl rfl rfl
  · obtain ⟨_, -, h⟩ := ok_bind_iff.1 h
    cases h
    exact .single rfl rfl rfl
  · obtain ⟨_, -, h⟩ := ok_bind_iff.1 h
    cases h
    constructor
    · refine seqs_eq fun i stage hstage => ?_
      rw [List.getElem?_map, List.getElem?_zipIdx, Option.map_map, Option.map_eq_some_iff] at hstage
      obtain ⟨c, -, rfl⟩ := hstage
      simp
    · refine .of_free fun stage hstage => ?_
      obtain ⟨⟨c, i⟩, -, rfl⟩ := List.mem_map.1 hstage
      rfl
    · intro stage hstage
      obtain ⟨⟨c, i⟩, -, rfl⟩ := List.mem_map.1 hstage
      rfl
  · cases h
    exact .single rfl rfl rfl
  · cases h

/-! ## Initiations -/

theorem firsts_pickVerifiers (contributors : List String) (k : Int) :
    Firsts contributors k
      (pickVerifiers (orderContributors contributors fun _ => none) k) := by
  have hperm : (sorted contributors).Perm contributors := List.perm_insertionSort _ _
  rw [orderContributors_unused]
  refine ⟨?_, (sorted contributors).drop (max k 0).toNat, ?_⟩
  · rw [pickVerifiers, List.length_take, hperm.length_eq]
    omega
  · rw [pickVerifiers, List.take_append_drop]
    exact ⟨hperm, List.pairwise_insertionSort _ _⟩

theorem PlanArgs.houses_initiationStages (verifiers : List String) :
    (args.initiationStages verifiers).map (fun stage => (stage.role, stage.house)) =
      (.author, args.lead) :: verifiers.map (fun c => (.verifier, .str c)) ++
        (if args.includeDataChecker then
          [(.dataChecker, (args.contributors.head?.map Json.str).getD args.lead)] else []) ++
        [(.finalizer, args.lead)] := by
  have hreview : (args.review verifiers).map (fun stage => (stage.role, stage.house)) =
      (.author, args.lead) :: verifiers.map fun c => (.verifier, .str c) := by
    unfold PlanArgs.review
    rw [List.map_append, List.map_map]
    refine congrArg (List.cons _) ?_
    calc verifiers.zipIdx.map _ = (verifiers.zipIdx.map Prod.fst).map fun c =>
          (StageRole.verifier, Json.str c) := by
          rw [List.map_map]
          rfl
      _ = verifiers.map fun c => (.verifier, .str c) := by rw [List.zipIdx_map_fst]
  unfold PlanArgs.initiationStages
  rw [List.map_append, hreview, List.append_assoc]
  split <;> rfl

/-- Every plan is well formed, and that of an initiation has the form of one. -/
theorem planStages_wellFormed {runType : String} (h : planStages runType args = .ok stages) :
    WellFormed args stages ∧
      ∀ k : Int, runType = "initiation" → args.verifyCount = .int k →
        InitiationForm args k stages := by
  refine ⟨planStages_wellFormed_of_ok h, fun k htype hcount => ?_⟩
  subst htype
  obtain ⟨-, verifiers, hverifiers, -, rfl⟩ :=
    planInitiation_iff.1 (show planInitiation args = .ok stages from h)
  rw [hcount, planVerifiers_iff] at hverifiers
  obtain ⟨bound, hbound, rfl⟩ := hverifiers
  cases hbound
  exact ⟨⟨_, firsts_pickVerifiers _ _, args.houses_initiationStages _⟩,
    (Chain.initiationStages args _).depends⟩

/-- Two verifiers of three contributors, and a data checker. -/
def PlanArgs.checked : PlanArgs where
  lead := .str "gpt"
  contributors := ["glm", "gemini", "claude"]
  includeDataChecker := true
  maxAttempts := 3

theorem planStages_wellFormed_checked :
    ∃ stages, planStages "initiation" .checked = .ok stages ∧ stages.length = 5 ∧
      WellFormed .checked stages ∧ InitiationForm .checked 2 stages := by
  have hlength : (planStages "initiation" .checked).toOption.map (·.length) = some 5 := by
    decide +kernel
  cases h : planStages "initiation" .checked with
  | error error =>
      rw [h] at hlength
      cases hlength
  | ok stages =>
      rw [h] at hlength
      obtain ⟨hform, hinitiation⟩ := planStages_wellFormed h
      exact ⟨stages, rfl, Option.some.inj hlength, hform, hinitiation 2 rfl rfl⟩

end AiFund
