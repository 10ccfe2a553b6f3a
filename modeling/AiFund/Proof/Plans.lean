import AiFund.Library.Errors
import AiFund.Orchestrator.Planner

/-!
# Plans

The stages of an initiation form a chain in the order of their `seq`, and its finalizer comes last.
In the plan of every run type a stage depends on an earlier stage of the plan, if on any.
-/

namespace AiFund

open UnitOfWork

variable {args : PlanArgs} {stages : List StageIn}

def PlanArgs.stage (args : PlanArgs) (seq : Int) (role : StageRole) (house : Json)
    (dependsOnSeq : Option Int) : StageIn :=
  { seq, role, house, substrate := .harness, maxAttempts := args.maxAttempts, dependsOnSeq }

/-- The author and these verifiers. -/
def PlanArgs.review (args : PlanArgs) (verifiers : List String) : List StageIn :=
  [args.stage 1 .author args.lead none] ++ verifiers.zipIdx.map fun (c, i) =>
    args.stage (i + 2) .verifier (.str c) (some (i + 1))

/-- The stages of an initiation with these verifiers. -/
def PlanArgs.initiationStages (args : PlanArgs) (verifiers : List String) : List StageIn :=
  let seq : Int := verifiers.length + 2
  let dataChecker : Json := (args.contributors.head?.map Json.str).getD args.lead
  args.review verifiers ++
    (if args.includeDataChecker then
      [args.stage seq .dataChecker dataChecker (some (seq - 1)),
        args.stage (seq + 1) .finalizer args.lead (some seq)]
    else [args.stage seq .finalizer args.lead (some (seq - 1))])

/-- A house is refused exactly if it is a meta house. -/
theorem chk_str {metaHouses : List String} {house : String} {u : Unit} :
    chk metaHouses (.str house) = .ok u ↔ house ∉ metaHouses := by
  by_cases hmeta : house ∈ metaHouses <;> simp [chk, hmeta]

theorem forM_chk {metaHouses houses : List String} {u : Unit} :
    (houses.forM fun c => chk metaHouses (.str c)) = .ok u ↔ ∀ c ∈ houses, c ∉ metaHouses := by
  induction houses with
  | nil => exact iff_of_true rfl nofun
  | cons c houses ih =>
      rw [List.forall_mem_cons, ← ih, ← chk_str (u := ())]
      change (chk metaHouses (.str c) >>= fun _ => houses.forM _) = _ ↔ _
      rw [ok_bind_iff]
      exact ⟨fun ⟨_, h⟩ => h, fun h => ⟨(), h⟩⟩

/-- The verifiers are the first contributors in the order of their keys. -/
theorem planVerifiers_iff {n : Json} {verifiers : List String} :
    planVerifiers args n = .ok verifiers ↔ ∃ k, sliceBound n = .ok k ∧
      verifiers = pickVerifiers (orderContributors args.contributors fun _ => none) k := by
  unfold planVerifiers
  rw [ok_bind_iff]
  refine exists_congr fun k => and_congr_right fun _ => ?_
  exact (Except.ok.injEq _ _).to_iff.trans eq_comm

theorem planInitiation_iff :
    planInitiation args = .ok stages ↔ chk args.metaHouses args.lead = .ok () ∧
      ∃ verifiers, planVerifiers args args.verifyCount = .ok verifiers ∧
        (∀ c ∈ verifiers, c ∉ args.metaHouses) ∧ stages = args.initiationStages verifiers := by
  unfold planInitiation
  simp only [ok_bind_iff, forM_chk]
  constructor
  · rintro ⟨_, hlead, verifiers, hverifiers, _, hmeta, h⟩
    cases h
    exact ⟨hlead, verifiers, hverifiers, hmeta, rfl⟩
  · rintro ⟨hlead, verifiers, hverifiers, hmeta, rfl⟩
    exact ⟨(), hlead, verifiers, hverifiers, (), hmeta, rfl⟩

theorem planDeepReview_iff :
    planStages "deep_review" args = .ok stages ↔ chk args.metaHouses args.lead = .ok () ∧
      ∃ verifiers, planVerifiers args (.int 1) = .ok verifiers ∧
        (∀ c ∈ verifiers, c ∉ args.metaHouses) ∧ stages = args.review verifiers := by
  have hone {verifiers : List String} (h : planVerifiers args (.int 1) = .ok verifiers) :
      verifiers.length ≤ 1 := by
    obtain ⟨k, hk, rfl⟩ := planVerifiers_iff.1 h
    cases hk
    exact List.length_take_le _ _
  change (chk args.metaHouses args.lead >>= fun _ => planVerifiers args (.int 1) >>= fun v => _) = _ ↔ _
  simp only [ok_bind_iff]
  constructor
  · rintro ⟨_, hlead, verifiers, hverifiers, h⟩
    refine ⟨hlead, verifiers, hverifiers, ?_⟩
    have hlength := hone hverifiers
    cases verifiers with
    | nil =>
        cases h
        exact ⟨nofun, rfl⟩
    | cons v rest =>
        obtain rfl : rest = [] := by simpa using hlength
        obtain ⟨_, hmeta, h⟩ := ok_bind_iff.1 h
        cases h
        exact ⟨by simpa using chk_str.1 hmeta, rfl⟩
  · rintro ⟨hlead, verifiers, hverifiers, hmeta, rfl⟩
    refine ⟨(), hlead, verifiers, hverifiers, ?_⟩
    have hlength := hone hverifiers
    cases verifiers with
    | nil => rfl
    | cons v rest =>
        obtain rfl : rest = [] := by simpa using hlength
        exact ok_bind_iff.2 ⟨(), chk_str.2 (hmeta v List.mem_cons_self), rfl⟩

/-! ## Who fills the stages -/

theorem PlanArgs.author_mem_review (verifiers : List String) :
    ∃ stage ∈ args.review verifiers, stage.role = .author :=
  ⟨_, List.mem_append_left _ (List.mem_singleton.2 rfl), rfl⟩

theorem PlanArgs.verifier_mem_review {verifiers : List String} {c : String} (hc : c ∈ verifiers) :
    ∃ stage ∈ args.review verifiers, stage.role = .verifier ∧ stage.house = .str c := by
  obtain ⟨i, hi⟩ := List.getElem?_of_mem hc
  refine ⟨_, List.mem_append_right _ (List.mem_map.2 ⟨(c, i), ?_, rfl⟩), rfl, rfl⟩
  exact List.mem_iff_getElem?.2 ⟨i, by simp [hi]⟩

/-- The lead writes, and the verifiers verify. -/
theorem PlanArgs.of_mem_review {verifiers : List String} {stage : StageIn}
    (h : stage ∈ args.review verifiers) :
    (stage.role = .author ∧ stage.house = args.lead) ∨
      (stage.role = .verifier ∧ ∃ c ∈ verifiers, stage.house = .str c) := by
  rcases List.mem_append.1 h with hauthor | hverifier
  · rw [List.mem_singleton.1 hauthor]
    exact .inl ⟨rfl, rfl⟩
  · obtain ⟨⟨c, i⟩, hc, rfl⟩ := List.mem_map.1 hverifier
    exact .inr ⟨rfl, c, (List.mem_zipIdx' hc).2 ▸ List.getElem_mem _, rfl⟩

/-- After the review come the data checker, if there is to be one, and the finalizer. -/
theorem PlanArgs.of_mem_initiationStages {verifiers : List String} {stage : StageIn}
    (h : stage ∈ args.initiationStages verifiers) :
    stage ∈ args.review verifiers ∨
      (stage.role = .dataChecker ∧ args.includeDataChecker = true ∧
        stage.house = (args.contributors.head?.map Json.str).getD args.lead) ∨
      (stage.role = .finalizer ∧ stage.house = args.lead) := by
  unfold PlanArgs.initiationStages at h
  rcases List.mem_append.1 h with hreview | hfinal
  · exact .inl hreview
  · split at hfinal
    · rename_i hcheck
      rcases List.mem_cons.1 hfinal with rfl | hlast
      · exact .inr (.inl ⟨rfl, hcheck, rfl⟩)
      · rw [List.mem_singleton.1 hlast]
        exact .inr (.inr ⟨rfl, rfl⟩)
    · rw [List.mem_singleton.1 hfinal]
      exact .inr (.inr ⟨rfl, rfl⟩)

theorem PlanArgs.maxAttempts_of_mem {verifiers : List String} {stage : StageIn}
    (h : stage ∈ args.initiationStages verifiers) : stage.maxAttempts = args.maxAttempts := by
  unfold PlanArgs.initiationStages PlanArgs.review at h
  simp only [List.mem_append, List.mem_singleton, List.mem_map] at h
  obtain (rfl | ⟨⟨c, i⟩, -, rfl⟩) | hfinal := h
  · rfl
  · rfl
  · split at hfinal
    · rcases List.mem_cons.1 hfinal with rfl | hlast
      · rfl
      · rw [List.mem_singleton.1 hlast]
        rfl
    · rw [List.mem_singleton.1 hfinal]
      rfl

/-! ## Order -/

/-- The stages are numbered from one, each depends on the one before, and only the last is a
finalizer. -/
structure Chain (stages : List StageIn) : Prop where
  seq : ∀ (i : Nat) (stage : StageIn), stages[i]? = some stage → stage.seq = i + 1
  depends : ∀ (i : Nat) (stage : StageIn), stages[i]? = some stage →
    stage.dependsOnSeq = if i = 0 then none else some (i : Int)
  finalizer : ∀ (i : Nat) (stage : StageIn), stages[i]? = some stage → stage.role = .finalizer →
    stages.length = i + 1

theorem Chain.single {stage : StageIn} (hseq : stage.seq = 1) (hdepends : stage.dependsOnSeq = none) :
    Chain [stage] := by
  have hfirst : ∀ (i : Nat) (row : StageIn), [stage][i]? = some row → i = 0 ∧ row = stage := by
    intro i row hrow
    rw [List.getElem?_singleton] at hrow
    split at hrow
    · exact ⟨by assumption, (Option.some.inj hrow).symm⟩
    · cases hrow
  constructor
  · intro i row hrow
    obtain ⟨rfl, rfl⟩ := hfirst i row hrow
    simpa using hseq
  · intro i row hrow
    obtain ⟨rfl, rfl⟩ := hfirst i row hrow
    simpa using hdepends
  · intro i row hrow _
    obtain ⟨rfl, rfl⟩ := hfirst i row hrow
    rfl

/-- A chain without a finalizer goes on with a stage that depends on its last. -/
theorem Chain.concat {stage : StageIn} (h : Chain stages) (hne : stages ≠ [])
    (hopen : ∀ row ∈ stages, row.role ≠ .finalizer) (hseq : stage.seq = stages.length + 1)
    (hdepends : stage.dependsOnSeq = some (stages.length : Int)) : Chain (stages ++ [stage]) := by
  have hlength : stages.length ≠ 0 := mt List.eq_nil_of_length_eq_zero hne
  have hrows : ∀ (i : Nat) (row : StageIn), (stages ++ [stage])[i]? = some row →
      stages[i]? = some row ∨ (i = stages.length ∧ row = stage) := by
    intro i row hrow
    exact Rows.getElem?_concat_cases hrow
  constructor
  · intro i row hrow
    obtain hold | ⟨rfl, rfl⟩ := hrows i row hrow
    · exact h.seq i row hold
    · exact hseq
  · intro i row hrow
    obtain hold | ⟨rfl, rfl⟩ := hrows i row hrow
    · exact h.depends i row hold
    · rw [hdepends, if_neg hlength]
  · intro i row hrow hrole
    obtain hold | ⟨rfl, rfl⟩ := hrows i row hrow
    · exact absurd hrole (hopen row (List.mem_of_getElem? hold))
    · simp

theorem PlanArgs.length_review (verifiers : List String) :
    (args.review verifiers).length = verifiers.length + 1 := by
  simp [review]

theorem PlanArgs.review_concat (verifiers : List String) (c : String) :
    args.review (verifiers ++ [c]) = args.review verifiers ++
      [args.stage (verifiers.length + 2) .verifier (.str c) (some (verifiers.length + 1))] := by
  simp [review, List.zipIdx_append]

theorem PlanArgs.review_open (verifiers : List String) :
    ∀ row ∈ args.review verifiers, row.role ≠ .finalizer := by
  intro row hrow
  rcases List.mem_append.1 hrow with hauthor | hverifier
  · obtain rfl := List.mem_singleton.1 hauthor
    nofun
  · obtain ⟨⟨c, i⟩, -, rfl⟩ := List.mem_map.1 hverifier
    nofun

theorem Chain.review (args : PlanArgs) (verifiers : List String) :
    Chain (args.review verifiers) := by
  induction verifiers using List.reverseRecOn with
  | nil => exact .single rfl rfl
  | append_singleton verifiers c ih =>
      rw [PlanArgs.review_concat]
      refine ih.concat (by simp [PlanArgs.review]) (PlanArgs.review_open verifiers) ?_ ?_
      · rw [PlanArgs.length_review]
        push_cast
        simp only [PlanArgs.stage]
        omega
      · rw [PlanArgs.length_review]
        push_cast
        rfl

theorem Chain.initiationStages (args : PlanArgs) (verifiers : List String) :
    Chain (args.initiationStages verifiers) := by
  have hreview := Chain.review args verifiers
  have hopen := args.review_open verifiers
  have hlength : ((args.review verifiers).length : Int) = verifiers.length + 1 := by
    rw [PlanArgs.length_review]
    push_cast
    rfl
  have hne : args.review verifiers ≠ [] := by simp [PlanArgs.review]
  let seq : Int := verifiers.length + 2
  let checker := args.stage seq .dataChecker
    ((args.contributors.head?.map Json.str).getD args.lead) (some (seq - 1))
  unfold PlanArgs.initiationStages
  split
  · have hchecked : Chain (args.review verifiers ++ [checker]) := by
      refine hreview.concat hne hopen ?_ ?_
      · rw [hlength]
        simp only [checker, seq, PlanArgs.stage]
        omega
      · rw [hlength]
        simp only [checker, seq, PlanArgs.stage, Option.some.injEq]
        omega
    have hchecker : ∀ row ∈ args.review verifiers ++ [checker], row.role ≠ .finalizer := by
      intro row hrow
      rcases List.mem_append.1 hrow with hreview | hchecker
      · exact hopen row hreview
      · obtain rfl := List.mem_singleton.1 hchecker
        nofun
    have hlast : ((args.review verifiers ++ [checker]).length : Int) = seq := by
      rw [List.length_append, List.length_singleton, PlanArgs.length_review]
      push_cast
      simp only [seq]
      omega
    have hfinal : Chain (args.review verifiers ++ [checker] ++
        [args.stage (seq + 1) .finalizer args.lead (some seq)]) :=
      hchecked.concat (by simp) hchecker (by rw [hlast]; rfl) (by rw [hlast]; rfl)
    rwa [List.append_assoc] at hfinal
  · refine hreview.concat hne hopen ?_ ?_
    · rw [hlength]
      simp only [PlanArgs.stage]
      omega
    · rw [hlength]
      simp only [PlanArgs.stage, Option.some.injEq]
      omega

/-! ## Every run type -/

/-- A stage depends on an earlier stage of the plan, if on any. -/
def DependsBack (stages : List StageIn) : Prop :=
  ∀ stage ∈ stages, ∀ q, stage.dependsOnSeq = some q → q < stage.seq ∧ ∃ dep ∈ stages, dep.seq = q

theorem Chain.dependsBack (h : Chain stages) : DependsBack stages := by
  intro stage hstage q hq
  obtain ⟨i, hi⟩ := List.getElem?_of_mem hstage
  have hdepends := h.depends i stage hi
  rw [hq] at hdepends
  cases i with
  | zero => cases hdepends
  | succ j =>
      rw [if_neg (Nat.succ_ne_zero j), Option.some.injEq] at hdepends
      have hlt : j < stages.length := Nat.lt_of_succ_lt (List.getElem?_eq_some_iff.1 hi).1
      have hdep := List.getElem?_eq_getElem hlt
      refine ⟨?_, stages[j], List.getElem_mem hlt, ?_⟩
      · rw [h.seq _ stage hi, hdepends]
        omega
      · rw [h.seq j _ hdep, hdepends]
        push_cast
        rfl

theorem DependsBack.of_free (h : ∀ stage ∈ stages, stage.dependsOnSeq = none) :
    DependsBack stages := by
  intro stage hstage q hq
  rw [h stage hstage] at hq
  cases hq

theorem DependsBack.single {stage : StageIn} (h : stage.dependsOnSeq = none) :
    DependsBack [stage] := by
  refine .of_free fun row hrow => ?_
  obtain rfl := List.mem_singleton.1 hrow
  exact h

theorem planStages_dependsBack {runType : String} (h : planStages runType args = .ok stages) :
    DependsBack stages := by
  unfold planStages at h
  split at h
  · obtain ⟨-, verifiers, -, -, rfl⟩ := planInitiation_iff.1 h
    exact (Chain.initiationStages args verifiers).dependsBack
  · obtain ⟨_, -, h⟩ := ok_bind_iff.1 h
    obtain ⟨verifiers, -, h⟩ := ok_bind_iff.1 h
    cases verifiers with
    | nil =>
        cases h
        exact .single rfl
    | cons v verifiers =>
        obtain ⟨_, -, h⟩ := ok_bind_iff.1 h
        cases h
        have hauthor : Chain [args.stage 1 .author args.lead none] := .single rfl rfl
        have hreview : Chain ([args.stage 1 .author args.lead none] ++
            [args.stage 2 .verifier (.str v) (some 1)]) :=
          hauthor.concat (by simp) (by simp [PlanArgs.stage]) rfl rfl
        exact hreview.dependsBack
  · obtain ⟨_, -, h⟩ := ok_bind_iff.1 h
    cases h
    exact .single rfl
  · cases h
    exact .single rfl
  · obtain ⟨_, -, h⟩ := ok_bind_iff.1 h
    cases h
    exact .single rfl
  · obtain ⟨_, -, h⟩ := ok_bind_iff.1 h
    cases h
    refine .of_free fun stage hstage => ?_
    obtain ⟨⟨c, i⟩, -, rfl⟩ := List.mem_map.1 hstage
    rfl
  · cases h
    exact .single rfl
  · cases h

end AiFund
