import AiFund.Library.Errors
import AiFund.Proof.Creation
import AiFund.Proof.Reports
import AiFund.Proof.Rotation

/-!
# Houses

Which houses a run is planned with: whether a verifier can be the author, and where a meta house
gets past the planner and the cross-check.
-/

namespace AiFund

open UnitOfWork Rows Rotation

variable {env : Env} {fund : FundConfig} {metaHouses : List String} {trigger : String}
  {params : JsonObject} {requestedBy triggerRef : Option String} {runId covId : Nat}
  {cov : Coverage} {lead house : String} {policy : RunPolicy} {s s' : Session Db} {db : Db}

/-! ## Contributors -/

/-- The house may fill an analyst role. -/
def House.eligible (house : House) : Bool := house.enabled && house.assignable && !house.isMeta

/-- The contributors of a coverage: those chosen for it, else every eligible house but its lead. -/
def Db.contributorsOf (db : Db) (covId : Nat) (cov : Coverage) : List String :=
  let chosen := db.contributors.filter fun row => row.coverageId = covId
  if chosen.isEmpty then
    resolveDefault cov.leadHouse
      (db.houses.map fun h => HouseInfo.mk h.key h.enabled h.assignable h.isMeta)
  else sorted (chosen.map (·.house))

theorem returns_contributorsOf {contributors : List String}
    (hcov : s.loaded.coverages[covId]? = some cov) (hid : covId < s.stored.coverages.length) :
    Returns (resolveContributors covId) s contributors s' ↔
      contributors = s.stored.contributorsOf covId cov ∧ s' = s := by
  unfold resolveContributors Db.contributorsOf
  rw [returns_lookup_bind, returns_select_bind, if_pos hid, hcov]
  dsimp only
  by_cases hchosen :
      (s.stored.contributors.filter fun row => row.coverageId = covId).isEmpty = true
  · simp only [hchosen, Bool.not_true, Bool.false_eq_true, if_false, if_true, returns_select_bind,
      returns_pure]
  · simp only [hchosen, Bool.not_false, if_true, returns_pure, Bool.false_eq_true, if_false]

theorem mem_resolveDefault {leadHouse : Option String} {houses : List HouseInfo} :
    house ∈ resolveDefault leadHouse houses ↔ ∃ h ∈ houses,
      (h.enabled && h.assignable && !h.isMeta && some h.key ≠ leadHouse) = true ∧ h.key = house := by
  simp only [resolveDefault, sorted, List.mem_insertionSort, List.mem_map, List.mem_filter, and_assoc]

/-- The houses that the planner puts before `lead` when it picks verifiers for the coverage. -/
def Db.ahead (db : Db) (cov : Coverage) (lead : String) : Nat :=
  db.houses.countP fun h => h.eligible && some h.key ≠ cov.leadHouse && h.key < lead

/-- The planner picks `lead` among the first `k` contributors of a coverage it does not lead, if
fewer than `k` houses are ahead. -/
theorem mem_pickVerifiers_iff {k : Int}
    (hchosen : ∀ row ∈ db.contributors, row.coverageId ≠ covId)
    (heligible : ∃ h ∈ db.houses, h.key = lead ∧ h.eligible = true) :
    lead ∈ pickVerifiers (orderContributors (db.contributorsOf covId cov) fun _ => none) k ↔
      cov.leadHouse ≠ some lead ∧ (db.ahead cov lead : Int) < k := by
  have hnone : (db.contributors.filter fun row => row.coverageId = covId).isEmpty = true := by
    simpa using hchosen
  have hcount : (db.contributorsOf covId cov).countP (· < lead) = db.ahead cov lead := by
    unfold Db.contributorsOf Db.ahead
    rw [if_pos hnone, resolveDefault, sorted, (List.perm_insertionSort _ _).countP_eq,
      List.countP_map, List.countP_filter, List.countP_map]
    refine List.countP_congr fun h _ => ?_
    simp [House.eligible, Bool.and_comm, and_assoc]
  have hmem : lead ∈ db.contributorsOf covId cov ↔ cov.leadHouse ≠ some lead := by
    unfold Db.contributorsOf
    rw [if_pos hnone, mem_resolveDefault]
    constructor
    · rintro ⟨h, -, hh, rfl⟩
      simp only [Bool.and_eq_true, decide_eq_true_eq] at hh
      exact hh.2.symm
    · intro hlead
      obtain ⟨h, hh, rfl, heligible⟩ := heligible
      refine ⟨_, List.mem_map.2 ⟨h, hh, rfl⟩, ?_, rfl⟩
      simpa [House.eligible, hlead.symm] using heligible
  rw [pickVerifiers, orderContributors_unused, sorted, mem_take_insertionSort, hmem, hcount]
  refine and_congr_right fun _ => ?_
  omega

/-! ## Author and verifiers -/

/-- How many verifiers a run is to have: those the params ask for, or the policy, or one. -/
def verifierCount (type : RunType) (policy : RunPolicy) (params : JsonObject) : Json :=
  match type with
  | .initiation => Engine.getD params "verify_count" (.int policy.verifyCount)
  | _ => .int 1

/-- The author of a planned review is the lead, and its verifiers are the first contributors. -/
theorem planFor_review {type : RunType} {leadJson : Json} {contributors : List String}
    {plan : List StageIn} (htype : type = .initiation ∨ type = .deepReview)
    (h : Engine.planFor type policy fund params leadJson contributors metaHouses = .ok plan) :
    ∃ k, sliceBound (verifierCount type policy params) = .ok k ∧
      (∃ stage ∈ plan, stage.role = .author) ∧
      (∀ stage ∈ plan, stage.role = .author → stage.house = leadJson) ∧
      ∀ house, (∃ stage ∈ plan, stage.role = .verifier ∧ stage.house = house) ↔
        ∃ c ∈ pickVerifiers (orderContributors contributors fun _ => none) k, house = .str c := by
  have hroles {args : PlanArgs} {verifiers : List String}
      (hreview : args.review verifiers ⊆ plan) (hrest : ∀ stage ∈ plan,
        stage ∈ args.review verifiers ∨ stage.role = .dataChecker ∨ stage.role = .finalizer) :
      (∃ stage ∈ plan, stage.role = .author) ∧
      (∀ stage ∈ plan, stage.role = .author → stage.house = args.lead) ∧
      ∀ house, (∃ stage ∈ plan, stage.role = .verifier ∧ stage.house = house) ↔
        ∃ c ∈ verifiers, house = .str c := by
    have hmem {stage : StageIn} (hstage : stage ∈ plan)
        (hrole : stage.role = .author ∨ stage.role = .verifier) : stage ∈ args.review verifiers := by
      rcases hrest stage hstage with hin | hother | hother
      · exact hin
      all_goals rw [hother] at hrole; simp at hrole
    obtain ⟨author, hauthor, hrole⟩ := args.author_mem_review verifiers
    refine ⟨⟨author, hreview hauthor, hrole⟩, fun stage hstage hrole => ?_, fun house => ⟨?_, ?_⟩⟩
    · obtain ⟨-, hhouse⟩ | ⟨hverifier, -⟩ := PlanArgs.of_mem_review (hmem hstage (.inl hrole))
      · exact hhouse
      · rw [hrole] at hverifier
        cases hverifier
    · rintro ⟨stage, hstage, hrole, rfl⟩
      obtain ⟨hauthor, -⟩ | ⟨-, hc⟩ := PlanArgs.of_mem_review (hmem hstage (.inr hrole))
      · rw [hrole] at hauthor
        cases hauthor
      · exact hc
    · rintro ⟨c, hc, rfl⟩
      obtain ⟨stage, hstage, hverifier⟩ := args.verifier_mem_review hc
      exact ⟨stage, hreview hstage, hverifier⟩
  rcases htype with rfl | rfl
  · obtain ⟨-, verifiers, hverifiers, -, rfl⟩ := planInitiation_iff.1 h
    obtain ⟨k, hk, rfl⟩ := planVerifiers_iff.1 hverifiers
    exact ⟨k, hk, hroles (List.subset_append_left _ _) fun stage hstage =>
      (PlanArgs.of_mem_initiationStages hstage).imp_right fun hrest =>
        hrest.imp And.left And.left⟩
  · obtain ⟨-, verifiers, hverifiers, -, rfl⟩ := planDeepReview_iff.1 h
    obtain ⟨k, hk, rfl⟩ := planVerifiers_iff.1 hverifiers
    exact ⟨k, hk, hroles (List.Subset.refl _) fun stage hstage => .inl hstage⟩

/-- A driver that accepts a text stores it as it is. -/
def Runtime.StoresText (runtime : Runtime) : Prop :=
  ∀ text stored, runtime.text (.str text) = some stored → stored = some text

/-- The stages of a new run are those planned for it. -/
theorem Creation.mem_stages {runType : String} {coverageId : Option Nat}
    (c : Creation env fund metaHouses runType coverageId params s)
    (hlegal : Schema.violation s.loaded = none) {run : Run} {row : RunStage} :
    row ∈ ((s.loaded.addRun run).addStages c.rows).stages ∧ row.runId = s.loaded.runs.length ↔
      row ∈ c.rows := by
  have hold : ∀ stage ∈ s.loaded.stages, stage.runId ≠ s.loaded.runs.length := by
    intro stage hstage
    obtain ⟨i, hi⟩ := List.getElem?_of_mem hstage
    obtain ⟨run, hrun⟩ := Db.run_of_stage hlegal hi
    exact Nat.ne_of_lt (List.getElem?_eq_some_iff.1 hrun).1
  have hnew : ∀ stage ∈ c.rows, stage.runId = s.loaded.runs.length := by
    intro stage hstage
    obtain ⟨planned, -, hto⟩ := of_mem_mapM c.bound hstage
    exact (StageIn.of_toRow hto).2.1
  change row ∈ s.loaded.stages ++ c.rows ∧ _ ↔ _
  rw [List.mem_append]
  constructor
  · rintro ⟨hrow | hrow, hrun⟩
    · exact absurd hrun (hold row hrow)
    · exact hrow
  · exact fun hrow => ⟨.inr hrow, hnew row hrow⟩

/-- No verifier of the run is of its author's house. -/
def Db.VerifiesIndependently (db : Db) (runId : Nat) : Prop :=
  ∀ author ∈ db.stages, ∀ verifier ∈ db.stages, author.runId = runId → verifier.runId = runId →
    author.role = .author → verifier.role = .verifier → verifier.house ≠ author.house

/-- The verifiers of a new initiation or deep review are independent of its author exactly if its
lead is the coverage's own, or enough other houses come before it. -/
theorem createRun_independent_iff {type : RunType} (hdriver : env.runtime.StoresText)
    (hlegal : Schema.violation s.loaded = none) (htype : type = .initiation ∨ type = .deepReview)
    (hid : covId < s.stored.coverages.length) (hcov : s.loaded.coverages[covId]? = some cov)
    (hchosen : ∀ row ∈ s.stored.contributors, row.coverageId ≠ covId)
    (hlead : leadOf params (some cov) = .str lead)
    (heligible : ∃ h ∈ s.stored.houses, h.key = lead ∧ h.eligible = true)
    (hpolicy : fund.policy type.value = .ok policy)
    (h : Returns (Engine.createRun env fund metaHouses type.value (some covId) trigger params
      requestedBy triggerRef) s runId s') :
    s'.stored.VerifiesIndependently runId ↔ cov.leadHouse = some lead ∨
      ∃ k : Int, sliceBound (verifierCount type policy params) = .ok k ∧
        k ≤ s.stored.ahead cov lead := by
  obtain ⟨c, -, -, rfl, rfl⟩ := returns_createRun.1 h
  have htypes : c.type = type := c.type_eq
  have hpolicies : c.policy = policy := Except.ok.inj (c.configured.symm.trans hpolicy)
  have hfound : c.coverage = some cov := by
    have hfound := c.found
    rw [Engine.findCoverage, returns_lookup, if_pos hid, hcov] at hfound
    exact hfound.1
  have hresolved : c.contributors = s.stored.contributorsOf covId cov := by
    have hresolved := c.resolved
    rw [hfound] at hresolved
    exact ((returns_contributorsOf hcov hid).1 hresolved).1
  have hplanned := c.planned
  rw [htypes, hpolicies, hfound, hlead, hresolved] at hplanned
  obtain ⟨k, hk, ⟨author, hauthor, hisAuthor⟩, hauthors, hverifiers⟩ :=
    planFor_review htype hplanned
  -- what the driver stores of a planned house
  have hstores {stage : StageIn} {row : RunStage} {house : String}
      (hto : stage.toRow env s.loaded.runs.length = .ok row) (hhouse : stage.house = .str house) :
      row.house = house := by
    obtain ⟨htext, -⟩ := StageIn.of_toRow hto
    rw [hhouse] at htext
    exact Option.some.inj (hdriver _ _ htext)
  have hindependent : Db.VerifiesIndependently
      ((s.loaded.addRun (c.run trigger requestedBy triggerRef)).addStages c.rows)
      s.loaded.runs.length ↔
      lead ∉ pickVerifiers (orderContributors (s.stored.contributorsOf covId cov) fun _ => none)
        k := by
    constructor
    · intro hall hpicked
      obtain ⟨verifier, hverifier, hisVerifier, hhouse⟩ := (hverifiers (.str lead)).2 ⟨lead, hpicked, rfl⟩
      obtain ⟨a, ha, hto⟩ := exists_mem_mapM c.bound hauthor
      obtain ⟨v, hv, hto'⟩ := exists_mem_mapM c.bound hverifier
      obtain ⟨ha', harun⟩ := (c.mem_stages hlegal).2 ha
      obtain ⟨hv', hvrun⟩ := (c.mem_stages hlegal).2 hv
      refine hall a ha' v hv' harun hvrun ?_ ?_ ?_
      · rw [(StageIn.of_toRow hto).2.2, hisAuthor]
      · rw [(StageIn.of_toRow hto').2.2, hisVerifier]
      · rw [hstores hto (hauthors author hauthor hisAuthor), hstores hto' hhouse]
    · intro hnot a ha v hv harun hvrun hisA hisV hsame
      obtain ⟨first, hfirst, hto⟩ := of_mem_mapM c.bound ((c.mem_stages hlegal).1 ⟨ha, harun⟩)
      obtain ⟨second, hsecond, hto'⟩ := of_mem_mapM c.bound ((c.mem_stages hlegal).1 ⟨hv, hvrun⟩)
      rw [(StageIn.of_toRow hto).2.2] at hisA
      rw [(StageIn.of_toRow hto').2.2] at hisV
      obtain ⟨picked, hpicked, hhouse⟩ := (hverifiers second.house).1 ⟨second, hsecond, hisV, rfl⟩
      rw [hstores hto (hauthors first hfirst hisA), hstores hto' hhouse] at hsame
      exact hnot (hsame ▸ hpicked)
  refine hindependent.trans ?_
  rw [mem_pickVerifiers_iff hchosen heligible, not_and_or, not_not, not_lt]
  refine or_congr_right ⟨fun hle => ⟨k, hk, hle⟩, ?_⟩
  rintro ⟨k', hk', hle⟩
  obtain rfl : k = k' := Except.ok.inj (hk.symm.trans hk')
  exact hle

/-- One house and a coverage that nobody leads yet. -/
def Db.appleProposed : Db where
  houses := [{ key := "gpt" }]
  coverages := [{ ticker := "AAPL", exchange := "US", name := "Apple", currency := "USD",
                  state := .proposed, dossierSlug := "us_aapl" }]

/-- The request to initiate Apple with a lead, and as many verifiers as the policy says. -/
def initiateAs (lead : String) : DbTxn Nat :=
  Engine.createRun (.quiet 0) App.small.fund [] "initiation" (some 0) "pm" [("lead", .str lead)]
    (some "pm") none

theorem Env.quiet_storesText (now : Time) : (Env.quiet now).runtime.StoresText := by
  rintro text stored h
  exact (Option.some.inj h).symm

/-- The lead of a coverage without one may verify itself. -/
theorem not_independent_apple :
    (∃ h ∈ Db.appleProposed.houses, h.key = "gpt" ∧ h.eligible = true) ∧
      ∃ runId s', Returns (initiateAs "gpt") (Session.clean .appleProposed) runId s' ∧
        ∃ author ∈ s'.stored.stages, ∃ verifier ∈ s'.stored.stages, author.runId = runId ∧
          verifier.runId = runId ∧ author.role = .author ∧ verifier.role = .verifier ∧
          verifier.house = author.house := by
  refine ⟨by decide, ?_⟩
  obtain ⟨runId, s', h, hsame⟩ := exists_returns (m := initiateAs "gpt")
    (s := Session.clean .appleProposed)
    (p := fun runId s' => decide (∃ author ∈ s'.stored.stages, ∃ verifier ∈ s'.stored.stages,
      author.runId = runId ∧ verifier.runId = runId ∧ author.role = .author ∧
      verifier.role = .verifier ∧ verifier.house = author.house)) (by decide +kernel)
  exact ⟨runId, s', h, of_decide_eq_true hsame⟩

/-- Two houses, of which one leads the coverage. -/
def Db.appleLed : Db where
  houses := [{ key := "claude" }, { key := "gpt" }]
  coverages := [{ ticker := "AAPL", exchange := "US", name := "Apple", currency := "USD",
                  state := .proposed, leadHouse := some "gpt", dossierSlug := "us_aapl" }]

/-- The lead of the coverage is verified by the other house. -/
theorem createRun_independent_apple :
    ∃ runId s', Returns (initiateAs "gpt") (Session.clean .appleLed) runId s' ∧
      ((s'.stored.stages.filter fun stage => stage.role = .verifier).map (·.house)) = ["claude"] ∧
      s'.stored.VerifiesIndependently runId := by
  obtain ⟨runId, s', h, hverifiers⟩ := exists_returns (m := initiateAs "gpt")
    (s := Session.clean .appleLed)
    (p := fun _ s' => decide (((s'.stored.stages.filter fun stage =>
      stage.role = .verifier).map (·.house)) = ["claude"])) (by decide +kernel)
  have hfound : Db.appleLed.coverages[0]? = some Db.appleLed.coverages[0] := rfl
  have htype : RunType.initiation = .initiation ∨ RunType.initiation = .deepReview := .inl rfl
  refine ⟨runId, s', h, of_decide_eq_true hverifiers, ?_⟩
  refine (createRun_independent_iff (Env.quiet_storesText 0) (by decide +kernel) htype (by decide)
    hfound (fun _ h => absurd h List.not_mem_nil) rfl ?_ rfl h).2 (.inl rfl)
  exact ⟨_, List.mem_cons_of_mem _ List.mem_cons_self, rfl, rfl⟩

/-! ## Meta houses -/

/-- The arguments of the planner, each of the type that it declares. -/
def planArgs (lead : Option String) (contributors : List String) (verifyCount : Int)
    (includeDataChecker : Bool) (monitorHouse metaHouse : Option String) (metaHouses : List String)
    (maxAttempts : Int) : PlanArgs :=
  { lead := optStr lead, contributors, verifyCount := .int verifyCount, includeDataChecker,
    monitorHouse := optStr monitorHouse, metaHouse := optStr metaHouse, metaHouses, maxAttempts }

section Firewall

variable {runType : String} {contributors : List String} {verifyCount : Int}
  {includeDataChecker : Bool} {monitorHouse metaHouse : Option String} {maxAttempts : Int}
  {stages : List StageIn} {leadHouse : Option String}

/-- No stage is assigned to a house of the list. -/
def Avoids (houses : List String) (stages : List StageIn) : Prop :=
  ∀ stage ∈ stages, ∀ house ∈ houses, stage.house ≠ .str house

/-- Where a meta house gets past the planner: as the first contributor, if it becomes the data
checker of an initiation whose lead and verifiers are none, and as the house of a monitor. -/
def MetaPasses (runType : String) (leadHouse : Option String) (contributors : List String)
    (verifyCount : Int) (includeDataChecker : Bool) (monitorHouse : Option String)
    (metaHouses : List String) : Prop :=
  (runType = "initiation" ∧ includeDataChecker = true ∧
      (∃ c ∈ metaHouses, contributors.head? = some c) ∧
      (∀ c ∈ metaHouses, leadHouse ≠ some c) ∧
      ∀ c ∈ metaHouses,
        c ∉ pickVerifiers (orderContributors contributors fun _ => none) verifyCount) ∨
    (runType = "monitor_tick" ∧
      ∃ c ∈ metaHouses, (monitorHouse.filter (· ≠ "")).or leadHouse = some c)

theorem optStr_eq_str {value : Option String} {text : String} :
    optStr value = .str text ↔ value = some text := by
  cases value <;> simp [optStr]

theorem orElse_optStr {value other : Option String} :
    (optStr value).orElse (optStr other) = optStr ((value.filter (· ≠ "")).or other) := by
  cases value with
  | none => rfl
  | some text =>
      by_cases htext : text = "" <;>
        simp [optStr, Json.orElse, Json.truthy, Option.filter, htext]

theorem chk_optStr {u : Unit} :
    chk metaHouses (optStr leadHouse) = .ok u ↔ ∀ c ∈ metaHouses, leadHouse ≠ some c := by
  cases leadHouse with
  | none => exact iff_of_true rfl nofun
  | some lead =>
      rw [optStr, chk_str]
      exact ⟨fun h c hc hlead => h (Option.some.inj hlead ▸ hc), fun h hc => h lead hc rfl⟩

/-- The planner refuses a house by a `PlanError`. -/
theorem failsOnly_chk (metaHouses : List String) (leadHouse : Option String) :
    FailsOnly (fun error => ∃ message, error = .planError message)
      (chk metaHouses (optStr leadHouse)) := by
  cases leadHouse with
  | none => exact .ok _
  | some lead => exact .ite (.failed ⟨_, rfl⟩) (.ok _)

theorem failsOnly_forM_chk {houses : List String} :
    FailsOnly (fun error => ∃ message, error = .planError message)
      (houses.forM fun c => chk metaHouses (.str c)) := by
  induction houses with
  | nil => exact .ok _
  | cons c houses ih => exact (failsOnly_chk metaHouses (some c)).bind fun _ => ih

/-- With arguments of the declared types the planner raises nothing but `PlanError`. -/
theorem failsOnly_planStages :
    FailsOnly (fun error => ∃ message, error = .planError message)
      (planStages runType (planArgs leadHouse contributors verifyCount includeDataChecker monitorHouse
        metaHouse metaHouses maxAttempts)) := by
  unfold planStages
  split
  · exact (failsOnly_chk _ _).bind fun _ => .bind (.ok _) fun _ => failsOnly_forM_chk.bind fun _ => .ok _
  · refine (failsOnly_chk _ _).bind fun _ => .bind (.ok _) fun verifiers => ?_
    cases verifiers with
    | nil => exact .ok _
    | cons v _ => exact (failsOnly_chk metaHouses (some v)).bind fun _ => .ok _
  · exact (failsOnly_chk _ _).bind fun _ => .ok _
  · exact .ok _
  · exact (failsOnly_chk _ _).bind fun _ => .ok _
  · exact failsOnly_forM_chk.bind fun _ => .ok _
  · exact .ok _
  · exact .failed ⟨_, rfl⟩

theorem avoids_singleton {stage : StageIn} {value : Option String}
    (hstage : stage.house = optStr value) :
    Avoids metaHouses [stage] ↔ ∀ c ∈ metaHouses, value ≠ some c := by
  simp only [Avoids, List.forall_mem_singleton, hstage, ne_eq, optStr_eq_str]

theorem PlanArgs.avoids_review {args : PlanArgs} {verifiers : List String}
    (hlead : ∀ c ∈ metaHouses, args.lead ≠ .str c) (hmeta : ∀ c ∈ verifiers, c ∉ metaHouses) :
    Avoids metaHouses (args.review verifiers) := by
  intro stage hstage c hc heq
  obtain ⟨-, hhouse⟩ | ⟨-, v, hv, hhouse⟩ := PlanArgs.of_mem_review hstage
  · exact hlead c hc (hhouse.symm.trans heq)
  · rw [hhouse, Json.str.injEq] at heq
    exact hmeta v hv (heq ▸ hc)

/-- An initiation whose lead and verifiers are no meta houses avoids them but for its checker. -/
theorem PlanArgs.avoids_initiationStages (args : PlanArgs) {verifiers : List String}
    (hlead : ∀ c ∈ metaHouses, args.lead ≠ .str c) (hmeta : ∀ c ∈ verifiers, c ∉ metaHouses) :
    Avoids metaHouses (args.initiationStages verifiers) ↔
      ¬ (args.includeDataChecker = true ∧ ∃ c ∈ metaHouses, args.contributors.head? = some c) := by
  constructor
  · rintro havoids ⟨hcheck, c, hc, hfirst⟩
    have hchecker : args.stage (verifiers.length + 2) .dataChecker (.str c)
        (some (verifiers.length + 2 - 1)) ∈ args.initiationStages verifiers := by
      simp [PlanArgs.initiationStages, hcheck, hfirst]
    exact havoids _ hchecker c hc rfl
  · intro hchecker stage hstage c hc heq
    obtain hreview | ⟨-, hcheck, hhouse⟩ | ⟨-, hhouse⟩ := PlanArgs.of_mem_initiationStages hstage
    · exact PlanArgs.avoids_review hlead hmeta stage hreview c hc heq
    · cases hfirst : args.contributors.head? with
      | none =>
          rw [hfirst] at hhouse
          exact hlead c hc (hhouse.symm.trans heq)
      | some first =>
          rw [hfirst] at hhouse
          obtain rfl : first = c := Json.str.inj (hhouse.symm.trans heq)
          exact hchecker ⟨hcheck, first, hc, hfirst⟩
    · exact hlead c hc (hhouse.symm.trans heq)

theorem avoids_planStages_iff (hrunType : runType ≠ "distillation")
    (h : planStages runType (planArgs leadHouse contributors verifyCount includeDataChecker monitorHouse
      metaHouse metaHouses maxAttempts) = .ok stages) :
    Avoids metaHouses stages ↔ ¬ MetaPasses runType leadHouse contributors verifyCount
      includeDataChecker monitorHouse metaHouses := by
  have hother (havoids : Avoids metaHouses stages) (hinitiation : runType ≠ "initiation")
      (hmonitor : runType ≠ "monitor_tick") : Avoids metaHouses stages ↔ ¬ MetaPasses runType
        leadHouse contributors verifyCount includeDataChecker monitorHouse metaHouses :=
    iff_of_true havoids fun hpasses => hpasses.elim (fun h => hinitiation h.1) fun h => hmonitor h.1
  have hlead (h : chk metaHouses (optStr leadHouse) = .ok ()) :
      ∀ c ∈ metaHouses, optStr leadHouse ≠ .str c := fun c hc heq =>
    chk_optStr.1 h c hc (optStr_eq_str.1 heq)
  by_cases hreview : runType = "deep_review"
  · subst hreview
    obtain ⟨hchk, verifiers, -, hmeta, rfl⟩ := planDeepReview_iff.1 h
    exact hother (PlanArgs.avoids_review (hlead hchk) hmeta) (by decide) (by decide)
  unfold planStages at h
  split at h
  · obtain ⟨hchk, verifiers, hverifiers, hmeta, rfl⟩ := planInitiation_iff.1 h
    obtain ⟨k, hk, rfl⟩ := planVerifiers_iff.1 hverifiers
    obtain rfl : verifyCount = k := Except.ok.inj hk
    have havoids := (planArgs leadHouse contributors verifyCount includeDataChecker monitorHouse
      metaHouse metaHouses maxAttempts).avoids_initiationStages (hlead hchk) hmeta
    refine havoids.trans (not_congr ?_)
    refine ⟨fun ⟨hcheck, hfirst⟩ => .inl ⟨rfl, hcheck, hfirst, chk_optStr.1 hchk,
      fun c hc hpicked => hmeta c hpicked hc⟩, fun hpasses => ?_⟩
    obtain ⟨-, hcheck, hfirst, -⟩ | ⟨hmonitor, -⟩ := hpasses
    · exact ⟨hcheck, hfirst⟩
    · exact absurd hmonitor (by decide)
  · exact absurd rfl hreview
  · obtain ⟨_, hchk, h⟩ := ok_bind_iff.1 h
    cases h
    exact hother ((avoids_singleton rfl).2 (chk_optStr.1 hchk)) (by decide) (by decide)
  · cases h
    rw [avoids_singleton orElse_optStr]
    simp [MetaPasses]
  · obtain ⟨_, hchk, h⟩ := ok_bind_iff.1 h
    cases h
    exact hother ((avoids_singleton rfl).2 (chk_optStr.1 hchk)) (by decide) (by decide)
  · obtain ⟨_, hchk, h⟩ := ok_bind_iff.1 h
    cases h
    refine hother (fun stage hstage c hc heq => ?_) (by decide) (by decide)
    obtain ⟨⟨v, i⟩, hv, rfl⟩ := List.mem_map.1 hstage
    obtain rfl : v = c := Json.str.inj heq
    exact forM_chk.1 hchk v ((List.mem_zipIdx' hv).2 ▸ List.getElem_mem _) hc
  · exact absurd rfl hrunType
  · cases h

end Firewall

/-- The house's meta flag is set. -/
def Db.isMeta (db : Db) (house : String) : Prop := ∃ h ∈ db.houses, h.key = house ∧ h.isMeta = true

/-- Where a meta house gets past the cross-check: as the first of the contributors chosen for the
coverage, or as the author's house where the coverage has no contributor at all. -/
def Db.MetaChecks (db : Db) (covId : Nat) (cov : Coverage) (author : String) : Prop :=
  (∃ row ∈ db.contributors, row.coverageId = covId ∧ db.isMeta row.house ∧
      ∀ other ∈ db.contributors, other.coverageId = covId → row.house ≤ other.house) ∨
    ((∀ row ∈ db.contributors, row.coverageId ≠ covId) ∧
      (∀ h ∈ db.houses, h.eligible = true → cov.leadHouse = some h.key) ∧ db.isMeta author)

/-- The cross-check goes to the first contributor, or to the author, under the run's policy. -/
theorem of_appended {run : Run} {stage row : RunStage} {result : JsonObject}
    {lastTp : Option Decimal} {u : Unit}
    (h : Returns (Engine.maybeAppendCrossCheck env fund runId run stage result lastTp) s u s')
    (hrow : row ∈ s'.loaded.stages.drop s.loaded.stages.length) :
    ∃ covId contributors policy, run.coverageId = some covId ∧
      Returns (resolveContributors covId) s contributors s ∧
      fund.policy run.type.value = .ok policy ∧ row.role = .crossCheck ∧ row.runId = runId ∧
      row.house = contributors.head?.getD stage.house ∧ row.maxAttempts = policy.maxAttempts := by
  have hnothing (hs : s' = s) : False := by
    rw [hs, List.drop_length] at hrow
    cases hrow
  unfold Engine.maybeAppendCrossCheck at h
  obtain ⟨fires, -, h⟩ := returns_ofExcept_bind.1 h
  split_ifs at h
  · exact (hnothing (returns_pure.1 h).2).elim
  · rw [returns_select_bind] at h
    split_ifs at h
    · exact (hnothing (returns_pure.1 h).2).elim
    · cases hcov : run.coverageId with
      | none =>
          rw [hcov] at h
          exact absurd h not_returns_raise
      | some covId =>
          rw [hcov] at h
          obtain ⟨contributors, s₁, hcontributors, h⟩ := returns_bind.1 h
          rw [reads_resolveContributors hcontributors, returns_select_bind] at h
          rw [reads_resolveContributors hcontributors] at hcontributors
          obtain ⟨policy, hpolicy, h⟩ := returns_ofExcept_bind.1 h
          rw [returns_assign] at h
          subst h
          rw [List.drop_left, List.mem_singleton] at hrow
          subst hrow
          exact ⟨covId, contributors, policy, rfl, hcontributors, hpolicy, rfl, rfl, rfl, rfl⟩

theorem isMeta_crossCheck_iff {author : String} (hkeys : (db.houses.map (·.key)).Nodup) :
    db.isMeta ((db.contributorsOf covId cov).head?.getD author) ↔
      db.MetaChecks covId cov author := by
  have hrows {p : String → Prop} :
      (∀ house ∈ (db.contributors.filter fun row => row.coverageId = covId).map (·.house), p house) ↔
        ∀ row ∈ db.contributors, row.coverageId = covId → p row.house := by
    simp only [List.forall_mem_map, List.mem_filter, decide_eq_true_eq, and_imp]
  unfold Db.contributorsOf Db.MetaChecks
  by_cases hchosen : (db.contributors.filter fun row => row.coverageId = covId).isEmpty = true
  · have hnone : ∀ row ∈ db.contributors, row.coverageId ≠ covId := by simpa using hchosen
    rw [if_pos hchosen, or_iff_right fun ⟨row, hrow, hcov, _⟩ => hnone row hrow hcov,
      and_iff_right hnone, resolveDefault, sorted]
    cases hfirst : List.head? _ with
    | none =>
        have hempty : ∀ h ∈ db.houses, h.eligible = true → cov.leadHouse = some h.key := by
          rw [List.head?_eq_none_iff, ← List.length_eq_zero_iff, List.length_insertionSort,
            List.length_eq_zero_iff, List.map_eq_nil_iff, List.filter_eq_nil_iff,
            List.forall_mem_map] at hfirst
          intro h hh heligible
          by_contra hlead
          refine hfirst h hh ?_
          simpa [House.eligible, Ne.symm hlead] using heligible
        rw [and_iff_right hempty]
        rfl
    | some c =>
        obtain ⟨hmem, -⟩ := head?_insertionSort.1 hfirst
        rw [← List.mem_insertionSort (· ≤ ·)] at hmem
        obtain ⟨info, hinfo, heligible, rfl⟩ := mem_resolveDefault.1 hmem
        obtain ⟨h, hh, rfl⟩ := List.mem_map.1 hinfo
        simp only [Bool.and_eq_true, decide_eq_true_eq, Bool.not_eq_true'] at heligible
        obtain ⟨⟨⟨henabled, hassignable⟩, hplain⟩, hlead⟩ := heligible
        refine iff_of_false ?_ fun hall => hlead.symm (hall.1 h hh ?_)
        · rintro ⟨other, hother, hkey, hmeta⟩
          obtain rfl := List.inj_on_of_nodup_map hkeys hother hh hkey
          rw [hmeta] at hplain
          cases hplain
        · simp [House.eligible, henabled, hassignable, hplain]
  · have hsome : ¬ ∀ row ∈ db.contributors, row.coverageId ≠ covId := by simpa using hchosen
    rw [if_neg hchosen, or_iff_left fun h => hsome h.1, sorted]
    cases hfirst : List.head? _ with
    | none =>
        rw [List.head?_eq_none_iff, ← List.length_eq_zero_iff, List.length_insertionSort,
          List.length_eq_zero_iff, List.map_eq_nil_iff, ← List.isEmpty_iff] at hfirst
        exact absurd hfirst hchosen
    | some c =>
        obtain ⟨hmem, hleast⟩ := head?_insertionSort.1 hfirst
        rw [hrows] at hleast
        obtain ⟨row, hrow, rfl⟩ := List.mem_map.1 hmem
        obtain ⟨hrow, hcov⟩ := List.mem_filter.1 hrow
        rw [decide_eq_true_eq] at hcov
        constructor
        · exact fun hmeta => ⟨row, hrow, hcov, hmeta, hleast⟩
        · rintro ⟨other, hother, hcov', hmeta, hleast'⟩
          have hsame := le_antisymm (hleast other hother hcov') (hleast' row hrow hcov)
          exact hsame ▸ hmeta

section Firewall

variable {runType : String} {leadHouse monitorHouse metaHouse : Option String}
  {contributors : List String} {verifyCount maxAttempts : Int} {includeDataChecker : Bool}

/-- The planner raises `PlanError`, or assigns no stage to a meta house. -/
def PlanArgs.Firewalled (args : PlanArgs) (runType : String) : Prop :=
  (∃ message, planStages runType args = .error (.planError message)) ∨
    ∃ stages, planStages runType args = .ok stages ∧ Avoids args.metaHouses stages

/-- The planner does not refuse arguments that let a meta house pass. -/
theorem planned_of_metaPasses (metaHouse : Option String) (maxAttempts : Int)
    (h : MetaPasses runType leadHouse contributors verifyCount includeDataChecker monitorHouse
      metaHouses) :
    ∃ stages, planStages runType (planArgs leadHouse contributors verifyCount includeDataChecker
      monitorHouse metaHouse metaHouses maxAttempts) = .ok stages := by
  obtain ⟨rfl, -, -, hlead, hverifiers⟩ | ⟨rfl, -⟩ := h
  · exact ⟨_, planInitiation_iff.2 ⟨chk_optStr.2 hlead, _, planVerifiers_iff.2 ⟨_, rfl, rfl⟩,
      fun c hc hmeta => hverifiers c hmeta hc, rfl⟩⟩
  · exact ⟨_, rfl⟩

/-- The planner raises `PlanError` or assigns no stage to a meta house, but where one passes. -/
theorem firewalled_iff (hrunType : runType ≠ "distillation") :
    (planArgs leadHouse contributors verifyCount includeDataChecker monitorHouse metaHouse metaHouses
        maxAttempts).Firewalled runType ↔
      ¬ MetaPasses runType leadHouse contributors verifyCount includeDataChecker monitorHouse
        metaHouses := by
  constructor
  · rintro (⟨message, hplan⟩ | ⟨stages, hplan, havoids⟩)
    · intro hpasses
      obtain ⟨stages, hok⟩ := planned_of_metaPasses metaHouse maxAttempts hpasses
      rw [hplan] at hok
      cases hok
    · exact (avoids_planStages_iff hrunType hplan).1 havoids
  · intro hpasses
    cases hplan : planStages runType (planArgs leadHouse contributors verifyCount
      includeDataChecker monitorHouse metaHouse metaHouses maxAttempts) with
    | ok stages => exact .inr ⟨stages, hplan, (avoids_planStages_iff hrunType hplan).2 hpasses⟩
    | error error =>
        obtain ⟨message, rfl⟩ := failsOnly_planStages error hplan
        exact .inl ⟨message, hplan⟩

/-- A session in which a cross-check may be appended to a run of the coverage. -/
structure Checks (env : Env) (fund : FundConfig) (runId covId : Nat) (cov : Coverage) (run : Run)
    (stage : RunStage) (result : JsonObject) (lastTp : Option Decimal) (s s' : Session Db) :
    Prop where
  keys : (s.stored.houses.map (·.key)).Nodup
  covered : run.coverageId = some covId
  stored : covId < s.stored.coverages.length
  loaded : s.loaded.coverages[covId]? = some cov
  returns : Returns (Engine.maybeAppendCrossCheck env fund runId run stage result lastTp) s () s'

/-- A cross-check that is appended goes to no meta house, but where one passes. -/
theorem Checks.isMeta_iff {run : Run} {stage row : RunStage} {result : JsonObject}
    {lastTp : Option Decimal} (h : Checks env fund runId covId cov run stage result lastTp s s')
    (hrow : row ∈ s'.loaded.stages.drop s.loaded.stages.length) :
    s.stored.isMeta row.house ↔ s.stored.MetaChecks covId cov stage.house := by
  obtain ⟨found, contributors, policy, hfound, hresolved, -, -, -, hhouse, -⟩ :=
    of_appended h.returns hrow
  obtain rfl := Option.some.inj (h.covered.symm.trans hfound)
  rw [hhouse, ((returns_contributorsOf h.loaded h.stored).1 hresolved).1, isMeta_crossCheck_iff h.keys]

/-- The meta firewall holds but where a meta house passes: the planner raises `PlanError` or assigns
no stage to a meta house, and no cross-check goes to one. -/
theorem metaFirewall_iff (hrunType : runType ≠ "distillation") :
    ((planArgs leadHouse contributors verifyCount includeDataChecker monitorHouse metaHouse metaHouses
          maxAttempts).Firewalled runType ↔
        ¬ MetaPasses runType leadHouse contributors verifyCount includeDataChecker monitorHouse
          metaHouses) ∧
      ∀ (env : Env) (fund : FundConfig) (runId covId : Nat) (cov : Coverage) (run : Run)
        (stage : RunStage) (result : JsonObject) (lastTp : Option Decimal) (s s' : Session Db),
        Checks env fund runId covId cov run stage result lastTp s s' →
          ∀ row ∈ s'.loaded.stages.drop s.loaded.stages.length,
            ¬ s.stored.isMeta row.house ↔ ¬ s.stored.MetaChecks covId cov stage.house :=
  ⟨firewalled_iff hrunType, fun _ _ _ _ _ _ _ _ _ _ _ h _ hrow => not_congr (h.isMeta_iff hrow)⟩

def Coverage.apple : Coverage :=
  { ticker := "AAPL", exchange := "US", name := "Apple", currency := "USD", state := .active,
    leadHouse := some "gpt", dossierSlug := "us_aapl" }

/-- The coverage of Apple with contributors that have been chosen. -/
def Db.appleChecked (contributors : List String) : Db where
  houses := [{ key := "claude" }, { key := "gpt" }, { key := "oracle", isMeta := true }]
  coverages := [.apple]
  contributors := contributors.map fun house => { coverageId := 0, house }

def Run.analysis : Run :=
  { coverageId := some 0, type := .eventAnalysis, status := .running, trigger := "pm",
    mutatesDossier := true, createdAt := 0 }

def RunStage.analyst : RunStage :=
  { runId := 0, seq := 1, role := .author, house := "gpt", substrate := .harness, availableAt := 0,
    maxAttempts := 1 }

def doubledResult : JsonObject :=
  [("predictions", .arr [.obj [("kind", .str "target_price"), ("value", .int 200)]])]

/-- The cross-check after an author doubled the target price. -/
def doubled : DbTxn Unit :=
  Engine.maybeAppendCrossCheck (.quiet 0) App.small.fund 0 .analysis .analyst doubledResult
    (some (.finite 100 0))

theorem checks_doubled {contributors : List String}
    (h : Returns doubled (Session.clean (.appleChecked contributors)) () s') :
    Checks (.quiet 0) App.small.fund 0 0 .apple .analysis .analyst doubledResult
      (some (.finite 100 0)) (Session.clean (.appleChecked contributors)) s' :=
  ⟨by change ["claude", "gpt", "oracle"].Nodup; decide, rfl, Nat.zero_lt_one, rfl, h⟩

/-- The first contributor is a meta house: it becomes the data checker, or gets the cross-check. -/
theorem not_metaFirewall_checker :
    ¬ (planArgs (some "gpt") ["oracle"] 0 true none none ["oracle"] 1).Firewalled "initiation" ∧
      ∃ s', Returns doubled (Session.clean (.appleChecked ["oracle"])) () s' ∧
        ∃ row ∈ s'.loaded.stages, (Db.appleChecked ["oracle"]).isMeta row.house := by
  constructor
  · rintro (⟨message, hplan⟩ | ⟨stages, hplan, havoids⟩)
    · cases hplan
    · cases hplan
      exact havoids _ (List.mem_cons_of_mem _ List.mem_cons_self) "oracle" List.mem_cons_self rfl
  · obtain ⟨_, s', h, hhouses⟩ := exists_returns (m := doubled)
      (s := Session.clean (.appleChecked ["oracle"]))
      (p := fun _ s' => decide (∃ row ∈ s'.loaded.stages, row.house = "oracle")) (by decide +kernel)
    obtain ⟨row, hrow, hhouse⟩ := of_decide_eq_true hhouses
    exact ⟨s', h, row, hrow, { key := "oracle", isMeta := true },
      List.mem_cons_of_mem _ (List.mem_cons_of_mem _ List.mem_cons_self), hhouse.symm, rfl⟩

/-- With another house for contributor both keep the meta house out. -/
theorem metaFirewall_apple :
    (planArgs (some "gpt") ["claude"] 1 true none none ["oracle"] 1).Firewalled "initiation" ∧
      ∃ s', Returns doubled (Session.clean (.appleChecked ["claude"])) () s' ∧
        s'.loaded.stages.map (·.house) = ["claude"] ∧
          ∀ row ∈ s'.loaded.stages.drop 0, ¬ (Db.appleChecked ["claude"]).isMeta row.house := by
  have hpasses : ¬ MetaPasses "initiation" (some "gpt") ["claude"] 1 true none ["oracle"] := by
    unfold MetaPasses
    decide +kernel
  have hchecks : ¬ (Db.appleChecked ["claude"]).MetaChecks 0 .apple "gpt" := by
    unfold Db.MetaChecks Db.isMeta
    decide +kernel
  obtain ⟨_, s', h, hhouses⟩ := exists_returns (m := doubled)
    (s := Session.clean (.appleChecked ["claude"]))
    (p := fun _ s' => decide (s'.loaded.stages.map (·.house) = ["claude"])) (by decide +kernel)
  obtain ⟨hplans, happends⟩ : ((planArgs (some "gpt") ["claude"] 1 true none none ["oracle"]
      1).Firewalled "initiation" ↔ _) ∧ _ := metaFirewall_iff (by decide)
  refine ⟨hplans.2 hpasses, s', h, of_decide_eq_true hhouses, fun row hrow => ?_⟩
  exact (happends _ _ _ _ _ _ _ _ _ _ _ (checks_doubled h) row hrow).2 hchecks

end Firewall

end AiFund
