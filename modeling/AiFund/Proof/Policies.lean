import AiFund.Proof.Houses

/-!
# Policies

When the creation of a run succeeds. Five of the seven run types are created as their policy says;
the planner is called without the attempts of the other two, and raises.
-/

namespace AiFund

open UnitOfWork Rows

variable {env : Env} {fund : FundConfig} {metaHouses : List String} {trigger : String}
  {params : JsonObject} {requestedBy triggerRef : Option String} {runId : Nat}
  {coverageId : Option Nat} {policy : RunPolicy} {type : RunType} {s s' : Session Db} {db : Db}
  {leadHouse : String} {contributors : List String} {plan : List StageIn}

/-- The arguments of the planner under a policy. -/
def RunPolicy.planArgs (policy : RunPolicy) (fund : FundConfig) (params : JsonObject) (lead : Json)
    (contributors metaHouses : List String) : PlanArgs :=
  { lead, contributors, metaHouses, maxAttempts := policy.maxAttempts,
    verifyCount := Engine.getD params "verify_count" (.int policy.verifyCount),
    includeDataChecker := policy.includeDataChecker, monitorHouse := .str fund.monitorHouse }

/-- The run type is one that is planned under its policy, with a monitor that exists if it needs
one. -/
def RunType.Plannable (type : RunType) (fund : FundConfig) (db : Db) : Prop :=
  type ≠ .leadReview ∧ type ≠ .distillation ∧
    (type = .monitorTick → fund.monitorHouse ≠ "" ∧ db.isHouse fund.monitorHouse = true)

/-- A run is asked for under a policy of its own, of a coverage, a lead and contributors that exist
and are no meta houses, with a trigger reference that is not taken. -/
structure Askable (env : Env) (fund : FundConfig) (metaHouses : List String) (type : RunType)
    (coverageId : Option Nat) (params : JsonObject) (triggerRef : Option String) (policy : RunPolicy)
    (db : Db) : Prop where
  legal : Schema.violation db = none
  configured : fund.policy type.value = .ok policy
  coverage : ∀ covId, coverageId = some covId → covId < db.coverages.length
  required : coverageId.isSome = true ∨ type = .distillation
  lead : type ≠ .distillation → ∃ lead, db.leadFor coverageId params = .str lead ∧
    db.isHouse lead = true ∧ lead ∉ metaHouses
  contributors : ∀ covId cov, coverageId = some covId → db.coverages[covId]? = some cov →
    ∀ c ∈ db.contributorsOf covId cov, db.isHouse c = true ∧ c ∉ metaHouses
  verifyCount : ∃ n, sliceBound (Engine.getD params "verify_count" (.int policy.verifyCount)) = .ok n
  priority : ∃ n, env.runtime.integer (Engine.getD params "priority" (.int 100)) = some n
  fresh : ∀ covId ref, coverageId = some covId → triggerRef = some ref →
    (covId, type, ref) ∉ db.runs.filterMap Run.triggerKey

/-- The driver stores the key of a house as it is, and null as NULL. -/
structure Runtime.BindsHouses (runtime : Runtime) (db : Db) : Prop where
  house : ∀ house, db.isHouse house = true → runtime.text (.str house) = some (some house)
  text : runtime.StoresText
  null : runtime.text .null = some none

/-! ## Plans -/

theorem Json.orElse_str {text : String} {other : Json} (htext : text ≠ "") :
    (Json.str text).orElse other = .str text := by
  simp [Json.orElse, Json.truthy, htext]

theorem planFor_eq (hplannable : type.Plannable fund db) (lead : Json) :
    Engine.planFor type policy fund params lead contributors metaHouses =
      planStages type.value (policy.planArgs fund params lead contributors metaHouses) := by
  obtain ⟨hreview, hdistillation, hmonitor⟩ := hplannable
  cases type with
  | leadReview => exact absurd rfl hreview
  | distillation => exact absurd rfl hdistillation
  | monitorTick =>
      obtain ⟨hname, -⟩ := hmonitor rfl
      change Except.ok [_] = Except.ok [_]
      simp only [RunPolicy.planArgs, Json.orElse_str hname]
  | _ => rfl

/-- The plan of a run is a chain, and no house of it is new. -/
theorem planned (hplannable : type.Plannable fund db) (hverify : ∃ n, sliceBound
      (Engine.getD params "verify_count" (.int policy.verifyCount)) = .ok n)
    (hlead : db.isHouse leadHouse = true ∧ leadHouse ∉ metaHouses)
    (hcontributors : ∀ c ∈ contributors, db.isHouse c = true ∧ c ∉ metaHouses) :
    ∃ plan, planStages type.value
        (policy.planArgs fund params (.str leadHouse) contributors metaHouses) = .ok plan ∧
      Chain plan ∧ (∀ stage ∈ plan, stage.maxAttempts = policy.maxAttempts) ∧
      ∀ stage ∈ plan, ∃ house, stage.house = .str house ∧ db.isHouse house = true := by
  obtain ⟨hhouse, hmeta⟩ := hlead
  let args := policy.planArgs fund params (.str leadHouse) contributors metaHouses
  have hchk : chk args.metaHouses args.lead = .ok () := chk_str.2 hmeta
  have hpicked {k : Int} : ∀ c ∈ pickVerifiers (orderContributors contributors fun _ => none) k,
      c ∈ contributors := fun c hc =>
    (orderContributors_perm _ _).mem_iff.1 (List.mem_of_mem_take hc)
  have hreview {k : Int} : ∀ stage ∈ args.review
      (pickVerifiers (orderContributors contributors fun _ => none) k),
      ∃ house, stage.house = .str house ∧ db.isHouse house = true := by
    intro stage hstage
    obtain ⟨-, hauthor⟩ | ⟨-, c, hc, hverifier⟩ := PlanArgs.of_mem_review hstage
    · exact ⟨leadHouse, hauthor, hhouse⟩
    · exact ⟨c, hverifier, (hcontributors c (hpicked c hc)).1⟩
  have hsingle {stage : StageIn} {house : String} (hplan : planStages type.value args = .ok [stage])
      (hseq : stage.seq = 1) (hdepends : stage.dependsOnSeq = none)
      (hattempts : stage.maxAttempts = policy.maxAttempts) (hstage : stage.house = .str house)
      (hexists : db.isHouse house = true) : ∃ plan, planStages type.value args = .ok plan ∧
        Chain plan ∧ (∀ stage ∈ plan, stage.maxAttempts = policy.maxAttempts) ∧
        ∀ stage ∈ plan, ∃ house, stage.house = .str house ∧ db.isHouse house = true :=
    ⟨_, hplan, .single hseq hdepends, List.forall_mem_singleton.2 hattempts,
      List.forall_mem_singleton.2 ⟨house, hstage, hexists⟩⟩
  cases type with
  | initiation =>
      obtain ⟨k, hk⟩ := hverify
      refine ⟨_, planInitiation_iff.2 ⟨hchk, _, planVerifiers_iff.2 ⟨k, hk, rfl⟩,
        fun c hc => (hcontributors c (hpicked c hc)).2, rfl⟩, Chain.initiationStages _ _,
        fun stage hstage => PlanArgs.maxAttempts_of_mem hstage, fun stage hstage => ?_⟩
      obtain hin | ⟨-, -, hchecker⟩ | ⟨-, hfinalizer⟩ := PlanArgs.of_mem_initiationStages hstage
      · exact hreview stage hin
      · cases hfirst : contributors.head? with
        | none => exact ⟨leadHouse, hchecker.trans (by simp [RunPolicy.planArgs, hfirst]), hhouse⟩
        | some c => exact ⟨c, hchecker.trans (by simp [RunPolicy.planArgs, hfirst]),
            (hcontributors c (List.mem_of_mem_head? hfirst)).1⟩
      · exact ⟨leadHouse, hfinalizer, hhouse⟩
  | deepReview =>
      refine ⟨_, planDeepReview_iff.2 ⟨hchk, _, planVerifiers_iff.2 ⟨1, rfl, rfl⟩,
        fun c hc => (hcontributors c (hpicked c hc)).2, rfl⟩, Chain.review _ _,
        fun stage hstage => PlanArgs.maxAttempts_of_mem (List.mem_append_left _ hstage), hreview⟩
  | eventAnalysis => exact hsingle (ok_bind_iff.2 ⟨(), hchk, rfl⟩) rfl rfl rfl rfl hhouse
  | pmQuery => exact hsingle (ok_bind_iff.2 ⟨(), hchk, rfl⟩) rfl rfl rfl rfl hhouse
  | monitorTick =>
      obtain ⟨hname, hexists⟩ := hplannable.2.2 rfl
      exact hsingle rfl rfl rfl rfl (Json.orElse_str hname) hexists
  | leadReview => exact absurd rfl hplannable.1
  | distillation => exact absurd rfl hplannable.2.1

/-! ## Creation under a policy -/

/-- The contributors of the coverage that a run is for. -/
def Db.contributorsFor (db : Db) (coverageId : Option Nat) : List String :=
  match coverageId with
  | none => []
  | some covId => (db.coverages[covId]?).elim [] (db.contributorsOf covId)

/-- The run is queued under the cap of its policy, its stages are the planner's for its type, and
every stage, also of a cross-check that is appended later, may be attempted as often as the policy
says. -/
structure PinsPolicy (env : Env) (fund : FundConfig) (metaHouses : List String) (type : RunType)
    (coverageId : Option Nat) (params : JsonObject) (policy : RunPolicy) (db : Db) (runId : Nat)
    (after : Db) : Prop where
  run : ∃ run, after.runs[runId]? = some run ∧ run.type = type ∧ run.status = .queued ∧
    run.budgetCapUsd = some policy.budgetCapUsd
  stages : ∃ plan, planStages type.value (policy.planArgs fund params
      (db.leadFor coverageId params) (db.contributorsFor coverageId) metaHouses) = .ok plan ∧
    plan.mapM (fun stage => stage.toRow env runId) =
      .ok (after.stages.filter fun stage => stage.runId = runId)
  attempts : ∀ stage ∈ after.stages, stage.runId = runId → stage.maxAttempts = policy.maxAttempts
  crossCheck : ∀ (env' : Env) (run : Run) (stage row : RunStage) (result : JsonObject)
    (lastTp : Option Decimal) (s s' : Session Db), run.type = type →
    Returns (Engine.maybeAppendCrossCheck env' fund runId run stage result lastTp) s () s' →
    row ∈ s'.loaded.stages.drop s.loaded.stages.length → row.maxAttempts = policy.maxAttempts

theorem StageIn.toRow_of_binds {stage : StageIn} {house : String} (runId : Nat)
    (htext : env.runtime.text (.str house) = some (some house)) (hhouse : stage.house = .str house) :
    ∃ row, stage.toRow env runId = .ok row ∧ row.runId = runId ∧ row.seq = stage.seq ∧
      row.maxAttempts = stage.maxAttempts ∧ row.house = house := by
  have hrequired : required "run_stages.house" (env.runtime.bindText stage.house) = .ok house := by
    rw [hhouse, Runtime.bindText, htext]
    rfl
  refine ⟨{ runId, seq := stage.seq, role := stage.role, house, substrate := stage.substrate,
            dependsOnSeq := stage.dependsOnSeq, availableAt := env.now,
            maxAttempts := stage.maxAttempts }, ?_, rfl, rfl, rfl, rfl⟩
  rw [StageIn.toRow, hrequired]
  rfl

theorem mapM_toRow (runId : Nat) (hbinds : env.runtime.BindsHouses db)
    (hhouses : ∀ stage ∈ plan, ∃ house, stage.house = .str house ∧ db.isHouse house = true) :
    ∃ rows, plan.mapM (fun stage => stage.toRow env runId) = .ok rows ∧
      rows.map (·.seq) = plan.map (·.seq) ∧
      rows.map (·.maxAttempts) = plan.map (·.maxAttempts) ∧
      ∀ row ∈ rows, row.runId = runId ∧ db.isHouse row.house = true := by
  induction plan with
  | nil => exact ⟨[], List.mapM_nil, rfl, rfl, fun _ h => absurd h List.not_mem_nil⟩
  | cons stage plan ih =>
      obtain ⟨house, hhouse, hexists⟩ := hhouses stage List.mem_cons_self
      obtain ⟨row, hrow, hrun, hseq, hattempts, rfl⟩ :=
        StageIn.toRow_of_binds runId (hbinds.house house hexists) hhouse
      obtain ⟨rows, hrows, hseqs, hall, hvalid⟩ :=
        ih fun other hother => hhouses other (List.mem_cons_of_mem _ hother)
      refine ⟨row :: rows, ?_, ?_, ?_, List.forall_mem_cons.2 ⟨⟨hrun, hexists⟩, hvalid⟩⟩
      · rw [List.mapM_cons, hrow, hrows]
        rfl
      · rw [List.map_cons, List.map_cons, hseq, hseqs]
      · rw [List.map_cons, List.map_cons, hattempts, hall]

theorem Chain.nodup_seq (h : Chain plan) : (plan.map (·.seq)).Nodup := by
  refine List.nodup_iff_injective_getElem.2 fun i j hsame => Fin.ext ?_
  simp only [List.getElem_map] at hsame
  have hi := h.seq i _ (List.getElem?_eq_getElem (by simpa using i.2))
  have hj := h.seq j _ (List.getElem?_eq_getElem (by simpa using j.2))
  omega

theorem returns_contributorsFor (hcoverage : ∀ covId, coverageId = some covId →
      covId < db.coverages.length) :
    Returns (Engine.findCoverage coverageId) (Session.clean db)
        (coverageId.bind fun covId => db.coverages[covId]?) (Session.clean db) ∧
      Returns (Engine.contributorsFor coverageId (coverageId.bind fun covId => db.coverages[covId]?))
        (Session.clean db) (db.contributorsFor coverageId) (Session.clean db) := by
  cases coverageId with
  | none => exact ⟨returns_pure.2 ⟨rfl, rfl⟩, returns_pure.2 ⟨rfl, rfl⟩⟩
  | some covId =>
      have hid := hcoverage covId rfl
      have hcov : db.coverages[covId]? = some db.coverages[covId] := List.getElem?_eq_getElem hid
      constructor
      · exact returns_lookup.2 ⟨(if_pos hid).symm, rfl⟩
      · rw [Option.bind_some, hcov, Db.contributorsFor, hcov]
        exact (returns_contributorsOf (s := Session.clean db) hcov hid).2 ⟨rfl, rfl⟩

/-- A plannable run is created under its policy. -/
theorem createRun_pins (h : Askable env fund metaHouses type coverageId params triggerRef policy db)
    (hbinds : env.runtime.BindsHouses db) (hplannable : type.Plannable fund db)
    (hcap : FixedPoint.OnGrid Numeric.cost.unit policy.budgetCapUsd) :
    ∃ runId s', Returns (Engine.createRun env fund metaHouses type.value coverageId trigger params
        requestedBy triggerRef) (Session.clean db) runId s' ∧
      PinsPolicy env fund metaHouses type coverageId params policy db runId s'.stored := by
  obtain ⟨lead, hlead, hled⟩ := h.lead hplannable.2.1
  have hcontributors : ∀ c ∈ db.contributorsFor coverageId, db.isHouse c = true ∧ c ∉ metaHouses := by
    intro c hc
    cases hcov : coverageId with
    | none =>
        rw [hcov] at hc
        cases hc
    | some covId =>
        rw [hcov, Db.contributorsFor, List.getElem?_eq_getElem (h.coverage covId hcov)] at hc
        exact h.contributors covId _ hcov (List.getElem?_eq_getElem _) c hc
  obtain ⟨plan, hplan, hchain, hattempts, hhouses⟩ :=
    planned hplannable h.verifyCount hled hcontributors
  obtain ⟨rows, hrows, hseqs, hmax, hvalid⟩ := mapM_toRow db.runs.length hbinds hhouses
  obtain ⟨priority, hpriority⟩ := h.priority
  obtain ⟨hfound, hresolved⟩ := returns_contributorsFor h.coverage
  let c : Creation env fund metaHouses type.value coverageId params (Session.clean db) :=
    { policy, coverage := coverageId.bind fun covId => db.coverages[covId]?
      contributors := db.contributorsFor coverageId, type, plan, priority := priority.getD 100, rows
      configured := h.configured
      found := hfound
      resolved := hresolved
      parsed := by cases type <;> rfl
      planned := by
        have hresolves : leadOf params (coverageId.bind fun covId => db.coverages[covId]?) =
            .str lead := hlead
        rw [planFor_eq hplannable, hresolves]
        exact hplan
      prioritized := by
        rw [Runtime.bindInt, hpriority]
        rfl
      bound := hrows }
  let run := c.run trigger requestedBy triggerRef
  have hwithRun : Schema.violation (db.addRun run) = none := by
    refine Db.legal_addRun h.legal ?_ ?_ ?_
    · change coverageId.all db.isCoverage = true
      cases hcov : coverageId with
      | none => rfl
      | some covId => exact decide_eq_true (h.coverage covId hcov)
    · simpa [run, c, Creation.run, newRun] using h.required
    · intro key hkey
      change (do return (← coverageId, type, ← triggerRef) : Option (Nat × RunType × String)) =
        some key at hkey
      cases hcov : coverageId with
      | none => simp [hcov] at hkey
      | some covId =>
          cases href : triggerRef with
          | none => simp [href] at hkey
          | some ref =>
              rw [hcov, href] at hkey
              obtain rfl : (covId, type, ref) = key := Option.some.inj hkey
              exact h.fresh covId ref hcov href
  have hold : ∀ stage ∈ db.stages, stage.runId ≠ db.runs.length := by
    intro stage hstage
    obtain ⟨i, hi⟩ := List.getElem?_of_mem hstage
    obtain ⟨run, hrun⟩ := Db.run_of_stage h.legal hi
    exact Nat.ne_of_lt (List.getElem?_eq_some_iff.1 hrun).1
  have hafter : Schema.violation ((db.addRun run).addStages rows) = none := by
    refine Db.legal_addStages hwithRun (by simp [Db.addRun]) hold hvalid ?_
    rw [hseqs]
    exact hchain.nodup_seq
  refine ⟨_, _, returns_createRun.2 ⟨c, hwithRun, hafter, rfl, rfl⟩, ?_⟩
  have hstages : ((db.addRun run).addStages rows).stages.filter
      (fun stage => stage.runId = db.runs.length) = rows := by
    change (db.stages ++ rows).filter _ = rows
    rw [List.filter_append, List.filter_eq_nil_iff.2 (by simpa using hold), List.nil_append,
      List.filter_eq_self.2 (by simpa using fun row hrow => (hvalid row hrow).1)]
  constructor
  · refine ⟨run, List.getElem?_concat_length, rfl, rfl, ?_⟩
    exact congrArg some (Numeric.cost.rounded_eq_self_iff.2 hcap)
  · exact ⟨plan, hlead ▸ hplan, hrows.trans (congrArg Except.ok hstages.symm)⟩
  · intro stage hstage hrun
    have hmem : stage ∈ rows := by
      rw [← hstages]
      exact List.mem_filter.2 ⟨hstage, decide_eq_true hrun⟩
    have hmaxs : stage.maxAttempts ∈ plan.map (·.maxAttempts) := hmax ▸ List.mem_map_of_mem hmem
    obtain ⟨planned, hplanned, hsame⟩ := List.mem_map.1 hmaxs
    rw [← hsame, hattempts planned hplanned]
  · rintro env' run' stage row result lastTp s s' rfl h' hrow
    obtain ⟨_, _, found, -, -, hfound, -, -, -, hmaxAttempts⟩ := of_appended h' hrow
    rw [hmaxAttempts, Except.ok.inj (hfound.symm.trans h.configured)]

/-- Only a plannable run is created. -/
theorem plannable_of_createRun (hbinds : env.runtime.BindsHouses db)
    (h : Returns (Engine.createRun env fund metaHouses type.value coverageId trigger params requestedBy
      triggerRef) (Session.clean db) runId s') : type.Plannable fund db := by
  obtain ⟨c, -, hafter, -, -⟩ := returns_createRun.1 h
  have hparsed : c.type = type := c.type_eq
  have hplanned := c.planned
  rw [hparsed] at hplanned
  refine ⟨?_, ?_, ?_⟩
  · rintro rfl
    cases hplanned
  · rintro rfl
    cases hplanned
  · rintro rfl
    have hbound := c.bound
    rw [← Except.ok.inj hplanned, List.mapM_cons] at hbound
    obtain ⟨row, hrow, hrest⟩ := ok_bind_iff.1 hbound
    have hrows : [row] = c.rows := Except.ok.inj hrest
    have htext := (StageIn.of_toRow hrow).1
    have hname : fund.monitorHouse ≠ "" := by
      intro hempty
      simp [hempty, Json.orElse, Json.truthy, hbinds.null] at htext
    rw [Json.orElse_str hname] at htext
    have hhouse : row.house = fund.monitorHouse := Option.some.inj (hbinds.text _ _ htext)
    have hrule := Db.violation_eq_none.1 hafter ("fk_run_stages_house_houses",
      fun db => db.stages.all fun stage => db.isHouse stage.house) (by simp [constraints])
    refine ⟨hname, hhouse ▸ ?_⟩
    exact List.all_eq_true.1 hrule row
      (List.mem_append_right _ (hrows ▸ List.mem_singleton.2 rfl))

/-- The cap of a run that is created is the cap of its policy, as its column takes it. -/
theorem PinsPolicy.capped
    (h : Returns (Engine.createRun env fund metaHouses type.value coverageId trigger params requestedBy
      triggerRef) (Session.clean db) runId s') (hpolicy : fund.policy type.value = .ok policy)
    (hpins : PinsPolicy env fund metaHouses type coverageId params policy db runId s'.stored) :
    FixedPoint.OnGrid Numeric.cost.unit policy.budgetCapUsd := by
  obtain ⟨c, -, -, rfl, rfl⟩ := returns_createRun.1 h
  obtain rfl : c.policy = policy := Except.ok.inj (c.configured.symm.trans hpolicy)
  obtain ⟨run, hrun, -, -, hcap⟩ := hpins.run
  obtain rfl : c.run trigger requestedBy triggerRef = run :=
    Option.some.inj (List.getElem?_concat_length.symm.trans hrun)
  exact Numeric.cost.rounded_eq_self_iff.1 (Option.some.inj hcap)

theorem askable_apple (hpolicy : fund.policy type.value = .ok policy) :
    Askable (.quiet 0) fund [] type (some 0) [("lead", .str "gpt")] none policy .appleProposed where
  legal := by decide +kernel
  configured := hpolicy
  coverage := by
    rintro _ ⟨⟩
    decide
  required := .inl rfl
  lead _ := ⟨"gpt", rfl, by decide, List.not_mem_nil⟩
  contributors := by
    rintro _ cov ⟨⟩ hcov c hc
    obtain rfl : Db.appleProposed.coverages[0] = cov := Option.some.inj hcov
    have hgpt : c ∈ ["gpt"] := hc
    rw [List.mem_singleton.1 hgpt]
    exact ⟨by decide, List.not_mem_nil⟩
  verifyCount := ⟨policy.verifyCount, rfl⟩
  priority := ⟨some 100, rfl⟩
  fresh := nofun

theorem Env.quiet_bindsHouses (now : Time) (db : Db) : (Env.quiet now).runtime.BindsHouses db :=
  ⟨fun _ _ => rfl, Env.quiet_storesText now, rfl⟩

end AiFund
