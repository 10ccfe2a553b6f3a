import AiFund.Proof.Creation
import AiFund.Proof.OpSteps
import AiFund.Proof.Program
import AiFund.Proof.Reports

/-!
# Leads

The params of a run and the houses of its author and finalizer stages never change, so what its
promotion makes of the coverage is settled by the request that creates it.
-/

namespace AiFund

open UnitOfWork Rows History

variable {app : App} {env : Env} {fund : FundConfig} {request : Request} {db : Db} {call : ApiCall}
  {r covId : Nat} {pm key : String} {s s' : Session Db} {house : String} {params : JsonObject}
  {lead : Json} {coverageId : Option Nat}

/-! ## Creation -/

/-- The lead of a planned initiation is no meta house, and the house of its author and finalizer. -/
theorem planFor_initiation {policy : RunPolicy} {contributors metaHouses : List String}
    {stages : List StageIn}
    (h : Engine.planFor .initiation policy fund params lead contributors metaHouses = .ok stages) :
    (∀ house, lead = .str house → house ∉ metaHouses) ∧
      (∃ stage ∈ stages, stage.role = .author) ∧ (∃ stage ∈ stages, stage.role = .finalizer) ∧
      ∀ stage ∈ stages, stage.role = .author ∨ stage.role = .finalizer → stage.house = lead := by
  let args : PlanArgs :=
    { lead, contributors, metaHouses, maxAttempts := policy.maxAttempts
      verifyCount := Engine.getD params "verify_count" (.int policy.verifyCount)
      includeDataChecker := policy.includeDataChecker }
  change planInitiation args = .ok stages at h
  obtain ⟨hchk, verifiers, -, -, rfl⟩ := planInitiation_iff.1 h
  have hauthor : args.stage 1 .author lead none ∈ args.initiationStages verifiers := by
    simp [PlanArgs.initiationStages, PlanArgs.review, args]
  refine ⟨?_, ⟨_, hauthor, rfl⟩, ?_, ?_⟩
  · rintro house rfl hmeta
    simp [chk, args, hmeta] at hchk
  · unfold PlanArgs.initiationStages
    dsimp only
    split
    · exact ⟨args.stage (verifiers.length + 2 + 1) .finalizer lead (some (verifiers.length + 2)),
        by simp [args], rfl⟩
    · exact ⟨args.stage (verifiers.length + 2) .finalizer lead (some (verifiers.length + 2 - 1)),
        by simp [args], rfl⟩
  · intro stage hstage hrole
    have hchecked (seq : Int) (dependsOnSeq : Option Int) (house : Json) :
        ¬ ((args.stage seq .dataChecker house dependsOnSeq).role = .author ∨
          (args.stage seq .dataChecker house dependsOnSeq).role = .finalizer) := by
      simp [PlanArgs.stage]
    unfold PlanArgs.initiationStages PlanArgs.review at hstage
    rcases List.mem_append.1 hstage with hreview | hfinal
    · rcases List.mem_append.1 hreview with hfirst | hverifier
      · rw [List.mem_singleton.1 hfirst]
        rfl
      · obtain ⟨⟨c, i⟩, -, rfl⟩ := List.mem_map.1 hverifier
        rcases hrole with hrole | hrole <;> cases hrole
    · split at hfinal
      · rcases List.mem_cons.1 hfinal with rfl | hlast
        · exact absurd hrole (hchecked _ _ _)
        · rw [List.mem_singleton.1 hlast]
          rfl
      · rw [List.mem_singleton.1 hfinal]
        rfl

/-- The handler of a request that creates a run creates the run that it asks for. -/
theorem returns_creates {handled : Handled} (hcall : call.creates = true)
    (h : Returns ((call.route env app).2.2 pm key) (Session.clean db) handled s') :
    ∃ type coverageId params runId, call.asksFor db = some (type, coverageId, params) ∧
      Returns (createRunFor env app type coverageId params pm) (Session.clean db) runId s' := by
  have hcreate {type : String} {coverageId : Option Nat} {params : JsonObject}
      {extra : JsonObject}
      (h : Returns (do
        let runId ← createRunFor env app type coverageId params pm
        handledRun runId extra) (Session.clean db) handled s') :
      ∃ runId, Returns (createRunFor env app type coverageId params pm) (Session.clean db) runId
        s' := by
    obtain ⟨runId, s₁, hcreate, h⟩ := returns_bind.1 h
    rw [reads_handledRun h]
    exact ⟨runId, hcreate⟩
  have hasks {slug type : String} {covId : Nat} {params : JsonObject}
      (hslug : db.coverages.findIdx? (fun cov => cov.dossierSlug = slug) = some covId) :
      (do
        let covId ← db.coverages.findIdx? fun cov => cov.dossierSlug = slug
        return (type, some covId, params) : Option (String × Option Nat × JsonObject)) =
      some (type, some covId, params) := by
    rw [hslug]
    rfl
  cases call with
  | initiate slug lead verifyCount =>
      obtain ⟨covId, hslug, h⟩ := of_returns_requireCoverage_bind h
      obtain ⟨runId, h⟩ := hcreate h
      exact ⟨_, _, _, runId, hasks hslug, h⟩
  | newRun type coverage params =>
      change Returns (handleNewRun env app type coverage params pm) _ _ _ at h
      cases coverage with
      | none =>
          obtain ⟨runId, h⟩ := hcreate h
          exact ⟨_, _, _, runId, rfl, h⟩
      | some slug =>
          obtain ⟨coverageId, s₁, hcov, h⟩ := returns_bind.1 h
          unfold coverageForRun at hcov
          dsimp only at hcov
          split_ifs at hcov with hslug
          · obtain ⟨rfl, rfl⟩ := returns_pure.1 hcov
            obtain ⟨runId, h⟩ := hcreate h
            exact ⟨_, _, _, runId, if_pos hslug, h⟩
          · obtain ⟨covId, hfound, hcov⟩ := of_returns_requireCoverage_bind hcov
            obtain ⟨rfl, rfl⟩ := returns_pure.1 hcov
            obtain ⟨runId, h⟩ := hcreate h
            exact ⟨_, _, _, runId, (if_neg hslug).trans (hasks hfound), h⟩
  | retryRun old =>
      change Returns (handleRetryRun env app old pm) _ _ _ at h
      unfold handleRetryRun at h
      rw [returns_lookup_bind] at h
      split at h
      · exact absurd h not_returns_raise
      · rename_i run hrun
        split_ifs at h
        · exact absurd h not_returns_raise
        · obtain ⟨runId, h⟩ := hcreate h
          have hold : db.runs[old]? = some run := by
            split_ifs at hrun
            exact hrun
          refine ⟨_, _, _, runId, ?_, h⟩
          simp only [ApiCall.asksFor, hold]
          rfl
  | newQuery slug question =>
      obtain ⟨covId, hslug, h⟩ := of_returns_requireCoverage_bind h
      obtain ⟨runId, h⟩ := hcreate h
      exact ⟨_, _, _, runId, hasks hslug, h⟩
  | _ => cases hcall

/-! ## What a promotion relies on -/

/-- What the runs are for, and who leads the work on one of them. -/
def Db.leads (r : Nat) (db : Db) :
    List (RunType × Option Nat × JsonObject) × List (StageRole × String) :=
  (db.runs.map fun run => (run.type, run.coverageId, run.params),
    (db.stages.filter (·.isLeading r)).map fun stage => (stage.role, stage.house))

theorem of_leads {x : RunType × Option Nat × JsonObject} (h : (db.leads r).1[r]? = some x) :
    ∃ run, db.runs[r]? = some run ∧ (run.type, run.coverageId, run.params) = x := by
  simpa [Db.leads] using h

section Leads

variable (P : List (RunType × Option Nat × JsonObject) × List (StageRole × String) → Prop)

theorem overlooksCoverages_leads : OverlooksCoverages fun db => P (db.leads r) where
  stage db id f hf h := by
    have hkept : (db.updateStage id f).leads r = db.leads r :=
      congrArg (Prod.mk _) (map_filter_modify fun row _ => by
        obtain ⟨hrun, hrole, hhouse⟩ := hf row
        simp [RunStage.isLeading, hrun, hrole, hhouse])
    exact hkept ▸ h
  cost db id cost h := by
    have hkept : (db.updateRun id fun run => { run with costUsd := cost }).leads r = db.leads r :=
      congrArg (·, _) (map_modify_of_eq fun _ => rfl)
    exact hkept ▸ h
  attempts _ _ h := h
  locks _ _ h := h
  levels _ _ h := h
  events _ _ h := h
  newsArticles _ _ h := h
  auditLog _ _ h := h
  idempotencyKeys _ _ h := h
  schedulerJobLogs _ _ h := h
  coverages _ _ h := h
  transitions _ _ h := h
  leadHistory _ _ h := h
  outbox _ _ _ h := h
  effect _ _ _ _ _ _ := upholds_sideEffect (fun _ _ h => h) (fun _ _ h => h) fun _ _ _ h => h

theorem overlooksRuns_leads : OverlooksRuns fun db => P (db.leads r) where
  toOverlooks := (overlooksCoverages_leads P).toOverlooks
  run db id f hf h := by
    have hkept : (db.updateRun id f).leads r = db.leads r :=
      congrArg (·, _) (map_modify_of_eq fun run => by
        obtain ⟨hcov, htype, hparams, -⟩ := hf run
        rw [hcov, htype, hparams])
    exact hkept ▸ h
  gate _ _ _ h := h
  outbox _ _ _ h := h
  predictions _ _ h := h
  crossCheck db row hrole h := by
    have hkept : ({ db with stages := db.stages ++ [row] } : Db).leads r = db.leads r := by
      simp [Db.leads, RunStage.isLeading, hrole]
    exact hkept ▸ h
  transition _ _ _ _ _ _ _ _ _ _ := (overlooksCoverages_leads P).transitionCoverage
  decision _ _ _ _ _ _ _ _ _ _ := (overlooksCoverages_leads P).transitionCoverage

end Leads

/-- Author and finalizer are of the one house. -/
structure Led (house : String) (stages : List (StageRole × String)) : Prop where
  author : (.author, house) ∈ stages
  finalizer : (.finalizer, house) ∈ stages
  all : ∀ stage ∈ stages, stage.2 = house

/-- New stages of another run leave the leading stages of the run as they are. -/
theorem leads_addStages {n : Nat} {stages : List StageIn} {rows : List RunStage}
    (hrows : stages.mapM (fun stage => stage.toRow env n) = .ok rows) (hne : n ≠ r) :
    rows.filter (·.isLeading r) = [] := by
  refine List.filter_eq_nil_iff.2 fun row hrow => ?_
  obtain ⟨stage, -, hto⟩ := of_mem_mapM hrows hrow
  simp [RunStage.isLeading, (StageIn.of_toRow hto).2.1, hne]

/-- A request that creates a run plans it with the house that it resolves. -/
theorem leads_created {type : String} {runId : Nat} (hdb : Schema.violation db = none)
    (h : Returns (createRunFor env app type coverageId params pm) (Session.clean db) runId s') :
    ∃ type', s'.stored = s'.loaded ∧ s'.loaded.runs.length = db.runs.length + 1 ∧
      (s'.loaded.leads db.runs.length).1[db.runs.length]? =
        some (type', coverageId, storedParams params (db.leadFor coverageId params)) ∧
      (type' = .initiation → ∃ house,
        env.runtime.text (db.leadFor coverageId params) = some (some house) ∧
        (db.leadFor coverageId params = .str house → house ∉ app.metaHouses) ∧
        Led house (s'.loaded.leads db.runs.length).2) := by
  obtain ⟨c, -, -, -, hafter⟩ := returns_createRun.1 h
  have hruns : s'.loaded.runs = db.runs ++ [c.run "pm" (some pm) none] := by
    rw [hafter]
    rfl
  have hstages : s'.loaded.stages = db.stages ++ c.rows := by
    rw [hafter]
    rfl
  have hstored : s'.stored = s'.loaded := by
    rw [hafter]
    rfl
  have hlead : leadOf params c.coverage = db.leadFor coverageId params := by
    rw [leadOf, (returns_findCoverage c.found (Synced.clean Db.life db)).2]
    rfl
  have hplan := c.planned
  have hrows : c.plan.mapM (fun stage => stage.toRow env db.runs.length) = .ok c.rows := c.bound
  rw [hlead] at hplan
  refine ⟨c.type, hstored, ?_, ?_, fun hinitiation => ?_⟩
  · simp [hruns]
  · simp [Db.leads, hruns, Creation.run, newRun, hlead]
  · rw [hinitiation] at hplan
    obtain ⟨hmeta, ⟨author, hauthor, hisAuthor⟩, ⟨finalizer, hfinalizer, hisFinalizer⟩, hhouses⟩ :=
      planFor_initiation hplan
    obtain ⟨row, hrow, hto⟩ := exists_mem_mapM hrows hauthor
    obtain ⟨last, hlast, hto'⟩ := exists_mem_mapM hrows hfinalizer
    obtain ⟨htext, hrowRun, hrowRole⟩ := StageIn.of_toRow hto
    obtain ⟨htext', hlastRun, hlastRole⟩ := StageIn.of_toRow hto'
    rw [hhouses author hauthor (.inl hisAuthor)] at htext
    rw [hhouses finalizer hfinalizer (.inr hisFinalizer), htext] at htext'
    have hsame : last.house = row.house := by simpa using htext'.symm
    have hold : db.stages.filter (·.isLeading db.runs.length) = [] := by
      refine List.filter_eq_nil_iff.2 fun stage hstage => ?_
      obtain ⟨i, hi⟩ := List.getElem?_of_mem hstage
      obtain ⟨run, hrun⟩ := Db.run_of_stage hdb hi
      simp [RunStage.isLeading, Nat.ne_of_lt (List.getElem?_eq_some_iff.1 hrun).1]
    have hleads : (s'.loaded.leads db.runs.length).2 =
        (c.rows.filter (·.isLeading db.runs.length)).map fun stage => (stage.role, stage.house) := by
      simp [Db.leads, hstages, hold]
    refine ⟨row.house, htext, hmeta row.house, ?_, ?_, ?_⟩
    all_goals rw [hleads]
    · exact List.mem_map.2 ⟨row, List.mem_filter.2 ⟨hrow, by simp [RunStage.isLeading, hrowRun,
        hrowRole, hisAuthor]⟩, by rw [hrowRole, hisAuthor]⟩
    · exact List.mem_map.2 ⟨last, List.mem_filter.2 ⟨hlast, by simp [RunStage.isLeading, hlastRun,
        hlastRole, hisFinalizer]⟩, by rw [hlastRole, hisFinalizer, hsame]⟩
    · rintro _ hstage
      obtain ⟨other, hother, rfl⟩ := List.mem_map.1 hstage
      obtain ⟨hother, hleading⟩ := List.mem_filter.1 hother
      obtain ⟨stage, hstage, hto⟩ := of_mem_mapM hrows hother
      obtain ⟨htext', -, hrole⟩ := StageIn.of_toRow hto
      simp only [RunStage.isLeading, Bool.and_eq_true, Bool.or_eq_true, decide_eq_true_eq,
        hrole] at hleading
      rw [hhouses stage hstage hleading.2, htext] at htext'
      simpa using htext'.symm

/-! ## Promotion -/

/-- The start of an initiation makes the house in the params of the run the lead. -/
theorem returns_startInitiation {run : Run} {u : Unit}
    (h : Returns (Engine.runTransitionOf env covId r .startInitiation) s u s')
    (hrun : s.loaded.runs[r]? = some run) :
    ∃ house, env.runtime.text (run.params.get "lead_house") = some house ∧
      s'.loaded.coverages = s.loaded.coverages.modify covId fun cov =>
        { cov with state := .initiating, leadHouse := house } := by
  unfold Engine.runTransitionOf transitionCoverage at h
  obtain ⟨cov, hcov, h⟩ := of_returns_getCoverage_bind h
  obtain ⟨ctx, s₁, hctx, h⟩ := returns_bind.1 h
  rw [(returns_buildCtx hctx).1] at h
  obtain ⟨sm, hsm, h⟩ := returns_ofExcept_bind.1 h
  have hentry := (transition_eq_ok.1 hsm).1
  cases hstate : cov.state <;> rw [hstate] at hentry <;> cases hentry
  rw [returns_assign_bind] at h
  unfold record addAudit addOutbox at h
  rw [returns_inspect_bind] at h
  simp only [returns_assign_bind] at h
  obtain ⟨_, s₂, heffects, h⟩ := returns_bind.1 h
  obtain ⟨-, rfl⟩ := returns_flush.1 h
  obtain ⟨_, s₃, heffect, hnone⟩ := returns_bind.1 heffects
  obtain ⟨-, rfl⟩ := returns_pure.1 hnone
  unfold applySideEffect at heffect
  rw [returns_inspect_bind] at heffect
  split at heffect
  · rename_i hfound
    cases hrun.symm.trans hfound
  · rename_i found hfound
    obtain rfl := Option.some.inj (hrun.symm.trans hfound)
    obtain ⟨house, hhouse, heffect⟩ := returns_ofExcept_bind.1 heffect
    rw [returns_assign] at heffect
    subst heffect
    refine ⟨house, of_bound hhouse, ?_⟩
    exact List.modify_modify_eq _ _ _ _

/-- A promotion that moves a coverage makes the house in the params of the run its lead. -/
theorem returns_promoteRun {started : Bool} {x : RunType × Option Nat × JsonObject}
    (h : Returns (Engine.promoteRun env r) s started s')
    (hstored : (s.stored.leads r).1[r]? = some x) (hloaded : (s.loaded.leads r).1[r]? = some x)
    (hmoves : s.loaded.Initiates s'.loaded covId) :
    x.1 = .initiation ∧ ∃ house cov, env.runtime.text (x.2.2.get "lead_house") = some house ∧
      s'.loaded.coverages[covId]? = some cov ∧ cov.leadHouse = house := by
  have hstill {s'' : Session Db} (hsame : s''.loaded.coverages = s.loaded.coverages) :
      ¬ s.loaded.Initiates s''.loaded covId := by
    rintro ⟨⟨cov, hcov, hproposed⟩, cov', hcov', hinitiating⟩
    rw [hsame, hcov] at hcov'
    cases hcov'
    rw [hproposed] at hinitiating
    cases hinitiating
  unfold Engine.promoteRun at h
  obtain ⟨-, run, hrun, h⟩ := returns_getRow_bind.1 h
  split_ifs at h with hqueued
  · obtain ⟨-, rfl⟩ := returns_pure.1 h
    exact absurd hmoves (hstill rfl)
  obtain ⟨took, s₁, hstart, h⟩ := returns_bind.1 h
  have hstarts : Fixes Db.coverages (startRun env r) :=
    fixes_startRun (fun _ _ => rfl) (fun _ _ => rfl) r
  have hcovs := (hstarts hstart).1
  have hkept := ((overlooksRuns_leads (r := r) fun leads => leads.1[r]? = some x).startRun hstart
    ⟨hstored, hloaded⟩).2
  cases took with
  | false =>
      obtain ⟨-, rfl⟩ := returns_pure.1 h
      exact absurd hmoves (hstill hcovs)
  | true =>
      obtain ⟨_, s₂, hbegin, h⟩ := returns_bind.1 h
      obtain ⟨-, rfl⟩ := returns_pure.1 h
      obtain ⟨found, s₃, hfind, hbegin⟩ := returns_bind.1 hbegin
      rw [reads_findCoverage hfind] at hbegin
      split at hbegin
      · rename_i covId' cov htype hcovId
        split_ifs at hbegin
        · obtain ⟨run', hrun', hsame⟩ := of_leads hkept
          obtain ⟨house, hhouse, hafter⟩ := returns_startInitiation hbegin hrun'
          obtain ⟨run₀, hrun₀, rfl⟩ := of_leads hloaded
          obtain rfl := Option.some.inj (hrun.symm.trans hrun₀)
          refine ⟨htype, house, ?_⟩
          obtain ⟨⟨cov₀, hcov₀, hproposed⟩, cov₁, hcov₁, hinitiating⟩ := hmoves
          rw [hafter, hcovs] at hcov₁
          obtain ⟨rfl, old, -, rfl⟩ | ⟨-, hold⟩ := getElem?_modify_cases hcov₁
          · exact ⟨_, hsame ▸ hhouse, by rw [hafter, hcovs]; exact hcov₁, rfl⟩
          · obtain rfl := Option.some.inj (hcov₀.symm.trans hold)
            rw [hproposed] at hinitiating
            cases hinitiating
        · obtain ⟨-, rfl⟩ := returns_pure.1 hbegin
          exact absurd hmoves (hstill hcovs)
      · obtain ⟨-, rfl⟩ := returns_pure.1 hbegin
        exact absurd hmoves (hstill hcovs)

/-! ## Histories -/

/-- What is known of a run from the request that created it: the params that it stores, and, if it
is an initiation, that its leading stages are of the house it was planned with. -/
def App.Plans (app : App) (env : Env) (lead : Json) (x : RunType × Option Nat × JsonObject) (r : Nat)
    (db : Db) : Prop :=
  (db.leads r).1[r]? = some x ∧ (x.1 = .initiation → ∃ house,
    env.runtime.text lead = some (some house) ∧ (lead = .str house → house ∉ app.metaHouses) ∧
      Led house (db.leads r).2)

section Plans

variable {x : RunType × Option Nat × JsonObject}

theorem overlooks_plans : OverlooksRuns (app.Plans env lead x r) :=
  overlooksRuns_leads fun leads => leads.1[r]? = some x ∧ (x.1 = .initiation → ∃ house,
    env.runtime.text lead = some (some house) ∧ (lead = .str house → house ∉ app.metaHouses) ∧
      Led house leads.2)

theorem overlooksCoverages_plans : OverlooksCoverages (app.Plans env lead x r) :=
  overlooksCoverages_leads fun leads => leads.1[r]? = some x ∧ (x.1 = .initiation → ∃ house,
    env.runtime.text lead = some (some house) ∧ (lead = .str house → house ∉ app.metaHouses) ∧
      Led house leads.2)

end Plans

/-- A request that adds a run has planned it as it asked. -/
theorem plans_of_createsRun (hdb : Schema.violation db = none)
    (h : Op.CreatesRun app db (.api env request call) r) :
    ∃ type coverageId params type', call.asksFor db = some (type, coverageId, params) ∧
      app.Plans env (db.leadFor coverageId params)
        (type', coverageId, storedParams params (db.leadFor coverageId params)) r
        (step app db (.api env request call)) := by
  obtain ⟨hnone, hsome⟩ := h
  have hlength : db.runs.length ≤ r := List.getElem?_eq_none_iff.1 hnone
  have hsame {after : Db} (h : after.runs.length = db.runs.length) :
      ¬ (after.runs[r]?).isSome = true := by
    simp [h, hlength]
  have hstep : step app db (.api env request call) =
      (commit (call.perform env app request) db).after := rfl
  rw [hstep] at hsome ⊢
  obtain ⟨error, hcommit⟩ | ⟨body, s, hs, -, hcommit⟩ :=
    commit_cases (call.perform env app request) db
  · rw [hcommit] at hsome
    exact absurd hsome (hsame rfl)
  rw [hcommit] at hsome ⊢
  obtain ⟨rfl, -⟩ | ⟨pm, idem, handled, s₁, -, hhandler, hrest⟩ := returns_mutation hs
  · exact absurd hsome (hsame rfl)
  let J (n : Nat) (after : Db) : Prop := (after.leads r).1.length = n
  have hruns (n : Nat) : OverlooksRuns (J n) := overlooksRuns_leads fun leads => leads.1.length = n
  have hcovs (n : Nat) : OverlooksCoverages (J n) :=
    overlooksCoverages_leads fun leads => leads.1.length = n
  cases hcreates : call.creates with
  | false =>
      have hparts : HandlerParts (J db.runs.length) :=
        (hruns _).handlerParts (fun _ _ _ _ _ _ _ _ _ => (hcovs _).propose)
          fun _ _ _ _ _ _ => (hcovs _).setLead
      have hkept : Upholds (J db.runs.length)
          ((call.route env app).2.2 pm (request.idempotencyKey.getD "")) :=
        hparts.handler call (fun hyes => absurd hyes (by simp [hcreates]))
          (fun _ _ _ _ => (hruns _).decides) fun _ _ _ _ => upholds_answerGate fun _ h => h
      have hstart : J db.runs.length db := List.length_map _
      have hend := (hruns _).responds hrest (hkept hhandler ⟨hstart, hstart⟩)
      exact absurd hsome (hsame ((List.length_map _).symm.trans hend.2))
  | true =>
      obtain ⟨type, coverageId, params, runId, hasks, hcreate⟩ := returns_creates hcreates hhandler
      obtain ⟨type', hstored, hadded, hrun, hled⟩ := leads_created hdb hcreate
      have hplans : app.Plans env (db.leadFor coverageId params)
          (type', coverageId, storedParams params (db.leadFor coverageId params)) db.runs.length
          s₁.loaded := ⟨hrun, hled⟩
      have hboth {J : Db → Prop} (h : J s₁.loaded) : J s₁.stored ∧ J s₁.loaded :=
        ⟨hstored.symm ▸ h, h⟩
      have hend := (hruns (db.runs.length + 1)).responds hrest (hboth ((List.length_map _).trans hadded))
      have hr : r = db.runs.length := by
        obtain ⟨row, hrow⟩ := Option.isSome_iff_exists.1 hsome
        have hlt : r < s.loaded.runs.length := (List.getElem?_eq_some_iff.1 hrow).1
        have hend : s.loaded.runs.length = db.runs.length + 1 :=
          (List.length_map _).symm.trans hend.2
        omega
      subst hr
      exact ⟨type, coverageId, params, type', hasks,
        (overlooks_plans.responds hrest (hboth hplans)).2⟩

/-- The creation of another run changes nothing of that. -/
theorem upholds_createRun_plans {x : RunType × Option Nat × JsonObject} {env' : Env}
    {metaHouses : List String} {runType trigger : String} {requestedBy triggerRef : Option String} :
    Upholds (app.Plans env lead x r)
      (Engine.createRun env' fund metaHouses runType coverageId trigger params requestedBy
        triggerRef) := by
  intro s runId s' h hs
  obtain ⟨c, -, -, -, hafter⟩ := returns_createRun.1 h
  have hruns : s'.loaded.runs = s.loaded.runs ++ [c.run trigger requestedBy triggerRef] := by
    rw [hafter]
    rfl
  have hstages : s'.loaded.stages = s.loaded.stages ++ c.rows := by
    rw [hafter]
    rfl
  have hstored : s'.stored = s'.loaded := by
    rw [hafter]
    rfl
  obtain ⟨hfirst, hled⟩ := hs.2
  obtain ⟨old, hold, -⟩ := of_leads hfirst
  have hlt := (List.getElem?_eq_some_iff.1 hold).1
  have hkept : (s'.loaded.leads r).2 = (s.loaded.leads r).2 := by
    simp [Db.leads, hstages, leads_addStages c.bound (Nat.ne_of_gt hlt)]
  have hrun : s'.loaded.runs[r]? = s.loaded.runs[r]? := by
    rw [hruns, List.getElem?_append_left hlt]
  have hend : app.Plans env lead x r s'.loaded := by
    refine ⟨?_, hkept ▸ hled⟩
    rw [← hfirst]
    simp [Db.leads, hrun]
  rw [hstored]
  exact ⟨hend, hend⟩

/-- What is known of a run from its creation stays so. -/
theorem run_plans {x : RunType × Option Nat × JsonObject} (h : app.Plans env lead x r db)
    (ops : List Op) : app.Plans env lead x r (run app db ops) := by
  refine invariant_of_forall (fun db op hdb => ?_) h
  have horigins : Origins (app.Plans env lead x r) app.fund :=
    overlooksCoverages_plans.origins fun _ _ _ _ _ _ _ _ => upholds_createRun_plans
  exact overlooks_plans.step horigins hdb op fun _ _ _ _ _ _ _ _ => upholds_answerGate fun _ h => h

theorem leadWorks_iff {cov : Coverage} (hled : Led house (db.leads r).2)
    (hcov : db.coverages[covId]? = some cov) :
    app.LeadWorks db r covId ↔ cov.leadHouse = some house ∧ house ∉ app.metaHouses := by
  have hmem {x : StageRole × String} : x ∈ (db.leads r).2 ↔
      ∃ stage ∈ db.stages, stage.isLeading r = true ∧ (stage.role, stage.house) = x := by
    simp [Db.leads, and_assoc]
  have hrole {role : StageRole} (h : (role, house) ∈ (db.leads r).2) :
      ∃ stage ∈ db.stages, stage.runId = r ∧ stage.role = role := by
    obtain ⟨stage, hstage, hleading, hsame⟩ := hmem.1 h
    simp only [RunStage.isLeading, Bool.and_eq_true, decide_eq_true_eq] at hleading
    exact ⟨stage, hstage, hleading.1, congrArg Prod.fst hsame⟩
  constructor
  · rintro ⟨found, lead, hfound, hlead, hmeta, ⟨author, hauthor, hrun, hisAuthor⟩, -, hall⟩
    obtain rfl := Option.some.inj (hcov.symm.trans hfound)
    have hleading : author.isLeading r = true := by simp [RunStage.isLeading, hrun, hisAuthor]
    have hhouse : author.house = house :=
      hled.all _ (hmem.2 ⟨author, hauthor, hleading, rfl⟩)
    rw [hall author hauthor hleading] at hhouse
    exact ⟨hhouse ▸ hlead, hhouse ▸ hmeta⟩
  · rintro ⟨hlead, hmeta⟩
    exact ⟨cov, house, hcov, hlead, hmeta, hrole hled.author, hrole hled.finalizer,
      fun stage hstage hleading => hled.all _ (hmem.2 ⟨stage, hstage, hleading, rfl⟩)⟩

/-- The promotions before it keep what is known of the run. -/
theorem Op.Promotes.plans {op : Op} {env' : Env} {x : RunType × Option Nat × JsonObject}
    (hop : op.Promotes db env' r s s') (h : app.Plans env lead x r db) :
    (∃ started, Returns (Engine.promoteRun env' r) s started s') ∧ app.Plans env lead x r s.stored ∧
      app.Plans env lead x r s.loaded := by
  cases op with
  | promoteRun =>
      obtain ⟨-, -, rfl, hpromote⟩ := hop
      exact ⟨hpromote, h, h⟩
  | tick =>
      obtain ⟨-, before, after, -, hbefore, hpromote⟩ := hop
      have hkept : Upholds (app.Plans env lead x r) (before.forM fun runId => do
          let _ ← Engine.promoteRun env' runId : DbTxn PUnit) :=
        .forM fun runId => .bind overlooks_plans.promoteRun fun _ => .pure _
      exact ⟨hpromote, hkept hbefore ⟨h, h⟩⟩
  | _ => exact hop.elim

/-- When an initiation that a request has created moves its coverage to initiating, the house that
does the work becomes the lead exactly if the request has made the params name it. -/
theorem promote_leads_iff {op : Op} {env' : Env} (hdb : Schema.violation db = none)
    (before after : List Op) (hcreates : Op.CreatesRun app (run app db before) (.api env request call) r)
    (hdriver : env'.runtime.text = env.runtime.text)
    (hop : op.Promotes (run app db (before ++ .api env request call :: after)) env' r s s')
    (hmoves : s.loaded.Initiates s'.loaded covId) :
    app.LeadWorks s'.loaded r covId ↔ call.NamesItsLead app env (run app db before) := by
  obtain ⟨type, coverageId, params, type', hasks, hplans⟩ :=
    plans_of_createsRun (run_violation hdb before) hcreates
  have hsplit : run app db (before ++ .api env request call :: after) =
      run app (step app (run app db before) (.api env request call)) after := run_append _
  obtain ⟨⟨started, hpromote⟩, hstored, hloaded⟩ := hop.plans (hsplit ▸ run_plans hplans after)
  obtain ⟨hinitiation, lead, cov, hlead, hcov, rfl⟩ :=
    returns_promoteRun hpromote hstored.1 hloaded.1 hmoves
  obtain ⟨-, -, hplanned⟩ := overlooks_plans.promoteRun hpromote ⟨hstored, hloaded⟩
  obtain ⟨house, hhouse, hnotMeta, hled⟩ := hplanned hinitiation
  rw [hdriver] at hlead
  rw [leadWorks_iff hled hcov]
  constructor
  · rintro ⟨hnamed, hmeta⟩ _ _ _ h
    obtain ⟨rfl, rfl, rfl⟩ : _ ∧ _ ∧ _ := by simpa [hasks] using h
    refine ⟨by rw [hlead, hhouse, hnamed], fun other hother => .inr ?_⟩
    obtain rfl : house = other := by simpa [hhouse] using hother
    exact hmeta
  · intro h
    obtain ⟨htext, hmeta⟩ := h type coverageId params hasks
    rw [hlead, hhouse, Option.some.injEq] at htext
    exact ⟨htext, (hmeta house hhouse).elim hnotMeta id⟩

/-- A promotion that changes the store returns. -/
theorem Op.promotes_of_exec (app : App) (db : Db) (env : Env) (r : Nat)
    (h : ((Op.promoteRun env r).exec app db).after ≠ db) :
    ∃ s', (Op.promoteRun env r).Promotes db env r (Session.clean db) s' ∧
      s'.loaded = ((Op.promoteRun env r).exec app db).after := by
  change (commit (Engine.promoteRun env r) db).after ≠ db at h
  obtain ⟨error, hcommit⟩ | ⟨started, s, hs, -, hcommit⟩ :=
    commit_cases (Engine.promoteRun env r) db
  · rw [hcommit] at h
    exact absurd rfl h
  · refine ⟨s, ⟨rfl, rfl, rfl, started, hs⟩, ?_⟩
    change s.loaded = (commit (Engine.promoteRun env r) db).after
    rw [hcommit]

theorem Db.initiates_of_states {a b : Db} (ha : a.coverages.map (·.state) = [.proposed])
    (hb : b.coverages.map (·.state) = [.initiating]) : a.Initiates b 0 := by
  have hstate {db : Db} {state : CoverageState} (h : db.coverages.map (·.state) = [state]) :
      ∃ cov, db.coverages[0]? = some cov ∧ cov.state = state := by
    have hfirst := congrArg (·[0]?) h
    rw [List.getElem?_map] at hfirst
    exact Option.map_eq_some_iff.1 hfirst
  exact ⟨hstate ha, hstate hb⟩

/-- The promotion of the first run of a history, once it moves the first coverage. -/
theorem promotes_after (db : Db) (ops : List Op)
    (hbefore : (run .small db ops).coverages.map (·.state) = [.proposed])
    (hafter : (step .small (run .small db ops) (.promoteRun (.quiet 0) 0)).coverages.map (·.state) =
      [.initiating]) :
    ∃ s', (Op.promoteRun (.quiet 0) 0).Promotes (run .small db ops) (.quiet 0) 0
        (Session.clean (run .small db ops)) s' ∧
      (run .small db ops).Initiates s'.loaded 0 ∧
      s'.loaded = step .small (run .small db ops) (.promoteRun (.quiet 0) 0) := by
  obtain ⟨s', hop, hloaded⟩ :=
    Op.promotes_of_exec .small (run .small db ops) (.quiet 0) 0 fun hsame => by
      have hstates := congrArg (fun db : Db => db.coverages.map (·.state)) hsame
      cases hafter.symm.trans (hstates.trans hbefore)
  exact ⟨s', hop, Db.initiates_of_states hbefore (hloaded ▸ hafter), hloaded⟩

theorem promote_leads_iff_small :
    ∃ s', (Op.promoteRun (.quiet 0) 0).Promotes (run .small .small Op.initiateApple) (.quiet 0) 0
        (Session.clean (run .small .small Op.initiateApple)) s' ∧
      (run .small .small Op.initiateApple).Initiates s'.loaded 0 ∧
      App.small.LeadWorks s'.loaded 0 0 := by
  have hdb : Schema.violation Db.small = none := by decide +kernel
  obtain ⟨s', hop, hmoves, -⟩ := promotes_after .small Op.initiateApple (by decide +kernel)
    (by decide +kernel)
  have hcreates : Op.CreatesRun .small
      (run .small .small [.ask "propose" (.propose "AAPL" "US" "Apple" "USD" none none)])
      (.ask "initiate" (.initiate "us_aapl" (some "gpt") (some 0))) 0 :=
    ⟨List.getElem?_eq_none (by decide +kernel), by decide +kernel⟩
  refine ⟨s', hop, hmoves, ?_⟩
  refine (promote_leads_iff hdb [.ask "propose" (.propose "AAPL" "US" "Apple" "USD" none none)] []
    hcreates rfl hop hmoves).2 ?_
  · intro type coverageId params h
    simp only [ApiCall.asksFor, Option.bind_eq_bind] at h
    obtain ⟨covId, -, h⟩ := Option.bind_eq_some_iff.1 h
    cases h
    have hlead : (run .small .small
        [.ask "propose" (.propose "AAPL" "US" "Apple" "USD" none none)]).leadFor (some covId)
          (initiateParams (some "gpt") (some 0)) = .str "gpt" := rfl
    rw [hlead]
    exact ⟨rfl, fun house h => .inr List.not_mem_nil⟩

/-- Two houses. -/
def Db.rivals : Db where
  houses := [{ key := "gpt" }, { key := "claude" }]

/-- The initiation of Apple is requested with one house to do the work and another to be named. -/
def Op.misnameApple : List Op :=
  [.ask "propose" (.propose "AAPL" "US" "Apple" "USD" none none),
    .ask "initiate" (.newRun "initiation" (some "us_aapl")
      [("lead", .str "gpt"), ("lead_house", .str "claude"), ("verify_count", .int 0)])]

/-- The house that the params name becomes the lead of work that another house does. -/
theorem not_leadWorks_misnamed :
    ∃ s', (Op.promoteRun (.quiet 0) 0).Promotes (run .small .rivals Op.misnameApple) (.quiet 0) 0
        (Session.clean (run .small .rivals Op.misnameApple)) s' ∧
      (run .small .rivals Op.misnameApple).Initiates s'.loaded 0 ∧
      s'.loaded.coverages.map (·.leadHouse) = [some "claude"] ∧
      ¬ App.small.LeadWorks s'.loaded 0 0 := by
  obtain ⟨s', hop, hmoves, hloaded⟩ := promotes_after .rivals Op.misnameApple (by decide +kernel)
    (by decide +kernel)
  have hlead : s'.loaded.coverages.map (·.leadHouse) = [some "claude"] := by
    rw [hloaded]
    decide +kernel
  have hhouses : s'.loaded.stages.map (·.house) = ["gpt", "gpt"] := by
    rw [hloaded]
    decide +kernel
  refine ⟨s', hop, hmoves, hlead, ?_⟩
  rintro ⟨cov, house, hcov, hnamed, -, ⟨author, hauthor, hrun, hisAuthor⟩, -, hall⟩
  have hwork := hall author hauthor (by simp [RunStage.isLeading, hrun, hisAuthor])
  have hfirst : author.house ∈ ["gpt", "gpt"] := hhouses ▸ List.mem_map_of_mem hauthor
  have hcovLead : cov.leadHouse ∈ [some "claude"] :=
    hlead ▸ List.mem_map_of_mem (List.mem_of_getElem? hcov)
  simp [hwork, hnamed] at hfirst hcovLead
  rw [hfirst] at hcovLead
  exact absurd hcovLead (by decide)

end AiFund
