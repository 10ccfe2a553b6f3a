import AiFund.Db.CoverageRepo
import AiFund.Db.Queue
import AiFund.Orchestrator.CrossCheck

/-!
# Run orchestrator engine

`createRun` resolves policy and plans the stages, `promoteRun` starts a queued run, `advanceRun`
drains the runner and then fails, requeues, pauses or finalizes the run, and `tick` does both for
every run.
-/

namespace AiFund.Engine

open UnitOfWork Rows

/-- The calls a runner makes on the session when it is drained while a given run is advanced. -/
structure Runner where
  calls : Nat → List (Env × QueueCall)

def Runner.drain (runner : Runner) (runId : Nat) : DbTxn Unit :=
  (runner.calls runId).forM fun (env, call) => call.perform env

/-! ## Creation -/

def parseRunType : String → Option RunType
  | "initiation" => some .initiation
  | "deep_review" => some .deepReview
  | "event_analysis" => some .eventAnalysis
  | "monitor_tick" => some .monitorTick
  | "pm_query" => some .pmQuery
  | "lead_review" => some .leadReview
  | "distillation" => some .distillation
  | _ => none

/-- `params.get(key, default)`. -/
def getD (params : JsonObject) (key : String) (default : Json) : Json :=
  (List.lookup key params).getD default

/-- The arguments that `createRun` passes to the planner for each run type; for `lead_review` and
`distillation` it leaves out the required `max_attempts`, which raises. -/
def planFor (type : RunType) (policy : RunPolicy) (fund : FundConfig) (params : JsonObject)
    (lead : Json) (contributors metaHouses : List String) : Except PyError (List StageIn) :=
  let maxAttempts := policy.maxAttempts
  match type with
  | .initiation =>
      planStages "initiation"
        { lead, contributors, metaHouses, maxAttempts,
          verifyCount := getD params "verify_count" (.int policy.verifyCount),
          includeDataChecker := policy.includeDataChecker }
  | .deepReview => planStages "deep_review" { lead, contributors, metaHouses, maxAttempts }
  | .eventAnalysis => planStages "event_analysis" { lead, metaHouses, maxAttempts }
  | .monitorTick =>
      planStages "monitor_tick" { monitorHouse := .str fund.monitorHouse, maxAttempts }
  | .pmQuery => planStages "pm_query" { lead, metaHouses, maxAttempts }
  | .leadReview | .distillation => .error .typeError

/-- `session.get(Coverage, coverage_id) if coverage_id else None`. -/
def findCoverage : Option Nat → DbTxn (Option Coverage)
  | none => pure none
  | some covId => lookup Db.coverages covId

def contributorsFor : Option Nat → Option Coverage → DbTxn (List String)
  | some covId, some _ => resolveContributors covId
  | _, _ => pure []

def createRun (env : Env) (fund : FundConfig) (metaHouses : List String) (runType : String)
    (coverageId : Option Nat) (trigger : String) (params : JsonObject)
    (requestedBy triggerRef : Option String) : DbTxn Nat := do
  let policy ← ofExcept id (fund.policy runType)
  let coverage ← findCoverage coverageId
  let lead := (params.get "lead").orElse (optStr (coverage.bind (·.leadHouse)))
  let contributors ← contributorsFor coverageId coverage
  match parseRunType runType with
  | none => raise (.engineError ("unknown run type '" ++ runType ++ "'"))
  | some type =>
      let stages ← ofExcept id (planFor type policy fund params lead contributors metaHouses)
      let runParams := if lead.truthy then params.setDefault "lead_house" lead else params
      let runId ← RunsRepo.createRun env coverageId type trigger runParams
        (getD params "priority" (.int 100)) (some policy.budgetCapUsd) requestedBy triggerRef
      addStages env runId stages
      return runId

/-! ## Promotion -/

def runTransitionOf (env : Env) (covId runId : Nat) (action : Action) : DbTxn Unit :=
  transitionCoverage env covId action .run (toString runId) (some runId) false none none

/-- For an initiation, proposed to initiating. -/
def beginInitiation (env : Env) (runId : Nat) (run : Run) : DbTxn Unit := do
  let coverage ← findCoverage run.coverageId
  match run.type, run.coverageId, coverage with
  | .initiation, some covId, some cov =>
      if cov.state = .proposed then runTransitionOf env covId runId .startInitiation else pure ()
  | _, _, _ => pure ()

/-- Queued to running with the coverage lock; for an initiation, proposed to initiating. -/
def promoteRun (env : Env) (runId : Nat) : DbTxn Bool := do
  let run ← getRow Db.runs runId
  if run.status ≠ .queued then return false
  else do
    let started ← startRun env runId
    if !started then return false
    else do
      beginInitiation env runId run
      return true

/-! ## Stage results -/

def registerPredictions (env : Env) (stageId : Nat) (result : JsonObject) : DbTxn Unit := do
  let entries ← ofExcept id (parsePredictions result)
  if entries.isEmpty then pure ()
  else do
    let _ ← registerFromStage env stageId entries

/-- `coalesce(max(seq), 0)` over the stored stages of a run. -/
def maxSeq (db : Db) (runId : Nat) : Int :=
  (((db.stages.filter fun stage => stage.runId = runId).map (·.seq)).max?).getD 0

def maybeAppendCrossCheck (env : Env) (fund : FundConfig) (runId : Nat) (run : Run)
    (stage : RunStage) (result : JsonObject) (lastTp : Option Decimal) : DbTxn Unit := do
  let fires ← ofExcept id (autoCrossCheck result lastTp none none fund.autoCrossCheck)
  if !fires then pure ()
  else do
    let existing ← select fun db => (env.rows .crossCheckStage).first
      (fun row => row.runId = runId && row.role = .crossCheck) db.stages
    if existing.isSome then pure ()
    else
      match run.coverageId with
      | none => raise .attributeError
      | some covId =>
          let contributors ← resolveContributors covId
          let seq ← select fun db => maxSeq db runId
          let policy ← ofExcept id (fund.policy run.type.value)
          assign fun db => { db with stages := db.stages ++
            [{ runId, seq := seq + 1, role := .crossCheck,
               house := contributors.head?.getD stage.house, substrate := .harness,
               dependsOnSeq := some stage.seq, availableAt := env.now,
               maxAttempts := policy.maxAttempts }] }

/-- Register a succeeded stage's predictions and maybe append a cross-check. The last target price
is read before the registration, so that the new one does not become the last. -/
def digestStage (env : Env) (fund : FundConfig) (runId : Nat) (run : Run) (stageId : Nat) :
    DbTxn Unit := do
  let stage ← getRow Db.stages stageId
  match stage.status, stage.result with
  | .succeeded, some (field :: fields) => do
      let result := field :: fields
      let isEaAuthor : Bool := run.type = .eventAnalysis ∧ stage.role = .author
      let lastTp ← select fun db =>
        if isEaAuthor then lastTargetPrice env run.coverageId db else none
      registerPredictions env stageId result
      if isEaAuthor then maybeAppendCrossCheck env fund runId run stage result lastTp
      else pure ()
  | _, _ => pure ()

/-! ## Advancing -/

def stagesOfRun (env : Env) (runId : Nat) (db : Db) : List Nat :=
  (env.rows .runStages).all (fun stage => stage.runId = runId) db.stages

def finalizeRun (env : Env) (runId : Nat) : DbTxn Unit := do
  let run ← getRow Db.runs runId
  let coverage ← findCoverage run.coverageId
  match run.type, run.coverageId, coverage with
  | .initiation, some covId, some _ => do
      runTransitionOf env covId runId .initiationDelivered
      let sm ← ofExcept .illegalStateChange (runTransition run.status .openGate {})
      assign fun db => db.updateRun runId fun run => { run with status := sm.toState }
      flush
  | _, _, _ => finishRun env runId .succeeded none none

def failInitiation (env : Env) (runId : Nat) (run : Run) : DbTxn Unit := do
  let coverage ← findCoverage run.coverageId
  match run.type, run.coverageId, coverage with
  | .initiation, some covId, some cov =>
      if cov.state = .initiating then runTransitionOf env covId runId .initiationFailed
      else pure ()
  | _, _, _ => pure ()

def failRun (env : Env) (runId : Nat) (error : String) : DbTxn Unit := do
  let run ← getRow Db.runs runId
  failInitiation env runId run
  finishRun env runId .failed none (some error)

def stageDone (stage : RunStage) : Bool :=
  stage.status = .succeeded || stage.status = .failed || stage.status = .skipped

def backoffPending (now : Time) (stage : RunStage) : Bool :=
  stage.status = .queued && now < stage.availableAt

/-- `run.budget_cap_usd and run.cost_usd > run.budget_cap_usd`: a cap of zero is no cap. -/
def runOverBudget (run : Run) : Bool :=
  run.budgetCapUsd.any fun cap => cap ≠ 0 && cap < run.costUsd

def pauseForBudget (runId : Nat) : DbTxn Unit := do
  let run ← getRow Db.runs runId
  let cap := run.budgetCapUsd.getD 0
  openGate runId .budgetCap (.overBudget run.costUsd cap)
    [("cost_usd", run.costUsd), ("cap_usd", cap)] ["raise_cap", "cancel"]
  let sm ← ofExcept .illegalStateChange (runTransition run.status .openGate {})
  assign fun db => db.updateRun runId fun run => { run with status := sm.toState }
  flush

def transientError : String := "transient stage failure; backoff pending"

def lastError (stages : List RunStage) : String :=
  ((stages.filterMap (·.error)).find? fun error => error ≠ "").getD "stage failed"

/-- What `advanceRun` does once the runner is drained and the results are digested. -/
def settleRun (env : Env) (runId : Nat) : DbTxn Unit := do
  let stageIds ← select (stagesOfRun env runId)
  let stages ← inspect fun db => stageIds.filterMap fun id => db.stages[id]?
  let run ← getRow Db.runs runId
  if stages.any fun stage => stage.status = .failed then failRun env runId (lastError stages)
  else if stages.any (backoffPending env.now) then requeueRun runId transientError
  else if runOverBudget run then pauseForBudget runId
  else if !stages.all stageDone then pure ()
  else finalizeRun env runId

def advanceRun (env : Env) (fund : FundConfig) (runner : Runner) (runId : Nat) :
    DbTxn Unit := do
  let run ← getRow Db.runs runId
  if run.status ≠ .running then pure ()
  else do
    runner.drain runId
    let stageIds ← select (stagesOfRun env runId)
    stageIds.forM (digestStage env fund runId run)
    settleRun env runId

/-- One orchestrator tick: promote queued runs, advance running ones. -/
def tick (env : Env) (fund : FundConfig) (runner : Runner) : DbTxn Unit := do
  let queued ← select fun db => (env.rows .queuedRuns).all
    (fun run => run.status = .queued) db.runs
  queued.forM fun runId => do
    let _ ← promoteRun env runId
  let running ← select fun db => (env.rows .runningRuns).all
    (fun run => run.status = .running) db.runs
  running.forM (advanceRun env fund runner)

end AiFund.Engine
