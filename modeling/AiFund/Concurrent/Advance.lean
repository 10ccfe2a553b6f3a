import AiFund.Concurrent.Requests
import AiFund.Orchestrator.Engine
import AiFund.Safety

/-!
# Advancing a run, statement by statement

A tick works on the run that it has loaded at its start. What the runner does on the session arrives
as a script; a cross-check that a result asks for waits for the next flush.
-/

namespace AiFund

open ReadCommitted

/-- The row that an UPDATE of a run that stops at a gate leaves. -/
def Run.writeStopped (loaded : Run) (status : RunStatus) (row : Run) : Run :=
  { row with status := put loaded.status status row.status }

namespace DbWrite

def addStage (row : RunStage) : DbWrite :=
  .append (fun db => { db with stages := db.stages ++ [row] }) fun k _ => by
    cases k with
    | stage id => exact fun _ h => Rows.getElem?_append_of_some h
    | lock covId => rfl
    | idempotencyKey key => rfl
    | _ => exact fun _ h => h

/-- `INSERT ... ON CONFLICT (idempotency_key) DO NOTHING`. -/
def addPrediction (row : Prediction) : DbWrite :=
  .append (fun db => db.insertPrediction row) fun _ db => by
    refine .of_untouched ?_
    unfold Db.insertPrediction
    split <;> rfl

def addAttempt (row : StageAttempt) : DbWrite :=
  .append (fun db => { db with attempts := db.attempts ++ [row] }) fun k _ => by
    cases k with
    | attempt id => exact fun _ h => Rows.getElem?_append_of_some h
    | lock covId => rfl
    | idempotencyKey key => rfl
    | _ => exact fun _ h => h

end DbWrite

namespace Concurrent

/-- A write that the schema refuses raises. -/
def sendLegal (w : DbWrite) : DbScript Unit :=
  sendChecked (fun db => (UnitOfWork.Schema.violation (w.apply db)).isNone) w

/-! ## Stage results -/

def findCoverage : Option Nat → DbScript (Option Coverage)
  | none => return none
  | some covId => Script.select fun db => db.coverages[covId]?

def resolveContributors (covId : Nat) : DbScript (List String) := do
  let cov ← findCoverage (some covId)
  let explicit ← Script.select fun db => db.contributors.filter fun row => row.coverageId = covId
  if !explicit.isEmpty then
    return sorted (explicit.map (·.house))
  else do
    let houses ← Script.select fun db =>
      db.houses.map fun h => HouseInfo.mk h.key h.enabled h.assignable h.isMeta
    match cov with
    | none => Script.raise
    | some cov => return resolveDefault cov.leadHouse houses

/-- The flush of the stages that have been added. -/
def sendStages (pending : List RunStage) : DbScript Unit :=
  pending.forM fun row => sendLegal (.addStage row)

def registerEntry (env : Env) (stageId : Nat) (stage : RunStage) (run : Run)
    (entry : PredictionIn) : DbScript Unit := do
  let row ← ofExcept (entry.toRow env stageId stage run)
  sendLegal (.addPrediction row)

/-- A registration ends with a flush. -/
def registerPredictions (env : Env) (stageId : Nat) (stage : RunStage) (run : Run)
    (result : JsonObject) (pending : List RunStage) : DbScript (List RunStage) := do
  let entries ← ofExcept (parsePredictions result)
  if entries.isEmpty then return pending
  else do
    entries.forM (registerEntry env stageId stage run)
    sendStages pending
    return []

def maybeAppendCrossCheck (env : Env) (fund : FundConfig) (runId : Nat) (run : Run)
    (stage : RunStage) (result : JsonObject) (lastTp : Option Decimal) (pending : List RunStage) :
    DbScript (List RunStage) := do
  let fires ← ofExcept (autoCrossCheck result lastTp none none fund.autoCrossCheck)
  if !fires then return pending
  else do
    let existing ← Script.select fun db => (env.rows .crossCheckStage).first
      (fun row => row.runId = runId && row.role = .crossCheck) db.stages
    if existing.isSome then return pending
    else
      match run.coverageId with
      | none => Script.raise
      | some covId => do
          let contributors ← resolveContributors covId
          let seq ← Script.select fun db => Engine.maxSeq db runId
          let policy ← ofExcept (fund.policy run.type.value)
          return pending ++
            [{ runId, seq := seq + 1, role := .crossCheck,
               house := contributors.head?.getD stage.house, substrate := .harness,
               dependsOnSeq := some stage.seq, availableAt := env.now,
               maxAttempts := policy.maxAttempts }]

/-- The stages of a run with their rows, in the order in which the store returns them. -/
def stageRows (env : Env) (runId : Nat) (db : Db) : List (Nat × RunStage) :=
  (Engine.stagesOfRun env runId db).filterMap fun id => db.stages[id]?.map fun stage => (id, stage)

/-- Returns the stages that still wait for a flush. -/
def digestStage (env : Env) (fund : FundConfig) (runId : Nat) (run : Run)
    (pending : List RunStage) : Nat × RunStage → DbScript (List RunStage)
  | (stageId, stage) =>
      match stage.status, stage.result with
      | .succeeded, some (field :: fields) => do
          let result := field :: fields
          let isEaAuthor : Bool := run.type = .eventAnalysis ∧ stage.role = .author
          let lastTp ← Script.select fun db =>
            if isEaAuthor then lastTargetPrice env run.coverageId db else none
          let pending ← registerPredictions env stageId stage run result pending
          if isEaAuthor then maybeAppendCrossCheck env fund runId run stage result lastTp pending
          else return pending
      | _, _ => return pending

/-! ## Advancing -/

/-- The request of a run for a transition of its coverage. -/
def recordedBy (env : Env) (runId : Nat) (action : Action) : Recorded :=
  { action, actorType := .run, actorId := toString runId, runId := some runId, notes := none,
    requestId := env.uuidHex 0 }

def stopAtGate (runId : Nat) (run : Run) : DbScript Unit := do
  let sm ← ofExcept (runTransition run.status .openGate {})
  send (.setRun runId (run.writeStopped sm.toState))

def finalizeRun (env : Env) (runId : Nat) (run : Run) : DbScript Unit := do
  let coverage ← findCoverage run.coverageId
  match run.type, run.coverageId, coverage with
  | .initiation, some covId, some cov => do
      let _ ← transitionCoverage env covId cov (recordedBy env runId .initiationDelivered) false []
      stopAtGate runId run
  | _, _, _ => finishLoaded env runId run .succeeded none none

def failInitiation (env : Env) (runId : Nat) (run : Run) : DbScript Unit := do
  let coverage ← findCoverage run.coverageId
  match run.type, run.coverageId, coverage with
  | .initiation, some covId, some cov =>
      if cov.state = .initiating then do
        let _ ← transitionCoverage env covId cov (recordedBy env runId .initiationFailed) false []
      else pure ()
  | _, _, _ => pure ()

def failRun (env : Env) (runId : Nat) (run : Run) (error : String) : DbScript Unit := do
  failInitiation env runId run
  finishLoaded env runId run .failed none (some error)

def pauseForBudget (runId : Nat) (run : Run) : DbScript Unit := do
  let cap := run.budgetCapUsd.getD 0
  send (.addGate
    { runId, coverageId := run.coverageId, kind := .budgetCap, state := .opened,
      prompt := .overBudget run.costUsd cap,
      payload := [("cost_usd", run.costUsd), ("cap_usd", cap)],
      allowedAnswers := ["raise_cap", "cancel"] })
  stopAtGate runId run

/-- The stages that wait for a flush go out ahead of what each branch writes. -/
def settleRun (env : Env) (runId : Nat) (run : Run) (pending : List RunStage) : DbScript Unit := do
  let rows ← Script.select (stageRows env runId)
  let stages := rows.map (·.2)
  sendStages pending
  if stages.any fun stage => stage.status = .failed then
    failRun env runId run (Engine.lastError stages)
  else if stages.any (Engine.backoffPending env.now) then
    requeueRun runId run Engine.transientError
  else if Engine.runOverBudget run then pauseForBudget runId run
  else if !stages.all Engine.stageDone then pure ()
  else finalizeRun env runId run

/-- What a runner sends when it is drained; it returns the cost that the loaded run then shows. -/
abbrev Drain := Run → DbScript ℚ

def advanceRun (env : Env) (fund : FundConfig) (drain : Drain) (runId : Nat) : DbScript Unit := do
  let run ← getRow Db.runs runId
  if run.status ≠ .running then pure ()
  else do
    let cost ← drain run
    let rows ← Script.select (stageRows env runId)
    let pending ← rows.foldlM (digestStage env fund runId run) []
    settleRun env runId { run with costUsd := cost } pending

/-- The writes of the queue: stages, attempts and the costs of runs. -/
inductive QueueWrite : DbWrite → Prop
  | stage (id : Nat) (f : RunStage → RunStage) : QueueWrite (.setStage id f)
  | attempt (id : Nat) (f : StageAttempt → StageAttempt) : QueueWrite (.setAttempt id f)
  | newAttempt (row : StageAttempt) : QueueWrite (.addAttempt row)
  | cost (runId : Nat) (total : ℚ) :
      QueueWrite (.setRun runId fun row => { row with costUsd := total })

/-! ## A tick and a cancel -/

abbrev CancelWorld := World Db RowKey (Option Reply)

/-- The tick that advances the run is transaction 0, the request to cancel it transaction 1. -/
def tickAndCancel (app : App) (db : Db) (env : Env) (drain : Drain) (runId : Nat)
    (cancelEnv : Env) (request : Request) (notes : Option String) : CancelWorld :=
  .start db
    [do advanceRun env app.fund drain runId; return none,
     do return some (← cancelRun cancelEnv app request runId notes)]

/-- The tick's first query has found the run running. -/
def tickLoaded (runId : Nat) (l : Local Db RowKey) : Bool :=
  l.seen.head?.any fun db => db.runs[runId]?.any fun run => run.status = .running

/-- The request's second query, which follows that of its key, has found the run open. -/
def cancelLoaded (runId : Nat) (l : Local Db RowKey) : Bool :=
  l.seen[1]?.any fun db => db.runs[runId]?.any fun run => !run.status.terminal

def Db.ended (runId : Nat) (db : Db) : Bool := db.runs[runId]?.any fun run => run.status.terminal

/-- The commit of transaction `i` comes next, and it ends the run. -/
def Ends (runId : Nat) (w : CancelWorld) (i : Nat) : Prop :=
  ∃ reply l, w.parties[i]? = some (.active (.done reply) l) ∧ Db.ended runId w.store = false ∧
    Db.ended runId (l.pending w.store) = true

/-- The next step does not end the run while the other transaction, still at work, has loaded it as
running or, to cancel it, as open. -/
structure SparesLoaded (runId : Nat) (w : CancelWorld) (i : Nat) : Prop where
  tick : i = 1 → Ends runId w i → ∀ rest l, w.parties[0]? = some (.active rest l) →
    tickLoaded runId l = false
  cancel : i = 0 → Ends runId w i → ∀ rest l, w.parties[1]? = some (.active rest l) →
    cancelLoaded runId l = false

/-- A terminal status lasts, and once both transactions have ended the run holds the lock of a
coverage if and only if it is running or waits for the PM. -/
structure StaysEnded (runId coverageId : Nat) (start : CancelWorld) (schedule : List Nat) :
    Prop where
  lasts : History.EachStep World.step (fun w i => ∀ run, w.store.runs[runId]? = some run →
    run.status.terminal = true → ∃ run', (w.step i).store.runs[runId]? = some run' ∧
      run'.status = run.status) start schedule
  locked : (start.run schedule).ended = true →
    ((start.run schedule).store.lockOwner coverageId = some runId ↔
      ∃ run, (start.run schedule).store.runs[runId]? = some run ∧ run.status.live = true)

end Concurrent

end AiFund
