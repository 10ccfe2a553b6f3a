import AiFund.Db.Schema

/-!
# Runs repository

Run creation, the coverage lock that a mutating run holds from its start to its end, and PM gates.
-/

namespace AiFund

open UnitOfWork

structure StageIn where
  seq : Int
  role : StageRole
  house : Json
  substrate : Substrate
  maxAttempts : Int
  dependsOnSeq : Option Int := none

def RunType.mutates : RunType → Bool
  | .monitorTick | .pmQuery => false
  | _ => true

/-- A value for a column that is not nullable. -/
def required {α : Type} (column : String) : Except PyError (Option α) → Except PyError α
  | .ok (some value) => .ok value
  | .ok none => .error (.integrityError column)
  | .error error => .error error

/-- A value for a column with a default, which takes the place of NULL. -/
def defaulted {α : Type} (default : α) (value : Except PyError (Option α)) : Except PyError α :=
  value.map (·.getD default)

/-- Returns the new run's key. -/
def RunsRepo.createRun (env : Env) (coverageId : Option Nat) (type : RunType) (trigger : String)
    (params : JsonObject) (priority : Json) (budgetCapUsd : Option ℚ)
    (requestedBy triggerRef : Option String) : DbTxn Nat := do
  let priority ← ofExcept id (defaulted 100 (env.runtime.bindInt priority))
  let runId ← inspect fun db => db.runs.length
  assign fun db => { db with runs := db.runs ++
    [{ coverageId, type, status := .queued, trigger, triggerRef, priority,
       mutatesDossier := type.mutates, requestedBy, params,
       budgetCapUsd := budgetCapUsd.map Numeric.cost.rounded, createdAt := env.now }] }
  flush
  return runId

def StageIn.toRow (stage : StageIn) (env : Env) (runId : Nat) : Except PyError RunStage := do
  let house ← required "run_stages.house" (env.runtime.bindText stage.house)
  return { runId, seq := stage.seq, role := stage.role, house, substrate := stage.substrate,
           dependsOnSeq := stage.dependsOnSeq, availableAt := env.now,
           maxAttempts := stage.maxAttempts }

def addStages (env : Env) (runId : Nat) (stages : List StageIn) : DbTxn Unit := do
  let rows ← ofExcept id (stages.mapM fun stage => stage.toRow env runId)
  assign fun db => { db with stages := db.stages ++ rows }
  flush

/-- `INSERT ... ON CONFLICT (coverage_id) DO NOTHING`. -/
def Db.insertLock (db : Db) (coverageId runId : Nat) (acquiredAt : Time) : Db :=
  if db.locks.any fun lock => lock.coverageId = coverageId then db
  else { db with locks := db.locks ++ [⟨coverageId, runId, acquiredAt⟩] }

def Db.lockOwner (db : Db) (coverageId : Nat) : Option Nat :=
  (db.locks.find? fun lock => lock.coverageId = coverageId).map (·.runId)

def markRunning (env : Env) (runId : Nat) : DbTxn Bool := do
  assign fun db => db.updateRun runId fun run =>
    { run with status := .running, startedAt := some (run.startedAt.getD env.now) }
  flush
  return true

/-- Take the coverage lock if the run mutates the dossier, and move the run to running; `false` when
another run holds the lock. -/
def startRun (env : Env) (runId : Nat) : DbTxn Bool := do
  let run ← getRow Db.runs runId
  match if run.mutatesDossier then run.coverageId else none with
  | none => markRunning env runId
  | some coverageId =>
      execute fun db => db.insertLock coverageId runId env.now
      let owner ← select fun db => db.lockOwner coverageId
      if owner ≠ some runId then do
        flush
        return false
      else markRunning env runId

/-- Transient failure: running to queued at the current stage boundary. -/
def requeueRun (runId : Nat) (reason : String) : DbTxn Unit := do
  let run ← getRow Db.runs runId
  let sm ← ofExcept .illegalStateChange (runTransition run.status .requeue {})
  assign fun db => db.updateRun runId fun run =>
    { run with status := sm.toState, error := some reason }
  flush

def finishAction : RunStatus → Except PyError RunAction
  | .succeeded => .ok .succeed
  | .failed => .ok .fail
  | .cancelled => .ok .cancel
  | status => .error (.keyError status.value)

def addOutbox (env : Env) (kind : String) (coverageId runId : Option Nat) (subject : Nat)
    (payload : JsonObject) : DbTxn Unit :=
  assign fun db => { db with outbox := db.outbox ++
    [{ kind, coverageId, runId, payload, dedupeKey := .fresh kind subject db.outbox.length,
       availableAt := env.now }] }

def applyFinishEffect (env : Env) (runId : Nat) (run : Run) (status : RunStatus) :
    RunEffect → DbTxn Unit
  | .releaseLock =>
      execute fun db => { db with locks := db.locks.filter fun lock => lock.runId ≠ runId }
  | .outboxRunFinished =>
      addOutbox env "run.finished" run.coverageId (some runId) runId
        [("status", .str status.value), ("run_id", .str (toString runId))]
  | _ => pure ()

def finishRun (env : Env) (runId : Nat) (status : RunStatus) (summary error : Option String) :
    DbTxn Unit := do
  let run ← getRow Db.runs runId
  let action ← ofExcept id (finishAction status)
  let sm ← ofExcept .illegalStateChange (runTransition run.status action {})
  assign fun db => db.updateRun runId fun run =>
    { run with
      status := sm.toState
      finishedAt := some env.now
      summary := summary.orElse fun _ => run.summary
      error := error.orElse fun _ => run.error }
  sm.sideEffects.forM (applyFinishEffect env runId run status)
  flush

def openGate (runId : Nat) (kind : GateKind) (prompt : GatePrompt) (payload : List (String × ℚ))
    (allowedAnswers : List String) : DbTxn Unit := do
  let run ← getRow Db.runs runId
  assign fun db => { db with gates := db.gates ++
    [{ runId, coverageId := run.coverageId, kind, state := .opened, prompt, payload,
       allowedAnswers }] }
  flush

def PmGate.answeredWith (gate : PmGate) (answer actorId : String) (notes : Option String)
    (now : Time) (idempotencyKey : String) : PmGate :=
  { gate with
    state := .answered
    answer := some answer
    answeredBy := some actorId
    answerNotes := notes
    answeredAt := some now
    idempotencyKey := some idempotencyKey }

/-- A repeat of the answer under the same idempotency key replays; any other answer is written. -/
def answerGate (env : Env) (gateId : Nat) (answer actorId : String) (notes : Option String)
    (idempotencyKey : String) : DbTxn PmGate := do
  let gate ← getRow Db.gates gateId
  if gate.state = .answered ∧ gate.idempotencyKey = some idempotencyKey then
    return gate
  else do
    assign fun db => db.updateGate gateId fun gate =>
      gate.answeredWith answer actorId notes env.now idempotencyKey
    flush
    getRow Db.gates gateId

end AiFund
