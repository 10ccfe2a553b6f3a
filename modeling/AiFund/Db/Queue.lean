import AiFund.Db.Schema
import AiFund.Domain.Rules

/-!
# Stage queue

Workers claim, extend, complete and fail stages; the reaper takes back lapsed leases. Costs are
attributed per attempt and rolled up to the stage and the run.
-/

namespace AiFund

open UnitOfWork Rows

structure AttemptIn where
  workerId : String
  model : Option String := none
  transcriptRef : Option String := none
  costUsd : ℚ := 0
  costSource : String := "estimated"
  tokensIn : Option Nat := none
  tokensOut : Option Nat := none
  cachedTokensIn : Option Nat := none
  exitCode : Option Int := none
  killReason : Option String := none

/-- What the cost columns take of the attempt's cost. -/
def AttemptIn.charged (attempt : AttemptIn) : ℚ := Numeric.cost.rounded attempt.costUsd

def StageStatus.satisfied : StageStatus → Bool
  | .succeeded | .skipped => true
  | _ => false

def dependencySatisfied (db : Db) (stage : RunStage) : Bool :=
  stage.dependsOnSeq.all fun seq => db.stages.any fun dep =>
    dep.runId = stage.runId && dep.seq = seq && dep.status.satisfied

/-- The conditions of the claim query; an empty filter list is no filter. -/
def claimable (db : Db) (now : Time) (substrates : List Substrate) (houses : List String)
    (stage : RunStage) : Bool :=
  stage.status = .queued && stage.availableAt ≤ now &&
    db.runs[stage.runId]?.any (fun run => run.status = .running) &&
    dependencySatisfied db stage &&
    (substrates.isEmpty || stage.substrate ∈ substrates) &&
    (houses.isEmpty || stage.house ∈ houses)

/-- `ORDER BY runs.priority DESC, runs.created_at, run_stages.seq`. -/
def claimBefore (db : Db) (a b : Nat) : Bool :=
  let key (id : Nat) : Option (Int × Time × Int) := do
    let stage ← db.stages[id]?
    let run ← db.runs[stage.runId]?
    return (-run.priority, run.createdAt, stage.seq)
  match key a, key b with
  | some (p, t, n), some (p', t', n') => p < p' || (p = p' && (t < t' || (t = t' && n ≤ n')))
  | _, _ => true

def claimCandidate (env : Env) (substrates : List Substrate) (houses : List String) (db : Db) :
    Option Nat :=
  (((env.rows .claimable).all (claimable db env.now substrates houses) db.stages).insertionSort
    fun a b => claimBefore db a b).head?

/-- The attempt row that a claim adds for `stage`. -/
def newAttempt (stageId : Nat) (stage : RunStage) (workerId : String) : StageAttempt :=
  { stageId, attemptNo := stage.attempts + 1, house := stage.house, substrate := stage.substrate,
    workerId := some workerId }

def RunStage.claimedFor (stage : RunStage) (workerId : String) (now leaseExpiresAt : Time) :
    RunStage :=
  { stage with
    status := .running
    claimedBy := some workerId
    claimedAt := some now
    leaseExpiresAt := some leaseExpiresAt
    attempts := stage.attempts + 1
    startedAt := some (stage.startedAt.getD now) }

def claimStage (env : Env) (workerId : String) (substrates : List Substrate)
    (houses : List String) (leaseSeconds : ℚ) : DbTxn (Option Nat) := do
  match ← select (claimCandidate env substrates houses) with
  | none => return none
  | some stageId =>
      let stage ← getRow Db.stages stageId
      assign fun db => db.updateStage stageId fun stage =>
        stage.claimedFor workerId env.now (env.now + leaseSeconds)
      assign fun db => { db with attempts := db.attempts ++ [newAttempt stageId stage workerId] }
      flush
      return some stageId

def heartbeat (env : Env) (stageId : Nat) (workerId : String) (leaseSeconds : ℚ) :
    DbTxn Bool := do
  match ← lookup Db.stages stageId with
  | none => return false
  | some stage =>
      if stage.claimedBy ≠ some workerId ∨ stage.status ≠ .running then
        return false
      else do
        assign fun db => db.updateStage stageId fun stage =>
          { stage with leaseExpiresAt := some (env.now + leaseSeconds) }
        flush
        return true

/-- The stage's open attempt, if it has one. -/
def openAttempt (env : Env) (stageId : Nat) (db : Db) : Option Nat :=
  (env.rows .openAttempt).first
    (fun attempt => attempt.stageId = stageId && attempt.status = .running) db.attempts

def StageAttempt.closed (a : StageAttempt) (attempt : AttemptIn) (status : AttemptStatus)
    (now : Time) (result : Option JsonObject) (validationErrors : Option Json)
    (killReason : Option String) : StageAttempt :=
  { a with
    status
    finishedAt := some now
    costUsd := attempt.charged
    costSource := some attempt.costSource
    tokensIn := attempt.tokensIn
    tokensOut := attempt.tokensOut
    cachedTokensIn := attempt.cachedTokensIn
    transcriptRef := attempt.transcriptRef
    model := attempt.model
    exitCode := attempt.exitCode
    killReason := killReason.orElse fun _ => a.killReason
    result := result.orElse fun _ => a.result
    validationErrors := validationErrors.orElse fun _ => a.validationErrors }

/-- Rewrite the attempt `id`, if there is one. -/
def Db.close (db : Db) (id : Option Nat) (f : StageAttempt → StageAttempt) : Db :=
  id.elim db fun id => db.updateAttempt id f

def closeAttempt (env : Env) (stageId : Nat) (attempt : AttemptIn) (status : AttemptStatus)
    (result : Option JsonObject) (validationErrors : Option Json) (killReason : Option String) :
    DbTxn Unit := do
  let a ← select (openAttempt env stageId)
  assign fun db => db.close a fun a =>
    a.closed attempt status env.now result validationErrors killReason
  assign fun db => db.updateStage stageId fun stage =>
    { stage with costUsd := stage.costUsd + attempt.charged }

/-- The sum of the costs of a run's stage rows. -/
def stageCost (db : Db) (runId : Nat) : ℚ :=
  ((db.stages.filter fun stage => stage.runId = runId).map (·.costUsd)).sum

def rollupRun (runId : Nat) : DbTxn Unit := do
  let total ← select fun db => stageCost db runId
  let _ ← getRow Db.runs runId
  assign fun db => db.updateRun runId fun run => { run with costUsd := total }

def nextAvailableAt (env : Env) (stageId attempts : Nat) (backoff : BackoffPolicy) : Time :=
  env.now + backoffSeconds attempts backoff (env.jitter stageId)

def RunStage.releaseClaim (stage : RunStage) : RunStage :=
  { stage with claimedBy := none, claimedAt := none, leaseExpiresAt := none }

def completeStage (env : Env) (stageId : Nat) (attempt : AttemptIn) (result : JsonObject) :
    DbTxn Unit := do
  let stage ← getRow Db.stages stageId
  closeAttempt env stageId attempt .succeeded (some result) none none
  let sm ← ofExcept .illegalStateChange
    (stageTransition stage.status .complete ⟨stage.attempts, stage.maxAttempts⟩)
  assign fun db => db.updateStage stageId fun stage =>
    RunStage.releaseClaim
      { stage with
        status := sm.toState
        finishedAt := some env.now
        result := some result
        tokensIn := attempt.tokensIn
        tokensOut := attempt.tokensOut
        transcriptRef := attempt.transcriptRef }
  rollupRun stage.runId
  flush

/-- Requeue the stage after a backoff while it can be retried, else fail it. -/
def retryOrFail (env : Env) (stageId : Nat) (stage : RunStage) (retryable : Bool)
    (backoff : BackoffPolicy) : DbTxn Unit := do
  if retryable ∧ stage.attempts < stage.maxAttempts then do
    let sm ← ofExcept .illegalStateChange
      (stageTransition stage.status .failRetryable ⟨stage.attempts, stage.maxAttempts⟩)
    assign fun db => db.updateStage stageId fun stage =>
      RunStage.releaseClaim
        { stage with
          status := sm.toState
          availableAt :=
            if sm.setAvailableAtBackoff then nextAvailableAt env stageId stage.attempts backoff
            else env.now }
  else
    assign fun db => db.updateStage stageId fun stage =>
      RunStage.releaseClaim { stage with status := .failed, finishedAt := some env.now }

def failStage (env : Env) (stageId : Nat) (attempt : AttemptIn) (retryable : Bool)
    (backoff : BackoffPolicy) : DbTxn Unit := do
  let stage ← getRow Db.stages stageId
  closeAttempt env stageId attempt .failed none none attempt.killReason
  retryOrFail env stageId stage retryable backoff
  rollupRun stage.runId
  flush

def leaseExpired (now : Time) (stage : RunStage) : Bool :=
  stage.status = .running && stage.leaseExpiresAt.any fun lease => lease < now

/-- What the reaper makes of a stage: requeued under its `max_attempts`, else failed. -/
def RunStage.reaped (stage : RunStage) (env : Env) (stageId : Nat) (backoff : BackoffPolicy) :
    RunStage :=
  RunStage.releaseClaim
    (if stage.attempts < stage.maxAttempts then
      { stage with
        status := .queued
        availableAt := nextAvailableAt env stageId stage.attempts backoff }
    else { stage with status := .failed, finishedAt := some env.now })

def StageAttempt.lapsed (a : StageAttempt) (now : Time) : StageAttempt :=
  { a with status := .failed, killReason := some "lease_expired", finishedAt := some now }

def reapStage (env : Env) (backoff : BackoffPolicy) (stageId : Nat) : DbTxn Unit := do
  let a ← select (openAttempt env stageId)
  assign fun db => db.close a fun a => a.lapsed env.now
  assign fun db => db.updateStage stageId fun stage => stage.reaped env stageId backoff

def reapExpired (env : Env) (now : Time) (backoff : BackoffPolicy) : DbTxn (List Nat) := do
  let expired ← select fun db => (env.rows .expired).all (leaseExpired now) db.stages
  expired.forM (reapStage env backoff)
  flush
  return expired

/-- A call of a worker or of the reaper. -/
inductive QueueCall where
  | claim (workerId : String) (substrates : List Substrate) (houses : List String)
      (leaseSeconds : ℚ)
  | heartbeat (stageId : Nat) (workerId : String) (leaseSeconds : ℚ)
  | complete (stageId : Nat) (attempt : AttemptIn) (result : JsonObject)
  | fail (stageId : Nat) (attempt : AttemptIn) (retryable : Bool) (backoff : BackoffPolicy)
  | reap (now : Time) (backoff : BackoffPolicy)

def QueueCall.perform (env : Env) : QueueCall → DbTxn Unit
  | .claim workerId substrates houses leaseSeconds => do
      let _ ← claimStage env workerId substrates houses leaseSeconds
  | .heartbeat stageId workerId leaseSeconds => do
      let _ ← AiFund.heartbeat env stageId workerId leaseSeconds
  | .complete stageId attempt result => completeStage env stageId attempt result
  | .fail stageId attempt retryable backoff => failStage env stageId attempt retryable backoff
  | .reap now backoff => do
      let _ ← reapExpired env now backoff

end AiFund
