import AiFund.Concurrent.Statements
import AiFund.Db.Queue

/-!
# Stage queue, statement by statement

A worker's heartbeat and completion and the reaper as transactions: what they select, what they
compute from it, and the UPDATEs of their flush, which go table by table and by primary key.
-/

namespace AiFund

open ReadCommitted

/-- The row that an UPDATE of a completed stage leaves, when the stage was loaded as `loaded`. -/
def RunStage.writeCompleted (loaded : RunStage) (status : StageStatus) (now : Time)
    (attempt : AttemptIn) (result : JsonObject) (row : RunStage) : RunStage :=
  { row with
    status := put loaded.status status row.status
    finishedAt := put loaded.finishedAt (some now) row.finishedAt
    result := some result
    costUsd := put loaded.costUsd (loaded.costUsd + attempt.charged) row.costUsd
    tokensIn := put loaded.tokensIn attempt.tokensIn row.tokensIn
    tokensOut := put loaded.tokensOut attempt.tokensOut row.tokensOut
    transcriptRef := put loaded.transcriptRef attempt.transcriptRef row.transcriptRef
    claimedBy := put loaded.claimedBy none row.claimedBy
    claimedAt := put loaded.claimedAt none row.claimedAt
    leaseExpiresAt := put loaded.leaseExpiresAt none row.leaseExpiresAt }

/-- The row that an UPDATE of a closed attempt leaves. -/
def StageAttempt.writeClosed (loaded : StageAttempt) (attempt : AttemptIn) (status : AttemptStatus)
    (now : Time) (result : JsonObject) (row : StageAttempt) : StageAttempt :=
  { row with
    status := put loaded.status status row.status
    finishedAt := put loaded.finishedAt (some now) row.finishedAt
    costUsd := put loaded.costUsd attempt.charged row.costUsd
    costSource := put loaded.costSource (some attempt.costSource) row.costSource
    tokensIn := put loaded.tokensIn attempt.tokensIn row.tokensIn
    tokensOut := put loaded.tokensOut attempt.tokensOut row.tokensOut
    cachedTokensIn := put loaded.cachedTokensIn attempt.cachedTokensIn row.cachedTokensIn
    transcriptRef := put loaded.transcriptRef attempt.transcriptRef row.transcriptRef
    model := put loaded.model attempt.model row.model
    exitCode := put loaded.exitCode attempt.exitCode row.exitCode
    result := some result }

/-- The row that an UPDATE of a reaped stage leaves. -/
def RunStage.writeReaped (loaded : RunStage) (env : Env) (stageId : Nat) (backoff : BackoffPolicy)
    (row : RunStage) : RunStage :=
  let new := loaded.reaped env stageId backoff
  { row with
    status := put loaded.status new.status row.status
    availableAt := put loaded.availableAt new.availableAt row.availableAt
    finishedAt := put loaded.finishedAt new.finishedAt row.finishedAt
    claimedBy := put loaded.claimedBy none row.claimedBy
    claimedAt := put loaded.claimedAt none row.claimedAt
    leaseExpiresAt := put loaded.leaseExpiresAt none row.leaseExpiresAt }

/-- The row that an UPDATE of a lapsed attempt leaves. -/
def StageAttempt.writeLapsed (loaded : StageAttempt) (now : Time) (row : StageAttempt) :
    StageAttempt :=
  { row with
    status := put loaded.status .failed row.status
    killReason := put loaded.killReason (some "lease_expired") row.killReason
    finishedAt := put loaded.finishedAt (some now) row.finishedAt }

def RunStage.ownedBy (workerId : String) (stage : RunStage) : Bool :=
  stage.claimedBy = some workerId && stage.status = .running

namespace Concurrent

def heartbeat (env : Env) (stageId : Nat) (workerId : String) (leaseSeconds : ℚ) :
    DbScript Bool := do
  match ← Script.select fun db => db.stages[stageId]? with
  | none => return false
  | some stage =>
      if stage.claimedBy ≠ some workerId ∨ stage.status ≠ .running then return false
      else do
        let lease : Option Time := some (env.now + leaseSeconds)
        sendUnless (lease = stage.leaseExpiresAt)
          (.setStage stageId fun row => { row with leaseExpiresAt := lease })
        return true

/-- The stage's open attempt with its row, if it has one. -/
def openAttemptRow (env : Env) (stageId : Nat) (db : Db) : Option (Nat × StageAttempt) := do
  let id ← openAttempt env stageId db
  return (id, ← db.attempts[id]?)

def closeAttemptRow (attempt : AttemptIn) (now : Time) (result : JsonObject) :
    Option (Nat × StageAttempt) → DbScript Unit
  | none => pure ()
  | some (id, loaded) =>
      send (.setAttempt id (loaded.writeClosed attempt .succeeded now result))

/-- The flush of a completion: the run's new total if it changed, the stage and the attempt. -/
def flushCompleted (env : Env) (stageId : Nat) (attempt : AttemptIn) (result : JsonObject)
    (stage : RunStage) (open? : Option (Nat × StageAttempt)) (status : StageStatus) (total : ℚ)
    (run : Run) : DbScript Unit := do
  sendUnless (total = run.costUsd) (.setRun stage.runId fun row => { row with costUsd := total })
  send (.setStage stageId (stage.writeCompleted status env.now attempt result))
  closeAttemptRow attempt env.now result open?

def completeStage (env : Env) (stageId : Nat) (attempt : AttemptIn) (result : JsonObject) :
    DbScript Unit := do
  let stage ← getRow Db.stages stageId
  let open? ← Script.select (openAttemptRow env stageId)
  let sm ← ofExcept (stageTransition stage.status .complete ⟨stage.attempts, stage.maxAttempts⟩)
  let total ← Script.select fun db => stageCost db stage.runId
  let run ← getRow Db.runs stage.runId
  flushCompleted env stageId attempt result stage open? sm.toState total run

/-- The lapsed stages with their rows, in the order in which the store returns them. -/
def expiredRows (env : Env) (now : Time) (db : Db) : List (Nat × RunStage) :=
  ((env.rows .expired).all (leaseExpired now) db.stages).filterMap fun id =>
    db.stages[id]?.map fun stage => (id, stage)

/-- The flush of the reaper: the stages, then their attempts. -/
def flushReaped (env : Env) (backoff : BackoffPolicy) (expired : List (Nat × RunStage))
    (attempts : List (Option (Nat × StageAttempt))) : DbScript Unit := do
  expired.forM fun (id, stage) => send (.setStage id (stage.writeReaped env id backoff))
  (attempts.filterMap fun a => a).forM fun (id, a) =>
    send (.setAttempt id (a.writeLapsed env.now))

def reapExpired (env : Env) (now : Time) (backoff : BackoffPolicy) : DbScript (List Nat) := do
  let expired ← Script.select (expiredRows env now)
  let attempts ← expired.mapM fun (id, _) => Script.select (openAttemptRow env id)
  flushReaped env backoff expired attempts
  return expired.map (·.1)

/-! ## A worker and the reaper -/

/-- What a transaction on the queue returns. -/
inductive QueueReply where
  | completed
  | beat (alive : Bool)
  | reaped (stageIds : List Nat)
  deriving DecidableEq

/-- What a worker tells the queue about its stage. -/
inductive WorkerCall where
  | complete (env : Env) (attempt : AttemptIn) (result : JsonObject)
  | heartbeat (env : Env) (workerId : String) (leaseSeconds : ℚ)

def WorkerCall.script (stageId : Nat) : WorkerCall → DbScript QueueReply
  | .complete env attempt result => do
      completeStage env stageId attempt result
      return .completed
  | .heartbeat env workerId leaseSeconds =>
      return .beat (← Concurrent.heartbeat env stageId workerId leaseSeconds)

def reaper (env : Env) (now : Time) (backoff : BackoffPolicy) : DbScript QueueReply :=
  return .reaped (← reapExpired env now backoff)

/-- The reaper's query has listed the stage. -/
def sawExpired (now : Time) (stageId : Nat) (l : Local Db RowKey) : Bool :=
  l.seen.head?.any fun db => db.stages[stageId]?.any (leaseExpired now)

/-- The heartbeat's query has found the stage running under its worker. -/
def sawOwn (workerId : String) (stageId : Nat) (l : Local Db RowKey) : Bool :=
  l.seen.head?.any fun db => db.stages[stageId]?.any (RunStage.ownedBy workerId)

abbrev QueueWorld := World Db RowKey QueueReply

/-- The worker is transaction 0 and the reaper transaction 1. -/
def workerAndReaper (db : Db) (stageId : Nat) (call : WorkerCall) (env : Env) (now : Time)
    (backoff : BackoffPolicy) : QueueWorld :=
  .start db [call.script stageId, reaper env now backoff]

/-- A committed success lasts: a completed stage has succeeded and cannot be claimed; a stage whose
heartbeat answered `true` is still the worker's and the reaper did not take it. -/
def WorkerCall.Survives (stageId : Nat) (w : QueueWorld) : WorkerCall → Prop
  | .complete .. => w.parties[0]? = some (.committed .completed) →
      ∃ stage, w.store.stages[stageId]? = some stage ∧ stage.status = .succeeded ∧
        ∀ (now : Time) (substrates : List Substrate) (houses : List String),
          claimable w.store now substrates houses stage = false
  | .heartbeat _ workerId _ => w.parties[0]? = some (.committed (.beat true)) →
      (∃ stage, w.store.stages[stageId]? = some stage ∧ stage.ownedBy workerId = true) ∧
        ∀ stageIds, w.parties[1]? = some (.committed (.reaped stageIds)) → stageId ∉ stageIds

/-- The next step `i` is not a commit that overtakes the other transaction: a completion does not
commit while the reaper has listed the stage and not yet rewritten it; a heartbeat that answers
`true` and a reaper that has listed the stage do not commit while the other has read the stage. -/
def WorkerCall.OnTime (stageId : Nat) (now : Time) (w : QueueWorld) (i : Nat) : WorkerCall → Prop
  | .complete .. => ∀ reply l, i = 0 → w.parties[0]? = some (.active (.done reply) l) →
      ∀ rest l', w.parties[1]? = some (.active rest l') → sawExpired now stageId l' = true →
        RowKey.stage stageId ∈ l'.held
  | .heartbeat _ workerId _ =>
      (∀ l, i = 0 → w.parties[0]? = some (.active (.done (.beat true)) l) →
        ∀ rest l', w.parties[1]? = some (.active rest l') → sawExpired now stageId l' = false) ∧
      (∀ reply l, i = 1 → w.parties[1]? = some (.active (.done reply) l) →
        sawExpired now stageId l = true → ∀ rest l', w.parties[0]? = some (.active rest l') →
          sawOwn workerId stageId l' = false)

/-- The lease that a heartbeat writes has not run out by the reaper's clock. -/
def WorkerCall.InTime (now : Time) : WorkerCall → Prop
  | .complete .. => True
  | .heartbeat env _ leaseSeconds => now ≤ env.now + leaseSeconds

end Concurrent

end AiFund
