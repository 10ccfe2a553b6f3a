import AiFund.Concurrent.Statements
import AiFund.Db.RunsRepo

/-!
# Runs repository, statement by statement

Starting, requeueing and finishing a run. The lock statements are sent at once; the attribute
writes and the added rows wait for the flush.
-/

namespace AiFund

open ReadCommitted

/-- The row that an UPDATE of a started run leaves, when the run was loaded as `loaded`. -/
def Run.writeRunning (loaded : Run) (now : Time) (row : Run) : Run :=
  { row with
    status := put loaded.status .running row.status
    startedAt := put loaded.startedAt (some (loaded.startedAt.getD now)) row.startedAt }

/-- The row that an UPDATE of a requeued run leaves. -/
def Run.writeRequeued (loaded : Run) (status : RunStatus) (reason : String) (row : Run) : Run :=
  { row with
    status := put loaded.status status row.status
    error := put loaded.error (some reason) row.error }

/-- The row that an UPDATE of a finished run leaves. -/
def Run.writeFinished (loaded : Run) (status : RunStatus) (now : Time)
    (summary error : Option String) (row : Run) : Run :=
  { row with
    status := put loaded.status status row.status
    finishedAt := put loaded.finishedAt (some now) row.finishedAt
    summary := put loaded.summary (summary.orElse fun _ => loaded.summary) row.summary
    error := put loaded.error (error.orElse fun _ => loaded.error) row.error }

namespace Concurrent

/-- `INSERT ... ON CONFLICT (coverage_id) DO NOTHING`; a second lock of the run is refused. -/
def insertLock (coverageId runId : Nat) (acquiredAt : Time) : DbScript Unit :=
  Script.write fun db =>
    if db.locks.any fun lock => lock.coverageId = coverageId then some (DbWrite.skipLock coverageId)
    else if db.locks.any fun lock => lock.runId = runId then none
    else some (DbWrite.addLock coverageId runId acquiredAt)

def markRunning (env : Env) (runId : Nat) (run : Run) : DbScript Bool := do
  sendUnless (run.status = .running ∧ run.startedAt.isSome)
    (.setRun runId (run.writeRunning env.now))
  return true

def startRun (env : Env) (runId : Nat) : DbScript Bool := do
  let run ← getRow Db.runs runId
  match if run.mutatesDossier then run.coverageId else none with
  | none => markRunning env runId run
  | some coverageId => do
      insertLock coverageId runId env.now
      let owner ← Script.select fun db => db.lockOwner coverageId
      if owner ≠ some runId then return false
      else markRunning env runId run

def requeueRun (runId : Nat) (run : Run) (reason : String) : DbScript Unit := do
  let sm ← ofExcept (runTransition run.status .requeue {})
  send (.setRun runId (run.writeRequeued sm.toState reason))

/-- `DELETE FROM coverage_run_locks WHERE run_id = ...` -/
def releaseLock (runId : Nat) : DbScript Unit :=
  Script.write fun db => some (DbWrite.dropLocks runId
    ((db.locks.filter fun lock => lock.runId = runId).map (·.coverageId)))

def outboxRow (env : Env) (kind : String) (coverageId runId : Option Nat) (subject : Nat)
    (payload : JsonObject) (serial : Nat) : OutboxEvent :=
  { kind, coverageId, runId, payload, dedupeKey := .fresh kind subject serial,
    availableAt := env.now }

/-- What a side effect of a run transition sends at once. -/
def finishEffect (runId : Nat) : RunEffect → DbScript Unit
  | .releaseLock => releaseLock runId
  | _ => pure ()

/-- What a side effect of a run transition adds to the flush. -/
def finishInsert (env : Env) (runId : Nat) (run : Run) (status : RunStatus) :
    RunEffect → DbScript Unit
  | .outboxRunFinished =>
      send (.addOutbox (outboxRow env "run.finished" run.coverageId (some runId) runId
        [("status", .str status.value), ("run_id", .str (toString runId))]))
  | _ => pure ()

/-- Finish a run that the session has loaded. -/
def finishLoaded (env : Env) (runId : Nat) (run : Run) (status : RunStatus)
    (summary error : Option String) : DbScript Unit := do
  let action ← ofExcept (finishAction status)
  let sm ← ofExcept (runTransition run.status action {})
  sm.sideEffects.forM (finishEffect runId)
  sm.sideEffects.forM (finishInsert env runId run status)
  send (.setRun runId (run.writeFinished sm.toState env.now summary error))

def finishRun (env : Env) (runId : Nat) (status : RunStatus) (summary error : Option String) :
    DbScript Unit := do
  let run ← getRow Db.runs runId
  finishLoaded env runId run status summary error

/-! ## Runs that contend for a lock -/

inductive LockCall where
  | start (env : Env) (runId : Nat)
  | finish (env : Env) (runId : Nat) (status : RunStatus) (summary error : Option String)

inductive LockReply where
  | started (owner : Bool)
  | finished
  deriving DecidableEq

/-- The run that the transaction starts. -/
def LockCall.starts : LockCall → Option Nat
  | .start _ runId => some runId
  | .finish .. => none

/-- The run that the transaction finishes. -/
def LockCall.finishes : LockCall → Option Nat
  | .start .. => none
  | .finish _ runId _ _ _ => some runId

def LockCall.script : LockCall → DbScript LockReply
  | .start env runId => return .started (← startRun env runId)
  | .finish env runId status summary error => do
      finishRun env runId status summary error
      return .finished

abbrev LockWorld := World Db RowKey LockReply

def contenders (db : Db) (calls : List LockCall) : LockWorld :=
  .start db (calls.map LockCall.script)

/-- The lock rows of a coverage, of which the primary key allows one. -/
def locksOf (coverageId : Nat) (db : Db) : List CoverageRunLock :=
  db.locks.filter fun lock => lock.coverageId = coverageId

inductive LockEvent where
  /-- The commit of a `start_run` that returned `True`. -/
  | won
  /-- The commit of a `finish_run` that has deleted the lock. -/
  | released
  deriving DecidableEq

/-- What the next step of transaction `i` does to the lock of the coverage. -/
def lockEvent (coverageId : Nat) (w : LockWorld) (i : Nat) : Option LockEvent :=
  match w.parties[i]? with
  | some (.active (.done (.started true)) _) => some .won
  | some (.active (.done .finished) l) =>
      if locksOf coverageId w.store ≠ [] ∧ locksOf coverageId (l.pending w.store) = [] then
        some .released
      else none
  | _ => none

def lockEvents (coverageId : Nat) : LockWorld → List Nat → List LockEvent
  | _, [] => []
  | w, i :: schedule => (lockEvent coverageId w i).toList ++
      lockEvents coverageId (w.step i) schedule

/-- The transaction has read back the lock as that of its run without having inserted it. -/
def sawOwnLock (coverageId runId : Nat) (l : Local Db RowKey) : Bool :=
  (l.seen[1]?.any fun db => db.lockOwner coverageId = some runId) &&
    RowKey.lock coverageId ∉ l.held

/-- The next step `i` does not commit the release of the lock while a start of the same run, which
has read the lock as its run's without having inserted it, is still at work. -/
def SparesOwners (calls : List LockCall) (coverageId : Nat) (w : LockWorld) (i : Nat) : Prop :=
  ∀ (r : Nat) (reply : LockReply) (l : Local Db RowKey), calls[i]?.bind LockCall.finishes = some r →
    w.parties[i]? = some (.active (.done reply) l) → RowKey.lock coverageId ∈ l.held →
    ∀ (j : Nat) (rest : DbScript LockReply) (l' : Local Db RowKey),
      calls[j]?.bind LockCall.starts = some r → w.parties[j]? = some (.active rest l') →
      sawOwnLock coverageId r l' = false

/-- No start raises, between two wins of the lock there is a release, and a start that returned
`False` leaves its run as it was, unless another transaction has finished it. -/
structure LockRace (calls : List LockCall) (coverageId : Nat) (db : Db) (schedule : List Nat) :
    Prop where
  returns : ∀ (i r : Nat), calls[i]?.bind LockCall.starts = some r →
    ((contenders db calls).run schedule).parties[i]? ≠ some .rolledBack
  alternates : (lockEvents coverageId (contenders db calls) schedule).IsChain fun a b =>
    ¬ (a = .won ∧ b = .won)
  queued : ∀ (i r : Nat) (run : Run), calls[i]?.bind LockCall.starts = some r →
    ((contenders db calls).run schedule).result i = some (.started false) →
    (∀ j, calls[j]?.bind LockCall.finishes = some r →
      ((contenders db calls).run schedule).result j = none) →
    db.runs[r]? = some run → ((contenders db calls).run schedule).store.runs[r]? = some run

end Concurrent

end AiFund
