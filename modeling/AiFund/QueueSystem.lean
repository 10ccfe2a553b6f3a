import AiFund.Db.Queue
import AiFund.Db.RunsRepo
import AiFund.Library.History

/-!
# The queue on its own

Histories of the calls that touch stages and attempts, each in a transaction of its own.
-/

namespace AiFund

open UnitOfWork

inductive QueueOp where
  | addStages (env : Env) (runId : Nat) (stages : List StageIn)
  | startRun (env : Env) (runId : Nat)
  | requeueRun (runId : Nat) (reason : String)
  | call (env : Env) (call : QueueCall)

def QueueOp.perform : QueueOp → DbTxn Unit
  | .addStages env runId stages => AiFund.addStages env runId stages
  | .startRun env runId => do
      let _ ← AiFund.startRun env runId
  | .requeueRun runId reason => AiFund.requeueRun runId reason
  | .call env queueCall => queueCall.perform env

def QueueOp.step (db : Db) (op : QueueOp) : Db := (commit op.perform db).after

def runQueue (db : Db) (ops : List QueueOp) : Db := History.run QueueOp.step db ops

/-- How often one operation claims the stage: once if it is a claim that returns this stage. -/
def QueueOp.claims (db : Db) (stageId : Nat) : QueueOp → Nat
  | .call env (.claim workerId substrates houses leaseSeconds) =>
      match (commit (claimStage env workerId substrates houses leaseSeconds) db).result with
      | .ok (some id) => if id = stageId then 1 else 0
      | _ => 0
  | _ => 0

/-- The number of claims of a stage in a history. -/
def claimCount (stageId : Nat) : Db → List QueueOp → Nat
  | _, [] => 0
  | db, op :: ops => op.claims db stageId + claimCount stageId (op.step db) ops

/-- The stage machine has every change of status that one operation makes. -/
def QueueOp.RefinesStages (db : Db) (op : QueueOp) : Prop :=
  ∀ (stageId : Nat) (stage : RunStage), db.stages[stageId]? = some stage →
    ∃ stage' : RunStage, (op.step db).stages[stageId]? = some stage' ∧
      (stage'.status = stage.status ∨
        StageEdge ⟨stage.attempts, stage.maxAttempts⟩ stage.status stage'.status)

/-- A failure that the queue does not requeue concerns a stage that is running, or has failed
already. -/
def QueueOp.Timely (db : Db) : QueueOp → Prop
  | .call _ (.fail stageId _ retryable _) =>
      ∀ stage : RunStage, db.stages[stageId]? = some stage → stage.status = .running ∨
        stage.status = .failed ∨ (retryable = true ∧ stage.attempts < stage.maxAttempts)
  | _ => True

/-- The stage that an operation reports on, and the worker in whose name it does. -/
def QueueOp.reports : QueueOp → Option (Nat × String)
  | .call _ (.complete stageId attempt _) => some (stageId, attempt.workerId)
  | .call _ (.fail stageId attempt _ _) => some (stageId, attempt.workerId)
  | _ => none

/-- A report by one worker on a stage that another worker holds. -/
def QueueOp.Foreign (db : Db) (op : QueueOp) : Prop :=
  ∃ (stageId : Nat) (workerId holder : String) (stage : RunStage),
    op.reports = some (stageId, workerId) ∧ db.stages[stageId]? = some stage ∧
      stage.claimedBy = some holder ∧ holder ≠ workerId

/-- The operation changes no stage and no attempt. -/
def QueueOp.Fenced (db : Db) (op : QueueOp) : Prop :=
  (op.step db).stages = db.stages ∧ (op.step db).attempts = db.attempts

/-- One house and one running run, for concrete histories. -/
def Db.oneRun (capUsd : Option ℚ) : Db where
  houses := [{ key := "gpt" }]
  coverages := [{ ticker := "AAPL", exchange := "US", name := "Apple", currency := "USD",
                  state := .proposed, dossierSlug := "us_aapl" }]
  runs := [{ coverageId := some 0, type := .pmQuery, status := .running, trigger := "pm",
             mutatesDossier := false, budgetCapUsd := capUsd, createdAt := 0 }]

def StageIn.pmQuery : StageIn :=
  { seq := 1, role := .pmQuery, house := .str "gpt", substrate := .api, maxAttempts := 2 }

namespace QueueOp

/-- One stage is planned for the run and claimed. -/
def pmQueryClaimed : List QueueOp :=
  [.addStages (.quiet 0) 0 [.pmQuery], .call (.quiet 1) (.claim "w1" [] [] 60)]

def completedBy (workerId : String) (time : Time) : QueueOp :=
  .call (.quiet time) (.complete 0 { workerId, costUsd := 1 } [])

/-- A failure that is not worth a retry. -/
def failedBy (workerId : String) (time : Time) : QueueOp :=
  .call (.quiet time) (.fail 0 { workerId, costUsd := 1 } false ⟨60, 3600, 0⟩)

end QueueOp

/-- The same database before any stage was planned. -/
def Db.withoutStages (db : Db) : Db := { db with stages := [], attempts := [] }

end AiFund
