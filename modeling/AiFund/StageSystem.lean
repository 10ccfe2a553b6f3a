import AiFund.Orchestrator.Engine
import AiFund.QueueSystem

/-!
# Stages and their runs

The queue together with the parts of the orchestrator that promote and advance runs, and what the
stages of one run do in such a history.
-/

namespace AiFund

open UnitOfWork

inductive StageOp where
  | queue (op : QueueOp)
  | promote (env : Env) (runId : Nat)
  | advance (env : Env) (fund : FundConfig) (runner : Engine.Runner) (runId : Nat)
  | tick (env : Env) (fund : FundConfig) (runner : Engine.Runner)

def StageOp.perform : StageOp → DbTxn Unit
  | .queue op => op.perform
  | .promote env runId => do
      let _ ← Engine.promoteRun env runId
  | .advance env fund runner runId => Engine.advanceRun env fund runner runId
  | .tick env fund runner => Engine.tick env fund runner

def StageOp.step (db : Db) (op : StageOp) : Db := (commit op.perform db).after

def runStages (db : Db) (ops : List StageOp) : Db := History.run StageOp.step db ops

/-! ## Order -/

/-- How often an operation of the queue claims the stage. -/
def StageOp.claims (db : Db) (stageId : Nat) : StageOp → Nat
  | .queue op => op.claims db stageId
  | _ => 0

/-- The number of claims of a stage in a history. -/
def stageClaims (stageId : Nat) : Db → List StageOp → Nat
  | _, [] => 0
  | db, op :: ops => op.claims db stageId + stageClaims stageId (op.step db) ops

/-- Reports concern running stages only. -/
def QueueOp.OnTime (db : Db) (op : QueueOp) : Prop :=
  ∀ (stageId : Nat) (workerId : String) (stage : RunStage), op.reports = some (stageId, workerId) →
    db.stages[stageId]? = some stage → stage.status = .running

/-- The operation plans no stages for the run. -/
def QueueOp.SparesPlan (r : Nat) : QueueOp → Prop
  | .addStages _ runId _ => runId ≠ r
  | _ => True

/-- A promotion, or an operation of the queue that reports on running stages only and adds none to
the run. -/
def StageOp.Disciplined (r : Nat) (db : Db) : StageOp → Prop
  | .queue op => op.OnTime db ∧ op.SparesPlan r
  | .promote .. => True
  | _ => False

/-- At most one stage of the run is running. -/
def Db.OneRunning (r : Nat) (db : Db) : Prop :=
  ∀ (i j : Nat) (a b : RunStage), db.stages[i]? = some a → db.stages[j]? = some b → a.runId = r →
    b.runId = r → a.status = .running → b.status = .running → i = j

/-- A stage of the run is claimed only after all stages with a smaller `seq` have succeeded, and the
finalizer only after all others have. -/
def StageOp.ClaimsInOrder (r : Nat) (db : Db) (op : StageOp) : Prop :=
  ∀ (stageId : Nat) (stage : RunStage), op.claims db stageId ≠ 0 →
    db.stages[stageId]? = some stage → stage.runId = r →
    ∀ other ∈ db.stages, other.runId = r →
      other.seq < stage.seq ∨ (stage.role = .finalizer ∧ other.role ≠ .finalizer) →
      other.status = .succeeded

/-! ## Progress -/

/-- The stages of the run come from `plan_stages`, for some run type, in one piece. -/
def StageOp.Plans (r : Nat) (db : Db) : StageOp → Prop
  | .queue (.addStages _ runId stages) => runId = r → (∀ stage ∈ db.stages, stage.runId ≠ r) ∧
      ∃ runType args, planStages runType args = .ok stages
  | _ => True

/-- The run is running, and its stages wait to be claimed or are done with. -/
structure Db.Ready (r : Nat) (now : Time) (db : Db) : Prop where
  run : ∃ run, db.runs[r]? = some run ∧ run.status = .running
  idle : ∀ stage ∈ db.stages, stage.runId = r → stage.status ≠ .running ∧ stage.status ≠ .failed
  queued : ∃ stage ∈ db.stages, stage.runId = r ∧ stage.status = .queued
  available : ∀ stage ∈ db.stages, stage.runId = r → stage.status = .queued →
    stage.availableAt ≤ now

/-! ## A small initiation

A lead and one verifier, for concrete histories. -/

def Db.oneInitiation : Db where
  houses := [{ key := "gpt" }, { key := "claude" }]
  coverages := [{ ticker := "AAPL", exchange := "US", name := "Apple", currency := "USD",
                  state := .initiating, dossierSlug := "us_aapl" }]
  runs := [{ coverageId := some 0, type := .initiation, status := .running, trigger := "pm",
             mutatesDossier := true, createdAt := 0 }]

def PlanArgs.gpt : PlanArgs :=
  { lead := .str "gpt", contributors := ["claude"], maxAttempts := 2 }

/-- The author, the verifier and the finalizer. -/
def StageIn.initiationPlan : List StageIn :=
  [{ seq := 1, role := .author, house := .str "gpt", substrate := .harness, maxAttempts := 2 },
    { seq := 2, role := .verifier, house := .str "claude", substrate := .harness, maxAttempts := 2,
      dependsOnSeq := some 1 },
    { seq := 3, role := .finalizer, house := .str "gpt", substrate := .harness, maxAttempts := 2,
      dependsOnSeq := some 2 }]

theorem planStages_gpt : planStages "initiation" .gpt = .ok StageIn.initiationPlan := by rfl

/-- The plan is stored, the author's stage is done, and the verifier's is claimed. -/
def StageOp.verifierClaimed : List StageOp :=
  [.queue (.call (.quiet 1) (.claim "w1" [] [] 60)), .queue (.completedBy "w1" 2),
    .promote (.quiet 3) 0, .queue (.call (.quiet 4) (.claim "w2" [] [] 60))]

/-- The plan is stored and the author's stage is done. -/
def StageOp.authored : List StageOp :=
  [.queue (.addStages (.quiet 0) 0 StageIn.initiationPlan),
    .queue (.call (.quiet 1) (.claim "w1" [] [] 60)), .queue (.completedBy "w1" 2)]

end AiFund
