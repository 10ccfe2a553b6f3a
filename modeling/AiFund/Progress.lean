import AiFund.DrivenSystem

/-!
# Progress of a run

What an advance with a runner at work can leave to be done of a run.
-/

namespace AiFund

open UnitOfWork

/-- There is nothing to advance: the run is not running. -/
def Db.Rests (r : Nat) (db : Db) : Prop := ∀ run, db.runs[r]? = some run → run.status ≠ .running

namespace Draining

variable (draining : Draining) (clock : Nat → Env) (db : Db)

/-- The drain of an advance, on its own. -/
def drained : Outcome Db PyError (Option (FakeRunner.Memory × Nat)) :=
  commit (draining.runner.drain clock draining.workerId draining.leaseSeconds draining.memory) db

/-- When the drain looks for stages for the last time. -/
def lastLook : Time :=
  match (draining.drained clock db).result with
  | .ok (some (_, rounds)) => (clock (2 * rounds)).now
  | _ => (clock 0).now

/-- No stage of the run that the drain has left queued becomes available between its last look and
`now`. -/
def Steady (now : Time) (runId : Nat) : Prop :=
  ∀ stage ∈ (draining.drained clock db).after.stages, stage.runId = runId →
    stage.status = .queued → draining.lastLook clock db < stage.availableAt →
      now < stage.availableAt

instance (now : Time) (runId : Nat) : Decidable (draining.Steady clock db now runId) :=
  inferInstanceAs (Decidable (∀ stage ∈ _, _))

end Draining

/-- What can keep a run running through an advance from `db` to `db'`, which is settled at `now`. -/
inductive KeptRunning (r : Nat) (draining : Draining) (clock : Nat → Env) (now : Time)
    (db db' : Db) : Prop
  /-- Another worker holds a stage. -/
  | held (stage : RunStage) (hbefore : stage ∈ db.stages) (hafter : stage ∈ db'.stages)
      (hrun : stage.runId = r) (hstatus : stage.status = .running)
  /-- A stage has become available since the runner's last look. -/
  | ripened (h : ¬ draining.Steady clock db now r)
  /-- The advance has added a cross-check, the first of the run. -/
  | checked (hnone : ∀ stage ∈ db.stages, stage.runId = r → stage.role ≠ .crossCheck)
      (check : RunStage) (hafter : check ∈ db'.stages) (hrun : check.runId = r)
      (hrole : check.role = .crossCheck)

end AiFund
