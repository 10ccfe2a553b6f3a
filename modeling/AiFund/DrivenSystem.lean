import AiFund.Orchestrator.FakeRunner
import AiFund.System

/-!
# The system with a runner at work

Histories in which the orchestrator drains a runner that looks at the store, beside all that the
system does anyway. What the runner remembers when a transaction starts is left open, since a
rollback does not take it back.
-/

namespace AiFund

open UnitOfWork

/-- How a runner is drained: under which name, for how long, and what it remembers. -/
structure Draining where
  runner : FakeRunner
  workerId : String := "fake-runner"
  leaseSeconds : ℚ := 300
  memory : FakeRunner.Memory := {}

def Draining.drain (draining : Draining) (clock : Nat → Env) (memory : FakeRunner.Memory) :
    DbTxn FakeRunner.Memory :=
  draining.runner.drained clock draining.workerId draining.leaseSeconds memory

/-- One run advanced with the runner. -/
def Draining.advance (draining : Draining) (env : Env) (fund : FundConfig) (clock : Nat → Env)
    (runId : Nat) : DbTxn FakeRunner.Memory :=
  Engine.advanceWith env fund (draining.drain clock) draining.memory runId

/-- A tick with the runner, which has a clock of its own for each run. -/
def Draining.tick (draining : Draining) (env : Env) (fund : FundConfig)
    (clock : Nat → Nat → Env) : DbTxn FakeRunner.Memory :=
  Engine.tickWith env fund (fun runId => draining.drain (clock runId)) draining.memory

inductive DrivenOp where
  | system (op : Op)
  | advance (env : Env) (draining : Draining) (clock : Nat → Env) (runId : Nat)
  | tick (env : Env) (draining : Draining) (clock : Nat → Nat → Env)

def DrivenOp.step (app : App) (db : Db) : DrivenOp → Db
  | .system op => AiFund.step app db op
  | .advance env draining clock runId => (commit (draining.advance env app.fund clock runId) db).after
  | .tick env draining clock => (commit (draining.tick env app.fund clock) db).after

def runDriven (app : App) (db : Db) (ops : List DrivenOp) : Db :=
  History.run (DrivenOp.step app) db ops

/-- The operations of the system that an operation with a runner comes down to: the same one with
calls that are fixed beforehand, or none if it is refused. -/
inductive DrivenOp.Becomes : DrivenOp → List Op → Prop
  | system (op : Op) : Becomes (.system op) [op]
  | advance (env : Env) (draining : Draining) (clock : Nat → Env) (runId : Nat)
      (calls : List (Env × QueueCall)) :
      Becomes (.advance env draining clock runId) [.advanceRun env ⟨fun _ => calls⟩ runId]
  | tick (env : Env) (draining : Draining) (clock : Nat → Nat → Env)
      (calls : Nat → List (Env × QueueCall)) :
      Becomes (.tick env draining clock) [.tick env ⟨calls⟩]
  | advanceRefused (env : Env) (draining : Draining) (clock : Nat → Env) (runId : Nat) :
      Becomes (.advance env draining clock runId) []
  | tickRefused (env : Env) (draining : Draining) (clock : Nat → Nat → Env) :
      Becomes (.tick env draining clock) []

end AiFund
