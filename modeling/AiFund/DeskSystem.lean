import AiFund.CoverageSystem
import AiFund.Safety

/-!
# The desk

The operations of the system beside direct calls of the coverage repository, and the bookkeeping
that the transition table declares for decisions and exits.
-/

namespace AiFund

open UnitOfWork

/-- An operation of the system, or a call of the coverage repository in its own transaction. -/
inductive DeskOp where
  | system (op : Op)
  | coverage (env : Env) (call : CoverageCall)

def DeskOp.step (app : App) (db : Db) : DeskOp → Db
  | .system op => AiFund.step app db op
  | .coverage env call => (commit (CoverageOp.perform { env, call }) db).after

def runDesk (app : App) (db : Db) (ops : List DeskOp) : Db := History.run (DeskOp.step app) db ops

/-! ## Bookkeeping -/

/-- A prediction of the kind is open. -/
def Db.HasOpen (db : Db) (which : Prediction → Prop) : Prop :=
  ∃ row ∈ db.predictions, which row ∧ row.status = .opened

/-- The row records a decision of the PM. -/
def CoverageTransition.decides (row : CoverageTransition) : Bool := row.cause = "pm_decision"

/-- A coverage adopted by a decision has its date; an exited one has its date and no open
prediction; and no rejected run has an open prediction. -/
structure Db.BooksKept (db : Db) : Prop where
  decided : ∀ (covId : Nat) (cov : Coverage), db.coverages[covId]? = some cov →
    cov.state.adopted = true →
    (∃ row ∈ db.transitions, row.coverageId = covId ∧ row.decides = true ∧
      row.toState.adopted = true) → cov.decidedAt.isSome
  exited : ∀ (covId : Nat) (cov : Coverage), db.coverages[covId]? = some cov →
    cov.state = .exited → cov.exitedAt.isSome ∧ ¬ db.HasOpen (·.coverageId = covId)
  rejected : ∀ row ∈ db.transitions, row.decides = true → row.toState = .rejected →
    ∀ r, row.runId = some r → ¬ db.HasOpen (·.runId = r)

/-- The repository may apply the decision to the coverage: it awaits one, and the gate that the
repository finds open for the run offers the answer. -/
def Db.MayDecide (db : Db) (env : Env) (covId r : Nat) (action : Action) : Prop :=
  ∃ cov g gate answer, db.coverages[covId]? = some cov ∧ cov.state = .decisionPending ∧
    openGateOfRun env r db = some g ∧ db.gates[g]? = some gate ∧
    decisionAnswer action = some answer ∧ answer ∈ gate.allowedAnswers

/-- The decision leaves nothing to book: it rejects a run that has no open prediction. -/
def Db.OwesNothing (db : Db) (r : Nat) (action : Action) : Prop :=
  action = .decideReject ∧ ¬ db.HasOpen (·.runId = r)

/-- Any decision that the operation makes leaves nothing to book, now or later: a run that is
rejected while it is queued or running could still register predictions. -/
def DeskOp.OwesNothing (app : App) (db : Db) : DeskOp → Prop
  | .system (.api env request (.decide slug decision _)) =>
      ∀ pm covId r run action, app.Accepts env db request pm →
        db.coverages.findIdx? (fun cov => cov.dossierSlug = slug) = some covId →
        (do
          let gate ← db.gates[← openGateOfCoverage env covId db]?
          return gate.runId : Option Nat) = some r →
        db.runs[r]? = some run → run.status.live = true → decisionAction decision = some action →
        db.MayDecide env covId r action → db.OwesNothing r action
  | .coverage env (.transition covId action _ _ (some r) _ _ _) =>
      db.MayDecide env covId r action → db.OwesNothing r action ∧
        ∀ run, db.runs[r]? = some run → run.status ≠ .queued ∧ run.status ≠ .running
  | _ => True

end AiFund
