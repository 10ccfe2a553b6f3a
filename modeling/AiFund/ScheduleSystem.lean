import AiFund.Library.History
import AiFund.Scheduler.Jobs

/-!
# Scheduled runs

Histories of session ticks, watch ticks and quarterly sweeps, by the leader and by others, between
which the coverages change, and what they promise of the runs they create.
-/

namespace AiFund

open UnitOfWork

inductive TickCall where
  | sessionTick (exchange tradingDate sessionName : String)
  | watchTick (tradingDate : String)
  | quarterlySweep (staleDays : Int)

namespace TickCall

def perform (env : Env) (fund : FundConfig) (leader : Bool) : TickCall → DbTxn Nat
  | .sessionTick exchange tradingDate sessionName =>
      AiFund.sessionTick env fund leader exchange tradingDate sessionName
  | .watchTick tradingDate => AiFund.watchTick env fund leader tradingDate
  | .quarterlySweep staleDays => AiFund.quarterlySweep env fund leader staleDays

/-- The coverages that the call looks at. -/
def covers : TickCall → Coverage → Bool
  | .sessionTick exchange _ _, cov => cov.exchange = exchange && cov.state = .active
  | .watchTick _, cov => cov.state = .watch
  | .quarterlySweep _, cov => cov.state = .active

def runType : TickCall → RunType
  | .quarterlySweep _ => .deepReview
  | _ => .monitorTick

/-- The trigger reference that all runs of a tick share. -/
def ref? : TickCall → Option String
  | .sessionTick exchange tradingDate sessionName =>
      some ("session_tick:" ++ exchange ++ ":" ++ tradingDate ++ ":" ++ sessionName)
  | .watchTick tradingDate => some ("watch_tick:" ++ tradingDate)
  | .quarterlySweep _ => none

def exec (env : Env) (fund : FundConfig) (leader : Bool) (db : Db) (call : TickCall) :
    Outcome Db PyError Nat :=
  commit (call.perform env fund leader) db

end TickCall

/-- A call, or anything that leaves the runs as they are. -/
inductive TickOp where
  | tick (env : Env) (fund : FundConfig) (leader : Bool) (call : TickCall)
  | meanwhile (change : Db → Db)

namespace TickOp

def step (db : Db) : TickOp → Db
  | .tick env fund leader call => (call.exec env fund leader db).after
  | .meanwhile change =>
      let after := { change db with runs := db.runs }
      if Schema.violation after = none then after else db

end TickOp

def runTicks (db : Db) (ops : List TickOp) : Db := History.run TickOp.step db ops

/-- The runs of a coverage with the type and the trigger reference. -/
def Db.triggered (db : Db) (covId : Nat) (type : RunType) (ref : String) : List Run :=
  db.runs.filter fun run =>
    run.coverageId = some covId && run.type = type && run.triggerRef = some ref

/-- What a call promises where it is made in `db`. -/
structure KeepsSchedule (env : Env) (fund : FundConfig) (leader : Bool) (db : Db)
    (call : TickCall) : Prop where
  /-- The unique index is not violated, and no two runs share what it is about. -/
  accepted : (call.exec env fund leader db).result ≠ .error (.integrityError "uq_runs_trigger_ref")
  keys : ((call.exec env fund leader db).after.runs.filterMap Run.triggerKey).Nodup
  /-- After a tick of the leader, each coverage that it covers has its run. -/
  covered : ∀ (n : Nat) (ref : String) (covId : Nat) (cov : Coverage), leader = true →
    (call.exec env fund leader db).result = .ok n → call.ref? = some ref →
    (call.exec env fund leader db).after.coverages[covId]? = some cov → call.covers cov = true →
    ((call.exec env fund leader db).after.triggered covId .monitorTick ref).length = 1
  /-- Runs are added for the covered coverages only, as many as the call returns. -/
  created : ∃ added, (call.exec env fund leader db).after.runs = db.runs ++ added ∧
    (∀ run ∈ added, run.type = call.runType ∧ ∃ covId cov, run.coverageId = some covId ∧
      db.coverages[covId]? = some cov ∧ call.covers cov = true) ∧
    ∀ n, (call.exec env fund leader db).result = .ok n → added.length = n
  follower : leader = false → (call.exec env fund leader db).after = db

def TickOp.KeepsSchedule (db : Db) : TickOp → Prop
  | .tick env fund leader call => AiFund.KeepsSchedule env fund leader db call
  | .meanwhile _ => True

end AiFund
