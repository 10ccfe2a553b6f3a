import AiFund.Api.Routes
import AiFund.Library.History
import AiFund.Scheduler.Jobs

/-!
# The system

Every way in which the database is written: API requests, orchestrator ticks and their parts,
workers on the queue, and scheduler jobs. Each operation is one transaction, rolled back when it
raises.
-/

namespace AiFund

open UnitOfWork

inductive Op where
  | api (env : Env) (request : Request) (call : ApiCall)
  | createRun (env : Env) (runType : String) (coverageId : Option Nat) (trigger : String)
      (params : JsonObject) (requestedBy triggerRef : Option String)
  | promoteRun (env : Env) (runId : Nat)
  | advanceRun (env : Env) (runner : Engine.Runner) (runId : Nat)
  | tick (env : Env) (runner : Engine.Runner)
  | queue (env : Env) (call : QueueCall)
  | sessionTick (env : Env) (leader : Bool) (exchange tradingDate sessionName : String)
  | watchTick (env : Env) (leader : Bool) (tradingDate : String)
  | job (env : Env) (leader : Bool) (cron : Job)

def Outcome.void {α : Type} (outcome : Outcome Db PyError α) : Outcome Db PyError Unit :=
  ⟨outcome.result.map fun _ => (), outcome.after, outcome.written⟩

def Op.exec (app : App) (db : Db) : Op → Outcome Db PyError Unit
  | .api env request call => Outcome.void (commit (call.perform env app request) db)
  | .createRun env runType coverageId trigger params requestedBy triggerRef =>
      Outcome.void (commit (Engine.createRun env app.fund app.metaHouses runType coverageId trigger
        params requestedBy triggerRef) db)
  | .promoteRun env runId => Outcome.void (commit (Engine.promoteRun env runId) db)
  | .advanceRun env runner runId => commit (Engine.advanceRun env app.fund runner runId) db
  | .tick env runner => commit (Engine.tick env app.fund runner) db
  | .queue env call => commit (call.perform env) db
  | .sessionTick env leader exchange tradingDate sessionName =>
      Outcome.void (commit (AiFund.sessionTick env app.fund leader exchange tradingDate sessionName) db)
  | .watchTick env leader tradingDate =>
      Outcome.void (commit (AiFund.watchTick env app.fund leader tradingDate) db)
  | .job env leader cron => Outcome.void (runJob env app.fund leader cron db)

def step (app : App) (db : Db) (op : Op) : Db := (op.exec app db).after

/-- The database after a history of operations. -/
def run (app : App) (db : Db) (ops : List Op) : Db := History.run (step app) db ops

theorem step_violation {app : App} {db : Db} (hdb : Schema.violation db = none) (op : Op) :
    Schema.violation (step app db op) = none := by
  cases op with
  | job env leader cron =>
      change Schema.violation (runJob env app.fund leader cron db).after = none
      unfold runJob
      dsimp only
      split <;> exact commit_violation hdb
  | _ => exact commit_violation hdb

/-- The constraints hold after every history. -/
theorem run_violation {app : App} {db : Db} (hdb : Schema.violation db = none) (ops : List Op) :
    Schema.violation (run app db ops) = none :=
  History.invariant_of_forall (I := fun db : Db => Schema.violation db = none)
    (fun _ op h => step_violation h op) hdb

/-- A database in which nothing has been covered or run yet; houses, positions, news and events
are arbitrary. -/
structure Db.Fresh (db : Db) : Prop where
  coverages : db.coverages = []
  runs : db.runs = []
  stages : db.stages = []
  attempts : db.attempts = []
  locks : db.locks = []
  gates : db.gates = []
  predictions : db.predictions = []

/-! ## A small fund

One house and one PM, for concrete histories. -/

def App.small : App where
  coreApiToken := "token"
  pmUserIds := ["pm"]
  fund :=
    { runs :=
        [("initiation", { maxAttempts := 1, budgetCapUsd := 10 }),
          ("event_analysis", { maxAttempts := 1, budgetCapUsd := 10 })] }

def Db.small : Db where
  houses := [{ key := "gpt" }]

def Request.fromPm (key : String) : Request where
  authorization := some "Bearer token"
  xPmUser := some "pm"
  idempotencyKey := some key
  rawBody := "{}"
  requestId := key

/-- A request of the PM, made under the key given. -/
def Op.ask (key : String) (call : ApiCall) : Op := .api (.quiet 0) (.fromPm key) call

/-- A tick whose runner makes the calls given for each run it drains. -/
def Op.tickWith (calls : List QueueCall) : Op :=
  .tick (.quiet 0) ⟨fun _ => calls.map fun call => (.quiet 0, call)⟩

/-- The calls of a worker that claims a stage and reports its success. -/
def QueueCall.succeeds (stageId : Nat) (result : JsonObject) : List QueueCall :=
  [.claim "worker" [] [] 60, .complete stageId { workerId := "worker" } result]

/-- The calls of a worker that claims a stage and reports that it cannot be done. -/
def QueueCall.givesUp (stageId : Nat) : List QueueCall :=
  [.claim "worker" [] [] 60, .fail stageId { workerId := "worker" } false ⟨60, 3600, 0⟩]

/-- Apple is proposed and its initiation, with no verifiers, is requested. -/
def Op.initiateApple : List Op :=
  [.ask "propose" (.propose "AAPL" "US" "Apple" "USD" none none),
    .ask "initiate" (.initiate "us_aapl" (some "gpt") (some 0))]

theorem Db.small_fresh : Db.small.Fresh := by constructor <;> rfl

end AiFund
