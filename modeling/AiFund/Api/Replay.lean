import AiFund.Api.Routes

/-!
# Replays

What a repeated `Idempotency-Key` may be answered with, and what identifies a request.
-/

namespace AiFund

open UnitOfWork

/-- The parameter in the path of a route: a slug, or a key of a table. -/
inductive PathParam where
  | slug (slug : String)
  | row (id : Nat)
  deriving DecidableEq

def ApiCall.pathParam : ApiCall → Option PathParam
  | .propose .. | .newRun .. | .newQuery .. => none
  | .initiate slug _ _ | .decide slug _ _ | .promote slug _ | .demote slug _ | .exit slug _ _
  | .rePropose slug _ | .setLead slug _ _ | .setLevels slug _ => some (.slug slug)
  | .cancelRun runId _ | .retryRun runId => some (.row runId)
  | .answerGate gateId _ _ => some (.row gateId)
  | .rateEvent eventId _ => some (.row eventId)

/-- A request as it arrives at the API, with the call that its method, path and body make. -/
structure Arrival where
  env : Env
  request : Request
  call : ApiCall

namespace Arrival

variable (app : App)

def key (a : Arrival) : String := a.request.idempotencyKey.getD ""

def route (a : Arrival) : String := (a.call.route a.env app).1

def bodyHash (a : Arrival) : String := a.env.runtime.sha256 a.request.rawBody

def answer (a : Arrival) (db : Db) : Outcome Db PyError JsonObject :=
  commit (a.call.perform a.env app a.request) db

/-- The request succeeds and stores its response under a key that was not in use. -/
structure Stores (a : Arrival) (db : Db) (response : JsonObject) : Prop where
  new : db.idempotencyKeys.find? (fun row => row.key = a.key) = none
  succeeds : (a.answer app db).result = .ok response

/-- The request is answered with `response` and leaves no trace: it has not been executed. -/
def Replays (a : Arrival) (db : Db) (response : JsonObject) : Prop :=
  (a.answer app db).result = .ok response ∧ (a.answer app db).after = db

/-- Both requests ask for the same: one route, one path, one PM and one body. -/
structure Same (a b : Arrival) : Prop where
  route : a.route app = b.route app
  path : a.call.pathParam = b.call.pathParam
  caller : a.request.xPmUser = b.request.xPmUser
  body : a.request.rawBody = b.request.rawBody

end Arrival

end AiFund
