import AiFund.Api.Replay
import AiFund.System

/-!
# Requests over a history

What the store says of the requests that were carried out: a key with the response, and a row of the
audit log.
-/

namespace AiFund

open UnitOfWork

/-- A request that has been carried out: for whom, and with what answer. -/
structure Execution extends Arrival where
  pm : String
  response : JsonObject

namespace Execution

variable (app : App) (e : Execution)

def statusCode : Nat := (e.call.route e.env app).2.1

/-- The row that lets the request be replayed. -/
def keyRow : IdempotencyKey where
  key := e.key
  route := e.route app
  actorId := e.pm
  response := ⟨e.response, e.statusCode app, e.bodyHash⟩
  statusCode := e.statusCode app
  expiresAt := datetimeMax
  createdAt := e.env.now

/-- What the audit log says of the request: route, kind of actor, actor and request id. -/
def signature : String × ActorType × String × Option String :=
  (e.route app, .pm, e.pm, some e.request.requestId)

end Execution

def AuditLog.signature (row : AuditLog) : String × ActorType × String × Option String :=
  (row.action, row.actorType, row.actorId, row.requestId)

/-- The request is carried out if it is authorized, its key is new, and it is answered. -/
def Arrival.execution (app : App) (db : Db) (a : Arrival) : Option Execution := do
  let pm ← (requirePm a.env app a.request).toOption
  let response ← (a.answer app db).result.toOption
  if db.idempotencyKeys.any fun row => row.key = a.key then none else some { a with pm, response }

def Op.execution (app : App) (db : Db) : Op → Option Execution
  | .api env request call => Arrival.execution app db ⟨env, request, call⟩
  | _ => none

def executions (app : App) (db : Db) (ops : List Op) : List Execution :=
  History.trace (step app) (fun db op => (op.execution app db).toList) db ops

/-- The keys and the audit log account for the requests of a history. -/
structure AccountsForRequests (app : App) (db : Db) (ops : List Op) : Prop where
  /-- Each request that was carried out has left its key, in order, and nothing else leaves one. -/
  keys : (run app db ops).idempotencyKeys =
    db.idempotencyKeys ++ (executions app db ops).map (·.keyRow app)
  /-- No key is carried out twice, nor one that was there before. -/
  once : ((executions app db ops).map (·.key)).Nodup
  fresh : ∀ e ∈ executions app db ops, e.key ≠ "" ∧ ∀ row ∈ db.idempotencyKeys, row.key ≠ e.key
  /-- Each is audited, in order. -/
  audited : ∃ rows, (run app db ops).auditLog = db.auditLog ++ rows ∧
    ((executions app db ops).map (·.signature app)).Sublist (rows.map AuditLog.signature)
  /-- A request that is not carried out, next, leaves no trace. -/
  traceless : ∀ a : Arrival, a.execution app (run app db ops) = none →
    (a.answer app (run app db ops)).after = run app db ops

end AiFund
