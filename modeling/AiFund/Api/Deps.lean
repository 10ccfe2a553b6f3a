import AiFund.Orchestrator.Engine

/-!
# API dependencies

Authorization, idempotency and audit, shared by every mutating route.
-/

namespace AiFund

open UnitOfWork

structure App where
  coreApiToken : String
  pmUserIds : List String
  fund : FundConfig
  metaHouses : List String := []

structure Request where
  authorization : Option String
  xPmUser : Option String
  idempotencyKey : Option String
  rawBody : String
  requestId : String

def bearerToken (lower : String → String) (authorization : Option String) : Option String := do
  let header ← authorization
  if "bearer ".toList.isPrefixOf (lower header).toList then
    some (String.ofList (strip (header.toList.dropWhile (· ≠ ' '))))
  else none

/-- The bearer token is the core token, and the caller is an allow-listed PM. -/
def requirePm (env : Env) (app : App) (request : Request) : Except PyError String :=
  match bearerToken env.runtime.lower request.authorization with
  | none => .error (.apiError "unauthorized" "valid bearer token required" 401)
  | some token =>
      if token = "" ∨ token ≠ app.coreApiToken then
        .error (.apiError "unauthorized" "valid bearer token required" 401)
      else
        match request.xPmUser with
        | none => .error (.apiError "forbidden" "caller is not in pm_user_ids" 403)
        | some pm =>
            if pm = "" ∨ pm ∉ app.pmUserIds then
              .error (.apiError "forbidden" "caller is not in pm_user_ids" 403)
            else .ok pm

structure Idempotency where
  key : String
  bodyHash : String
  /-- The stored body to return verbatim, or `none` to run the request. -/
  replay : Option JsonObject

def idempotency (env : Env) (request : Request) : DbTxn Idempotency := do
  let key := request.idempotencyKey.getD ""
  if key = "" then
    raise (.apiError "missing_idempotency_key" "Idempotency-Key header required" 400)
  else do
    let bodyHash := env.runtime.sha256 request.rawBody
    match ← select fun db => db.idempotencyKeys.find? fun row => row.key = key with
    | none => return ⟨key, bodyHash, none⟩
    | some row =>
        if row.response.bodyHash ≠ bodyHash then
          raise (.apiError "idempotency_conflict" "same Idempotency-Key, different body" 409)
        else return ⟨key, bodyHash, some row.response.body⟩

def Idempotency.store (env : Env) (idem : Idempotency) (response : JsonObject) (statusCode : Nat)
    (route actorId : String) : DbTxn Unit := do
  assign fun db => { db with idempotencyKeys := db.idempotencyKeys ++
    [{ key := idem.key, route, actorId, response := ⟨response, statusCode, idem.bodyHash⟩,
       statusCode, expiresAt := datetimeMax, createdAt := env.now }] }
  flush

def writeAudit (action actorId : String) (target : Option String) (after : Json)
    (requestId : String) : DbTxn Unit := do
  addAudit { action, actorType := .pm, actorId, target, afterState := after,
             requestId := some requestId }
  flush

/-- What a route's own code leaves to the shared part: the response and the audit fields. -/
structure Handled where
  response : JsonObject
  target : String
  after : Json := .null

/-- A mutating route: authorize, replay or run the handler, then audit and store the response. -/
def mutation (env : Env) (app : App) (request : Request) (route : String) (statusCode : Nat)
    (handler : String → String → DbTxn Handled) : DbTxn JsonObject := do
  let pm ← ofExcept id (requirePm env app request)
  let idem ← idempotency env request
  match idem.replay with
  | some body => return body
  | none => do
      let handled ← handler pm idem.key
      writeAudit route pm (some handled.target) handled.after request.requestId
      idem.store env handled.response statusCode route pm
      return handled.response

end AiFund
