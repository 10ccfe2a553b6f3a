import AiFund.Api.Routes
import AiFund.Concurrent.Coverage

/-!
# Requests, statement by statement

The routes that decide on a coverage, move it, change its lead or cancel a run. Each is `mutation`
applied to the route's name, status code and handler.
-/

namespace AiFund.Concurrent

open ReadCommitted

/-- How a request was answered. -/
inductive Reply where
  /-- With the response stored under its key. -/
  | replayed (body : JsonObject)
  /-- With the response of its route. -/
  | performed (body : JsonObject)

def Reply.isPerformed : Reply → Bool
  | .replayed _ => false
  | .performed _ => true

def idempotency (env : Env) (request : Request) : DbScript Idempotency := do
  let key := request.idempotencyKey.getD ""
  if key = "" then Script.raise
  else do
    let bodyHash := env.runtime.sha256 request.rawBody
    match ← Script.select fun db => db.idempotencyKeys.find? fun row => row.key = key with
    | none => return ⟨key, bodyHash, none⟩
    | some row =>
        if row.response.bodyHash ≠ bodyHash then Script.raise
        else return ⟨key, bodyHash, some row.response.body⟩

/-- The insert of the key is refused where another request has committed the key. -/
def storeKey (env : Env) (idem : Idempotency) (response : JsonObject) (statusCode : Nat)
    (route actorId : String) : DbScript Unit :=
  sendChecked (fun db => db.idempotencyKeys.all fun row => row.key ≠ idem.key)
    (.addIdempotencyKey
      { key := idem.key, route, actorId, response := ⟨response, statusCode, idem.bodyHash⟩,
        statusCode, expiresAt := datetimeMax, createdAt := env.now })

/-- What a handler leaves to the shared part; its own pending rows go out with the audit row. -/
structure Handling extends Handled where
  flush : DbScript Unit := pure ()

def mutation (env : Env) (app : App) (request : Request) (route : String) (statusCode : Nat)
    (handler : String → DbScript Handling) : DbScript Reply := do
  let pm ← ofExcept (requirePm env app request)
  let idem ← idempotency env request
  match idem.replay with
  | some body => return .replayed body
  | none => do
      let handling ← handler pm
      send (.addAudit
        { action := route, actorType := .pm, actorId := pm, target := some handling.target,
          afterState := handling.after, requestId := some request.requestId })
      handling.flush
      storeKey env idem handling.response statusCode route pm
      return .performed handling.response

def requireCoverage (slug : String) : DbScript (Nat × Coverage) := do
  let found ← Script.select fun db => do
    let covId ← db.coverages.findIdx? fun cov => cov.dossierSlug = slug
    return (covId, ← db.coverages[covId]?)
  match found with
  | some found => return found
  | none => Script.raise

def slugState (slug : String) (state : CoverageState) : JsonObject :=
  [("slug", .str slug), ("state", .str state.value)]

/-- The request of a PM for a transition; `env` draws the request id that the repository makes up. -/
def recordedFor (env : Env) (action : Action) (pm : String) (runId : Option Nat)
    (notes : Option String) : Recorded :=
  { action, actorType := .pm, actorId := pm, runId, notes, requestId := env.uuidHex 0 }

def handleTransition (env : Env) (slug : String) (action : Action) (force : Bool)
    (notes : Option String) (pm : String) : DbScript Handling := do
  let (covId, cov) ← requireCoverage slug
  let state ← transitionCoverage env covId cov (recordedFor env action pm none notes) force []
  return { response := slugState slug state, target := covTarget covId }

def handleSetLead (env : Env) (slug house : String) (rationale : Option String) (pm : String) :
    DbScript Handling := do
  let (covId, cov) ← requireCoverage slug
  let row ← setLead env covId cov house (recordedFor env .setLead pm none rationale)
  return { response := [("slug", .str slug), ("lead_house", .str house)],
           target := covTarget covId, flush := send (.addLeadHistory row) }

/-- Complete the run whose gate a decision answered. -/
def finishDecided (env : Env) : Option LoadedGate → DbScript Unit
  | none => pure ()
  | some (_, gate) => finishRun env gate.runId .succeeded none none

def handleDecide (env : Env) (slug decision : String) (notes : Option String) (pm : String) :
    DbScript Handling := do
  let (covId, cov) ← requireCoverage slug
  match decisionAction decision with
  | none => Script.raise
  | some action => do
      let gate ← Script.select (gateRow (openGateOfCoverage env covId))
      let runId := gate.map fun gate => gate.2.runId
      let state ← transitionCoverage env covId cov (recordedFor env action pm runId notes) false
        gate.toList
      finishDecided env gate
      return { response := slugState slug state, target := covTarget covId,
               after := .obj [("decision", .str decision)] }

def handleCancelRun (env : Env) (runId : Nat) (notes : Option String) (_pm : String) :
    DbScript Handling := do
  finishRun env runId .cancelled none notes
  return { response := [("run_id", .str (toString runId)), ("status", .str "cancelled")],
           target := runTarget runId }

/-! ## The requests of a PM on a coverage -/

/-- What a PM may ask of a coverage that has been decided on. -/
inductive CoverageCall where
  | promote (notes : Option String)
  | demote (notes : Option String)
  | exit (force : Bool) (notes : Option String)
  | rePropose (notes : Option String)
  | setLead (house : String) (rationale : Option String)

/-- The transition of the coverage, if the call is not a change of its lead. -/
def CoverageCall.action : CoverageCall → Option Action
  | .promote _ => some .promote
  | .demote _ => some .demote
  | .exit .. => some .exit
  | .rePropose _ => some .rePropose
  | .setLead .. => none

def CoverageCall.route (env : Env) (slug : String) :
    CoverageCall → String × (String → DbScript Handling)
  | .promote notes => ("coverage.promote", handleTransition env slug .promote false notes)
  | .demote notes => ("coverage.demote", handleTransition env slug .demote false notes)
  | .exit force notes => ("coverage.exit", handleTransition env slug .exit force notes)
  | .rePropose notes => ("coverage.re_propose", handleTransition env slug .rePropose false notes)
  | .setLead house rationale => ("coverage.set_lead", handleSetLead env slug house rationale)

/-- A call as it arrives. -/
structure Asked (γ : Type) where
  env : Env
  request : Request
  call : γ

def Asked.script (asked : Asked CoverageCall) (app : App) (slug : String) : DbScript Reply :=
  mutation asked.env app asked.request (asked.call.route asked.env slug).1 200
    (asked.call.route asked.env slug).2

/-- A decision of a PM. -/
structure DecideCall where
  decision : String
  notes : Option String

def Asked.decide (asked : Asked DecideCall) (app : App) (slug : String) : DbScript Reply :=
  mutation asked.env app asked.request "coverage.decide" 200
    (handleDecide asked.env slug asked.call.decision asked.call.notes)

def cancelRun (env : Env) (app : App) (request : Request) (runId : Nat) (notes : Option String) :
    DbScript Reply :=
  mutation env app request "run.cancel" 200 (handleCancelRun env runId notes)

/-- The database and the requests at work on it. -/
abbrev RequestWorld := World Db RowKey Reply

end AiFund.Concurrent
