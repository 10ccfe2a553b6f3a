import AiFund.Api.Deps

/-!
# API routes

The mutating routes. Each is `mutation` applied to the route's name, status code and handler.
-/

namespace AiFund

open UnitOfWork Rows

structure LevelItem where
  kind : String
  /-- A float, as the text of its repr. -/
  value : String
  currency : String
  direction : String

inductive ApiCall where
  | propose (ticker exchange name currency : String) (isin notes : Option String)
  | initiate (slug : String) (lead : Option String) (verifyCount : Option Int)
  | decide (slug decision : String) (notes : Option String)
  | promote (slug : String) (notes : Option String)
  | demote (slug : String) (notes : Option String)
  | exit (slug : String) (force : Bool) (notes : Option String)
  | rePropose (slug : String) (notes : Option String)
  | setLead (slug house : String) (rationale : Option String)
  | setLevels (slug : String) (levels : List LevelItem)
  | newRun (type : String) (coverage : Option String) (params : JsonObject)
  | cancelRun (runId : Nat) (notes : Option String)
  | answerGate (gateId : Nat) (answer : String) (notes : Option String)
  | retryRun (runId : Nat)
  | rateEvent (eventId : Nat) (rating : Int)
  | newQuery (coverage question : String)

/-- `repr` of a `StrEnum` member. -/
def enumRepr (cls value : String) : String :=
  "<" ++ cls ++ "." ++ (value.map fun c => if c = ':' then '_' else c.toUpper) ++ ": '" ++ value ++
    "'>"

def IllegalTransition.message (error : IllegalTransition) : String :=
  "illegal transition " ++
    (error.fromState.elim "None" fun state => enumRepr "CoverageState" state.value) ++ " --" ++
    enumRepr "Action" error.action.value ++ "--> " ++ error.reason

/-- `IllegalTransition` becomes a 409. -/
def conflictOf : PyError → PyError
  | .illegalTransition error => .apiError "conflict" error.message 409
  | error => error

def orConflict {α : Type} (m : DbTxn α) : DbTxn α := EStateM.adaptExcept conflictOf m

def requireCoverage (slug : String) : DbTxn Nat := do
  match ← getBySlug slug with
  | some covId => return covId
  | none => raise (.apiError "not_found" ("no coverage for slug '" ++ slug ++ "'") 404)

def covTarget (covId : Nat) : String := "coverage:" ++ toString covId

def runTarget (runId : Nat) : String := "run:" ++ toString runId

def covDict (covId : Nat) (cov : Coverage) : JsonObject :=
  [("id", .str (toString covId)), ("ticker", .str cov.ticker), ("exchange", .str cov.exchange),
    ("name", .str cov.name), ("currency", .str cov.currency), ("state", .str cov.state.value),
    ("lead_house", optStr cov.leadHouse), ("dossier_slug", .str cov.dossierSlug)]

def handlePropose (env : Env) (ticker exchange name currency : String)
    (isin notes : Option String) (pm : String) : DbTxn Handled := do
  let covId ← propose env ticker exchange name currency pm notes isin none
  let cov ← getRow Db.coverages covId
  return { response := covDict covId cov, target := covTarget covId,
           after := .obj (covDict covId cov) }

/-- The response of a route that creates a run, also its audited state. -/
def handledRun (runId : Nat) (extra : JsonObject) : DbTxn Handled := do
  let run ← getRow Db.runs runId
  let response := [("run_id", .str (toString runId)), ("status", .str run.status.value)] ++ extra
  return { response, target := runTarget runId, after := .obj response }

def createRunFor (env : Env) (app : App) (runType : String) (coverageId : Option Nat)
    (params : JsonObject) (pm : String) : DbTxn Nat :=
  Engine.createRun env app.fund app.metaHouses runType coverageId "pm" params (some pm) none

def initiateParams (lead : Option String) (verifyCount : Option Int) : JsonObject :=
  (match lead.filter (· ≠ "") with | some house => [("lead", .str house)] | none => []) ++
    (match verifyCount with | some n => [("verify_count", .int n)] | none => [])

def handleInitiate (env : Env) (app : App) (slug : String) (lead : Option String)
    (verifyCount : Option Int) (pm : String) : DbTxn Handled := do
  let covId ← requireCoverage slug
  let runId ← createRunFor env app "initiation" (some covId) (initiateParams lead verifyCount) pm
  handledRun runId []

def decisionAction : String → Option Action
  | "active" => some .decideActive
  | "watch" => some .decideWatch
  | "reject" => some .decideReject
  | _ => none

/-- An open gate of the coverage, whichever the store returns first. -/
def openGateOfCoverage (env : Env) (covId : Nat) (db : Db) : Option Nat :=
  (env.rows .gateOfCoverage).first
    (fun gate => gate.coverageId = some covId && gate.state = .opened) db.gates

def pmTransition (env : Env) (covId : Nat) (action : Action) (pm : String) (runId : Option Nat)
    (force : Bool) (notes : Option String) : DbTxn Unit :=
  orConflict (transitionCoverage env covId action .pm pm runId force notes none)

def slugState (slug : String) (cov : Coverage) : JsonObject :=
  [("slug", .str slug), ("state", .str cov.state.value)]

/-- Complete the run whose gate a decision answered. -/
def finishDecided (env : Env) : Option Nat → DbTxn Unit
  | none => pure ()
  | some runId => finishRun env runId .succeeded none none

def handleDecide (env : Env) (slug decision : String) (notes : Option String) (pm : String) :
    DbTxn Handled := do
  let covId ← requireCoverage slug
  match decisionAction decision with
  | none => raise (.apiError "bad_decision" "decision must be active|watch|reject" 400)
  | some action =>
      let runId ← select fun db => do
        let gate ← db.gates[← openGateOfCoverage env covId db]?
        return gate.runId
      pmTransition env covId action pm runId false notes
      finishDecided env runId
      let cov ← getRow Db.coverages covId
      return { response := slugState slug cov, target := covTarget covId,
               after := .obj [("decision", .str decision)] }

/-- The routes that apply one coverage transition. -/
def handleTransition (env : Env) (slug : String) (action : Action) (force : Bool)
    (notes : Option String) (pm : String) : DbTxn Handled := do
  let covId ← requireCoverage slug
  pmTransition env covId action pm none force notes
  let cov ← getRow Db.coverages covId
  return { response := slugState slug cov, target := covTarget covId }

def handleSetLead (env : Env) (slug house : String) (rationale : Option String) (pm : String) :
    DbTxn Handled := do
  let covId ← requireCoverage slug
  orConflict (setLead env covId house pm none rationale)
  return { response := [("slug", .str slug), ("lead_house", .str house)],
           target := covTarget covId }

def LevelItem.toLevelIn (item : LevelItem) : Except PyError LevelIn := do
  match Decimal.parse item.value with
  | some value =>
      return { kind := item.kind, value, currency := item.currency, direction := item.direction }
  | none => throw .invalidOperation

def handleSetLevels (env : Env) (slug : String) (levels : List LevelItem) (_pm : String) :
    DbTxn Handled := do
  let covId ← requireCoverage slug
  let levelsIn ← ofExcept id (levels.mapM LevelItem.toLevelIn)
  setLevels env covId levelsIn "pm" none
  return { response := [("slug", .str slug), ("set", .int levels.length)],
           target := covTarget covId }

/-- The coverage of a run request, given by its slug if at all. -/
def coverageForRun : Option String → DbTxn (Option Nat)
  | none => pure none
  | some slug =>
      if slug = "" then pure none
      else do
        let covId ← requireCoverage slug
        return some covId

def handleNewRun (env : Env) (app : App) (type : String) (coverage : Option String)
    (params : JsonObject) (pm : String) : DbTxn Handled := do
  let coverageId ← coverageForRun coverage
  let runId ← createRunFor env app type coverageId params pm
  handledRun runId []

def handleCancelRun (env : Env) (runId : Nat) (notes : Option String) (_pm : String) :
    DbTxn Handled := do
  finishRun env runId .cancelled none notes
  return { response := [("run_id", .str (toString runId)), ("status", .str "cancelled")],
           target := runTarget runId }

def handleAnswerGate (env : Env) (gateId : Nat) (answer : String) (notes : Option String)
    (pm key : String) : DbTxn Handled := do
  let gate ← answerGate env gateId answer pm notes key
  return { response := [("gate_id", .str (toString gateId)), ("state", .str gate.state.value),
             ("answer", optStr gate.answer)],
           target := "gate:" ++ toString gateId, after := .obj [("answer", .str answer)] }

def handleRetryRun (env : Env) (app : App) (runId : Nat) (pm : String) : DbTxn Handled := do
  match ← lookup Db.runs runId with
  | none => raise (.apiError "not_found" "run not found" 404)
  | some old =>
      if old.status ≠ .failed then
        raise (.apiError "not_retryable" "only failed runs can be retried" 400)
      else do
        let newId ← createRunFor env app old.type.value old.coverageId old.params pm
        handledRun newId [("retried_from", .str (toString runId))]

def handleRateEvent (env : Env) (eventId : Nat) (rating : Int) (pm : String) :
    DbTxn Handled := do
  match ← lookup Db.events eventId with
  | none => raise (.apiError "not_found" "event not found" 404)
  | some _ =>
      assign fun db =>
        { db with
          events := db.events.modify eventId fun event =>
            { event with
              pmRating := some rating
              pmRatedAt := some env.now
              pmRatedBy := some pm } }
      return { response := [("event_id", .str (toString eventId)), ("rating", .int rating)],
               target := "event:" ++ toString eventId, after := .obj [("rating", .int rating)] }

def handleNewQuery (env : Env) (app : App) (coverage question : String) (pm : String) :
    DbTxn Handled := do
  let covId ← requireCoverage coverage
  let runId ← createRunFor env app "pm_query" (some covId) [("question", .str question)] pm
  handledRun runId []

/-- The routing table: route name, status code and handler of each call. -/
def ApiCall.route (env : Env) (app : App) :
    ApiCall → String × Nat × (String → String → DbTxn Handled)
  | .propose ticker exchange name currency isin notes =>
      ("coverage.propose", 201, fun pm _ =>
        handlePropose env ticker exchange name currency isin notes pm)
  | .initiate slug lead verifyCount =>
      ("coverage.initiate", 201, fun pm _ => handleInitiate env app slug lead verifyCount pm)
  | .decide slug decision notes =>
      ("coverage.decide", 200, fun pm _ => handleDecide env slug decision notes pm)
  | .promote slug notes =>
      ("coverage.promote", 200, fun pm _ => handleTransition env slug .promote false notes pm)
  | .demote slug notes =>
      ("coverage.demote", 200, fun pm _ => handleTransition env slug .demote false notes pm)
  | .exit slug force notes =>
      ("coverage.exit", 200, fun pm _ => handleTransition env slug .exit force notes pm)
  | .rePropose slug notes =>
      ("coverage.re_propose", 200, fun pm _ => handleTransition env slug .rePropose false notes pm)
  | .setLead slug house rationale =>
      ("coverage.set_lead", 200, fun pm _ => handleSetLead env slug house rationale pm)
  | .setLevels slug levels =>
      ("coverage.set_levels", 200, fun pm _ => handleSetLevels env slug levels pm)
  | .newRun type coverage params =>
      ("run.create", 201, fun pm _ => handleNewRun env app type coverage params pm)
  | .cancelRun runId notes =>
      ("run.cancel", 200, fun pm _ => handleCancelRun env runId notes pm)
  | .answerGate gateId answer notes =>
      ("gate.answer", 200, fun pm key => handleAnswerGate env gateId answer notes pm key)
  | .retryRun runId => ("run.retry", 201, fun pm _ => handleRetryRun env app runId pm)
  | .rateEvent eventId rating =>
      ("event.rate", 200, fun pm _ => handleRateEvent env eventId rating pm)
  | .newQuery coverage question =>
      ("query.create", 201, fun pm _ => handleNewQuery env app coverage question pm)

def ApiCall.perform (env : Env) (app : App) (request : Request) (call : ApiCall) :
    DbTxn JsonObject :=
  let (route, statusCode, handler) := call.route env app
  mutation env app request route statusCode handler

end AiFund
