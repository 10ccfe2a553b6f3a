import AiFund.Db.RunsRepo
import AiFund.Domain.Rules

/-!
# Coverage repository

The only layer that writes `coverage.state`. A transition writes the state, a transition row, an
audit row and an outbox row together, then the side effects on the tables of this module.
-/

namespace AiFund

open UnitOfWork Rows

structure LevelIn where
  kind : String
  value : Decimal
  currency : String
  direction : String

def decisionAnswer : Action → Option String
  | .decideActive => some "active"
  | .decideWatch => some "watch"
  | .decideReject => some "reject"
  | _ => none

def hasOpenPosition (ticker : String) (db : Db) : Bool :=
  db.positions.any fun position => position.ticker = ticker && position.netQuantity ≠ 0

/-- An open gate of the run, whichever the store returns first. -/
def openGateOfRun (env : Env) (runId : Nat) (db : Db) : Option Nat :=
  (env.rows .gateOfRun).first (fun gate => gate.runId = runId && gate.state = .opened) db.gates

def noteGiven (notes : Option String) : Bool := notes.any fun text => text ≠ ""

def buildCtx (env : Env) (cov : Coverage) (action : Action) (runId : Option Nat) (force : Bool)
    (notes : Option String) : DbTxn TransitionContext := do
  let hasOpenPosition ← select (hasOpenPosition cov.ticker)
  let gate ← select fun db => do
    let gateId ← openGateOfRun env (← runId) db
    db.gates[gateId]?
  return {
    force
    noteProvided := noteGiven notes
    hasOpenPosition
    gateOpen := action ∉ decideActions || gate.isSome
    answerInAllowed := action ∉ decideActions || gate.any fun gate =>
      (decisionAnswer action).any fun answer => answer ∈ gate.allowedAnswers }

def addAudit (row : AuditLog) : DbTxn Unit :=
  assign fun db => { db with auditLog := db.auditLog ++ [row] }

def applySideEffect (env : Env) (covId : Nat) (action : Action) (actorId : String)
    (runId : Option Nat) (requestId : String) : SideEffect → DbTxn Unit
  | .outbox kind =>
      if kind = "coverage.state_changed" then
        pure ()  -- the universal row is written for every transition
      else
        addOutbox env kind (some covId) runId covId
          [("request_id", .str requestId), ("coverage_id", .str (toString covId))]
  | .cancelOpenGate =>
      execute fun db =>
        { db with
          gates := db.gates.map fun gate =>
            if runId = some gate.runId ∧ gate.state = .opened then { gate with state := .cancelled }
            else gate }
  | .openGateInitiationDecision => do
      let gateRunId ← ofExcept id (required "pm_gates.run_id" (.ok runId))
      assign fun db => { db with gates := db.gates ++
        [{ runId := gateRunId, coverageId := some covId, kind := .initiationDecision,
           state := .opened, prompt := .decideInitiation, payload := [],
           allowedAnswers := ["active", "watch", "reject"] }] }
  | .answerGate => do
      match ← select fun db => runId.bind fun r => openGateOfRun env r db with
      | none => pure ()
      | some gateId =>
          let answer ← ofExcept id (required action.value (.ok (decisionAnswer action)))
          assign fun db => db.updateGate gateId fun gate =>
            { gate with
              state := .answered
              answer := some answer
              answeredBy := some actorId
              answeredAt := some env.now }
  | .setLeadHouse => do
      match ← inspect fun db => runId.bind fun r => db.runs[r]? with
      | none => pure ()
      | some run =>
          let house ← ofExcept id (env.runtime.bindText (run.params.get "lead_house"))
          assign fun db => db.updateCoverage covId fun cov => { cov with leadHouse := house }
  | _ => pure ()

/-- The transition row, the audit row, the outbox row and the side effects of a transition whose
state the caller has written. -/
def record (env : Env) (covId : Nat) (fromState : Option CoverageState) (sm : Transition)
    (action : Action) (actorType : ActorType) (actorId : String) (runId : Option Nat)
    (notes requestId : Option String) : DbTxn Unit := do
  let fresh ← inspect fun db => env.uuidHex db.auditLog.length
  let requestId := (requestId.filter (· ≠ "")).getD fresh
  assign fun db => { db with transitions := db.transitions ++
    [{ coverageId := covId, fromState, toState := sm.toState, actorType, actorId,
       cause := sm.cause, runId, notes }] }
  addAudit
    { action := "coverage." ++ action.value, actorType, actorId,
      target := some ("coverage:" ++ toString covId),
      beforeState := .obj [("state", optStr (fromState.map CoverageState.value))],
      afterState := .obj [("state", .str sm.toState.value)], requestId := some requestId }
  addOutbox env "coverage.state_changed" (some covId) runId covId
    [("request_id", .str requestId), ("to_state", .str sm.toState.value),
      ("cause", .str sm.cause)]
  sm.sideEffects.forM (applySideEffect env covId action actorId runId requestId)
  flush

/-- Returns the new coverage's key. -/
def propose (env : Env) (ticker exchange name currency actorId : String)
    (notes isin requestId : Option String) : DbTxn Nat := do
  let covId ← inspect fun db => db.coverages.length
  assign fun db => { db with coverages := db.coverages ++
    [{ ticker, exchange, name, currency, isin, state := .proposed,
       dossierSlug := computeDossierSlug env.runtime.lower exchange ticker,
       proposedBy := some actorId, pmNotes := notes }] }
  flush
  let sm ← ofExcept .illegalTransition (transition none .propose {})
  record env covId none sm .propose .pm actorId none notes requestId
  return covId

def getCoverage (action : Action) (covId : Nat) : DbTxn Coverage := do
  match ← lookup Db.coverages covId with
  | some cov => return cov
  | none => raise (.illegalTransition ⟨none, action, "coverage not found"⟩)

def transitionCoverage (env : Env) (covId : Nat) (action : Action) (actorType : ActorType)
    (actorId : String) (runId : Option Nat) (force : Bool) (notes requestId : Option String) :
    DbTxn Unit := do
  let cov ← getCoverage action covId
  let ctx ← buildCtx env cov action runId force notes
  let sm ← ofExcept .illegalTransition (transition (some cov.state) action ctx)
  assign fun db => db.updateCoverage covId fun cov => { cov with state := sm.toState }
  record env covId (some cov.state) sm action actorType actorId runId notes requestId

def setLead (env : Env) (covId : Nat) (house actorId : String) (runId : Option Nat)
    (rationale : Option String) : DbTxn Unit := do
  let cov ← getCoverage .setLead covId
  let h ← select fun db => db.houses.find? fun h => h.key = house
  let ctx : TransitionContext :=
    { newHouseEnabled := h.any (·.enabled), newHouseAssignable := h.any (·.assignable),
      newHouseMeta := h.any (·.isMeta) }
  let sm ← ofExcept .illegalTransition (transition (some cov.state) .setLead ctx)
  assign fun db => db.updateCoverage covId fun cov => { cov with leadHouse := some house }
  record env covId (some cov.state) sm .setLead .pm actorId runId rationale none
  assign fun db => { db with leadHistory := db.leadHistory ++
    [{ coverageId := covId, fromHouse := cov.leadHouse, toHouse := house, runId,
       approvedBy := actorId, rationale }] }

def setLevel (env : Env) (covId : Nat) (setBy : String) (runId : Option Nat) (level : LevelIn) :
    DbTxn Unit := do
  let existing ← select fun db => (env.rows .levels).all
    (fun row => row.coverageId = covId && row.kind = level.kind && row.active) db.levels
  existing.forM fun id => assign fun db =>
    { db with
      levels := db.levels.modify id fun row =>
        { row with active := false, supersededAt := some env.now } }
  assign fun db => { db with levels := db.levels ++
    [{ coverageId := covId, kind := level.kind, value := Numeric.price.stored level.value,
       currency := level.currency, direction := level.direction, setBy, setByRunId := runId }] }

def setLevels (env : Env) (covId : Nat) (levels : List LevelIn) (setBy : String)
    (runId : Option Nat) : DbTxn Unit :=
  levels.forM (setLevel env covId setBy runId)

def resolveContributors (covId : Nat) : DbTxn (List String) := do
  let cov ← lookup Db.coverages covId
  let explicit ← select fun db => db.contributors.filter fun row => row.coverageId = covId
  if !explicit.isEmpty then
    return sorted (explicit.map (·.house))
  else
    let houses ← select fun db =>
      db.houses.map fun h => HouseInfo.mk h.key h.enabled h.assignable h.isMeta
    match cov with
    | none => raise .attributeError
    | some cov => return resolveDefault cov.leadHouse houses

def getBySlug (slug : String) : DbTxn (Option Nat) :=
  select fun db => db.coverages.findIdx? fun cov => cov.dossierSlug = slug

end AiFund
