import AiFund.Concurrent.Runs
import AiFund.Db.CoverageRepo

/-!
# Coverage repository, statement by statement

A transition reads the coverage without a lock. Its flush sends the audit row, the UPDATE of the
coverage, the transition row, the outbox rows and the gate, in that order.
-/

namespace AiFund

open ReadCommitted

/-- The row that an UPDATE of a coverage leaves, when the coverage was loaded as `loaded`. -/
def Coverage.writeState (loaded : Coverage) (state : CoverageState) (lead : Option String)
    (row : Coverage) : Coverage :=
  { row with
    state := put loaded.state state row.state
    leadHouse := put loaded.leadHouse lead row.leadHouse }

/-- The row that an UPDATE of an answered gate leaves. -/
def PmGate.writeAnswered (loaded : PmGate) (answer actorId : String) (now : Time) (row : PmGate) :
    PmGate :=
  { row with
    state := put loaded.state .answered row.state
    answer := put loaded.answer (some answer) row.answer
    answeredBy := put loaded.answeredBy (some actorId) row.answeredBy
    answeredAt := put loaded.answeredAt (some now) row.answeredAt }

/-- `UPDATE pm_gates SET state = 'cancelled'` for the gates given, which the statement found. -/
def DbWrite.cancelGates (ids : List Nat) : DbWrite where
  takes := ids.map .gate
  apply := fun db =>
    { db with
      gates := db.gates.mapIdx fun id gate =>
        if id ∈ ids then { gate with state := .cancelled } else gate }
  frame k hk db := by
    cases k with
    | gate id =>
        have hid : id ∉ ids := fun h => hk (List.mem_map_of_mem h)
        intro row hrow
        simp [hrow, hid]
    | lock covId => rfl
    | idempotencyKey key => rfl
    | _ => exact fun _ h => h

namespace Concurrent

/-- A gate with its key, as the session has loaded it. -/
abbrev LoadedGate := Nat × PmGate

/-- A row that a query finds again keeps the values that it was first loaded with. -/
def known (gates : List LoadedGate) (found : LoadedGate) : LoadedGate :=
  (gates.find? fun gate => gate.1 = found.1).getD found

def gateRow (find : Db → Option Nat) (db : Db) : Option LoadedGate := do
  let id ← find db
  return (id, ← db.gates[id]?)

/-- The open gate of a run, among those that the session knows if it is one of them. -/
def gateOfRun (env : Env) (runId : Option Nat) (gates : List LoadedGate) :
    DbScript (Option LoadedGate) :=
  match runId with
  | none => return none
  | some r => return (← Script.select (gateRow (openGateOfRun env r))).map (known gates)

def buildCtx (env : Env) (cov : Coverage) (action : Action) (runId : Option Nat) (force : Bool)
    (notes : Option String) (gates : List LoadedGate) :
    DbScript (TransitionContext × Option LoadedGate) := do
  let hasOpenPosition ← Script.select (hasOpenPosition cov.ticker)
  let gate ← if action ∈ decideActions then gateOfRun env runId gates else pure none
  return ({
    force
    noteProvided := noteGiven notes
    hasOpenPosition
    gateOpen := action ∉ decideActions || gate.isSome
    answerInAllowed := action ∉ decideActions || gate.any fun (_, gate) =>
      (decisionAnswer action).any fun answer => answer ∈ gate.allowedAnswers }, gate)

/-! ## Side effects -/

/-- What a side effect leaves for the flush: the gate to answer, the lead to write. -/
structure Flushed where
  answered : Option LoadedGate := none
  lead : Option (Option String) := none

/-- What a side effect sends at once. -/
def effectNow (env : Env) (runId : Option Nat) (gates : List LoadedGate) :
    SideEffect → DbScript Flushed
  | .answerGate => return { answered := ← gateOfRun env runId gates }
  | .cancelOpenGate => do
      Script.write fun db => some (DbWrite.cancelGates
        (Rows.ids (fun gate => runId = some gate.runId && gate.state = .opened) db.gates))
      return {}
  | .setLeadHouse =>
      match runId with
      | none => return {}
      | some r => do
          let run ← getRow Db.runs r
          let house ← ofExcept (env.runtime.bindText (run.params.get "lead_house"))
          return { lead := some house }
  | _ => return {}

/-- The outbox row that a side effect adds to the flush. -/
def effectOutbox (env : Env) (covId : Nat) (runId : Option Nat) (requestId : String) :
    SideEffect → DbScript Unit
  | .outbox kind =>
      if kind = "coverage.state_changed" then pure ()
      else send (.addOutbox (outboxRow env kind (some covId) runId covId
        [("request_id", .str requestId), ("coverage_id", .str (toString covId))]))
  | _ => pure ()

/-- The gate that a side effect adds to the flush. -/
def effectGate (covId : Nat) (runId : Option Nat) : SideEffect → DbScript Unit
  | .openGateInitiationDecision => do
      let r ← ofExcept (required "pm_gates.run_id" (.ok runId))
      send (.addGate
        { runId := r, coverageId := some covId, kind := .initiationDecision,
          state := .opened, prompt := .decideInitiation, payload := [],
          allowedAnswers := ["active", "watch", "reject"] })
  | _ => pure ()

/-- The UPDATE of the gate that a decision answers. -/
def sendAnswer (env : Env) (action : Action) (actorId : String) : Option LoadedGate → DbScript Unit
  | none => pure ()
  | some (id, gate) => do
      let answer ← ofExcept (required action.value (.ok (decisionAnswer action)))
      send (.setGate id (gate.writeAnswered answer actorId env.now))

/-! ## Transitions -/

/-- A live coverage has a lead, and a lead is a house. -/
def legalCoverage (db : Db) (cov : Coverage) : Bool :=
  (!cov.state.live || cov.leadHouse.isSome) && cov.leadHouse.all db.isHouse

def sendCoverage (covId : Nat) (cov : Coverage) (state : CoverageState) (lead : Option String) :
    DbScript Unit :=
  if state = cov.state ∧ lead = cov.leadHouse then pure ()
  else
    sendChecked (fun db => (db.coverages[covId]?.map (cov.writeState state lead)).all
      (legalCoverage db)) (.setCoverage covId (cov.writeState state lead))

/-- What a transition is recorded with. -/
structure Recorded where
  action : Action
  actorType : ActorType
  actorId : String
  runId : Option Nat
  notes : Option String
  requestId : String

def Recorded.transitionRow (r : Recorded) (covId : Nat) (fromState : CoverageState)
    (sm : Transition) : CoverageTransition :=
  { coverageId := covId, fromState := some fromState, toState := sm.toState,
    actorType := r.actorType, actorId := r.actorId, cause := sm.cause, runId := r.runId,
    notes := r.notes }

def Recorded.auditRow (r : Recorded) (covId : Nat) (fromState : CoverageState) (sm : Transition) :
    AuditLog :=
  { action := "coverage." ++ r.action.value, actorType := r.actorType, actorId := r.actorId,
    target := some ("coverage:" ++ toString covId),
    beforeState := .obj [("state", .str fromState.value)],
    afterState := .obj [("state", .str sm.toState.value)], requestId := some r.requestId }

/-- Record a transition of a coverage that the session has loaded, and flush. -/
def record (env : Env) (covId : Nat) (cov : Coverage) (lead : Option String) (sm : Transition)
    (r : Recorded) (gates : List LoadedGate) : DbScript Unit := do
  let effects ← sm.sideEffects.mapM (effectNow env r.runId gates)
  send (.addAudit (r.auditRow covId cov.state sm))
  sendCoverage covId cov sm.toState ((effects.findSome? (·.lead)).getD lead)
  send (.addTransition (r.transitionRow covId cov.state sm))
  send (.addOutbox (outboxRow env "coverage.state_changed" (some covId) r.runId covId
    [("request_id", .str r.requestId), ("to_state", .str sm.toState.value),
      ("cause", .str sm.cause)]))
  sm.sideEffects.forM (effectOutbox env covId r.runId r.requestId)
  sm.sideEffects.forM (effectGate covId r.runId)
  sendAnswer env r.action r.actorId (effects.findSome? (·.answered))

/-- Returns the state that the coverage now has. -/
def transitionCoverage (env : Env) (covId : Nat) (cov : Coverage) (r : Recorded) (force : Bool)
    (gates : List LoadedGate) : DbScript CoverageState := do
  let (ctx, gate) ← buildCtx env cov r.action r.runId force r.notes gates
  let sm ← ofExcept (transition (some cov.state) r.action ctx)
  record env covId cov cov.leadHouse sm r (gates ++ gate.toList)
  return sm.toState

/-- The row of the lead's history waits for the flush that writes the request's audit row. -/
def setLead (env : Env) (covId : Nat) (cov : Coverage) (house : String) (r : Recorded) :
    DbScript CoverageLeadHistory := do
  let h ← Script.select fun db => db.houses.find? fun h => h.key = house
  let ctx : TransitionContext :=
    { newHouseEnabled := h.any (·.enabled), newHouseAssignable := h.any (·.assignable),
      newHouseMeta := h.any (·.isMeta) }
  let sm ← ofExcept (transition (some cov.state) .setLead ctx)
  record env covId cov (some house) sm r []
  return { coverageId := covId, fromHouse := cov.leadHouse, toHouse := house, runId := r.runId,
           approvedBy := r.actorId, rationale := r.notes }

end Concurrent

end AiFund
