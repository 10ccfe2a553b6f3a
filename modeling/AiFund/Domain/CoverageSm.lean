import AiFund.Domain.Enums

/-!
# Coverage state machine

`transition` is pure: the guards that depend on rows of the database arrive in the
`TransitionContext`, and the writes that go with a transition leave as `SideEffect`s.
-/

namespace AiFund

inductive Action where
  | propose | startInitiation | initiationDelivered | initiationFailed | initiationCancelled
  | retryInitiation | withdraw | decideActive | decideWatch | decideReject | promote | demote
  | exit | rePropose | setLead
  deriving DecidableEq

def Action.value : Action → String
  | .propose => "propose"
  | .startInitiation => "start_initiation"
  | .initiationDelivered => "initiation_delivered"
  | .initiationFailed => "initiation_failed"
  | .initiationCancelled => "initiation_cancelled"
  | .retryInitiation => "retry_initiation"
  | .withdraw => "withdraw"
  | .decideActive => "decide:active"
  | .decideWatch => "decide:watch"
  | .decideReject => "decide:reject"
  | .promote => "promote"
  | .demote => "demote"
  | .exit => "exit"
  | .rePropose => "re_propose"
  | .setLead => "set_lead"

structure IllegalTransition where
  fromState : Option CoverageState
  action : Action
  reason : String
  deriving DecidableEq

inductive SideEffect where
  | createCoverageRow | computeDossierSlug | setLeadHouse | openGateInitiationDecision
  | outbox (kind : String)
  | cancelOpenGate | retainBranch | newInitiationRun | noBranchMerge | answerGate | mergeBranch
  | predictionsOpen | writeCoverageLevels | setDecidedAt | supersedePredictions | spawnDeepReview
  | expireOpenPredictions | setExitedAt | reuseDossierHistory | writeLeadHistory
  | openPredictionsKeepHouse
  deriving DecidableEq

/-- Guard inputs; the defaults are the happy path. -/
structure TransitionContext where
  hasOpenPosition : Bool := false
  force : Bool := false
  noteProvided : Bool := false
  newHouseEnabled : Bool := true
  newHouseAssignable : Bool := true
  newHouseMeta : Bool := false
  gateOpen : Bool := true
  answerInAllowed : Bool := true

structure Transition where
  toState : CoverageState
  cause : String
  sideEffects : List SideEffect
  deriving DecidableEq

def entries : Option CoverageState → Action → Option Transition
  | none, .propose =>
      some ⟨.proposed, "propose", [.createCoverageRow, .computeDossierSlug]⟩
  | some .proposed, .startInitiation =>
      some ⟨.initiating, "start_initiation", [.setLeadHouse]⟩
  | some .initiating, .initiationDelivered =>
      some ⟨.decisionPending, "initiation_delivered",
        [.openGateInitiationDecision, .outbox "gate.opened"]⟩
  | some .initiating, .initiationFailed =>
      some ⟨.failed, "initiation_failed", [.outbox "run.finished"]⟩
  | some .decisionPending, .initiationCancelled =>
      some ⟨.failed, "initiation_cancelled",
        [.cancelOpenGate, .retainBranch, .outbox "run.finished"]⟩
  | some .failed, .retryInitiation =>
      some ⟨.initiating, "retry_initiation", [.newInitiationRun]⟩
  | some .proposed, .withdraw => some ⟨.rejected, "withdraw", [.noBranchMerge]⟩
  | some .failed, .withdraw => some ⟨.rejected, "withdraw", [.noBranchMerge]⟩
  | some .decisionPending, .decideActive =>
      some ⟨.active, "pm_decision",
        [.answerGate, .mergeBranch, .predictionsOpen, .writeCoverageLevels, .setDecidedAt,
          .outbox "coverage.state_changed"]⟩
  | some .decisionPending, .decideWatch =>
      some ⟨.watch, "pm_decision",
        [.answerGate, .mergeBranch, .predictionsOpen, .writeCoverageLevels, .setDecidedAt,
          .outbox "coverage.state_changed"]⟩
  | some .decisionPending, .decideReject =>
      some ⟨.rejected, "pm_decision", [.answerGate, .noBranchMerge, .supersedePredictions]⟩
  | some .watch, .promote =>
      some ⟨.active, "promote", [.spawnDeepReview, .outbox "coverage.state_changed"]⟩
  | some .active, .demote => some ⟨.watch, "demote", [.outbox "coverage.state_changed"]⟩
  | some .active, .exit =>
      some ⟨.exited, "exit",
        [.expireOpenPredictions, .setExitedAt, .outbox "coverage.state_changed"]⟩
  | some .watch, .exit =>
      some ⟨.exited, "exit",
        [.expireOpenPredictions, .setExitedAt, .outbox "coverage.state_changed"]⟩
  | some .exited, .rePropose => some ⟨.proposed, "re_propose", [.reuseDossierHistory]⟩
  | some .rejected, .rePropose => some ⟨.proposed, "re_propose", [.reuseDossierHistory]⟩
  | some .active, .setLead =>
      some ⟨.active, "lead_change",
        [.writeLeadHistory, .openPredictionsKeepHouse, .outbox "coverage.state_changed"]⟩
  | some .watch, .setLead =>
      some ⟨.watch, "lead_change",
        [.writeLeadHistory, .openPredictionsKeepHouse, .outbox "coverage.state_changed"]⟩
  | _, _ => none

def decideActions : List Action := [.decideActive, .decideWatch, .decideReject]

/-- The reason a guard of `action` refuses `ctx`, if one does. -/
def checkGuards (action : Action) (ctx : TransitionContext) : Option String :=
  match action with
  | .exit =>
      if ctx.hasOpenPosition && !ctx.force then
        some "exit with an open position requires force=True"
      else if ctx.force && !ctx.noteProvided then
        some "forced exit requires a mandatory note"
      else none
  | .withdraw =>
      if !ctx.noteProvided then some "withdraw requires a mandatory note" else none
  | .setLead =>
      if !ctx.newHouseEnabled then some "lead house must be enabled"
      else if ctx.newHouseMeta then some "a meta house cannot be lead"
      else if !ctx.newHouseAssignable then some "lead house must be assignable"
      else none
  | .decideActive | .decideWatch | .decideReject =>
      if !ctx.gateOpen then some "decide requires an open gate"
      else if !ctx.answerInAllowed then some "answer is not in allowed_answers"
      else none
  | _ => none

/-- `fromState` is `none` only for `Action.propose`. -/
def transition (fromState : Option CoverageState) (action : Action) (ctx : TransitionContext) :
    Except IllegalTransition Transition :=
  match entries fromState action with
  | none => .error ⟨fromState, action, "not a legal transition from this state"⟩
  | some entry =>
      match checkGuards action ctx with
      | some reason => .error ⟨fromState, action, reason⟩
      | none => .ok entry

theorem transition_eq_ok {fromState : Option CoverageState} {action : Action}
    {ctx : TransitionContext} {sm : Transition} :
    transition fromState action ctx = .ok sm ↔
      entries fromState action = some sm ∧ checkGuards action ctx = none := by
  unfold transition
  cases entries fromState action with
  | none => simp
  | some entry => cases checkGuards action ctx <;> simp

end AiFund
