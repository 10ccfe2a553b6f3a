import AiFund.Domain.Enums

/-!
# Run and stage state machines
-/

namespace AiFund

inductive RunAction where
  | start | requeue | fail | openGate | succeed | cancel
  deriving DecidableEq

inductive StageAction where
  | start | complete | failRetryable | failTerminal | skip
  deriving DecidableEq

inductive IllegalStateChange where
  | run (fromState : RunStatus) (action : RunAction) (reason : String)
  | stage (fromState : StageStatus) (action : StageAction) (reason : String)
  deriving DecidableEq

inductive RunEffect where
  | openPmGate | recordTransientError | releaseLock | outboxRunFinished
  deriving DecidableEq

structure RunTransitionContext where
  attempts : Nat := 0
  maxAttempts : Int := 1

structure RunTransition where
  toState : RunStatus
  cause : String
  sideEffects : List RunEffect

def RunStatus.terminal : RunStatus → Bool
  | .succeeded | .failed | .cancelled => true
  | _ => false

def terminalSideEffects (toState : RunStatus) : List RunEffect :=
  if toState.terminal then [.releaseLock, .outboxRunFinished] else []

def runEntries : RunStatus → RunAction → Option (RunStatus × String)
  | .queued, .start => some (.running, "started")
  | .running, .requeue => some (.queued, "transient_failure")
  | .running, .fail => some (.failed, "terminal_failure")
  | .running, .openGate => some (.waitingPm, "reached_pm_gate")
  | .running, .succeed => some (.succeeded, "succeeded")
  | .running, .cancel => some (.cancelled, "cancelled")
  | .waitingPm, .succeed => some (.succeeded, "succeeded")
  | .waitingPm, .cancel => some (.cancelled, "cancelled")
  | .queued, .cancel => some (.cancelled, "cancelled")
  | _, _ => none

def runEffects (action : RunAction) (toState : RunStatus) : List RunEffect :=
  (if action = .openGate then [.openPmGate] else []) ++
    (if action = .requeue then [.recordTransientError] else []) ++ terminalSideEffects toState

def runTransition (state : RunStatus) (action : RunAction) (ctx : RunTransitionContext) :
    Except IllegalStateChange RunTransition :=
  match runEntries state action with
  | none => .error (.run state action "not a legal run transition from this state")
  | some (toState, cause) =>
      if action = .requeue ∧ ctx.maxAttempts ≤ ctx.attempts then
        .error (.run state action
          "attempts exhausted; the run must go to failed, not requeued")
      else .ok ⟨toState, cause, runEffects action toState⟩

structure StageTransitionContext where
  attempts : Nat := 0
  maxAttempts : Int := 1

structure StageTransition where
  toState : StageStatus
  cause : String
  /-- Whether the side effect `set_available_at_backoff` is among those of the transition. -/
  setAvailableAtBackoff : Bool

def stageEntries : StageStatus → StageAction → Option (StageStatus × String)
  | .queued, .start => some (.running, "claimed")
  | .running, .complete => some (.succeeded, "completed")
  | .running, .failRetryable => some (.queued, "retryable_failure")
  | .running, .failTerminal => some (.failed, "terminal_failure")
  | .queued, .skip => some (.skipped, "orchestrator_skip")
  | _, _ => none

def stageTransition (state : StageStatus) (action : StageAction) (ctx : StageTransitionContext) :
    Except IllegalStateChange StageTransition :=
  match stageEntries state action with
  | none => .error (.stage state action "not a legal stage transition from this state")
  | some (toState, cause) =>
      if action = .failRetryable ∧ ctx.maxAttempts ≤ ctx.attempts then
        .error (.stage state action
          "attempts exhausted; the stage must go to failed, not requeued")
      else .ok ⟨toState, cause, action = .failRetryable⟩

/-- An edge of the stage state machine. -/
def StageEdge (ctx : StageTransitionContext) (a b : StageStatus) : Prop :=
  ∃ action sm, stageTransition a action ctx = .ok sm ∧ sm.toState = b

theorem stageEntries_of_stageTransition {state : StageStatus} {action : StageAction}
    {ctx : StageTransitionContext} {sm : StageTransition}
    (h : stageTransition state action ctx = .ok sm) :
    stageEntries state action = some (sm.toState, sm.cause) := by
  unfold stageTransition at h
  split at h
  · cases h
  · rename_i toState cause hentry
    split at h
    · cases h
    · cases h
      exact hentry

/-- Only a running stage fails. -/
theorem StageEdge.to_failed {ctx : StageTransitionContext} {a : StageStatus}
    (h : StageEdge ctx a .failed) : a = .running := by
  obtain ⟨action, sm, hsm, hto⟩ := h
  have hentry := stageEntries_of_stageTransition hsm
  rw [hto] at hentry
  cases a with
  | running => rfl
  | _ => cases action <;> cases hentry

/-- Only a queued stage is skipped. -/
theorem StageEdge.to_skipped {ctx : StageTransitionContext} {a : StageStatus}
    (h : StageEdge ctx a .skipped) : a = .queued := by
  obtain ⟨action, sm, hsm, hto⟩ := h
  have hentry := stageEntries_of_stageTransition hsm
  rw [hto] at hentry
  cases a with
  | queued => rfl
  | _ => cases action <;> cases hentry

/-- The callers leave the context at its defaults, under which the attempts guard never fires. -/
theorem runTransition_default {state toState : RunStatus} {action : RunAction} {cause : String}
    (h : runEntries state action = some (toState, cause)) :
    runTransition state action {} = .ok ⟨toState, cause, runEffects action toState⟩ := by
  simp [runTransition, h]

theorem runEntries_of_runTransition {state : RunStatus} {action : RunAction} {sm : RunTransition}
    (h : runTransition state action {} = .ok sm) :
    runEntries state action = some (sm.toState, sm.cause) ∧
      sm.sideEffects = runEffects action sm.toState := by
  cases hentry : runEntries state action with
  | none => simp [runTransition, hentry] at h
  | some entry =>
      rw [runTransition_default hentry] at h
      cases h
      exact ⟨rfl, rfl⟩

/-- An edge of the run state machine. -/
def RunEdge (a b : RunStatus) : Prop :=
  ∃ action sm, runTransition a action {} = .ok sm ∧ sm.toState = b

theorem RunEdge.of_entry {a b : RunStatus} (action : RunAction) {cause : String}
    (h : runEntries a action = some (b, cause)) : RunEdge a b :=
  ⟨action, _, runTransition_default h, rfl⟩

theorem RunEdge.entry {a b : RunStatus} (h : RunEdge a b) :
    ∃ action cause, runEntries a action = some (b, cause) := by
  obtain ⟨action, sm, hsm, rfl⟩ := h
  exact ⟨action, sm.cause, (runEntries_of_runTransition hsm).1⟩

theorem RunEdge.not_terminal {a b : RunStatus} (h : RunEdge a b) : a.terminal = false := by
  obtain ⟨action, cause, hentry⟩ := h.entry
  cases a with
  | succeeded => cases action <;> cases hentry
  | failed => cases action <;> cases hentry
  | cancelled => cases action <;> cases hentry
  | _ => rfl

end AiFund
