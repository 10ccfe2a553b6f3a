/-!
# Domain enums

The values that the columns of the schema may take. `value` is the string that is stored.
-/

namespace AiFund

inductive CoverageState where
  | proposed | initiating | decisionPending | active | watch | rejected | exited | failed
  deriving DecidableEq

def CoverageState.value : CoverageState → String
  | .proposed => "proposed"
  | .initiating => "initiating"
  | .decisionPending => "decision_pending"
  | .active => "active"
  | .watch => "watch"
  | .rejected => "rejected"
  | .exited => "exited"
  | .failed => "failed"

inductive RunType where
  | initiation | deepReview | eventAnalysis | monitorTick | pmQuery | leadReview | distillation
  deriving DecidableEq

def RunType.value : RunType → String
  | .initiation => "initiation"
  | .deepReview => "deep_review"
  | .eventAnalysis => "event_analysis"
  | .monitorTick => "monitor_tick"
  | .pmQuery => "pm_query"
  | .leadReview => "lead_review"
  | .distillation => "distillation"

inductive RunStatus where
  | queued | running | waitingPm | succeeded | failed | cancelled
  deriving DecidableEq

def RunStatus.value : RunStatus → String
  | .queued => "queued"
  | .running => "running"
  | .waitingPm => "waiting_pm"
  | .succeeded => "succeeded"
  | .failed => "failed"
  | .cancelled => "cancelled"

inductive StageStatus where
  | queued | running | succeeded | failed | skipped
  deriving DecidableEq

inductive AttemptStatus where
  | running | succeeded | failed | killed | timeout
  deriving DecidableEq

inductive Substrate where
  | harness | api
  deriving DecidableEq

inductive StageRole where
  | author | verifier | dataChecker | finalizer | monitor | crossCheck | leadReview | distiller
  | pmQuery
  deriving DecidableEq

inductive PredictionStatus where
  | opened | hit | miss | expired | superseded
  deriving DecidableEq

def PredictionStatus.ofValue? : String → Option PredictionStatus
  | "open" => some .opened
  | "hit" => some .hit
  | "miss" => some .miss
  | "expired" => some .expired
  | "superseded" => some .superseded
  | _ => none

inductive GateKind where
  | initiationDecision | leadChange | doctrineAmendment | budgetCap
  deriving DecidableEq

inductive GateState where
  | opened | answered | cancelled
  deriving DecidableEq

def GateState.value : GateState → String
  | .opened => "open"
  | .answered => "answered"
  | .cancelled => "cancelled"

inductive ActorType where
  | pm | run | scheduler | system
  deriving DecidableEq

def ActorType.value : ActorType → String
  | .pm => "pm"
  | .run => "run"
  | .scheduler => "scheduler"
  | .system => "system"

end AiFund
