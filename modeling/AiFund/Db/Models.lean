import AiFund.Domain.CoverageSm
import AiFund.Domain.RunSm
import AiFund.Domain.Values
import AiFund.Library.Rows

/-!
# Tables

The rows that the modelled code reads or writes. A row's key is its position in its table, except
for locks, idempotency keys and news articles, whose rows can be deleted.
-/

namespace AiFund

structure House where
  key : String
  enabled : Bool := true
  assignable : Bool := true
  isMeta : Bool := false

structure Coverage where
  ticker : String
  exchange : String
  name : String
  currency : String
  isin : Option String := none
  state : CoverageState
  leadHouse : Option String := none
  dossierSlug : String
  pmNotes : Option String := none
  proposedBy : Option String := none
  decidedAt : Option Time := none
  exitedAt : Option Time := none

structure CoverageContributor where
  coverageId : Nat
  house : String

structure CoverageLevel where
  coverageId : Nat
  kind : String
  value : Decimal
  currency : String
  direction : String
  setBy : String
  setByRunId : Option Nat := none
  active : Bool := true
  supersededAt : Option Time := none

structure CoverageTransition where
  coverageId : Nat
  fromState : Option CoverageState
  toState : CoverageState
  actorType : ActorType
  actorId : String
  cause : String
  runId : Option Nat
  notes : Option String

structure CoverageLeadHistory where
  coverageId : Nat
  fromHouse : Option String
  toHouse : String
  runId : Option Nat
  approvedBy : String
  rationale : Option String

structure Run where
  coverageId : Option Nat
  type : RunType
  status : RunStatus
  trigger : String
  triggerRef : Option String := none
  priority : Int := 100
  mutatesDossier : Bool
  requestedBy : Option String := none
  params : JsonObject := []
  budgetCapUsd : Option ℚ := none
  costUsd : ℚ := 0
  summary : Option String := none
  error : Option String := none
  startedAt : Option Time := none
  finishedAt : Option Time := none
  createdAt : Time

structure RunStage where
  runId : Nat
  seq : Int
  role : StageRole
  house : String
  substrate : Substrate
  status : StageStatus := .queued
  dependsOnSeq : Option Int := none
  availableAt : Time
  claimedBy : Option String := none
  claimedAt : Option Time := none
  leaseExpiresAt : Option Time := none
  attempts : Nat := 0
  maxAttempts : Int
  transcriptRef : Option String := none
  result : Option JsonObject := none
  costUsd : ℚ := 0
  tokensIn : Option Nat := none
  tokensOut : Option Nat := none
  error : Option String := none
  startedAt : Option Time := none
  finishedAt : Option Time := none

structure StageAttempt where
  stageId : Nat
  attemptNo : Nat
  status : AttemptStatus := .running
  house : String
  model : Option String := none
  substrate : Substrate
  workerId : Option String := none
  transcriptRef : Option String := none
  result : Option JsonObject := none
  validationErrors : Option Json := none
  costUsd : ℚ := 0
  costSource : Option String := none
  tokensIn : Option Nat := none
  tokensOut : Option Nat := none
  cachedTokensIn : Option Nat := none
  exitCode : Option Int := none
  killReason : Option String := none
  finishedAt : Option Time := none

structure CoverageRunLock where
  coverageId : Nat
  runId : Nat
  acquiredAt : Time

/-- What the PM is asked: "Decide initiation: active, watch, or reject?", or "Run has spent … of
cap …; raise or cancel?" with the two amounts. -/
inductive GatePrompt where
  | decideInitiation
  | overBudget (costUsd capUsd : ℚ)

structure PmGate where
  runId : Nat
  coverageId : Option Nat
  kind : GateKind
  state : GateState
  prompt : GatePrompt
  payload : List (String × ℚ)
  allowedAnswers : List String
  answer : Option String := none
  answerNotes : Option String := none
  answeredBy : Option String := none
  answeredAt : Option Time := none
  idempotencyKey : Option String := none

structure Prediction where
  coverageId : Nat
  runId : Nat
  stageId : Nat
  house : String
  kind : String
  value : Option Decimal
  currency : Option String
  stance : Option String
  scenarioLabel : Option String
  scenarioProb : Option Decimal
  scenarioGroup : Option Nat
  horizonDate : Date
  confidence : Option Decimal
  rationaleRef : Option String
  status : PredictionStatus := .opened
  supersededById : Option Nat := none
  supersededRunId : Option Nat := none
  scoredAt : Option Time := none
  realizedPrice : Option Decimal := none
  realizedReturn : Option Decimal := none
  errorPct : Option Decimal := none
  outcomeNotes : Option String := none
  idempotencyKey : String
  createdAt : Time
  direction : Option String
  pinnedPrice : Option Decimal

structure Event where
  newsArticleId : Option Nat := none
  pmRating : Option Int := none
  pmRatedAt : Option Time := none
  pmRatedBy : Option String := none

structure NewsArticle where
  id : Nat
  createdAt : Time

/-- A dedupe key, either chosen by the publisher or made unique by a fresh `uuid4`. -/
inductive DedupeKey where
  | named (key : String)
  | fresh (kind : String) (subject serial : Nat)
  deriving DecidableEq

structure OutboxEvent where
  kind : String
  coverageId : Option Nat
  runId : Option Nat
  payload : JsonObject
  dedupeKey : DedupeKey
  availableAt : Time
  claimedBy : Option String := none
  leaseExpiresAt : Option Time := none
  attempts : Nat := 0
  deliveredAt : Option Time := none
  lastError : Option String := none

structure AuditLog where
  action : String
  actorType : ActorType
  actorId : String
  target : Option String
  beforeState : Json := .null
  afterState : Json := .null
  requestId : Option String

structure StoredResponse where
  body : JsonObject
  statusCode : Nat
  bodyHash : String

structure IdempotencyKey where
  key : String
  route : String
  actorId : String
  response : StoredResponse
  statusCode : Nat
  expiresAt : Time
  createdAt : Time

structure SchedulerJobLog where
  jobName : String
  status : String
  runsCreated : Nat := 0
  detail : Option String := none
  createdAt : Time

structure Position where
  ticker : String
  netQuantity : ℚ

structure Db where
  houses : List House := []
  coverages : List Coverage := []
  contributors : List CoverageContributor := []
  levels : List CoverageLevel := []
  transitions : List CoverageTransition := []
  leadHistory : List CoverageLeadHistory := []
  runs : List Run := []
  stages : List RunStage := []
  attempts : List StageAttempt := []
  locks : List CoverageRunLock := []
  gates : List PmGate := []
  predictions : List Prediction := []
  events : List Event := []
  newsArticles : List NewsArticle := []
  outbox : List OutboxEvent := []
  auditLog : List AuditLog := []
  idempotencyKeys : List IdempotencyKey := []
  schedulerJobLogs : List SchedulerJobLog := []
  positions : List Position := []

namespace Db

variable (db : Db)

def updateCoverage (id : Nat) (f : Coverage → Coverage) : Db :=
  { db with coverages := db.coverages.modify id f }

def updateRun (id : Nat) (f : Run → Run) : Db := { db with runs := db.runs.modify id f }

def updateStage (id : Nat) (f : RunStage → RunStage) : Db :=
  { db with stages := db.stages.modify id f }

def updateAttempt (id : Nat) (f : StageAttempt → StageAttempt) : Db :=
  { db with attempts := db.attempts.modify id f }

def updateGate (id : Nat) (f : PmGate → PmGate) : Db := { db with gates := db.gates.modify id f }

end Db

end AiFund
