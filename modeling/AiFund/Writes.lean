import AiFund.DeskSystem
import AiFund.DrivenSystem
import AiFund.OutboxSystem

/-!
# Writes

All the ways in which a statement of the program changes a table: rows are added at the end, and a
row that is there may change in some of its columns. What those columns leave is the identity of the
row.
-/

namespace AiFund

open UnitOfWork

/-! ## Identities -/

section Identities

def Coverage.identity (row : Coverage) : Coverage :=
  { row with state := .proposed, leadHouse := none, decidedAt := none, exitedAt := none }

def Run.identity (row : Run) : Run :=
  { row with
    status := .queued, costUsd := 0, summary := none, error := none, startedAt := none,
    finishedAt := none }

def RunStage.identity (row : RunStage) : RunStage :=
  { row with
    status := .queued, availableAt := 0, claimedBy := none, claimedAt := none,
    leaseExpiresAt := none, attempts := 0, transcriptRef := none, result := none, costUsd := 0,
    tokensIn := none, tokensOut := none, error := none, startedAt := none, finishedAt := none }

/-- The stage, the number, the house, the substrate and the worker of an attempt. -/
def StageAttempt.identity (row : StageAttempt) : Nat × Nat × String × Substrate × Option String :=
  (row.stageId, row.attemptNo, row.house, row.substrate, row.workerId)

def PmGate.identity (row : PmGate) : PmGate :=
  { row with
    state := .opened, answer := none, answerNotes := none, answeredBy := none, answeredAt := none,
    idempotencyKey := none }

def CoverageLevel.identity (row : CoverageLevel) : CoverageLevel :=
  { row with active := true, supersededAt := none }

def OutboxEvent.identity (row : OutboxEvent) : OutboxEvent :=
  { row with
    availableAt := 0, claimedBy := none, leaseExpiresAt := none, attempts := 0,
    deliveredAt := none, lastError := none }

def Event.identity (row : Event) : Option Nat := row.newsArticleId

end Identities

/-! ## Writes by their tables -/

/-- A write beside the work on the stages: a row added, a row changed in other columns than those of
its identity, or the locks. -/
inductive Db.Told (db : Db) : Db → Prop
  | kept : Told db db
  | addCoverage (row : Coverage) : Told db { db with coverages := db.coverages ++ [row] }
  | coverage (id : Nat) (f : Coverage → Coverage) (hf : ∀ row, (f row).identity = row.identity) :
      Told db (db.updateCoverage id f)
  | addTransition (row : CoverageTransition) :
      Told db { db with transitions := db.transitions ++ [row] }
  | addLead (row : CoverageLeadHistory) : Told db { db with leadHistory := db.leadHistory ++ [row] }
  | addLevel (row : CoverageLevel) : Told db { db with levels := db.levels ++ [row] }
  | level (id : Nat) (f : CoverageLevel → CoverageLevel)
      (hf : ∀ row, (f row).identity = row.identity) :
      Told db { db with levels := db.levels.modify id f }
  | addRun (row : Run) : Told db { db with runs := db.runs ++ [row] }
  | run (id : Nat) (f : Run → Run) (hf : ∀ row, (f row).identity = row.identity) :
      Told db (db.updateRun id f)
  | locks (rows : List CoverageRunLock) : Told db { db with locks := rows }
  | addGate (row : PmGate) : Told db { db with gates := db.gates ++ [row] }
  | gate (id : Nat) (f : PmGate → PmGate) (hf : ∀ row, (f row).identity = row.identity) :
      Told db (db.updateGate id f)
  | gates (f : PmGate → PmGate) (hf : ∀ row, (f row).identity = row.identity) :
      Told db { db with gates := db.gates.map f }
  | addPrediction (row : Prediction) : Told db { db with predictions := db.predictions ++ [row] }
  | event (id : Nat) (f : Event → Event) (hf : ∀ row, (f row).identity = row.identity) :
      Told db { db with events := db.events.modify id f }
  | addOutbox (row : OutboxEvent) : Told db { db with outbox := db.outbox ++ [row] }
  | outbox (id : Nat) (f : OutboxEvent → OutboxEvent)
      (hf : ∀ row, (f row).identity = row.identity) : Told db (db.updateEvent id f)
  | addAudit (row : AuditLog) : Told db { db with auditLog := db.auditLog ++ [row] }
  | addJobLog (row : SchedulerJobLog) :
      Told db { db with schedulerJobLogs := db.schedulerJobLogs ++ [row] }

/-- A write of the work on the stages, or beside it. -/
inductive Db.Worked (db : Db) : Db → Prop
  | told {db' : Db} (h : db.Told db') : Worked db db'
  | stage (id : Nat) (f : RunStage → RunStage) (hf : ∀ row, (f row).identity = row.identity) :
      Worked db (db.updateStage id f)
  | attempt (key : Option Nat) (f : StageAttempt → StageAttempt)
      (hf : ∀ row, (f row).identity = row.identity) : Worked db (db.close key f)
  | addAttempt (row : StageAttempt) : Worked db { db with attempts := db.attempts ++ [row] }

/-- A write of the system's own business: stages are added too. -/
inductive Db.Written (db : Db) : Db → Prop
  | worked {db' : Db} (h : db.Worked db') : Written db db'
  | addStages (rows : List RunStage) : Written db { db with stages := db.stages ++ rows }

/-- Any write: the keys of requests are stored, and they and the news are aged out. -/
inductive Db.Changed (db : Db) : Db → Prop
  | written {db' : Db} (h : db.Written db') : Changed db db'
  | idempotencyKeys (rows : List IdempotencyKey) : Changed db { db with idempotencyKeys := rows }
  | newsArticles (rows : List NewsArticle) : Changed db { db with newsArticles := rows }

/-! ## What stays -/

/-- Every row of `db` that is not a lock, a key or a news article is a row of `db'`, at the same
place and with the same identity, and the rows of the logs are unchanged. -/
structure Db.Preserved (db db' : Db) : Prop where
  coverages : db.coverages.map Coverage.identity <+: db'.coverages.map Coverage.identity
  levels : db.levels.map CoverageLevel.identity <+: db'.levels.map CoverageLevel.identity
  runs : db.runs.map Run.identity <+: db'.runs.map Run.identity
  stages : db.stages.map RunStage.identity <+: db'.stages.map RunStage.identity
  attempts : db.attempts.map StageAttempt.identity <+: db'.attempts.map StageAttempt.identity
  gates : db.gates.map PmGate.identity <+: db'.gates.map PmGate.identity
  outbox : db.outbox.map OutboxEvent.identity <+: db'.outbox.map OutboxEvent.identity
  events : db.events.map Event.identity <+: db'.events.map Event.identity
  predictions : db.predictions <+: db'.predictions
  transitions : db.transitions <+: db'.transitions
  leadHistory : db.leadHistory <+: db'.leadHistory
  auditLog : db.auditLog <+: db'.auditLog
  schedulerJobLogs : db.schedulerJobLogs <+: db'.schedulerJobLogs
  houses : db'.houses = db.houses
  contributors : db'.contributors = db.contributors
  positions : db'.positions = db.positions

/-! ## Every history -/

/-- An operation of the desk, one with a runner at work, or a call of the outbox repository. -/
inductive AnyOp where
  | desk (op : DeskOp)
  | driven (op : DrivenOp)
  | outbox (op : OutboxOp)

def AnyOp.step (app : App) (db : Db) : AnyOp → Db
  | .desk op => op.step app db
  | .driven op => op.step app db
  | .outbox op => op.step db

def runAny (app : App) (db : Db) (ops : List AnyOp) : Db := History.run (AnyOp.step app) db ops

end AiFund
