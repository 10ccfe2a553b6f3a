import AiFund.Orchestrator.Engine

/-!
# Scheduler jobs

`leader` is the outcome of the advisory lock that gates every job.
-/

namespace AiFund

open UnitOfWork Rows

def hasRun (coverageId : Nat) (type : RunType) (triggerRef : String) (db : Db) : Bool :=
  db.runs.any fun run =>
    run.coverageId = some coverageId && run.type = type && run.triggerRef = some triggerRef

def logJob (env : Env) (jobName status : String) (runsCreated : Nat) (detail : Option String) :
    DbTxn Unit := do
  assign fun db => { db with schedulerJobLogs := db.schedulerJobLogs ++
    [{ jobName, status, runsCreated, detail, createdAt := env.now }] }
  flush

/-- Run `f` on each key and count how often it returns `true`. -/
def countM (f : Nat → DbTxn Bool) : List Nat → DbTxn Nat
  | [] => return 0
  | key :: keys => do
      let created ← f key
      let n ← countM f keys
      return created.toNat + n

/-- Create a run unless one with the same trigger reference exists. -/
def createOnce (env : Env) (fund : FundConfig) (type : RunType) (params : JsonObject)
    (triggerRef : String) (covId : Nat) : DbTxn Bool := do
  if ← select (hasRun covId type triggerRef) then
    return false
  else do
    let _ ← Engine.createRun env fund [] type.value (some covId) "scheduler" params none
      (some triggerRef)
    return true

def coveragesWith (env : Env) (p : Coverage → Bool) (db : Db) : List Nat :=
  (env.rows .coverages).all p db.coverages

/-- One `monitor_tick` per active coverage of the exchange. -/
def sessionTick (env : Env) (fund : FundConfig) (leader : Bool)
    (exchange tradingDate sessionName : String) : DbTxn Nat := do
  if !leader then return 0
  else do
    let jobName := "session_tick:" ++ exchange
    logJob env jobName "started" 0 none
    let ref := "session_tick:" ++ exchange ++ ":" ++ tradingDate ++ ":" ++ sessionName
    let coverages ← select
      (coveragesWith env fun cov => cov.exchange = exchange && cov.state = .active)
    let n ← countM (createOnce env fund .monitorTick [] ref) coverages
    logJob env jobName "succeeded" n none
    return n

/-- One news-only `monitor_tick` per watched coverage. -/
def watchTick (env : Env) (fund : FundConfig) (leader : Bool) (tradingDate : String) :
    DbTxn Nat := do
  if !leader then return 0
  else do
    let ref := "watch_tick:" ++ tradingDate
    let coverages ← select (coveragesWith env fun cov => cov.state = .watch)
    let n ← countM (createOnce env fund .monitorTick [("news_only", .bool true)] ref) coverages
    logJob env "watch_tick" "succeeded" n none
    return n

/-- `now - timedelta(days)`, which raises outside the range of a datetime. -/
def daysBefore (now : Time) (days : Int) : Except PyError Time :=
  let time := now - days * 86400
  if datetimeMin ≤ time ∧ time ≤ datetimeMax then .ok time else .error .overflowError

/-- Delete expired idempotency keys and aged-out news articles. -/
def retention (env : Env) (fund : FundConfig) (leader : Bool) : DbTxn Nat := do
  if !leader then return 0
  else do
    let expired ← ofExcept id (daysBefore env.now fund.idempotencyDays)
    let staleKey (row : IdempotencyKey) : Bool := row.expiresAt < expired
    let keys ← select fun db => (db.idempotencyKeys.filter staleKey).length
    execute fun db => { db with idempotencyKeys := db.idempotencyKeys.filter (!staleKey ·) }
    let agedOut ← ofExcept id (daysBefore env.now fund.newsDays)
    let staleNews (row : NewsArticle) : Bool := row.createdAt < agedOut
    let news ← select fun db => (db.newsArticles.filter staleNews).length
    execute fun db => { db with newsArticles := db.newsArticles.filter (!staleNews ·) }
    let n := keys + news
    logJob env "retention" "succeeded" 0 (some ("deleted " ++ toString n ++ " rows"))
    return n

/-- `now.strftime("%Y-%m")`. -/
def monthOf (now : Time) : String := Date.pad 4 now.date.year ++ "-" ++ Date.pad 2 now.date.month

def recentReview (coverageId : Nat) (cutoff : Time) (db : Db) : Bool :=
  db.runs.any fun run =>
    run.coverageId = some coverageId && run.type = .deepReview && cutoff ≤ run.createdAt

/-- A `deep_review` for each active coverage without a review in `staleDays`. -/
def quarterlySweep (env : Env) (fund : FundConfig) (leader : Bool) (staleDays : Int) :
    DbTxn Nat := do
  if !leader then return 0
  else do
    let cutoff ← ofExcept id (daysBefore env.now staleDays)
    let coverages ← select (coveragesWith env fun cov => cov.state = .active)
    let n ← countM (fun covId => do
      let recent ← select (recentReview covId cutoff)
      if recent then return false
      else do
        let cov ← getRow Db.coverages covId
        createOnce env fund .deepReview []
          ("quarterly_sweep:" ++ cov.dossierSlug ++ ":" ++ monthOf env.now) covId) coverages
    logJob env "quarterly_sweep" "succeeded" n none
    return n

/-- The cron jobs. -/
inductive Job where
  | earningsSweep | quarterlySweep | predictionScoring | leadReviewCandidacy | distillation
  | costRollup | retention

def Job.name : Job → String
  | .earningsSweep => "earnings_sweep"
  | .quarterlySweep => "quarterly_sweep"
  | .predictionScoring => "prediction_scoring"
  | .leadReviewCandidacy => "lead_review_candidacy"
  | .distillation => "distillation"
  | .costRollup => "cost_rollup"
  | .retention => "retention"

/-- A job whose owning spec is not built yet fails loudly. -/
def pending {α : Type} (spec : String) : DbTxn α :=
  raise (.notImplemented ("scheduler job pending its owning spec: " ++ spec))

def Job.perform (env : Env) (fund : FundConfig) (leader : Bool) : Job → DbTxn Nat
  | .quarterlySweep => AiFund.quarterlySweep env fund leader 90
  | .retention => AiFund.retention env fund leader
  | .earningsSweep =>
      pending "SPEC-MARKETDATA earnings calendar / data-source port (design/05 §4)"
  | .predictionScoring => pending "SPEC-TRACKREC (§6.1) — the scoring math owns this"
  | .leadReviewCandidacy => pending "SPEC-TRACKREC track-record views (§6.3)"
  | .distillation => pending "SPEC-DISTILLATION (§7.1) — gates + citation rule own this"
  | .costRollup =>
      pending "cost reconciliation (SPEC-RUNNER usage APIs / phase 7.2 cost port)"

/-- Run a job in its own session and record a failure in a second transaction. -/
def runJob (env : Env) (fund : FundConfig) (leader : Bool) (job : Job) (db : Db) :
    Outcome Db PyError Nat :=
  let outcome := commit (job.perform env fund leader) db
  match outcome.result with
  | .ok _ => outcome
  | .error (.notImplemented detail) =>
      commit (do logJob env job.name "skipped" 0 (some detail); return 0) db
  | .error error =>
      { commit (do logJob env job.name "failed" 0 none; return 0) db with result := .error error }

end AiFund
