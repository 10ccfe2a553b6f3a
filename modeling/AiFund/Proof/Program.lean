import AiFund.System
import AiFund.Library.Frame

/-!
# Invariants of the program

An invariant of the database survives every operation if it survives the writes and the repository
calls that the operations are made of.
-/

namespace AiFund

open UnitOfWork Rows

variable {J : Db → Prop} {app : App} {env : Env} {fund : FundConfig} {request : Request}
  {covId r : Nat} {slug pm key : String} {notes : Option String} {runner : Engine.Runner}

theorem upholds_ofExcept {α ε : Type} (wrap : ε → PyError) (x : Except ε α) :
    Upholds J (ofExcept wrap x) := by
  cases x with
  | ok a => exact .pure _
  | error error => exact .throw _

theorem upholds_ofExcept_bind {α β ε : Type} {wrap : ε → PyError} {x : Except ε α}
    {f : α → DbTxn β} (hf : ∀ a, x = .ok a → Upholds J (f a)) :
    Upholds J (ofExcept wrap x >>= f) := by
  intro s b s' h
  obtain ⟨a, ha, h⟩ := returns_ofExcept_bind.1 h
  exact hf a ha h

/-! ## Reads -/

theorem reads_getRow {ρ : Type} {table : Db → List ρ} {id : Nat} : Reads (getRow table id) := by
  refine .bind (.lookup _ _) fun row => ?_
  cases row with
  | none => exact .throw _
  | some row => exact .pure _

theorem reads_findCoverage {coverageId : Option Nat} : Reads (Engine.findCoverage coverageId) := by
  cases coverageId with
  | none => exact .pure _
  | some covId => exact .lookup _ _

theorem reads_resolveContributors : Reads (resolveContributors covId) := by
  refine .bind (.lookup _ _) fun cov => .bind (.select _) fun _ => .ite (.pure _)
    (.bind (.select _) fun _ => ?_)
  cases cov with
  | none => exact .throw _
  | some cov => exact .pure _

theorem reads_contributorsFor {coverageId : Option Nat} {cov : Option Coverage} :
    Reads (Engine.contributorsFor coverageId cov) := by
  unfold Engine.contributorsFor
  split
  · exact reads_resolveContributors
  · exact .pure _

theorem reads_requireCoverage : Reads (requireCoverage slug) := by
  refine .bind (.select _) fun found => ?_
  cases found with
  | none => exact .throw _
  | some covId => exact .pure _

theorem reads_getCoverage {action : Action} : Reads (getCoverage action covId) := by
  refine .bind (.lookup _ _) fun found => ?_
  cases found with
  | none => exact .throw _
  | some cov => exact .pure _

theorem reads_buildCtx {cov : Coverage} {action : Action} {runId : Option Nat} {force : Bool} :
    Reads (buildCtx env cov action runId force notes) :=
  .bind (.select _) fun _ => .bind (.select _) fun _ => .pure _

theorem reads_handledRun {extra : JsonObject} : Reads (handledRun r extra) :=
  .bind reads_getRow fun _ => .pure _

theorem upholds_getRow {ρ : Type} (table : Db → List ρ) (id : Nat) :
    Upholds J (getRow table id) := .of_reads reads_getRow

/-! ## Parts of requests -/

theorem upholds_answerGate {gateId : Nat} {answer actorId : String}
    (hwrite : ∀ db, J db → J (db.updateGate gateId fun gate =>
      gate.answeredWith answer actorId notes env.now key)) :
    Upholds J (answerGate env gateId answer actorId notes key) :=
  .bind (upholds_getRow _ _) fun _ => .ite (.pure _)
    (.bind (.assign hwrite) fun _ => .bind .flush fun _ => upholds_getRow _ _)

/-! ## Writes beside the lifecycle -/

/-- The invariant survives what is written of the work on the stages, and the logs. -/
structure Overlooks (J : Db → Prop) : Prop where
  stage : ∀ (db : Db) (id : Nat) (f : RunStage → RunStage),
    (∀ row, (f row).runId = row.runId ∧ (f row).role = row.role ∧ (f row).house = row.house) →
      J db → J (db.updateStage id f)
  cost : ∀ (db : Db) (r : Nat) (cost : ℚ), J db →
    J (db.updateRun r fun run => { run with costUsd := cost })
  attempts : ∀ (db : Db) (rows : List StageAttempt), J db → J { db with attempts := rows }
  locks : ∀ (db : Db) (rows : List CoverageRunLock), J db → J { db with locks := rows }
  levels : ∀ (db : Db) (rows : List CoverageLevel), J db → J { db with levels := rows }
  events : ∀ (db : Db) (rows : List Event), J db → J { db with events := rows }
  newsArticles : ∀ (db : Db) (rows : List NewsArticle), J db → J { db with newsArticles := rows }
  auditLog : ∀ (db : Db) (rows : List AuditLog), J db → J { db with auditLog := rows }
  idempotencyKeys : ∀ (db : Db) (rows : List IdempotencyKey), J db →
    J { db with idempotencyKeys := rows }
  schedulerJobLogs : ∀ (db : Db) (rows : List SchedulerJobLog), J db →
    J { db with schedulerJobLogs := rows }

namespace Overlooks

variable (h : Overlooks J)
include h

theorem closeAttempt {stageId : Nat} {attempt : AttemptIn} {status : AttemptStatus}
    {result : Option JsonObject} {errors : Option Json} {killReason : Option String} :
    Upholds J (AiFund.closeAttempt env stageId attempt status result errors killReason) := by
  refine .bind (.select _) fun id => .bind (.assign fun db hdb => ?_) fun _ =>
    .assign fun db hdb => h.stage db _ _ (fun _ => ⟨rfl, rfl, rfl⟩) hdb
  cases id with
  | none => exact hdb
  | some id => exact h.attempts db _ hdb

theorem rollupRun : Upholds J (AiFund.rollupRun r) :=
  .bind (.select _) fun _ => .bind (upholds_getRow _ _) fun _ => .assign fun db hdb =>
    h.cost db _ _ hdb

theorem reapStage {backoff : BackoffPolicy} {stageId : Nat} :
    Upholds J (AiFund.reapStage env backoff stageId) := by
  refine .bind (.select _) fun id => .bind (.assign fun db hdb => ?_) fun _ =>
    .assign fun db hdb => h.stage db _ _ (fun row => ?_) hdb
  · cases id with
    | none => exact hdb
    | some id => exact h.attempts db _ hdb
  · unfold RunStage.reaped
    split <;> exact ⟨rfl, rfl, rfl⟩

theorem queueCall (call : QueueCall) : Upholds J (call.perform env) := by
  have hstage (stageId : Nat) (f : RunStage → RunStage)
      (hf : ∀ row, (f row).runId = row.runId ∧ (f row).role = row.role ∧ (f row).house = row.house) :
      Upholds J (assign fun db => db.updateStage stageId f : DbTxn Unit) :=
    .assign fun db hdb => h.stage db stageId f hf hdb
  cases call with
  | claim =>
      refine .bind (.bind (.select _) fun candidate => ?_) fun _ => .pure _
      cases candidate with
      | none => exact .pure _
      | some stageId =>
          exact .bind (upholds_getRow _ _) fun _ =>
            .bind (hstage _ _ fun _ => ⟨rfl, rfl, rfl⟩) fun _ =>
              .bind (.assign fun db hdb => h.attempts db _ hdb) fun _ => .bind .flush fun _ => .pure _
  | heartbeat =>
      refine .bind (.bind (.lookup _ _) fun found => ?_) fun _ => .pure _
      cases found with
      | none => exact .pure _
      | some stage =>
          exact .ite (.pure _) (.bind (hstage _ _ fun _ => ⟨rfl, rfl, rfl⟩) fun _ =>
            .bind .flush fun _ => .pure _)
  | complete =>
      exact .bind (upholds_getRow _ _) fun _ => .bind h.closeAttempt fun _ =>
        .bind (upholds_ofExcept _ _) fun _ => .bind (hstage _ _ fun _ => ⟨rfl, rfl, rfl⟩) fun _ =>
          .bind h.rollupRun fun _ => .flush
  | fail =>
      exact .bind (upholds_getRow _ _) fun _ => .bind h.closeAttempt fun _ =>
        .bind (.ite (.bind (upholds_ofExcept _ _) fun _ => hstage _ _ fun _ => ⟨rfl, rfl, rfl⟩)
          (hstage _ _ fun _ => ⟨rfl, rfl, rfl⟩)) fun _ => .bind h.rollupRun fun _ => .flush
  | reap =>
      exact .bind (.bind (.select _) fun _ => .bind (.forM fun _ => h.reapStage) fun _ =>
        .bind .flush fun _ => .pure _) fun _ => .pure _

theorem setLevels {levels : List LevelIn} {setBy : String} {runId : Option Nat} :
    Upholds J (AiFund.setLevels env covId levels setBy runId) := by
  refine .forM fun level => .bind (.select _) fun _ => .bind (.forM fun _ => ?_) fun _ => ?_
  · exact .assign fun db hdb => h.levels db _ hdb
  · exact .assign fun db hdb => h.levels db _ hdb

theorem writeAudit {action actorId requestId : String} {target : Option String} {after : Json} :
    Upholds J (AiFund.writeAudit action actorId target after requestId) :=
  .bind (.assign fun db hdb => h.auditLog db _ hdb) fun _ => .flush

theorem store {idem : Idempotency} {response : JsonObject} {statusCode : Nat}
    {route actorId : String} : Upholds J (idem.store env response statusCode route actorId) :=
  .bind (.assign fun db hdb => h.idempotencyKeys db _ hdb) fun _ => .flush

theorem logJob {jobName status : String} {runsCreated : Nat} {detail : Option String} :
    Upholds J (AiFund.logJob env jobName status runsCreated detail) :=
  .bind (.assign fun db hdb => h.schedulerJobLogs db _ hdb) fun _ => .flush

theorem retention {leader : Bool} : Upholds J (AiFund.retention env fund leader) :=
  .ite (.pure _) (.bind (upholds_ofExcept _ _) fun _ => .bind (.select _) fun _ =>
    .bind (.execute fun db hdb => h.idempotencyKeys db _ hdb) fun _ =>
      .bind (upholds_ofExcept _ _) fun _ => .bind (.select _) fun _ =>
        .bind (.execute fun db hdb => h.newsArticles db _ hdb) fun _ =>
          .bind h.logJob fun _ => .pure _)

/-- What a mutating route does after its handler. -/
theorem responds {idem : Idempotency} {after : Json} {body : JsonObject} {statusCode : Nat}
    {route requestId : String} {target : Option String} :
    Upholds J (do
      AiFund.writeAudit route pm target after requestId
      idem.store env body statusCode route pm
      return body : DbTxn JsonObject) :=
  .bind h.writeAudit fun _ => .bind h.store fun _ => .pure _

theorem mutation {route : String} {statusCode : Nat} {handler : String → String → DbTxn Handled}
    (hhandler : ∀ pm key, Upholds J (handler pm key)) :
    Upholds J (AiFund.mutation env app request route statusCode handler) := by
  refine .bind (upholds_ofExcept _ _) fun pm => .bind ?_ fun idem => ?_
  · refine .ite (.throw _) (.bind (.select _) fun found => ?_)
    cases found with
    | none => exact .pure _
    | some row => exact .ite (.throw _) (.pure _)
  · split
    · exact .pure _
    · exact .bind (hhandler pm _) fun _ => h.responds

end Overlooks

/-! ## The engine -/

theorem upholds_drain (h : Overlooks J) (runId : Nat) : Upholds J (runner.drain runId) :=
  .forM fun call => h.queueCall call.2

theorem upholds_registerFromStage {stageId : Nat} {entries : List PredictionIn}
    (hpredictions : ∀ (db : Db) (rows : List Prediction), J db → J { db with predictions := rows }) :
    Upholds J (registerFromStage env stageId entries) := by
  refine .bind (upholds_getRow _ _) fun stage => .bind (upholds_getRow _ _) fun run =>
    .bind (.mapM fun entry => ?_) fun _ => .bind .flush fun _ => .pure _
  refine .bind (upholds_ofExcept _ _) fun row => .bind (.execute fun db hdb => ?_) fun _ => .select _
  unfold Db.insertPrediction
  split
  · exact hdb
  · exact hpredictions db _ hdb

theorem upholds_maybeAppendCrossCheck {run : Run} {stage : RunStage} {result : JsonObject}
    {lastTp : Option Decimal}
    (hcheck : ∀ (db : Db) (row : RunStage), row.role = .crossCheck → J db →
      J { db with stages := db.stages ++ [row] }) :
    Upholds J (Engine.maybeAppendCrossCheck env fund r run stage result lastTp) := by
  refine .bind (upholds_ofExcept _ _) fun _ => .ite (.pure _) (.bind (.select _) fun _ =>
    .ite (.pure _) ?_)
  split
  · exact .throw _
  · exact .bind (.of_reads reads_resolveContributors) fun _ => .bind (.select _) fun _ =>
      .bind (upholds_ofExcept _ _) fun _ => .assign fun db hdb => hcheck db _ rfl hdb

theorem upholds_digestStage {run : Run} {stageId : Nat}
    (hregister : ∀ env stageId entries, Upholds J (registerFromStage env stageId entries))
    (hcheck : ∀ (db : Db) (row : RunStage), row.role = .crossCheck → J db →
      J { db with stages := db.stages ++ [row] }) :
    Upholds J (Engine.digestStage env fund r run stageId) := by
  refine .bind (upholds_getRow _ _) fun stage => ?_
  split
  · refine .bind (.select _) fun _ => .bind ?_ fun _ =>
      .ite (upholds_maybeAppendCrossCheck hcheck) (.pure _)
    exact .bind (upholds_ofExcept _ _) fun _ => .ite (.pure _)
      (.bind (hregister _ _ _) fun _ => .pure _)
  · exact .pure _

theorem upholds_settleRun (hfail : ∀ env r error, Upholds J (Engine.failRun env r error))
    (hrequeue : ∀ r reason, Upholds J (requeueRun r reason))
    (hpause : ∀ r, Upholds J (Engine.pauseForBudget r))
    (hfinalize : ∀ env r, Upholds J (Engine.finalizeRun env r)) :
    Upholds J (Engine.settleRun env r) :=
  .bind (.select _) fun _ => .bind (.inspect _) fun _ => .bind (upholds_getRow _ _) fun _ =>
    .ite (hfail _ _ _) (.ite (hrequeue _ _) (.ite (hpause _) (.ite (.pure _) (hfinalize _ _))))

theorem upholds_advanceRun (h : Overlooks J)
    (hdigest : ∀ r run stageId, Upholds J (Engine.digestStage env fund r run stageId))
    (hsettle : ∀ r, Upholds J (Engine.settleRun env r)) (r : Nat) :
    Upholds J (Engine.advanceRun env fund runner r) :=
  .bind (upholds_getRow _ _) fun _ => .ite (.pure _) (.bind (upholds_drain h _) fun _ =>
    .bind (.select _) fun _ => .bind (.forM fun _ => hdigest _ _ _) fun _ => hsettle _)

theorem upholds_tick (hpromote : ∀ r, Upholds J (Engine.promoteRun env r))
    (hadvance : ∀ r, Upholds J (Engine.advanceRun env fund runner r)) :
    Upholds J (Engine.tick env fund runner) :=
  .bind (.select _) fun _ => .bind (.forM fun r => .bind (hpromote r) fun _ => .pure _) fun _ =>
    .bind (.select _) fun _ => .forM hadvance

/-! ## Requests -/

/-- The requests that create a run. -/
def ApiCall.creates : ApiCall → Bool
  | .initiate .. | .newRun .. | .retryRun .. | .newQuery .. => true
  | _ => false

/-- What a request asks of the repository, if it neither creates a run nor concerns a gate. -/
structure HandlerParts (J : Db → Prop) : Prop extends Overlooks J where
  propose : ∀ (env : Env) (ticker exchange name currency actorId : String)
    (notes isin requestId : Option String),
    Upholds J (AiFund.propose env ticker exchange name currency actorId notes isin requestId)
  shift : ∀ (env : Env) (covId : Nat) (action : Action) (pm : String) (force : Bool)
    (notes : Option String), action ∈ [.promote, .demote, .exit, .rePropose] →
    Upholds J (transitionCoverage env covId action .pm pm none force notes none)
  setLead : ∀ (env : Env) (covId : Nat) (house actorId : String) (runId : Option Nat)
    (rationale : Option String), Upholds J (AiFund.setLead env covId house actorId runId rationale)
  cancel : ∀ (env : Env) (r : Nat) (notes : Option String),
    Upholds J (finishRun env r .cancelled none notes)

theorem HandlerParts.handler (h : HandlerParts J) (call : ApiCall)
    (hcreates : call.creates = true → Upholds J ((call.route env app).2.2 pm key))
    (hdecide : ∀ slug decision notes, call = .decide slug decision notes →
      Upholds J (handleDecide env slug decision notes pm))
    (hanswer : ∀ gateId answer notes, call = .answerGate gateId answer notes →
      Upholds J (answerGate env gateId answer pm notes key)) :
    Upholds J ((call.route env app).2.2 pm key) := by
  have htransition (slug : String) (action : Action) (force : Bool) (notes : Option String)
      (haction : action ∈ [.promote, .demote, .exit, .rePropose]) :
      Upholds J (handleTransition env slug action force notes pm) :=
    .bind (.of_reads reads_requireCoverage) fun _ =>
      .bind (.adaptExcept (h.shift _ _ _ _ _ _ haction)) fun _ =>
        .bind (upholds_getRow _ _) fun _ => .pure _
  cases call with
  | propose ticker exchange name currency isin notes =>
      exact .bind (h.propose ..) fun _ => .bind (upholds_getRow _ _) fun _ => .pure _
  | initiate => exact hcreates rfl
  | decide slug decision notes => exact hdecide slug decision notes rfl
  | promote slug notes => exact htransition _ _ _ _ (by simp)
  | demote slug notes => exact htransition _ _ _ _ (by simp)
  | exit slug force notes => exact htransition _ _ _ _ (by simp)
  | rePropose slug notes => exact htransition _ _ _ _ (by simp)
  | setLead slug house rationale =>
      exact .bind (.of_reads reads_requireCoverage) fun _ =>
        .bind (.adaptExcept (h.setLead ..)) fun _ => .pure _
  | setLevels slug levels =>
      exact .bind (.of_reads reads_requireCoverage) fun _ => .bind (upholds_ofExcept _ _) fun _ =>
        .bind h.setLevels fun _ => .pure _
  | newRun => exact hcreates rfl
  | cancelRun runId notes => exact .bind (h.cancel ..) fun _ => .pure _
  | answerGate gateId answer notes =>
      exact .bind (hanswer gateId answer notes rfl) fun _ => .pure _
  | retryRun => exact hcreates rfl
  | rateEvent eventId rating =>
      refine .bind (.lookup _ _) fun found => ?_
      cases found with
      | none => exact .throw _
      | some event => exact .bind (.assign fun db hdb => h.events db _ hdb) fun _ => .pure _
  | newQuery => exact hcreates rfl

theorem upholds_creates (call : ApiCall) (hcall : call.creates = true)
    (hcreate : ∀ runType coverageId params,
      Upholds J (createRunFor env app runType coverageId params pm)) :
    Upholds J ((call.route env app).2.2 pm key) := by
  cases call with
  | initiate slug lead verifyCount =>
      exact .bind (.of_reads reads_requireCoverage) fun _ => .bind (hcreate ..) fun _ =>
        .of_reads reads_handledRun
  | newRun type coverage params =>
      refine .bind ?_ fun _ => .bind (hcreate ..) fun _ => .of_reads reads_handledRun
      cases coverage with
      | none => exact .pure _
      | some slug => exact .ite (.pure _) (.bind (.of_reads reads_requireCoverage) fun _ => .pure _)
  | retryRun runId =>
      refine .bind (.lookup _ _) fun found => ?_
      cases found with
      | none => exact .throw _
      | some old => exact .ite (.throw _) (.bind (hcreate ..) fun _ => .of_reads reads_handledRun)
  | newQuery coverage question =>
      exact .bind (.of_reads reads_requireCoverage) fun _ => .bind (hcreate ..) fun _ =>
        .of_reads reads_handledRun
  | _ => cases hcall

/-! ## Jobs -/

section Jobs

variable (hcreate : ∀ runType coverageId params triggerRef,
  Upholds J (Engine.createRun env fund [] runType coverageId "scheduler" params none triggerRef))
include hcreate

theorem upholds_createOnce {type : RunType} {params : JsonObject} {triggerRef : String}
    (covId : Nat) : Upholds J (createOnce env fund type params triggerRef covId) :=
  .bind (.select _) fun _ => .ite (.pure _) (.bind (hcreate ..) fun _ => .pure _)

omit hcreate in
theorem upholds_countM {f : Nat → DbTxn Bool} (hf : ∀ key, Upholds J (f key)) (keys : List Nat) :
    Upholds J (countM f keys) := by
  induction keys with
  | nil => exact .pure _
  | cons key keys ih => exact .bind (hf key) fun _ => .bind ih fun _ => .pure _

variable (h : Overlooks J) {leader : Bool}
include h

theorem upholds_sessionTick {exchange tradingDate sessionName : String} :
    Upholds J (sessionTick env fund leader exchange tradingDate sessionName) :=
  .ite (.pure _) (.bind h.logJob fun _ => .bind (.select _) fun keys =>
    .bind (upholds_countM (upholds_createOnce hcreate) keys) fun _ => .bind h.logJob fun _ => .pure _)

theorem upholds_watchTick {tradingDate : String} :
    Upholds J (watchTick env fund leader tradingDate) :=
  .ite (.pure _) (.bind (.select _) fun keys =>
    .bind (upholds_countM (upholds_createOnce hcreate) keys) fun _ => .bind h.logJob fun _ => .pure _)

theorem upholds_job (job : Job) : Upholds J (job.perform env fund leader) := by
  cases job with
  | quarterlySweep =>
      refine .ite (.pure _) (.bind (upholds_ofExcept _ _) fun _ => .bind (.select _) fun keys =>
        .bind (upholds_countM (fun covId => ?_) keys) fun _ => .bind h.logJob fun _ => .pure _)
      exact .bind (.select _) fun _ => .ite (.pure _)
        (.bind (upholds_getRow _ _) fun _ => upholds_createOnce hcreate covId)
  | retention => exact h.retention
  | _ => exact .throw _

theorem runJob_keeps {job : Job} {db : Db} (hdb : J db) :
    J (runJob env fund leader job db).after := by
  have hlog (status : String) (detail : Option String) : Upholds J
      (do logJob env job.name status 0 detail; return 0 : DbTxn Nat) :=
    .bind h.logJob fun _ => .pure _
  unfold runJob
  dsimp only
  split
  · exact (upholds_job hcreate h job).commit hdb
  · exact (hlog _ _).commit hdb
  · exact (hlog _ _).commit hdb

end Jobs

/-! ## Writes of the lifecycle -/

theorem upholds_createRun {metaHouses : List String} {runType trigger : String}
    {coverageId : Option Nat} {params : JsonObject} {requestedBy triggerRef : Option String}
    (hrun : ∀ (db : Db) (run : Run), J db → J { db with runs := db.runs ++ [run] })
    (hstages : ∀ (db : Db) (rows : List RunStage), J db →
      J { db with stages := db.stages ++ rows }) :
    Upholds J (Engine.createRun env fund metaHouses runType coverageId trigger params requestedBy
      triggerRef) := by
  refine .bind (upholds_ofExcept _ _) fun policy => .bind (.of_reads reads_findCoverage) fun cov =>
    .bind (.of_reads reads_contributorsFor) fun contributors => ?_
  split
  · exact .throw _
  · refine .bind (upholds_ofExcept _ _) fun stages => .bind ?_ fun runId => .bind ?_ fun _ => .pure _
    · exact .bind (upholds_ofExcept _ _) fun _ => .bind (.inspect _) fun _ =>
        .bind (.assign fun db hdb => hrun db _ hdb) fun _ => .bind .flush fun _ => .pure _
    · exact .bind (upholds_ofExcept _ _) fun _ =>
        .bind (.assign fun db hdb => hstages db _ hdb) fun _ => .flush

/-- The invariant looks neither at the course of the runs nor at what is told of it. -/
structure OverlooksCourse (J : Db → Prop) : Prop extends Overlooks J where
  run : ∀ (db : Db) (r : Nat) (f : Run → Run),
    (∀ run, (f run).coverageId = run.coverageId ∧ (f run).type = run.type ∧
      (f run).params = run.params ∧ (f run).budgetCapUsd = run.budgetCapUsd) →
    J db → J (db.updateRun r f)
  gate : ∀ (db : Db) (gate : PmGate), gate.state = .opened → J db →
    J { db with gates := db.gates ++ [gate] }
  outbox : ∀ (db : Db) (event : OutboxEvent),
    (∃ kind subject, event.dedupeKey = .fresh kind subject db.outbox.length) → J db →
      J { db with outbox := db.outbox ++ [event] }
  transition : ∀ (env : Env) (covId : Nat) (action : Action) (actorType : ActorType)
    (actorId : String) (runId : Option Nat) (force : Bool) (notes requestId : Option String),
    action ∉ decideActions → Upholds J
      (transitionCoverage env covId action actorType actorId runId force notes requestId)

namespace OverlooksCourse

variable (h : OverlooksCourse J)
include h

theorem finishRun {status : RunStatus} {summary error : Option String} :
    Upholds J (AiFund.finishRun env r status summary error) := by
  refine .bind (upholds_getRow _ _) fun run => .bind (upholds_ofExcept _ _) fun action =>
    .bind (upholds_ofExcept _ _) fun sm =>
      .bind (.assign fun db hdb => h.run db _ _ (fun _ => ⟨rfl, rfl, rfl, rfl⟩) hdb) fun _ =>
        .bind (.forM fun effect => ?_) fun _ => .flush
  cases effect with
  | releaseLock =>
      unfold applyFinishEffect
      exact .execute fun db hdb => h.locks db _ hdb
  | outboxRunFinished =>
      unfold applyFinishEffect addOutbox
      exact .assign fun db hdb => h.outbox db _ ⟨_, _, rfl⟩ hdb
  | _ => exact .pure _

theorem startRun : Upholds J (AiFund.startRun env r) := by
  have hmark : Upholds J (markRunning env r) :=
    .bind (.assign fun db hdb => h.run db _ _ (fun _ => ⟨rfl, rfl, rfl, rfl⟩) hdb) fun _ =>
      .bind .flush fun _ => .pure _
  refine .bind (upholds_getRow _ _) fun run => ?_
  split
  · exact hmark
  · refine .bind (.execute fun db hdb => ?_) fun _ => .bind (.select _) fun owner =>
      .ite (.bind .flush fun _ => .pure _) hmark
    unfold Db.insertLock
    split
    · exact hdb
    · exact h.locks db _ hdb

theorem promoteRun : Upholds J (Engine.promoteRun env r) := by
  refine .bind (upholds_getRow _ _) fun run => .ite (.pure _) ?_
  refine .bind h.startRun fun started => .ite (.pure _) (.bind ?_ fun _ => .pure _)
  refine .bind (.of_reads reads_findCoverage) fun cov => ?_
  split
  · exact .ite (h.transition _ _ _ _ _ _ _ _ _ (by decide)) (.pure _)
  · exact .pure _

theorem setStatus {x : Except IllegalStateChange RunTransition} :
    Upholds J (do
      let sm ← ofExcept .illegalStateChange x
      assign fun db => db.updateRun r fun run => { run with status := sm.toState }
      flush : DbTxn Unit) :=
  .bind (upholds_ofExcept _ _) fun _ =>
    .bind (.assign fun db hdb => h.run db _ _ (fun _ => ⟨rfl, rfl, rfl, rfl⟩) hdb) fun _ => .flush

theorem requeueRun {reason : String} : Upholds J (AiFund.requeueRun r reason) :=
  .bind (upholds_getRow _ _) fun _ => .bind (upholds_ofExcept _ _) fun _ =>
    .bind (.assign fun db hdb => h.run db _ _ (fun _ => ⟨rfl, rfl, rfl, rfl⟩) hdb) fun _ => .flush

theorem pauseForBudget : Upholds J (Engine.pauseForBudget r) :=
  .bind (upholds_getRow _ _) fun _ =>
    .bind (.bind (upholds_getRow _ _) fun _ =>
      .bind (.assign fun db hdb => h.gate db _ rfl hdb) fun _ => .flush) fun _ => h.setStatus

theorem failRun {error : String} : Upholds J (Engine.failRun env r error) := by
  refine .bind (upholds_getRow _ _) fun run =>
    .bind (.bind (.of_reads reads_findCoverage) fun cov => ?_) fun _ => h.finishRun
  split
  · exact .ite (h.transition _ _ _ _ _ _ _ _ _ (by decide)) (.pure _)
  · exact .pure _

theorem finalizeRun : Upholds J (Engine.finalizeRun env r) := by
  refine .bind (upholds_getRow _ _) fun run => .bind (.of_reads reads_findCoverage) fun cov => ?_
  split
  · exact .bind (h.transition _ _ _ _ _ _ _ _ _ (by decide)) fun _ => h.setStatus
  · exact h.finishRun

theorem settleRun : Upholds J (Engine.settleRun env r) :=
  upholds_settleRun (fun _ _ _ => h.failRun) (fun _ _ => h.requeueRun) (fun _ => h.pauseForBudget)
    fun _ _ => h.finalizeRun

theorem handleDecide {decision : String}
    (hdecision : ∀ covId action runId, action ∈ decideActions →
      Upholds J (transitionCoverage env covId action .pm pm runId false notes none)) :
    Upholds J (AiFund.handleDecide env slug decision notes pm) := by
  refine .bind (.of_reads reads_requireCoverage) fun covId => ?_
  split
  · exact .throw _
  · rename_i action haction
    refine .bind (.select _) fun runId => .bind (.adaptExcept (hdecision _ _ _ ?_)) fun _ =>
      .bind ?_ fun _ => .bind (upholds_getRow _ _) fun _ => .pure _
    · unfold decisionAction at haction
      split at haction <;> cases haction <;> decide
    · cases runId with
      | none => exact .pure _
      | some r => exact h.finishRun

end OverlooksCourse

/-- The invariant looks neither at the runs nor at what comes of their stages. -/
structure OverlooksRuns (J : Db → Prop) : Prop extends OverlooksCourse J where
  predictions : ∀ (db : Db) (rows : List Prediction), J db → J { db with predictions := rows }
  crossCheck : ∀ (db : Db) (row : RunStage), row.role = .crossCheck → J db →
    J { db with stages := db.stages ++ [row] }
  decision : ∀ (env : Env) (covId : Nat) (action : Action) (actorType : ActorType)
    (actorId : String) (runId : Option Nat) (force : Bool) (notes requestId : Option String),
    action ∈ decideActions → Upholds J
      (transitionCoverage env covId action actorType actorId runId force notes requestId)

namespace OverlooksRuns

variable (h : OverlooksRuns J)
include h

theorem digestStage {run : Run} {stageId : Nat} :
    Upholds J (Engine.digestStage env fund r run stageId) :=
  upholds_digestStage (fun _ _ _ => upholds_registerFromStage h.predictions) h.crossCheck

theorem decides {decision : String} :
    Upholds J (AiFund.handleDecide env slug decision notes pm) :=
  h.handleDecide fun _ _ _ => h.decision _ _ _ _ _ _ _ _ _

end OverlooksRuns

/-! ## Operations -/

/-- The operation works on the stages of runs. -/
def Op.digests : Op → Bool
  | .advanceRun .. | .tick .. => true
  | _ => false

/-- What the operations beside the requests are made of. -/
structure EngineParts (J : Db → Prop) (fund : FundConfig) : Prop extends Overlooks J where
  createRun : ∀ (env : Env) (metaHouses : List String) (runType : String) (coverageId : Option Nat)
    (trigger : String) (params : JsonObject) (requestedBy triggerRef : Option String),
    Upholds J (Engine.createRun env fund metaHouses runType coverageId trigger params requestedBy
      triggerRef)
  promoteRun : ∀ (env : Env) (r : Nat), Upholds J (Engine.promoteRun env r)
  settleRun : ∀ (env : Env) (r : Nat), Upholds J (Engine.settleRun env r)

theorem EngineParts.step (h : EngineParts J app.fund) {db : Db} (hdb : J db) (op : Op)
    (hdigest : op.digests = true → ∀ env r run stageId,
      Upholds J (Engine.digestStage env app.fund r run stageId))
    (hrequest : ∀ env request call pm key, op = .api env request call →
      Upholds J ((call.route env app).2.2 pm key)) : J (step app db op) := by
  cases op with
  | api env request call =>
      exact (h.mutation fun pm key => hrequest env request call pm key rfl).commit hdb
  | createRun => exact (h.createRun ..).commit hdb
  | promoteRun => exact (h.promoteRun ..).commit hdb
  | advanceRun env runner r =>
      exact (upholds_advanceRun h.toOverlooks (hdigest rfl env) (h.settleRun env) r).commit hdb
  | tick env runner =>
      exact (upholds_tick (h.promoteRun env) fun r =>
        upholds_advanceRun h.toOverlooks (hdigest rfl env) (h.settleRun env) r).commit hdb
  | queue env call => exact (h.queueCall call).commit hdb
  | sessionTick =>
      exact (upholds_sessionTick (fun _ _ _ _ => h.createRun ..) h.toOverlooks).commit hdb
  | watchTick => exact (upholds_watchTick (fun _ _ _ _ => h.createRun ..) h.toOverlooks).commit hdb
  | job => exact runJob_keeps (fun _ _ _ _ => h.createRun ..) h.toOverlooks hdb

/-- What creates runs and moves coverages beside the course of a run. -/
structure Origins (J : Db → Prop) (fund : FundConfig) : Prop where
  createRun : ∀ (env : Env) (metaHouses : List String) (runType : String) (coverageId : Option Nat)
    (trigger : String) (params : JsonObject) (requestedBy triggerRef : Option String),
    Upholds J (Engine.createRun env fund metaHouses runType coverageId trigger params requestedBy
      triggerRef)
  propose : ∀ (env : Env) (ticker exchange name currency actorId : String)
    (notes isin requestId : Option String),
    Upholds J (AiFund.propose env ticker exchange name currency actorId notes isin requestId)
  setLead : ∀ (env : Env) (covId : Nat) (house actorId : String) (runId : Option Nat)
    (rationale : Option String), Upholds J (AiFund.setLead env covId house actorId runId rationale)

theorem OverlooksCourse.handlerParts (h : OverlooksCourse J)
    (hpropose : ∀ (env : Env) (ticker exchange name currency actorId : String)
      (notes isin requestId : Option String),
      Upholds J (AiFund.propose env ticker exchange name currency actorId notes isin requestId))
    (hsetLead : ∀ (env : Env) (covId : Nat) (house actorId : String) (runId : Option Nat)
      (rationale : Option String), Upholds J (AiFund.setLead env covId house actorId runId rationale)) :
    HandlerParts J where
  toOverlooks := h.toOverlooks
  propose := hpropose
  setLead := hsetLead
  shift _ _ action _ _ _ haction := h.transition _ _ _ _ _ _ _ _ _ (by
    rintro hdecides
    simp only [decideActions, List.mem_cons, List.not_mem_nil, or_false] at haction hdecides
    rcases haction with rfl | rfl | rfl | rfl <;> simp at hdecides)
  cancel _ _ _ := h.finishRun

/-- An operation keeps an invariant that looks at the runs only where they are created and where
their stages are digested, and at the gates only where one is answered. -/
theorem OverlooksCourse.step (h : OverlooksCourse J) (horigins : Origins J app.fund) {db : Db}
    (hdb : J db) (op : Op)
    (hdigest : op.digests = true → ∀ env r run stageId,
      Upholds J (Engine.digestStage env app.fund r run stageId))
    (hdecide : ∀ env request slug decision notes,
      op = .api env request (.decide slug decision notes) → ∀ pm,
        Upholds J (AiFund.handleDecide env slug decision notes pm))
    (hanswer : ∀ env request gateId answer notes,
      op = .api env request (.answerGate gateId answer notes) → ∀ pm key,
        Upholds J (answerGate env gateId answer pm notes key)) : J (step app db op) := by
  have hengine : EngineParts J app.fund :=
    ⟨h.toOverlooks, horigins.createRun, fun _ _ => h.promoteRun, fun _ _ => h.settleRun⟩
  refine hengine.step hdb op hdigest fun env request call pm key hcall => ?_
  refine (h.handlerParts horigins.propose horigins.setLead).handler call
    (fun hcreates => upholds_creates call hcreates fun _ _ _ => horigins.createRun ..)
    (fun slug decision notes heq => ?_) fun gateId answer notes heq => ?_
  · rw [heq] at hcall
    exact hdecide env request slug decision notes hcall pm
  · rw [heq] at hcall
    exact hanswer env request gateId answer notes hcall pm key

theorem OverlooksRuns.step (h : OverlooksRuns J) (horigins : Origins J app.fund) {db : Db}
    (hdb : J db) (op : Op)
    (hanswer : ∀ env request gateId answer notes,
      op = .api env request (.answerGate gateId answer notes) → ∀ pm key,
        Upholds J (answerGate env gateId answer pm notes key)) : J (step app db op) :=
  h.toOverlooksCourse.step horigins hdb op (fun _ _ _ _ _ => h.digestStage)
    (fun _ _ _ _ _ _ _ => h.decides) hanswer

/-! ## Writes of the coverage repository -/

/-- The side effects of a transition, for an invariant that does not look at the gates. -/
theorem upholds_sideEffect {action : Action} {actorId requestId : String} {runId : Option Nat}
    (hlead : ∀ (db : Db) (house : Option String), J db →
      J (db.updateCoverage covId fun cov => { cov with leadHouse := house }))
    (hgates : ∀ (db : Db) (rows : List PmGate), J db → J { db with gates := rows })
    (houtbox : ∀ (db : Db) (event : OutboxEvent),
      (∃ kind subject, event.dedupeKey = .fresh kind subject db.outbox.length) → J db →
        J { db with outbox := db.outbox ++ [event] }) (effect : SideEffect) :
    Upholds J (applySideEffect env covId action actorId runId requestId effect) := by
  cases effect with
  | outbox kind => exact .ite (.pure _) (.assign fun db hdb => houtbox db _ ⟨_, _, rfl⟩ hdb)
  | cancelOpenGate =>
      unfold applySideEffect
      exact .execute fun db hdb => hgates db _ hdb
  | openGateInitiationDecision =>
      exact .bind (upholds_ofExcept _ _) fun _ => .assign fun db hdb => hgates db _ hdb
  | answerGate =>
      refine .bind (.select _) fun found => ?_
      cases found with
      | none => exact .pure _
      | some gateId =>
          exact .bind (upholds_ofExcept _ _) fun _ => .assign fun db hdb => hgates db _ hdb
  | setLeadHouse =>
      refine .bind (.inspect _) fun found => ?_
      cases found with
      | none => exact .pure _
      | some run =>
          exact .bind (upholds_ofExcept _ _) fun _ => .assign fun db hdb => hlead db _ hdb
  | _ => exact .pure _

/-- The invariant looks at a coverage transition through its side effects only. -/
structure OverlooksCoverages (J : Db → Prop) : Prop extends Overlooks J where
  coverages : ∀ (db : Db) (rows : List Coverage), J db → J { db with coverages := rows }
  transitions : ∀ (db : Db) (rows : List CoverageTransition), J db →
    J { db with transitions := rows }
  leadHistory : ∀ (db : Db) (rows : List CoverageLeadHistory), J db →
    J { db with leadHistory := rows }
  outbox : ∀ (db : Db) (event : OutboxEvent),
    (∃ kind subject, event.dedupeKey = .fresh kind subject db.outbox.length) → J db →
      J { db with outbox := db.outbox ++ [event] }
  effect : ∀ (env : Env) (covId : Nat) (action : Action) (actorId : String) (runId : Option Nat)
    (requestId : String) (effect : SideEffect),
    Upholds J (applySideEffect env covId action actorId runId requestId effect)

namespace OverlooksCoverages

variable (h : OverlooksCoverages J) {action : Action} {actorType : ActorType} {actorId : String}
  {runId : Option Nat} {requestId : Option String}
include h

theorem record {fromState : Option CoverageState} {sm : Transition} :
    Upholds J (AiFund.record env covId fromState sm action actorType actorId runId notes requestId) :=
  .bind (.inspect _) fun _ => .bind (.assign fun db hdb => h.transitions db _ hdb) fun _ =>
    .bind (.assign fun db hdb => h.auditLog db _ hdb) fun _ =>
      .bind (.assign fun db hdb => h.outbox db _ ⟨_, _, rfl⟩ hdb) fun _ =>
        .bind (.forM fun _ => h.effect ..) fun _ => .flush

theorem transitionCoverage {force : Bool} :
    Upholds J (AiFund.transitionCoverage env covId action actorType actorId runId force notes
      requestId) :=
  .bind (.of_reads reads_getCoverage) fun _ => .bind (.of_reads reads_buildCtx) fun _ =>
    .bind (upholds_ofExcept _ _) fun _ =>
      .bind (.assign fun db hdb => h.coverages db _ hdb) fun _ => h.record

theorem propose {ticker exchange name currency : String} {isin : Option String} :
    Upholds J (AiFund.propose env ticker exchange name currency actorId notes isin requestId) :=
  .bind (.inspect _) fun _ => .bind (.assign fun db hdb => h.coverages db _ hdb) fun _ =>
    .bind .flush fun _ => .bind (upholds_ofExcept _ _) fun _ => .bind h.record fun _ => .pure _

theorem setLead {house : String} {rationale : Option String} :
    Upholds J (AiFund.setLead env covId house actorId runId rationale) :=
  .bind (.of_reads reads_getCoverage) fun _ => .bind (.select _) fun _ =>
    .bind (upholds_ofExcept _ _) fun _ => .bind (.assign fun db hdb => h.coverages db _ hdb) fun _ =>
      .bind h.record fun _ => .assign fun db hdb => h.leadHistory db _ hdb

theorem origins (hcreate : ∀ (env : Env) (metaHouses : List String) (runType : String)
    (coverageId : Option Nat) (trigger : String) (params : JsonObject)
    (requestedBy triggerRef : Option String),
    Upholds J (Engine.createRun env fund metaHouses runType coverageId trigger params requestedBy
      triggerRef)) : Origins J fund where
  createRun := hcreate
  propose _ _ _ _ _ _ _ _ _ := h.propose
  setLead _ _ _ _ _ _ := h.setLead

end OverlooksCoverages

/-- The predictions, and the budgets that the runs were created with. -/
def Db.figures (db : Db) : List Prediction × List (Option ℚ) :=
  (db.predictions, db.runs.map (·.budgetCapUsd))

theorem Db.figures_updateRun {db : Db} {f : Run → Run}
    (hf : ∀ run, (f run).budgetCapUsd = run.budgetCapUsd) :
    (db.updateRun r f).figures = db.figures :=
  congrArg (db.predictions, ·) (map_modify_of_eq hf)

section Figures

variable (P : List Prediction × List (Option ℚ) → Prop)

theorem overlooksCoverages_figures : OverlooksCoverages fun db => P db.figures where
  stage _ _ _ _ h := h
  cost db r cost h := by
    rw [Db.figures_updateRun (f := fun run => { run with costUsd := cost }) fun _ => rfl]
    exact h
  attempts _ _ h := h
  locks _ _ h := h
  levels _ _ h := h
  events _ _ h := h
  newsArticles _ _ h := h
  auditLog _ _ h := h
  idempotencyKeys _ _ h := h
  schedulerJobLogs _ _ h := h
  coverages _ _ h := h
  transitions _ _ h := h
  leadHistory _ _ h := h
  outbox _ _ _ h := h
  effect _ _ _ _ _ _ := upholds_sideEffect (fun _ _ h => h) (fun _ _ h => h) fun _ _ _ h => h

/-- The course of the runs leaves the predictions and the budgets alone. -/
theorem overlooks_figures : OverlooksCourse fun db => P db.figures where
  toOverlooks := (overlooksCoverages_figures P).toOverlooks
  run db r f hf h := by
    rw [Db.figures_updateRun fun run => (hf run).2.2.2]
    exact h
  gate _ _ _ h := h
  outbox _ _ _ h := h
  transition _ _ _ _ _ _ _ _ _ _ := (overlooksCoverages_figures P).transitionCoverage

end Figures

end AiFund
