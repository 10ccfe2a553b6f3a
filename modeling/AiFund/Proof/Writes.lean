import AiFund.Library.Within
import AiFund.Proof.Driving
import AiFund.Proof.Program
import AiFund.Writes

/-!
# Every write is one of these

The program is gone through once, statement by statement: what it writes is allowed by the relations
between databases that the model lists. Whatever these keep is kept by the whole system.
-/

namespace AiFund

open UnitOfWork

variable {env : Env} {app : App} {fund : FundConfig} {r covId : Nat} {notes requestId : Option String}

theorem within_getRow {ρ : Type} {R : Db → Db → Prop} (table : Db → List ρ) (id : Nat) :
    Within R (getRow table id) :=
  .of_reads reads_getRow

theorem within_ofExcept {α ε : Type} {R : Db → Db → Prop} (wrap : ε → PyError) (x : Except ε α) :
    Within R (ofExcept wrap x) := by
  cases x with
  | ok a => exact .pure a
  | error error => exact .throw _

/-! ## Beside the stages -/

theorem within_addOutbox {kind : String} {coverageId runId : Option Nat} {subject : Nat}
    {payload : JsonObject} : Within Db.Told (addOutbox env kind coverageId runId subject payload) :=
  .assign fun _ => .addOutbox _

theorem within_addAudit {row : AuditLog} : Within Db.Told (addAudit row) :=
  .assign fun _ => .addAudit _

theorem within_applySideEffect {action : Action} {actorId requestId : String} {runId : Option Nat}
    (effect : SideEffect) :
    Within Db.Told (applySideEffect env covId action actorId runId requestId effect) := by
  cases effect with
  | outbox kind => exact .ite (.pure _) within_addOutbox
  | cancelOpenGate =>
      unfold applySideEffect
      refine .execute fun db => .gates _ fun gate => ?_
      split <;> rfl
  | openGateInitiationDecision =>
      exact .bind (within_ofExcept _ _) fun _ => .assign fun _ => .addGate _
  | answerGate =>
      refine .bind (.select _) fun found => ?_
      cases found with
      | none => exact .pure _
      | some gateId =>
          exact .bind (within_ofExcept _ _) fun _ => .assign fun _ => .gate _ _ fun _ => rfl
  | setLeadHouse =>
      refine .bind (.inspect _) fun found => ?_
      cases found with
      | none => exact .pure _
      | some run =>
          exact .bind (within_ofExcept _ _) fun _ => .assign fun _ => .coverage _ _ fun _ => rfl
  | _ => exact .pure _

theorem within_record {fromState : Option CoverageState} {sm : Transition} {action : Action}
    {actorType : ActorType} {actorId : String} {runId : Option Nat} :
    Within Db.Told
      (record env covId fromState sm action actorType actorId runId notes requestId) :=
  .bind (.inspect _) fun _ => .bind (.assign fun _ => .addTransition _) fun _ =>
    .bind within_addAudit fun _ => .bind within_addOutbox fun _ =>
      .bind (.forM within_applySideEffect) fun _ => .flush

theorem within_transitionCoverage {action : Action} {actorType : ActorType} {actorId : String}
    {runId : Option Nat} {force : Bool} : Within Db.Told
      (transitionCoverage env covId action actorType actorId runId force notes requestId) :=
  .bind (.of_reads reads_getCoverage) fun _ => .bind (.of_reads reads_buildCtx) fun _ =>
    .bind (within_ofExcept _ _) fun _ =>
      .bind (.assign fun _ => .coverage _ _ fun _ => rfl) fun _ => within_record

theorem within_propose {ticker exchange name currency actorId : String} {isin : Option String} :
    Within Db.Told (propose env ticker exchange name currency actorId notes isin requestId) :=
  .bind (.inspect _) fun _ => .bind (.assign fun _ => .addCoverage _) fun _ => .bind .flush fun _ =>
    .bind (within_ofExcept _ _) fun _ => .bind within_record fun _ => .pure _

theorem within_setLead {house actorId : String} {runId : Option Nat} {rationale : Option String} :
    Within Db.Told (setLead env covId house actorId runId rationale) :=
  .bind (.of_reads reads_getCoverage) fun _ => .bind (.select _) fun _ =>
    .bind (within_ofExcept _ _) fun _ => .bind (.assign fun _ => .coverage _ _ fun _ => rfl) fun _ =>
      .bind within_record fun _ => .assign fun _ => .addLead _

theorem within_setLevels {levels : List LevelIn} {setBy : String} {runId : Option Nat} :
    Within Db.Told (setLevels env covId levels setBy runId) :=
  .forM fun _ => .bind (.select _) fun _ =>
    .bind (.forM fun _ => .assign fun _ => .level _ _ fun _ => rfl) fun _ =>
      .assign fun _ => .addLevel _

theorem within_finishRun {status : RunStatus} {summary error : Option String} :
    Within Db.Told (finishRun env r status summary error) := by
  refine .bind (within_getRow _ _) fun run => .bind (within_ofExcept _ _) fun action =>
    .bind (within_ofExcept _ _) fun sm => .bind (.assign fun _ => .run _ _ fun _ => rfl) fun _ =>
      .bind (.forM fun effect => ?_) fun _ => .flush
  cases effect with
  | releaseLock =>
      unfold applyFinishEffect
      exact .execute fun _ => .locks _
  | outboxRunFinished => exact within_addOutbox
  | _ => exact .pure _

theorem within_requeueRun {reason : String} : Within Db.Told (requeueRun r reason) :=
  .bind (within_getRow _ _) fun _ => .bind (within_ofExcept _ _) fun _ =>
    .bind (.assign fun _ => .run _ _ fun _ => rfl) fun _ => .flush

theorem within_startRun : Within Db.Told (startRun env r) := by
  have hmark : Within Db.Told (markRunning env r) :=
    .bind (.assign fun _ => .run _ _ fun _ => rfl) fun _ => .bind .flush fun _ => .pure _
  refine .bind (within_getRow _ _) fun run => ?_
  split
  · exact hmark
  · refine .bind (.execute fun db => ?_) fun _ => .bind (.select _) fun owner =>
      .ite (.bind .flush fun _ => .pure _) hmark
    unfold Db.insertLock
    split
    · exact .kept
    · exact .locks _

theorem within_openGate {kind : GateKind} {prompt : GatePrompt} {payload : List (String × ℚ)}
    {allowed : List String} : Within Db.Told (openGate r kind prompt payload allowed) :=
  .bind (within_getRow _ _) fun _ => .bind (.assign fun _ => .addGate _) fun _ => .flush

theorem within_answerGate {gateId : Nat} {answer actorId key : String} :
    Within Db.Told (answerGate env gateId answer actorId notes key) :=
  .bind (within_getRow _ _) fun _ => .ite (.pure _)
    (.bind (.assign fun _ => .gate _ _ fun _ => rfl) fun _ => .bind .flush fun _ =>
      within_getRow _ _)

theorem within_registerFromStage {stageId : Nat} {entries : List PredictionIn} :
    Within Db.Told (registerFromStage env stageId entries) := by
  refine .bind (within_getRow _ _) fun stage => .bind (within_getRow _ _) fun run =>
    .bind (.mapM fun entry => ?_) fun _ => .bind .flush fun _ => .pure _
  refine .bind (within_ofExcept _ _) fun row => .bind (.execute fun db => ?_) fun _ => .select _
  unfold Db.insertPrediction
  split
  · exact .kept
  · exact .addPrediction _

/-! ## The engine -/

theorem within_setStatus {x : Except IllegalStateChange RunTransition} :
    Within Db.Told (do
      let sm ← ofExcept .illegalStateChange x
      assign fun db => db.updateRun r fun run => { run with status := sm.toState }
      flush : DbTxn Unit) :=
  .bind (within_ofExcept _ _) fun _ => .bind (.assign fun _ => .run _ _ fun _ => rfl) fun _ => .flush

theorem within_promoteRun : Within Db.Told (Engine.promoteRun env r) := by
  refine .bind (within_getRow _ _) fun run => .ite (.pure _) (.bind within_startRun fun _ =>
    .ite (.pure _) (.bind (.bind (.of_reads reads_findCoverage) fun cov => ?_) fun _ => .pure _))
  split
  · exact .ite within_transitionCoverage (.pure _)
  · exact .pure _

theorem within_settleRun : Within Db.Told (Engine.settleRun env r) := by
  refine .bind (.select _) fun _ => .bind (.inspect _) fun _ => .bind (within_getRow _ _) fun run =>
    .ite ?_ (.ite within_requeueRun (.ite ?_ (.ite (.pure _) ?_)))
  · refine .bind (within_getRow _ _) fun _ =>
      .bind (.bind (.of_reads reads_findCoverage) fun cov => ?_) fun _ => within_finishRun
    split
    · exact .ite within_transitionCoverage (.pure _)
    · exact .pure _
  · exact .bind (within_getRow _ _) fun _ => .bind within_openGate fun _ => within_setStatus
  · refine .bind (within_getRow _ _) fun _ => .bind (.of_reads reads_findCoverage) fun cov => ?_
    split
    · exact .bind within_transitionCoverage fun _ => within_setStatus
    · exact within_finishRun

theorem within_registerPredictions {stageId : Nat} {result : JsonObject} :
    Within Db.Told (Engine.registerPredictions env stageId result) :=
  .bind (within_ofExcept _ _) fun _ => .ite (.pure _)
    (.bind within_registerFromStage fun _ => .pure _)

/-! ## The queue -/

theorem within_closeAttempt {stageId : Nat} {attempt : AttemptIn} {status : AttemptStatus}
    {result : Option JsonObject} {errors : Option Json} {killReason : Option String} :
    Within Db.Worked (closeAttempt env stageId attempt status result errors killReason) :=
  .bind (.select _) fun _ => .bind (.assign fun _ => .attempt _ _ fun _ => rfl) fun _ =>
    .assign fun _ => .stage _ _ fun _ => rfl

theorem within_rollupRun : Within Db.Worked (rollupRun r) :=
  .bind (.select _) fun _ => .bind (within_getRow _ _) fun _ =>
    .assign fun _ => .told (.run _ _ fun _ => rfl)

theorem within_queueCall (call : QueueCall) : Within Db.Worked (call.perform env) := by
  cases call with
  | claim =>
      refine .bind (.bind (.select _) fun candidate => ?_) fun _ => .pure _
      cases candidate with
      | none => exact .pure _
      | some stageId =>
          exact .bind (within_getRow _ _) fun _ =>
            .bind (.assign fun _ => .stage _ _ fun _ => rfl) fun _ =>
              .bind (.assign fun _ => .addAttempt _) fun _ => .bind .flush fun _ => .pure _
  | heartbeat =>
      refine .bind (.bind (.lookup _ _) fun found => ?_) fun _ => .pure _
      cases found with
      | none => exact .pure _
      | some stage =>
          exact .ite (.pure _) (.bind (.assign fun _ => .stage _ _ fun _ => rfl) fun _ =>
            .bind .flush fun _ => .pure _)
  | complete =>
      exact .bind (within_getRow _ _) fun _ => .bind within_closeAttempt fun _ =>
        .bind (within_ofExcept _ _) fun _ => .bind (.assign fun _ => .stage _ _ fun _ => rfl) fun _ =>
          .bind within_rollupRun fun _ => .flush
  | fail =>
      exact .bind (within_getRow _ _) fun _ => .bind within_closeAttempt fun _ =>
        .bind (.ite (.bind (within_ofExcept _ _) fun _ => .assign fun _ => .stage _ _ fun _ => rfl)
          (.assign fun _ => .stage _ _ fun _ => rfl)) fun _ => .bind within_rollupRun fun _ => .flush
  | reap =>
      refine .bind (.bind (.select _) fun _ => .bind (.forM fun _ => ?_) fun _ =>
        .bind .flush fun _ => .pure _) fun _ => .pure _
      refine .bind (.select _) fun _ => .bind (.assign fun _ => .attempt _ _ fun _ => rfl) fun _ =>
        .assign fun _ => .stage _ _ fun row => ?_
      unfold RunStage.reaped
      split <;> rfl

/-! ## Runs and stages that are added -/

theorem Db.Told.written {db db' : Db} (h : db.Told db') : db.Written db' := .worked (.told h)

/-- A part of the program that writes beside the stages. -/
theorem Told.within {α : Type} {m : DbTxn α} (h : Within Db.Told m) : Within Db.Written m :=
  h.mono fun _ _ hwrite => hwrite.written

/-- A part of the program that leaves the keys and the news alone. -/
theorem Written.within {α : Type} {m : DbTxn α} (h : Within Db.Written m) : Within Db.Changed m :=
  h.mono fun _ _ hwrite => .written hwrite

theorem within_digestStage {run : Run} {stageId : Nat} :
    Within Db.Written (Engine.digestStage env fund r run stageId) := by
  refine .bind (within_getRow _ _) fun stage => ?_
  split
  · refine .bind (.select _) fun _ => .bind (Told.within within_registerPredictions) fun _ =>
      .ite (.bind (within_ofExcept _ _) fun _ => .ite (.pure _) (.bind (.select _) fun _ =>
        .ite (.pure _) ?_)) (.pure _)
    split
    · exact .throw _
    · exact .bind (.of_reads reads_resolveContributors) fun _ => .bind (.select _) fun _ =>
        .bind (within_ofExcept _ _) fun _ => .assign fun _ => .addStages _
  · exact .pure _

theorem within_advanceRun {runner : Engine.Runner} :
    Within Db.Written (Engine.advanceRun env fund runner r) :=
  .bind (within_getRow _ _) fun _ => .ite (.pure _)
    (.bind (.forM fun call => (within_queueCall call.2).mono fun _ _ h => .worked h) fun _ =>
      .bind (.select _) fun _ => .bind (.forM fun _ => within_digestStage) fun _ =>
        Told.within within_settleRun)

theorem within_tick {runner : Engine.Runner} : Within Db.Written (Engine.tick env fund runner) :=
  .bind (.select _) fun _ =>
    .bind (.forM fun _ => .bind (Told.within within_promoteRun) fun _ => .pure _) fun _ =>
      .bind (.select _) fun _ => .forM fun _ => within_advanceRun

theorem within_addStages {stages : List StageIn} : Within Db.Written (addStages env r stages) :=
  .bind (within_ofExcept _ _) fun _ => .bind (.assign fun _ => .addStages _) fun _ => .flush

theorem within_addRun {coverageId : Option Nat} {type : RunType} {trigger : String}
    {params : JsonObject} {priority : Json} {budgetCapUsd : Option ℚ}
    {requestedBy triggerRef : Option String} :
    Within Db.Told (RunsRepo.createRun env coverageId type trigger params priority budgetCapUsd
      requestedBy triggerRef) :=
  .bind (within_ofExcept _ _) fun _ => .bind (.inspect _) fun _ =>
    .bind (.assign fun _ => .addRun _) fun _ => .bind .flush fun _ => .pure _

theorem within_createRun {metaHouses : List String} {runType trigger : String}
    {coverageId : Option Nat} {params : JsonObject} {requestedBy triggerRef : Option String} :
    Within Db.Written (Engine.createRun env fund metaHouses runType coverageId trigger params
      requestedBy triggerRef) := by
  refine .bind (within_ofExcept _ _) fun policy => .bind (.of_reads reads_findCoverage) fun cov =>
    .bind (.of_reads reads_contributorsFor) fun contributors => ?_
  split
  · exact .throw _
  · exact .bind (within_ofExcept _ _) fun stages => .bind (Told.within within_addRun) fun runId =>
      .bind within_addStages fun _ => .pure _

/-! ## Requests -/

section Requests

variable {request : Request} {slug pm key : String}

theorem within_transition {action : Action} {force : Bool} :
    Within Db.Told (handleTransition env slug action force notes pm) :=
  .bind (.of_reads reads_requireCoverage) fun _ =>
    .bind (.adaptExcept within_transitionCoverage) fun _ =>
      .bind (within_getRow _ _) fun _ => .pure _

theorem within_decide {decision : String} :
    Within Db.Told (handleDecide env slug decision notes pm) := by
  refine .bind (.of_reads reads_requireCoverage) fun covId => ?_
  split
  · exact .throw _
  · refine .bind (.select _) fun runId =>
      .bind (.adaptExcept within_transitionCoverage) fun _ => .bind ?_ fun _ =>
        .bind (within_getRow _ _) fun _ => .pure _
    cases runId with
    | none => exact .pure _
    | some r => exact within_finishRun

/-- The handlers of the routes that create no run write beside the stages. -/
theorem ApiCall.within_told (call : ApiCall) (hcreates : call.creates = false) :
    Within Db.Told ((call.route env app).2.2 pm key) := by
  cases call with
  | propose => exact .bind within_propose fun _ => .bind (within_getRow _ _) fun _ => .pure _
  | decide => exact within_decide
  | promote | demote | exit | rePropose => exact within_transition
  | setLead =>
      exact .bind (.of_reads reads_requireCoverage) fun _ =>
        .bind (.adaptExcept within_setLead) fun _ => .pure _
  | setLevels =>
      exact .bind (.of_reads reads_requireCoverage) fun _ => .bind (within_ofExcept _ _) fun _ =>
        .bind within_setLevels fun _ => .pure _
  | cancelRun => exact .bind within_finishRun fun _ => .pure _
  | answerGate => exact .bind within_answerGate fun _ => .pure _
  | rateEvent eventId rating =>
      refine .bind (.lookup _ _) fun found => ?_
      cases found with
      | none => exact .throw _
      | some event =>
          exact .bind (.assign fun _ => .event _ _ fun _ => rfl) fun _ => .pure _
  | initiate | newRun | retryRun | newQuery => cases hcreates

/-- Those that create one read what they need for it, create it and read it back. -/
theorem within_creates {R : Db → Db → Prop} (call : ApiCall) (hcall : call.creates = true)
    (hcreate : ∀ runType coverageId params,
      Within R (createRunFor env app runType coverageId params pm)) :
    Within R ((call.route env app).2.2 pm key) := by
  cases call with
  | initiate slug lead verifyCount =>
      exact .bind (.of_reads reads_requireCoverage) fun _ => .bind (hcreate ..) fun _ =>
        .of_reads reads_handledRun
  | newRun type coverage params =>
      refine .bind ?_ fun _ => .bind (hcreate ..) fun _ => .of_reads reads_handledRun
      cases coverage with
      | none => exact .pure _
      | some slug =>
          exact .ite (.pure _) (.bind (.of_reads reads_requireCoverage) fun _ => .pure _)
  | retryRun runId =>
      refine .bind (.lookup _ _) fun found => ?_
      cases found with
      | none => exact .throw _
      | some old => exact .ite (.throw _) (.bind (hcreate ..) fun _ => .of_reads reads_handledRun)
  | newQuery coverage question =>
      exact .bind (.of_reads reads_requireCoverage) fun _ => .bind (hcreate ..) fun _ =>
        .of_reads reads_handledRun
  | _ => cases hcall

theorem within_handler (call : ApiCall) :
    Within Db.Written ((call.route env app).2.2 pm key) := by
  cases hcreates : call.creates with
  | false => exact Told.within (call.within_told hcreates)
  | true => exact within_creates call hcreates fun _ _ _ => within_createRun

theorem within_writeAudit {action actorId requestId : String} {target : Option String}
    {after : Json} : Within Db.Told (writeAudit action actorId target after requestId) :=
  .bind within_addAudit fun _ => .flush

theorem within_store {idem : Idempotency} {response : JsonObject} {statusCode : Nat}
    {route actorId : String} :
    Within Db.Changed (idem.store env response statusCode route actorId) :=
  .bind (.assign fun _ => .idempotencyKeys _) fun _ => .flush

theorem within_mutation {route : String} {statusCode : Nat}
    {handler : String → String → DbTxn Handled}
    (hhandler : ∀ pm key, Within Db.Written (handler pm key)) :
    Within Db.Changed (mutation env app request route statusCode handler) := by
  refine .bind (within_ofExcept _ _) fun pm => .bind ?_ fun idem => ?_
  · refine .ite (.throw _) (.bind (.select _) fun found => ?_)
    cases found with
    | none => exact .pure _
    | some row => exact .ite (.throw _) (.pure _)
  · split
    · exact .pure _
    · exact .bind (Written.within (hhandler pm _)) fun _ =>
        .bind (Written.within (Told.within within_writeAudit)) fun _ =>
          .bind within_store fun _ => .pure _

end Requests

/-! ## Jobs -/

section Jobs

variable {leader : Bool}

theorem within_logJob {jobName status : String} {runsCreated : Nat} {detail : Option String} :
    Within Db.Told (logJob env jobName status runsCreated detail) :=
  .bind (.assign fun _ => .addJobLog _) fun _ => .flush

theorem within_createOnce {R : Db → Db → Prop} {type : RunType} {params : JsonObject}
    {triggerRef : String} (covId : Nat)
    (hcreate : ∀ runType coverageId params triggerRef, Within R
      (Engine.createRun env fund [] runType coverageId "scheduler" params none triggerRef)) :
    Within R (createOnce env fund type params triggerRef covId) :=
  .bind (.select _) fun _ => .ite (.pure _) (.bind (hcreate ..) fun _ => .pure _)

theorem within_countM {R : Db → Db → Prop} {f : Nat → DbTxn Bool} (hf : ∀ key, Within R (f key))
    (keys : List Nat) : Within R (countM f keys) := by
  induction keys with
  | nil => exact .pure _
  | cons key keys ih => exact .bind (hf key) fun _ => .bind ih fun _ => .pure _

theorem within_createOnce_written {type : RunType} {params : JsonObject} {triggerRef : String}
    (covId : Nat) : Within Db.Written (createOnce env fund type params triggerRef covId) :=
  within_createOnce covId fun _ _ _ _ => within_createRun

theorem within_sessionTick {exchange tradingDate sessionName : String} :
    Within Db.Written (sessionTick env fund leader exchange tradingDate sessionName) :=
  .ite (.pure _) (.bind (Told.within within_logJob) fun _ => .bind (.select _) fun keys =>
    .bind (within_countM within_createOnce_written keys) fun _ =>
      .bind (Told.within within_logJob) fun _ => .pure _)

theorem within_watchTick {tradingDate : String} :
    Within Db.Written (watchTick env fund leader tradingDate) :=
  .ite (.pure _) (.bind (.select _) fun keys =>
    .bind (within_countM within_createOnce_written keys) fun _ =>
      .bind (Told.within within_logJob) fun _ => .pure _)

theorem within_retention : Within Db.Changed (retention env fund leader) :=
  .ite (.pure _) (.bind (within_ofExcept _ _) fun _ => .bind (.select _) fun _ =>
    .bind (.execute fun _ => .idempotencyKeys _) fun _ => .bind (within_ofExcept _ _) fun _ =>
      .bind (.select _) fun _ => .bind (.execute fun _ => .newsArticles _) fun _ =>
        .bind (Written.within (Told.within within_logJob)) fun _ => .pure _)

/-- The jobs but for the retention leave the keys and the news alone. -/
theorem within_otherJob {job : Job} (hjob : job ≠ .retention) :
    Within Db.Written (job.perform env fund leader) := by
  cases job with
  | quarterlySweep =>
      refine .ite (.pure _) (.bind (within_ofExcept _ _) fun _ => .bind (.select _) fun keys =>
        .bind (within_countM (fun covId => ?_) keys) fun _ =>
          .bind (Told.within within_logJob) fun _ => .pure _)
      exact .bind (.select _) fun _ => .ite (.pure _)
        (.bind (within_getRow _ _) fun _ => within_createOnce_written covId)
  | retention => exact absurd rfl hjob
  | _ => exact .throw _

theorem within_job (job : Job) : Within Db.Changed (job.perform env fund leader) := by
  by_cases hjob : job = .retention
  · rw [hjob]
    exact within_retention
  · exact Written.within (within_otherJob hjob)

end Jobs

theorem within_apiCall {request : Request} (call : ApiCall) :
    Within Db.Changed (call.perform env app request) :=
  within_mutation fun _ _ => within_handler call

/-! ## Repositories that are called on their own -/

theorem within_coverageCall (op : CoverageOp) : Within Db.Told op.perform := by
  unfold CoverageOp.perform
  split
  · exact .bind within_propose fun _ => .pure _
  · exact within_transitionCoverage
  · exact within_setLead

theorem within_outboxCall (op : OutboxOp) : Within Db.Told op.perform := by
  unfold OutboxOp.perform
  split
  · exact .bind (.bind (.select _) fun _ => .ite (.pure _)
      (.bind (.assign fun _ => .addOutbox _) fun _ => .flush)) fun _ => .pure _
  · exact .ite (.throw _) (.bind (.select _) fun _ =>
      .bind (.forM fun _ => .assign fun _ => .outbox _ _ fun _ => rfl) fun _ =>
        .bind .flush fun _ => .pure _)
  · exact .bind (.bind (within_getRow _ _) fun _ =>
      .bind (.assign fun _ => .outbox _ _ fun _ => rfl) fun _ => .flush) fun _ => .pure _
  · exact .bind (.bind (within_getRow _ _) fun _ =>
      .bind (.assign fun _ => .outbox _ _ fun _ => rfl) fun _ => .flush) fun _ => .pure _

/-! ## Operations -/

/-- The operation is neither a request nor the retention, the two that write keys or news. -/
def Op.Plain : Op → Prop
  | .api .. | .job _ _ .retention => False
  | _ => True

section Operations

variable {P : Db → Db → Prop} (hrefl : ∀ db, P db db)
include hrefl

/-- A job keeps what its transactions keep: its own and those that log its failures. -/
theorem runJob_stays {R : Db → Db → Prop} (htrans : ∀ a b c, P a b → R b c → P a c)
    (htold : ∀ a b, a.Told b → R a b) {leader : Bool} {job : Job}
    (hjob : Within R (job.perform env fund leader)) (db : Db) :
    P db (runJob env fund leader job db).after := by
  have hlog (status : String) (detail : Option String) : Within R
      (do logJob env job.name status 0 detail; return 0 : DbTxn Nat) :=
    .bind (within_logJob.mono htold) fun _ => .pure _
  unfold runJob
  dsimp only
  split
  · exact hjob.commit hrefl htrans db
  · exact (hlog _ _).commit hrefl htrans db
  · exact (hlog _ _).commit hrefl htrans db

/-- A plain operation stays in any preorder that holds the writes of the system's business. -/
theorem step_stays_plain (htrans : ∀ a b c, P a b → b.Written c → P a c) (db : Db) {op : Op}
    (hop : op.Plain) : P db (step app db op) := by
  cases op with
  | api => exact hop.elim
  | createRun env runType coverageId trigger params requestedBy triggerRef =>
      have hcreate : Within Db.Written (Engine.createRun env app.fund app.metaHouses runType
          coverageId trigger params requestedBy triggerRef) := within_createRun
      exact hcreate.commit hrefl htrans db
  | promoteRun => exact (Told.within within_promoteRun).commit hrefl htrans db
  | advanceRun => exact within_advanceRun.commit hrefl htrans db
  | tick => exact within_tick.commit hrefl htrans db
  | queue env call =>
      exact ((within_queueCall call).mono fun _ _ h => .worked h).commit hrefl htrans db
  | sessionTick => exact within_sessionTick.commit hrefl htrans db
  | watchTick => exact within_watchTick.commit hrefl htrans db
  | job env leader job =>
      refine runJob_stays hrefl htrans (fun _ _ h => h.written) (within_otherJob ?_) db
      rintro rfl
      exact hop

/-- Any operation stays in a preorder that holds all writes of the program. -/
theorem step_stays (htrans : ∀ a b c, P a b → b.Changed c → P a c) (db : Db) (op : Op) :
    P db (step app db op) := by
  have hwrite (a b c : Db) (hab : P a b) (hbc : b.Written c) : P a c :=
    htrans a b c hab (.written hbc)
  cases op with
  | api env request call => exact (within_apiCall call).commit hrefl htrans db
  | job env leader job =>
      exact runJob_stays hrefl htrans (fun _ _ h => .written h.written) (within_job job) db
  | _ => exact step_stays_plain hrefl hwrite db trivial

end Operations

/-- So does a history of all the operations there are. -/
theorem runAny_stays {P : Db → Db → Prop} (hrefl : ∀ db, P db db)
    (htrans : ∀ a b c, P a b → P b c → P a c) (hchanged : ∀ a b, a.Changed b → P a b) (db : Db)
    (ops : List AnyOp) : P db (runAny app db ops) := by
  have hchange (a b c : Db) (hab : P a b) (hbc : b.Changed c) : P a c :=
    htrans a b c hab (hchanged b c hbc)
  have hwrite (a b c : Db) (hab : P a b) (hbc : b.Written c) : P a c :=
    hchange a b c hab (.written hbc)
  have hsystem (db : Db) (op : Op) : P db (step app db op) := step_stays hrefl hchange db op
  refine History.invariant_of_forall (I := P db) (fun before op hbefore => ?_) (hrefl db)
  refine htrans db before _ hbefore ?_
  cases op with
  | desk op =>
      cases op with
      | system op => exact hsystem before op
      | coverage env call =>
          exact (Told.within (within_coverageCall ⟨env, id, call⟩)).commit hrefl hwrite before
  | driven op =>
      obtain ⟨calls, -, heq⟩ := op.becomes app before
      rw [AnyOp.step, heq]
      exact History.invariant_of_forall (I := P before)
        (fun db op hdb => htrans before db _ hdb (hsystem db op)) (hrefl before)
  | outbox op => exact (Told.within (within_outboxCall op)).commit hrefl hwrite before

end AiFund
