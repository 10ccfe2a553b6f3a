import AiFund.Proof.StageMachine
import AiFund.StageSystem

/-!
# What leaves the stages alone

Coverages, runs, gates and predictions are written without touching a stage or an attempt; no call
of the queue touches the plan of a stage.
-/

namespace AiFund

open UnitOfWork Rows

variable {env : Env} {fund : FundConfig} {r : Nat} {γ : Type} {π : Db → γ}

/-- The view shows neither the coverages, the runs and the gates nor what is told of them. -/
structure Aside (π : Db → γ) : Prop where
  coverages : ∀ (db : Db) (rows : List Coverage), π { db with coverages := rows } = π db
  runs : ∀ (db : Db) (rows : List Run), π { db with runs := rows } = π db
  gates : ∀ (db : Db) (rows : List PmGate), π { db with gates := rows } = π db
  locks : ∀ (db : Db) (rows : List CoverageRunLock), π { db with locks := rows } = π db
  transitions : ∀ (db : Db) (rows : List CoverageTransition),
    π { db with transitions := rows } = π db
  auditLog : ∀ (db : Db) (rows : List AuditLog), π { db with auditLog := rows } = π db
  outbox : ∀ (db : Db) (rows : List OutboxEvent), π { db with outbox := rows } = π db

namespace Aside

theorem stageTables : Aside Db.stageTables := by
  constructor <;> exact fun _ _ => rfl

variable (h : Aside π)
include h

theorem addOutbox {kind : String} {coverageId runId : Option Nat} {subject : Nat}
    {payload : JsonObject} :
    Fixes π (AiFund.addOutbox env kind coverageId runId subject payload) :=
  .assign fun db => h.outbox db _

theorem applySideEffect {covId : Nat} {action : Action} {actorId requestId : String}
    {runId : Option Nat} (effect : SideEffect) :
    Fixes π (AiFund.applySideEffect env covId action actorId runId requestId effect) := by
  cases effect with
  | outbox kind => exact .ite (.pure _) h.addOutbox
  | cancelOpenGate =>
      unfold AiFund.applySideEffect
      exact .execute fun db => h.gates db _
  | openGateInitiationDecision =>
      exact .bind (fixes_ofExcept _ _) fun _ => .assign fun db => h.gates db _
  | answerGate =>
      refine .bind (.select _) fun found => ?_
      cases found with
      | none => exact .pure _
      | some gateId =>
          exact .bind (fixes_ofExcept _ _) fun _ => .assign fun db => h.gates db _
  | setLeadHouse =>
      refine .bind (.inspect _) fun found => ?_
      cases found with
      | none => exact .pure _
      | some run =>
          exact .bind (fixes_ofExcept _ _) fun _ => .assign fun db => h.coverages db _
  | _ => exact .pure _

theorem record {covId : Nat} {fromState : Option CoverageState} {sm : Transition}
    {action : Action} {actorType : ActorType} {actorId : String} {runId : Option Nat}
    {notes requestId : Option String} :
    Fixes π
      (AiFund.record env covId fromState sm action actorType actorId runId notes requestId) :=
  .bind (.inspect _) fun _ => .bind (.assign fun db => h.transitions db _) fun _ =>
    .bind (.assign fun db => h.auditLog db _) fun _ => .bind h.addOutbox fun _ =>
      .bind (.forM h.applySideEffect) fun _ => .flush

theorem transitionCoverage {covId : Nat} {action : Action} {actorType : ActorType}
    {actorId : String} {runId : Option Nat} {force : Bool} {notes requestId : Option String} :
    Fixes π (AiFund.transitionCoverage env covId action actorType actorId runId force notes
      requestId) := by
  refine .bind (.bind (.lookup _ _) fun found => ?_) fun cov => .bind ?_ fun ctx =>
    .bind (fixes_ofExcept _ _) fun sm => .bind (.assign fun db => h.coverages db _) fun _ =>
      h.record
  · cases found with
    | none => exact .throw _
    | some cov => exact .pure _
  · exact .bind (.select _) fun _ => .bind (.select _) fun _ => .pure _

theorem finishRun {status : RunStatus} {summary error : Option String} :
    Fixes π (AiFund.finishRun env r status summary error) := by
  refine .bind (fixes_getRow _ _) fun run => .bind (fixes_ofExcept _ _) fun action =>
    .bind (fixes_ofExcept _ _) fun sm => .bind (.assign fun db => h.runs db _) fun _ =>
      .bind (.forM fun effect => ?_) fun _ => .flush
  cases effect with
  | releaseLock =>
      unfold applyFinishEffect
      exact .execute fun db => h.locks db _
  | outboxRunFinished => exact h.addOutbox
  | _ => exact .pure _

end Aside

theorem fixes_findCoverage {coverageId : Option Nat} :
    Fixes π (Engine.findCoverage coverageId) := by
  cases coverageId with
  | none => exact .pure _
  | some covId => exact .lookup _ _

theorem fixes_promoteRun : Fixes Db.stageTables (Engine.promoteRun env r) := by
  refine .bind (fixes_getRow _ _) fun run => .ite (.pure _) ?_
  refine .bind (fixes_startRun (fun _ _ => rfl) (fun _ _ => rfl) r) fun started =>
    .ite (.pure _) (.bind ?_ fun _ => .pure _)
  refine .bind fixes_findCoverage fun cov => ?_
  split
  · exact .ite Aside.stageTables.transitionCoverage (.pure _)
  · exact .pure _

theorem fixes_stopAtGate {sm : Except IllegalStateChange RunTransition} :
    Fixes Db.stageTables (do
      let sm ← ofExcept .illegalStateChange sm
      assign fun db => db.updateRun r fun run => { run with status := sm.toState }
      flush : DbTxn Unit) :=
  .bind (fixes_ofExcept _ _) fun _ => .bind (.assign fun _ => rfl) fun _ => .flush

theorem fixes_settleRun : Fixes Db.stageTables (Engine.settleRun env r) := by
  refine .bind (.select _) fun _ => .bind (.inspect _) fun _ => .bind (fixes_getRow _ _) fun run =>
    .ite ?_ (.ite (fixes_requeueRun _ _) (.ite ?_ (.ite (.pure _) ?_)))
  · refine .bind (fixes_getRow _ _) fun _ => .bind (.bind fixes_findCoverage fun cov => ?_)
      fun _ => Aside.stageTables.finishRun
    split
    · exact .ite Aside.stageTables.transitionCoverage (.pure _)
    · exact .pure _
  · refine .bind (fixes_getRow _ _) fun _ => .bind ?_ fun _ => fixes_stopAtGate
    exact .bind (fixes_getRow _ _) fun _ => .bind (.assign fun _ => rfl) fun _ => .flush
  · refine .bind (fixes_getRow _ _) fun _ => .bind fixes_findCoverage fun cov => ?_
    split
    · exact .bind Aside.stageTables.transitionCoverage fun _ => fixes_stopAtGate
    · exact Aside.stageTables.finishRun

theorem fixes_registerPredictions {stageId : Nat} {result : JsonObject} :
    Fixes Db.stageTables (Engine.registerPredictions env stageId result) := by
  refine .bind (fixes_ofExcept _ _) fun entries => .ite (.pure _) (.bind ?_ fun _ => .pure _)
  refine .bind (fixes_getRow _ _) fun stage => .bind (fixes_getRow _ _) fun run =>
    .bind (.mapM fun entry => ?_) fun _ => .bind .flush fun _ => .pure _
  refine .bind (fixes_ofExcept _ _) fun row => .bind (.execute fun db => ?_) fun _ => .select _
  unfold Db.insertPrediction
  split <;> rfl

/-! ## Plans -/

/-- What no call changes in the stages: their runs, their order and their dependencies. -/
def Db.plans (db : Db) : List (Nat × Int × StageRole × Option Int) := db.stages.map RunStage.plan

theorem Fixes.plans {α : Type} {m : DbTxn α} (h : Fixes Db.stageTables m) : Fixes Db.plans m :=
  h.comp fun tables => tables.1.map RunStage.plan

theorem Db.plans_updateStage {db : Db} {stageId : Nat} {g : RunStage → RunStage}
    (hg : ∀ stage, (g stage).plan = stage.plan) : (db.updateStage stageId g).plans = db.plans :=
  map_modify_of_eq hg

theorem Db.plans_close {db : Db} {key : Option Nat} {f : StageAttempt → StageAttempt} :
    (db.close key f).plans = db.plans := by
  rw [Db.plans, Db.close_stages, Db.plans]

theorem fixes_closeAttempt {stageId : Nat} {attempt : AttemptIn} {status : AttemptStatus}
    {result : Option JsonObject} {errors : Option Json} {killReason : Option String} :
    Fixes Db.plans (closeAttempt env stageId attempt status result errors killReason) :=
  .bind (.select _) fun _ => .bind (.assign fun _ => Db.plans_close) fun _ =>
    .assign fun _ => Db.plans_updateStage fun _ => rfl

theorem fixes_rollupRun {runId : Nat} : Fixes Db.plans (rollupRun runId) :=
  .bind (.select _) fun _ => .bind (fixes_getRow _ _) fun _ => .assign fun _ => rfl

theorem fixes_retryOrFail {stageId : Nat} {stage : RunStage} {retryable : Bool}
    {backoff : BackoffPolicy} : Fixes Db.plans (retryOrFail env stageId stage retryable backoff) :=
  .ite (.bind (fixes_ofExcept _ _) fun _ => .assign fun _ => Db.plans_updateStage fun _ => rfl)
    (.assign fun _ => Db.plans_updateStage fun _ => rfl)

theorem fixes_queueCall (call : QueueCall) : Fixes Db.plans (call.perform env) := by
  cases call with
  | claim =>
      refine .bind (.bind (.select _) fun candidate => ?_) fun _ => .pure _
      cases candidate with
      | none => exact .pure _
      | some stageId =>
          exact .bind (fixes_getRow _ _) fun _ =>
            .bind (.assign fun _ => Db.plans_updateStage fun _ => rfl) fun _ =>
              .bind (.assign fun _ => rfl) fun _ => .bind .flush fun _ => .pure _
  | heartbeat =>
      refine .bind (.bind (.lookup _ _) fun found => ?_) fun _ => .pure _
      cases found with
      | none => exact .pure _
      | some stage =>
          exact .ite (.pure _) (.bind (.assign fun _ => Db.plans_updateStage fun _ => rfl)
            fun _ => .bind .flush fun _ => .pure _)
  | complete =>
      exact .bind (fixes_getRow _ _) fun _ => .bind fixes_closeAttempt fun _ =>
        .bind (fixes_ofExcept _ _) fun _ =>
          .bind (.assign fun _ => Db.plans_updateStage fun _ => rfl) fun _ =>
            .bind fixes_rollupRun fun _ => .flush
  | fail =>
      exact .bind (fixes_getRow _ _) fun _ => .bind fixes_closeAttempt fun _ =>
        .bind fixes_retryOrFail fun _ => .bind fixes_rollupRun fun _ => .flush
  | reap =>
      refine .bind (.bind (.select _) fun _ => .bind (.forM fun stageId => ?_) fun _ =>
        .bind .flush fun _ => .pure _) fun _ => .pure _
      exact .bind (.select _) fun _ => .bind (.assign fun _ => Db.plans_close) fun _ =>
        .assign fun _ => Db.plans_updateStage fun _ => RunStage.plan_reaped

end AiFund
