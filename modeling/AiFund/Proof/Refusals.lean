import AiFund.Library.Errors
import AiFund.Proof.QueueSteps

/-!
# Refused reports

A report closes the open attempt and adds its cost before the state machine is asked. The session
that a refusal leaves behind is as it was exactly if there was nothing to close and nothing to add.
-/

namespace AiFund

open UnitOfWork Rows

variable {env : Env} {db : Db} {s s' : Session Db} {stageId : Nat} {stage : RunStage}
  {attempt : AttemptIn} {α : Type}

inductive Report where
  | complete (result : JsonObject)
  | fail (retryable : Bool) (backoff : BackoffPolicy)

namespace Report

def perform (env : Env) (stageId : Nat) (attempt : AttemptIn) : Report → DbTxn Unit
  | .complete result => completeStage env stageId attempt result
  | .fail retryable backoff => failStage env stageId attempt retryable backoff

/-- Whether the state machine is asked: a terminal failure is written without it. -/
def asks (stage : RunStage) : Report → Bool
  | .complete _ => true
  | .fail retryable _ => retryable && stage.attempts < stage.maxAttempts

/-- What the report makes of the open attempt. -/
def close (env : Env) (attempt : AttemptIn) (report : Report) (a : StageAttempt) : StageAttempt :=
  match report with
  | .complete result => a.closed attempt .succeeded env.now (some result) none none
  | .fail _ _ => a.closed attempt .failed env.now none none attempt.killReason

/-- The session's objects when the state machine is asked. -/
def closing (env : Env) (stageId : Nat) (attempt : AttemptIn) (report : Report) (db : Db) : Db :=
  (db.close (openAttempt env stageId db) (report.close env attempt)).updateStage stageId
    fun stage => { stage with costUsd := stage.costUsd + attempt.charged }

end Report

/-- A caller that handles the refusal and commits. -/
def handlingRefusal (m : DbTxn Unit) : DbTxn Unit :=
  tryCatch m fun
    | .illegalStateChange _ => pure ()
    | error => throw error

/-- The rows that a report is about are as they were. -/
structure SameRows (db after : Db) (stageId : Nat) (stage : RunStage) : Prop where
  ofStage : after.stages[stageId]? = some stage
  ofAttempts : ∀ (id : Nat) (a : StageAttempt), db.attempts[id]? = some a → a.stageId = stageId →
    after.attempts[id]? = some a
  ofRun : after.runs[stage.runId]? = db.runs[stage.runId]?

/-- A refusal changes no row in the session, and a caller that handles it commits nothing. -/
def LeavesNoTrace (m : DbTxn Unit) (stageId : Nat) (stage : RunStage) (db : Db) : Prop :=
  ∀ error s', m.run (Session.clean db) = .error (.illegalStateChange error) s' →
    SameRows db s'.loaded stageId stage ∧ (commit (handlingRefusal m) db).after = db

/-! ## When a report is refused -/

/-- Nothing that the transaction raises is a refusal of the state machine. -/
abbrev Unrefused (m : DbTxn α) : Prop :=
  RaisesOnly (fun error => ∀ refusal, error ≠ .illegalStateChange refusal) m

theorem unrefused_flush : Unrefused flush := by
  refine .flush fun db error h refusal => ?_
  obtain ⟨rule, -, rfl⟩ := Option.map_eq_some_iff.1 (show db.violation = some error from h)
  exact nofun

theorem unrefused_getRow {ρ : Type} {table : Db → List ρ} {id : Nat} :
    Unrefused (getRow table id) := by
  refine .bind (.lookup _ _) fun row => ?_
  cases row with
  | none => exact .throw fun _ => nofun
  | some row => exact .pure _

theorem unrefused_rollupRun {runId : Nat} : Unrefused (rollupRun runId) :=
  .bind (.select _) fun _ => .bind unrefused_getRow fun _ => .assign _

theorem stageTransition_running (ctx : StageTransitionContext) :
    (∃ sm, stageTransition .running .complete ctx = .ok sm) ∧
      (ctx.attempts < ctx.maxAttempts →
        ∃ sm, stageTransition .running .failRetryable ctx = .ok sm) := by
  refine ⟨⟨_, rfl⟩, fun hleft => ?_⟩
  unfold stageTransition
  simp only [stageEntries, true_and, if_neg (not_le.2 hleft)]
  exact ⟨_, rfl⟩

theorem stageTransition_refused {status : StageStatus} (ctx : StageTransitionContext)
    (hstatus : status ≠ .running) :
    (∃ error, stageTransition status .complete ctx = .error error) ∧
      ∃ error, stageTransition status .failRetryable ctx = .error error := by
  cases status with
  | running => exact absurd rfl hstatus
  | _ => exact ⟨⟨_, rfl⟩, ⟨_, rfl⟩⟩

/-- What is pending when the state machine is asked. -/
theorem returns_closing (env : Env) (db : Db) (stageId : Nat) (attempt : AttemptIn)
    (report : Report) {status : AttemptStatus} {result : Option JsonObject}
    {killReason : Option String}
    (hreport : report.close env attempt = fun a =>
      a.closed attempt status env.now result none killReason) :
    Returns (closeAttempt env stageId attempt status result none killReason) (Session.clean db) ()
      { Session.clean db with loaded := report.closing env stageId attempt db } := by
  rw [returns_closeAttempt, Report.closing, hreport]
  rfl

/-- The state machine is asked about a stage that is not running, after the attempt is closed. -/
theorem Report.refused {report : Report} (env : Env) (attempt : AttemptIn)
    (hstage : db.stages[stageId]? = some stage) (hstatus : stage.status ≠ .running)
    (hasks : report.asks stage = true) :
    ∃ error, (report.perform env stageId attempt).run (Session.clean db) =
      .error (.illegalStateChange error)
        { Session.clean db with loaded := report.closing env stageId attempt db } := by
  have hget : Returns (getRow Db.stages stageId) (Session.clean db) stage (Session.clean db) :=
    returns_getRow.2 ⟨(List.getElem?_eq_some_iff.1 hstage).1, hstage, rfl⟩
  obtain ⟨⟨ecomplete, hcomplete⟩, ⟨eretry, hretry⟩⟩ :=
    stageTransition_refused ⟨stage.attempts, stage.maxAttempts⟩ hstatus
  cases report with
  | complete result =>
      have hclose := returns_closing env db stageId attempt (.complete result) rfl
      refine ⟨ecomplete, ?_⟩
      unfold perform completeStage
      rw [run_bind_of_returns hget, run_bind_of_returns hclose, hcomplete]
      rfl
  | fail retryable backoff =>
      have hclose := returns_closing env db stageId attempt (.fail retryable backoff) rfl
      have hretries : retryable = true ∧ stage.attempts < stage.maxAttempts := by
        simpa [asks] using hasks
      refine ⟨eretry, ?_⟩
      unfold perform failStage retryOrFail
      rw [run_bind_of_returns hget, run_bind_of_returns hclose, if_pos hretries, hretry]
      rfl

/-- Otherwise the state machine refuses nothing. -/
theorem Report.not_refused {report : Report} (hstage : db.stages[stageId]? = some stage)
    (hfree : stage.status = .running ∨ report.asks stage = false) (refusal : IllegalStateChange) :
    ¬ Raises (report.perform env stageId attempt) (Session.clean db)
      (.illegalStateChange refusal) := by
  have hget : Returns (getRow Db.stages stageId) (Session.clean db) stage (Session.clean db) :=
    returns_getRow.2 ⟨(List.getElem?_eq_some_iff.1 hstage).1, hstage, rfl⟩
  have hmachine := stageTransition_running ⟨stage.attempts, stage.maxAttempts⟩
  rintro ⟨s', hraises⟩
  cases report with
  | complete result =>
      have hclose := returns_closing env db stageId attempt (.complete result) rfl
      have hrunning : stage.status = .running := hfree.resolve_right (by simp [asks])
      obtain ⟨sm, hsm⟩ := hmachine.1
      unfold perform completeStage at hraises
      rw [run_bind_of_returns hget, run_bind_of_returns hclose, hrunning, hsm] at hraises
      have hrest : Unrefused (do
          assign fun db => db.updateStage stageId fun stage =>
            RunStage.releaseClaim
              { stage with
                status := sm.toState
                finishedAt := some env.now
                result := some result
                tokensIn := attempt.tokensIn
                tokensOut := attempt.tokensOut
                transcriptRef := attempt.transcriptRef }
          rollupRun stage.runId
          flush) :=
        .bind (.assign _) fun _ => .bind unrefused_rollupRun fun _ => unrefused_flush
      exact hrest ⟨s', hraises⟩ refusal rfl
  | fail retryable backoff =>
      have hclose := returns_closing env db stageId attempt (.fail retryable backoff) rfl
      unfold perform failStage at hraises
      rw [run_bind_of_returns hget, run_bind_of_returns hclose] at hraises
      have hretry : Unrefused (retryOrFail env stageId stage retryable backoff) := by
        unfold retryOrFail
        split
        · rename_i hretries
          have hrunning : stage.status = .running := hfree.resolve_right (by simp [asks, hretries])
          obtain ⟨sm, hsm⟩ := hmachine.2 hretries.2
          rw [hrunning, hsm]
          exact .bind (.pure _) fun _ => .assign _
        · exact .assign _
      have hrest : Unrefused (do
          retryOrFail env stageId stage retryable backoff
          rollupRun stage.runId
          flush) := .bind hretry fun _ => .bind unrefused_rollupRun fun _ => unrefused_flush
      exact hrest ⟨s', hraises⟩ refusal rfl

/-! ## What a refusal leaves -/

theorem Report.closing_eq (report : Report) (hopen : openAttempt env stageId db = none)
    (hcost : attempt.charged = 0) : report.closing env stageId attempt db = db := by
  have hstages : db.stages.modify stageId (fun stage =>
      { stage with costUsd := stage.costUsd + attempt.charged }) = db.stages := by
    simp only [hcost, add_zero]
    exact List.modify_id _ _
  unfold closing
  rw [hopen, Db.close, Option.elim_none, Db.updateStage, hstages]

theorem Report.of_closing {report : Report} (hstage : db.stages[stageId]? = some stage)
    (hsame : SameRows db (report.closing env stageId attempt db) stageId stage) :
    openAttempt env stageId db = none ∧ attempt.charged = 0 := by
  constructor
  · by_contra hopen
    obtain ⟨id, hid⟩ := Option.ne_none_iff_exists'.1 hopen
    obtain ⟨a, ha, hmatch⟩ := RowOrder.of_first _ hid
    simp only [Bool.and_eq_true, decide_eq_true_eq] at hmatch
    have hkept := hsame.ofAttempts id a ha hmatch.1
    have hclosed : (report.closing env stageId attempt db).attempts[id]? =
        some (report.close env attempt a) := by
      unfold closing
      rw [Db.updateStage_attempts, hid]
      exact getElem?_modify_self ha
    have hsame : report.close env attempt a = a := Option.some.inj (hclosed.symm.trans hkept)
    have hstatus : (report.close env attempt a).status ≠ .running := by
      cases report <;> exact nofun
    rw [hsame] at hstatus
    exact hstatus hmatch.2
  · have hcharged : (report.closing env stageId attempt db).stages[stageId]? =
        some { stage with costUsd := stage.costUsd + attempt.charged } := by
      unfold closing
      rw [Db.updateStage_stages, Db.close_stages]
      exact getElem?_modify_self hstage
    have hcosts := congrArg RunStage.costUsd
      (Option.some.inj (hcharged.symm.trans hsame.ofStage))
    simpa using hcosts

theorem commit_handlingRefusal {m : DbTxn Unit} {refusal : IllegalStateChange}
    (h : m.run (Session.clean db) = .error (.illegalStateChange refusal) (Session.clean db)) :
    (commit (handlingRefusal m) db).after = db := by
  have hhandled : Returns (handlingRefusal m) (Session.clean db) () (Session.clean db) := by
    have hraised : m (Session.clean db) =
        .error (.illegalStateChange refusal) (Session.clean db) := h
    simp only [Returns, handlingRefusal, tryCatch, tryCatchThe, MonadExceptOf.tryCatch,
      EStateM.tryCatch, EStateM.run, hraised]
    rfl
  obtain ⟨error, hcommit⟩ | ⟨u, s, hs, -, hcommit⟩ := commit_cases (handlingRefusal m) db
  · rw [hcommit]
  · cases hs.symm.trans hhandled
    rw [hcommit]
    rfl

/-- A stage whose lease has lapsed, queued again. -/
def RunStage.requeued : RunStage :=
  { runId := 0, seq := 1, role := .author, house := "gpt", substrate := .harness,
    availableAt := 0, maxAttempts := 2, attempts := 1 }

def Db.requeued : Db := { Db.oneRun none with stages := [.requeued] }

end AiFund
