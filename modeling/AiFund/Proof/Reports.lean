import AiFund.Proof.QueueSteps

/-!
# Reports return

In a database that its constraints accept, a report on a stage fails only if the stage machine
refuses it: no constraint reads a column that a report writes.
-/

namespace AiFund

open UnitOfWork Rows

/-! ## What the constraints read -/

/-- The columns of the runs that constraints read. -/
def Run.keys (run : Run) : Option Nat × RunType × Option String :=
  (run.coverageId, run.type, run.triggerRef)

def RunStage.keys (stage : RunStage) : Nat × Int × String :=
  (stage.runId, stage.seq, stage.house)

def StageAttempt.keys (a : StageAttempt) : Nat × Nat := (a.stageId, a.attemptNo)

/-- The constraints accept other values in the columns that they do not read. -/
theorem Db.violation_congr {db : Db} {runs : List Run} {stages : List RunStage}
    {attempts : List StageAttempt} (hruns : runs.map Run.keys = db.runs.map Run.keys)
    (hstages : stages.map RunStage.keys = db.stages.map RunStage.keys)
    (hattempts : attempts.map StageAttempt.keys = db.attempts.map StageAttempt.keys) :
    Schema.violation { db with runs, stages, attempts } = Schema.violation db := by
  have hlength : runs.length = db.runs.length := by
    simpa using congrArg List.length hruns
  have hrun : Db.isRun { db with runs, stages, attempts } = db.isRun := by
    funext id
    simp only [Db.isRun, hlength]
  have hhouse : Db.isHouse { db with runs, stages, attempts } = db.isHouse := rfl
  have hcoverage : Db.isCoverage { db with runs, stages, attempts } = db.isCoverage := rfl
  have htrigger : runs.filterMap Run.triggerKey = db.runs.filterMap Run.triggerKey := by
    have hkey : Run.triggerKey = (fun key : Option Nat × RunType × Option String =>
        key.1.bind fun covId => key.2.2.map fun ref => (covId, key.2.1, ref)) ∘ Run.keys := by
      funext run
      cases hid : run.coverageId <;> cases href : run.triggerRef <;>
        simp [Run.triggerKey, Run.keys, hid, href]
    rw [hkey, ← List.filterMap_map, ← List.filterMap_map, hruns]
  have hseq : (stages.map fun stage => (stage.runId, stage.seq)) =
      db.stages.map fun stage => (stage.runId, stage.seq) :=
    map_congr_of_map hstages fun key => (key.1, key.2.1)
  have hno : (attempts.map fun a => (a.stageId, a.attemptNo)) =
      db.attempts.map fun a => (a.stageId, a.attemptNo) := hattempts
  have hrules : ∀ rule ∈ constraints, rule.2 { db with runs, stages, attempts } = rule.2 db := by
    simp only [constraints, List.forall_mem_cons, hrun, hhouse, hcoverage, true_and]
    refine ⟨?_, ?_, ?_, ?_, ?_, ?_, ?_, nofun⟩
    · exact all_congr_of_map hruns fun key => key.1.all db.isCoverage
    · exact all_congr_of_map hruns fun key => key.1.isSome || key.2.1 = .distillation
    · rw [htrigger]
    · exact all_congr_of_map hstages fun key => db.isRun key.1
    · exact all_congr_of_map hstages fun key => db.isHouse key.2.2
    · rw [hseq]
    · rw [hno]
  exact Db.violation_of_rules hrules

/-! ## Reports -/

section Reports

variable {db : Db} {env : Env} {stageId runId : Nat} {stage : RunStage}
  {f : StageAttempt → StageAttempt} {g : RunStage → RunStage}

theorem Db.close_eq {key : Option Nat} :
    db.close key f = { db with attempts := key.elim db.attempts fun id => db.attempts.modify id f } := by
  cases key <;> rfl

theorem Db.reported_eq : db.reported env stageId runId f g =
    { db with
      runs := db.runs.modify runId fun run => { run with costUsd := stageCost db runId }
      stages := db.stages.modify stageId g
      attempts := (openAttempt env stageId db).elim db.attempts fun id =>
        db.attempts.modify id f } := by
  rw [Db.reported, Db.close_eq]
  rfl

theorem Db.violation_reported (hf : ∀ a, (f a).keys = a.keys)
    (hg : ∀ stage, (g stage).keys = stage.keys) :
    Schema.violation (db.reported env stageId runId f g) = Schema.violation db := by
  rw [Db.reported_eq]
  refine Db.violation_congr (map_modify_of_eq fun _ => rfl) (map_modify_of_eq hg) ?_
  cases openAttempt env stageId db with
  | none => rfl
  | some key => exact map_modify_of_eq hf

/-- The run of a stage exists. -/
theorem Db.run_of_stage (hdb : Schema.violation db = none) (hstage : db.stages[stageId]? = some stage) :
    ∃ run, db.runs[stage.runId]? = some run := by
  have hrule := Db.violation_eq_none.1 hdb ("fk_run_stages_run_id_runs",
    fun db => db.stages.all fun stage => db.isRun stage.runId) (by simp [constraints])
  have hrun : db.isRun stage.runId = true :=
    List.all_eq_true.1 hrule stage (List.mem_of_getElem? hstage)
  have hlt : stage.runId < db.runs.length := by simpa [Db.isRun] using hrun
  exact ⟨_, List.getElem?_eq_getElem hlt⟩

theorem rollupRun_returns {s : Session Db} {run : Run} (hstored : runId < s.stored.runs.length)
    (hloaded : s.loaded.runs[runId]? = some run) :
    Returns (rollupRun runId) s () { s with
      loaded := s.loaded.updateRun runId fun run =>
        { run with costUsd := stageCost s.stored runId } } := by
  simp [rollupRun, hstored, hloaded]

/-- A completion of a running stage returns. -/
theorem completeStage_returns {attempt : AttemptIn} {result : JsonObject} (written : List Db)
    (hdb : Schema.violation db = none) (hstage : db.stages[stageId]? = some stage)
    (hrunning : stage.status = .running) {after : Db}
    (hafter : after = db.reported env stageId stage.runId
      (fun a => a.closed attempt .succeeded env.now (some result) none none)
      fun stage => stage.completed env attempt result) :
    Schema.violation after = none ∧
      Returns (completeStage env stageId attempt result) ⟨db, db, written⟩ ()
        ⟨after, after, written ++ [after]⟩ := by
  obtain ⟨run, hrun⟩ := Db.run_of_stage hdb hstage
  have hcomplete : stageTransition stage.status .complete ⟨stage.attempts, stage.maxAttempts⟩ =
      .ok ⟨.succeeded, "completed", false⟩ := by
    rw [hrunning]
    rfl
  have hviolation : Schema.violation after = none := by
    rw [hafter, Db.violation_reported, hdb]
    · exact fun _ => rfl
    · exact fun _ => rfl
  refine ⟨hviolation, returns_getRow_bind.2
    ⟨(List.getElem?_eq_some_iff.1 hstage).1, stage, hstage, ?_⟩⟩
  refine returns_bind.2 ⟨(), _, returns_closeAttempt.2 rfl, ?_⟩
  refine returns_ofExcept_bind.2 ⟨_, hcomplete, returns_assign_bind.2 ?_⟩
  have hstored : stage.runId < db.runs.length := (List.getElem?_eq_some_iff.1 hrun).1
  refine returns_bind.2 ⟨(), _, rollupRun_returns hstored (by simpa using hrun), ?_⟩
  rw [returns_flush, Db.updateStage_updateStage]
  subst hafter
  exact ⟨hviolation, rfl⟩

/-- What a failure writes to the stage after the cost of its attempt. -/
theorem retryOrFail_returns {retryable : Bool} {backoff : BackoffPolicy} {s : Session Db}
    (hrunning : retryable = true ∧ stage.attempts < stage.maxAttempts → stage.status = .running) :
    ∃ g : RunStage → RunStage, Returns (retryOrFail env stageId stage retryable backoff) s ()
        { s with loaded := s.loaded.updateStage stageId g } ∧
      ∀ attempt : AttemptIn, g { stage with costUsd := stage.costUsd + attempt.charged } =
        stage.failedWith env stageId attempt retryable backoff := by
  unfold retryOrFail
  by_cases hretry : retryable = true ∧ stage.attempts < stage.maxAttempts
  · have hrequeue : stageTransition stage.status .failRetryable
        ⟨stage.attempts, stage.maxAttempts⟩ = .ok ⟨.queued, "retryable_failure", true⟩ := by
      have hlt := not_le.2 hretry.2
      simp [stageTransition, stageEntries, hrunning hretry, hlt]
    rw [if_pos hretry]
    refine ⟨_, returns_ofExcept_bind.2 ⟨_, hrequeue, returns_assign.2 rfl⟩, fun attempt => ?_⟩
    simp [RunStage.failedWith, RunStage.releaseClaim, hretry]
  · rw [if_neg hretry]
    refine ⟨_, returns_assign.2 rfl, fun attempt => ?_⟩
    simp only [RunStage.failedWith, if_neg hretry]

/-- A failure returns, unless the stage would be queued again without running. -/
theorem failStage_returns {attempt : AttemptIn} {retryable : Bool} {backoff : BackoffPolicy}
    (written : List Db) (hdb : Schema.violation db = none) (hstage : db.stages[stageId]? = some stage)
    (hrunning : retryable = true ∧ stage.attempts < stage.maxAttempts → stage.status = .running)
    {after : Db} (hafter : after = db.reported env stageId stage.runId
      (fun a => a.closed attempt .failed env.now none none attempt.killReason)
      fun stage => stage.failedWith env stageId attempt retryable backoff) :
    Schema.violation after = none ∧
      Returns (failStage env stageId attempt retryable backoff) ⟨db, db, written⟩ ()
        ⟨after, after, written ++ [after]⟩ := by
  obtain ⟨run, hrun⟩ := Db.run_of_stage hdb hstage
  have hviolation : Schema.violation after = none := by
    rw [hafter, Db.violation_reported, hdb]
    · exact fun _ => rfl
    · intro stage
      unfold RunStage.failedWith
      split <;> rfl
  refine ⟨hviolation, returns_getRow_bind.2
    ⟨(List.getElem?_eq_some_iff.1 hstage).1, stage, hstage, ?_⟩⟩
  refine returns_bind.2 ⟨(), _, returns_closeAttempt.2 rfl, ?_⟩
  obtain ⟨g, hreturns, hg⟩ := retryOrFail_returns hrunning
  refine returns_bind.2 ⟨(), _, hreturns, ?_⟩
  have hstored : stage.runId < db.runs.length := (List.getElem?_eq_some_iff.1 hrun).1
  refine returns_bind.2 ⟨(), _, rollupRun_returns hstored (by simpa using hrun), ?_⟩
  have hwith : ((db.close (openAttempt env stageId db) fun a =>
      a.closed attempt .failed env.now none none attempt.killReason).updateStage stageId
        (g ∘ fun stage => { stage with costUsd := stage.costUsd + attempt.charged })) =
      (db.close (openAttempt env stageId db) fun a =>
        a.closed attempt .failed env.now none none attempt.killReason).updateStage stageId
          fun stage => stage.failedWith env stageId attempt retryable backoff := by
    refine Db.updateStage_congr fun row hrow => ?_
    rw [Db.close_stages, hstage] at hrow
    cases hrow
    exact hg attempt
  rw [returns_flush, Db.updateStage_updateStage]
  simp only [hwith]
  subst hafter
  exact ⟨hviolation, rfl⟩

theorem QueueOp.step_complete {attempt : AttemptIn} {result : JsonObject}
    (hdb : Schema.violation db = none) (hstage : db.stages[stageId]? = some stage)
    (hrunning : stage.status = .running) :
    QueueOp.step db (.call env (.complete stageId attempt result)) =
      db.reported env stageId stage.runId
        (fun a => a.closed attempt .succeeded env.now (some result) none none)
        fun stage => stage.completed env attempt result := by
  obtain ⟨hviolation, hreturns⟩ := completeStage_returns [] hdb hstage hrunning rfl
  exact congrArg Outcome.after (commit_of_returns hreturns hviolation)

theorem QueueOp.step_fail {attempt : AttemptIn} {retryable : Bool} {backoff : BackoffPolicy}
    (hdb : Schema.violation db = none) (hstage : db.stages[stageId]? = some stage)
    (hrunning : retryable = true ∧ stage.attempts < stage.maxAttempts → stage.status = .running) :
    QueueOp.step db (.call env (.fail stageId attempt retryable backoff)) =
      db.reported env stageId stage.runId
        (fun a => a.closed attempt .failed env.now none none attempt.killReason)
        fun stage => stage.failedWith env stageId attempt retryable backoff := by
  obtain ⟨hviolation, hreturns⟩ := failStage_returns [] hdb hstage hrunning rfl
  exact congrArg Outcome.after (commit_of_returns hreturns hviolation)

end Reports

end AiFund
