import AiFund.Proof.Attempts
import AiFund.Proof.StageMachine

/-!
# Fencing

Neither report looks at the worker that it names. A report on a stage that another worker holds is
executed like the holder's own: it ends the holder's claim and closes the holder's attempt.
-/

namespace AiFund

open UnitOfWork Rows

variable {db : Db} {op : QueueOp} {stageId : Nat} {stage : RunStage}

/-- A report on a running stage takes its claim away. -/
theorem QueueOp.step_report {workerId : String} (hdb : Schema.violation db = none)
    (hreports : op.reports = some (stageId, workerId)) (hstage : db.stages[stageId]? = some stage)
    (hrunning : stage.status = .running) :
    ∃ stage' : RunStage, (op.step db).stages[stageId]? = some stage' ∧ stage'.claimedBy = none ∧
      stage'.status ≠ .running := by
  cases op with
  | call env queueCall =>
      cases queueCall with
      | complete reported attempt result =>
          cases hreports
          rw [QueueOp.step_complete hdb hstage hrunning, Db.reported_stages]
          exact ⟨_, getElem?_modify_self hstage, rfl, nofun⟩
      | fail reported attempt retryable backoff =>
          cases hreports
          rw [QueueOp.step_fail hdb hstage fun _ => hrunning, Db.reported_stages]
          exact ⟨_, getElem?_modify_self hstage, RunStage.closes_failedWith.claimedBy,
            RunStage.closes_failedWith.status⟩
      | _ => cases hreports
  | _ => cases hreports

theorem runQueue_violation (hdb : Schema.violation db = none) (ops : List QueueOp) :
    Schema.violation (runQueue db ops) = none :=
  History.invariant_of_forall (I := fun db : Db => Schema.violation db = none)
    (fun _ op h => op.step_violation h) hdb

/-- In every state that a history reaches, a report on a stage that another worker holds is
executed: the holder loses the stage. -/
theorem runQueue_unfenced (hdb : Schema.violation db.withoutStages = none) (ops : List QueueOp)
    (hforeign : op.Foreign (runQueue db.withoutStages ops)) :
    ¬ op.Fenced (runQueue db.withoutStages ops) := by
  obtain ⟨stageId, workerId, holder, stage, hreports, hstage, hholder, -⟩ := hforeign
  have hinv : AttemptInv (runQueue db.withoutStages ops) :=
    History.invariant_of_forall (fun _ _ h => h.step) (.withoutStages db)
  have hrunning : stage.status = .running :=
    (hinv.accounted stageId stage hstage).claimedBy.1 (by rw [hholder]; rfl)
  obtain ⟨stage', hstage', hreleased, -⟩ :=
    QueueOp.step_report (runQueue_violation hdb ops) hreports hstage hrunning
  rintro ⟨hstages, -⟩
  rw [hstages, hstage] at hstage'
  cases hstage'
  rw [hholder] at hreleased
  cases hreleased

/-- The lease of `w1` lapses, the reaper requeues the stage, and `w2` claims it. -/
def QueueOp.pmQueryReclaimed : List QueueOp :=
  QueueOp.pmQueryClaimed ++ [.call (.quiet 100) (.reap 100 ⟨60, 3600, 0⟩),
    .call (.quiet 200) (.claim "w2" [] [] 60)]

theorem QueueOp.foreign_reclaimed :
    (QueueOp.completedBy "w1" 210).Foreign
      (runQueue (Db.oneRun none).withoutStages QueueOp.pmQueryReclaimed) := by
  have hholder : (runQueue (Db.oneRun none).withoutStages
      QueueOp.pmQueryReclaimed).stages[0]?.map (·.claimedBy) = some (some "w2") := by
    decide +kernel
  obtain ⟨stage, hstage, hclaimed⟩ := Option.map_eq_some_iff.1 hholder
  exact ⟨0, "w1", "w2", stage, rfl, hstage, hclaimed, by decide⟩

theorem runQueue_unfenced_reclaimed :
    ¬ (QueueOp.completedBy "w1" 210).Fenced
      (runQueue (Db.oneRun none).withoutStages QueueOp.pmQueryReclaimed) :=
  runQueue_unfenced (by decide +kernel) _ QueueOp.foreign_reclaimed

/-- The late success of `w1` ends the stage that `w2` is running, and closes `w2`'s attempt. -/
theorem not_fenced_reclaimed :
    ∃ (db : Db) (op : QueueOp),
      db = runQueue (Db.oneRun none).withoutStages QueueOp.pmQueryReclaimed ∧ op.Foreign db ∧
        ¬ op.Fenced db ∧
        db.attempts.map (fun a => (a.workerId, a.status)) =
          [(some "w1", .failed), (some "w2", .running)] ∧
        (op.step db).attempts.map (fun a => (a.workerId, a.status)) =
          [(some "w1", .failed), (some "w2", .succeeded)] := by
  refine ⟨_, .completedBy "w1" 210, rfl, QueueOp.foreign_reclaimed, ?_, by decide +kernel,
    by decide +kernel⟩
  rintro ⟨-, hattempts⟩
  have hstatus := congrArg (List.map (·.status)) hattempts
  revert hstatus
  decide +kernel

end AiFund
