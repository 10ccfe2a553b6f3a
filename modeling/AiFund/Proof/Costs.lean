import AiFund.Proof.Attempts
import Mathlib.Algebra.BigOperators.Group.List.Basic

/-!
# Cost rollup

`rollupRun` sums the stage rows of the store, where the cost that the same call has just added to
its stage is still pending: the run lags behind its stages by the last report.
-/

namespace AiFund

open UnitOfWork Rows History

/-- The cost of the attempts of a run's stages. -/
def attemptCost (db : Db) (runId : Nat) : ℚ :=
  ((db.attempts.filter fun a =>
    db.stages[a.stageId]?.any fun stage => stage.runId = runId).map (·.costUsd)).sum

/-- The run, its stages and their attempts account for the same cost. -/
def Db.Balanced (db : Db) (runId : Nat) : Prop :=
  db.runs[runId]?.map (·.costUsd) = some (stageCost db runId) ∧
    stageCost db runId = attemptCost db runId

instance (db : Db) (runId : Nat) : Decidable (db.Balanced runId) :=
  inferInstanceAs (Decidable (_ ∧ _))

/-- The stage and the cost of a completion or a failure. -/
def QueueOp.report : QueueOp → Option (Nat × ℚ)
  | .call _ (.complete stageId attempt _) => some (stageId, attempt.charged)
  | .call _ (.fail stageId attempt _ _) => some (stageId, attempt.charged)
  | _ => none

/-- A report that returns leaves its run balanced. -/
def QueueOp.RollsUp (db : Db) (op : QueueOp) : Prop :=
  ∀ stageId cost stage, op.report = some (stageId, cost) →
    (commit op.perform db).result = .ok () → db.stages[stageId]? = some stage →
    (op.step db).Balanced stage.runId

/-- A report that returns carries no cost. -/
def QueueOp.Free (db : Db) (op : QueueOp) : Prop :=
  ∀ stageId cost stage, op.report = some (stageId, cost) →
    (commit op.perform db).result = .ok () → db.stages[stageId]? = some stage → cost = 0

variable {env : Env} {db : Db} {stageId runId : Nat} {stage : RunStage}
  {f : StageAttempt → StageAttempt} {g : RunStage → RunStage}

/-- A stage's column takes of the sum that a report writes what the model adds to it, as long as no
cost is negative. -/
theorem AttemptIn.rounded_sum {attempt : AttemptIn}
    (hgrid : FixedPoint.OnGrid Numeric.cost.unit stage.costUsd) (hstage : 0 ≤ stage.costUsd)
    (hcost : 0 ≤ attempt.costUsd) :
    Numeric.cost.rounded (stage.costUsd + attempt.costUsd) = stage.costUsd + attempt.charged :=
  Numeric.cost.rounded_add hgrid hstage hcost

/-- A report that returns adds its cost to the stage and the old total to the run. -/
structure Reported (db db' : Db) (stageId : Nat) (stage : RunStage) (cost : ℚ) : Prop where
  run : db'.runs[stage.runId]?.map (·.costUsd) = some (stageCost db stage.runId)
  stages : stageCost db' stage.runId = stageCost db stage.runId + cost

theorem reported_of_close {cost : ℚ} (hstage : db.stages[stageId]? = some stage)
    (hrun : ∃ run, db.runs[stage.runId]? = some run)
    (hg : ∀ stage, (g stage).runId = stage.runId ∧ (g stage).costUsd = stage.costUsd + cost) :
    Reported db (db.reported env stageId stage.runId f g) stageId stage cost where
  run := by
    obtain ⟨run, hrun⟩ := hrun
    simp [Db.reported, hrun]
  stages := by
    have hsum : stageCost (db.updateStage stageId g) stage.runId = _ :=
      sum_modify hstage (by rw [(hg stage).1])
    rw [decide_eq_true rfl, if_pos rfl, (hg stage).2, add_sub_cancel_left] at hsum
    simpa [stageCost, Db.reported] using hsum

theorem RunStage.failedWith_cost {attempt : AttemptIn} {retryable : Bool}
    {backoff : BackoffPolicy} :
    (stage.failedWith env stageId attempt retryable backoff).runId = stage.runId ∧
      (stage.failedWith env stageId attempt retryable backoff).costUsd =
        stage.costUsd + attempt.charged := by
  unfold RunStage.failedWith RunStage.releaseClaim
  split <;> exact ⟨rfl, rfl⟩

theorem reported_of_ok {op : QueueOp} {cost : ℚ} (hreport : op.report = some (stageId, cost))
    (hok : (commit op.perform db).result = .ok ()) (hstage : db.stages[stageId]? = some stage) :
    Reported db (op.step db) stageId stage cost := by
  have hcases := op.cases db
  generalize op.step db = db' at hcases
  cases hcases with
  | refused h => rw [hok] at h; cases h
  | added => cases hreport
  | started => cases hreport
  | requeued => cases hreport
  | unclaimed => cases hreport
  | claimed => cases hreport
  | unheld => cases hreport
  | extended => cases hreport
  | reaped => cases hreport
  | completed hrow _ hrun =>
      cases hreport
      obtain rfl := Option.some.inj (hstage.symm.trans hrow)
      exact reported_of_close hstage ⟨_, hrun⟩ fun _ => ⟨rfl, rfl⟩
  | failed hrow _ hrun =>
      cases hreport
      obtain rfl := Option.some.inj (hstage.symm.trans hrow)
      exact reported_of_close hstage ⟨_, hrun⟩ fun _ => RunStage.failedWith_cost

/-- The run gets the old total and the stages the new one, so they agree only on a free report. -/
theorem QueueOp.free_of_rollsUp {op : QueueOp} (h : op.RollsUp db) : op.Free db := by
  intro stageId cost stage hreport hok hstage
  have hreported := reported_of_ok hreport hok hstage
  have htotal : stageCost db stage.runId = stageCost (op.step db) stage.runId :=
    Option.some.inj (hreported.run.symm.trans (h stageId cost stage hreport hok hstage).1)
  rw [hreported.stages] at htotal
  exact left_eq_add.1 htotal

/-! ## Free reports -/

/-- No cost has been reported. -/
structure Db.CostFree (db : Db) : Prop where
  stages : ∀ stage ∈ db.stages, stage.costUsd = 0
  attempts : ∀ a ∈ db.attempts, a.costUsd = 0

theorem sum_eq_zero {ρ : Type} {rows : List ρ} {cost : ρ → ℚ} {p : ρ → Bool}
    (h : ∀ row ∈ rows, cost row = 0) : ((rows.filter p).map cost).sum = 0 := by
  refine List.sum_eq_zero fun x hx => ?_
  obtain ⟨row, hrow, rfl⟩ := List.mem_map.1 hx
  exact h row (List.mem_filter.1 hrow).1

theorem Db.CostFree.balanced {cost : ℚ} {db' : Db} (h : db'.CostFree)
    (hreported : Reported db db' stageId stage cost) (hcost : cost = 0) :
    db'.Balanced stage.runId := by
  have hstages : stageCost db' stage.runId = 0 := sum_eq_zero h.stages
  have hold : stageCost db stage.runId = 0 := by
    rw [← hstages, hreported.stages, hcost, add_zero]
  refine ⟨?_, hstages.trans (sum_eq_zero h.attempts).symm⟩
  rw [hreported.run, hold, hstages]

theorem Db.CostFree.congr {db' : Db} (h : db.CostFree) (hview : db'.stageTables = db.stageTables) :
    db'.CostFree := by
  constructor
  · rw [show db'.stages = db.stages from congrArg Prod.fst hview]
    exact h.stages
  · rw [show db'.attempts = db.attempts from congrArg Prod.snd hview]
    exact h.attempts

theorem Db.CostFree.close {key : Option Nat} (h : db.CostFree)
    (hf : ∀ a, a.costUsd = 0 → (f a).costUsd = 0)
    (hg : ∀ stage, stage.costUsd = 0 → (g stage).costUsd = 0) :
    ((db.close key f).updateStage stageId g).CostFree where
  stages := by
    rw [Db.updateStage_stages, Db.close_stages]
    exact forall_mem_modify h.stages hg
  attempts := by
    cases key with
    | none => exact h.attempts
    | some key => exact forall_mem_modify h.attempts hf

theorem Db.CostFree.reported (h : db.CostFree) (hf : ∀ a, (f a).costUsd = 0)
    (hg : ∀ stage, (g stage).costUsd = stage.costUsd) :
    (db.reported env stageId runId f g).CostFree :=
  Db.CostFree.congr
    (h.close (fun a _ => hf a) fun stage hstage => (hg stage).trans hstage) rfl

theorem Db.CostFree.reapAll {stored : Db} {backoff : BackoffPolicy} {expired : List Nat}
    (h : db.CostFree) : (expired.foldl (stored.reapOne env backoff) db).CostFree := by
  induction expired generalizing db with
  | nil => exact h
  | cons first rest ih =>
      refine ih (h.close (fun _ => id) fun stage hstage => ?_)
      unfold RunStage.reaped RunStage.releaseClaim
      split <;> exact hstage

theorem Db.CostFree.step {op : QueueOp} (h : db.CostFree) (hfree : op.Free db) :
    (op.step db).CostFree := by
  obtain ⟨error, hcommit⟩ | ⟨_, s, -, -, hcommit⟩ := commit_cases op.perform db
  · rw [QueueOp.step, hcommit]
    exact h
  have hok : (commit op.perform db).result = .ok () := by rw [hcommit]
  have hcases := op.cases db
  generalize op.step db = db' at hcases
  cases hcases with
  | refused => exact h
  | added hrows =>
      refine ⟨fun stage hstage => ?_, h.attempts⟩
      rcases List.mem_append.1 hstage with hold | hnew
      · exact h.stages stage hold
      · obtain ⟨stageIn, -, hto⟩ := of_mem_mapM hrows hnew
        exact (stageIn.toRow_fresh hto).2.2.2.2.2
  | started hview => exact h.congr hview
  | requeued hview => exact h.congr hview
  | unclaimed => exact h
  | claimed =>
      refine ⟨forall_mem_modify h.stages fun _ => id, fun a ha => ?_⟩
      rcases List.mem_append.1 ha with hold | hnew
      · exact h.attempts a hold
      · rw [List.mem_singleton.1 hnew]
        rfl
  | unheld => exact h
  | extended => exact ⟨forall_mem_modify h.stages fun _ => id, h.attempts⟩
  | completed hstage =>
      have hcost := hfree _ _ _ rfl hok hstage
      refine h.reported (fun _ => hcost) fun stage => ?_
      change stage.costUsd + _ = stage.costUsd
      rw [hcost, add_zero]
  | failed hstage =>
      have hcost := hfree _ _ _ rfl hok hstage
      refine h.reported (fun _ => hcost) fun stage => ?_
      rw [RunStage.failedWith_cost.2, hcost, add_zero]
  | reaped => exact h.reapAll

theorem QueueOp.rollsUp_of_free {op : QueueOp} (h : db.CostFree) (hfree : op.Free db) :
    op.RollsUp db := fun stageId cost stage hreport hok hstage =>
  (h.step hfree).balanced (reported_of_ok hreport hok hstage)
    (hfree stageId cost stage hreport hok hstage)

/-- Along a whole history every report leaves run, stages and attempts balanced exactly when every
report that returns is free. -/
theorem eachStep_rollsUp_iff (db : Db) (ops : List QueueOp) :
    EachStep QueueOp.step QueueOp.RollsUp db.withoutStages ops ↔
      EachStep QueueOp.step QueueOp.Free db.withoutStages ops := by
  constructor
  · exact EachStep.mono fun _ _ h => QueueOp.free_of_rollsUp h
  · have hstart : db.withoutStages.CostFree :=
      ⟨by simp [Db.withoutStages], by simp [Db.withoutStages]⟩
    exact eachStep_of_invariant (fun db op h hfree => Db.CostFree.step h hfree)
      (fun db op h hfree => QueueOp.rollsUp_of_free h hfree) hstart

/-- The database just before the only stage of a run is completed. -/
def Db.oneClaim : Db :=
  runQueue (Db.oneRun none).withoutStages
    [.addStages (.quiet 0) 0 [.pmQuery], .call (.quiet 1) (.claim "w1" [] [] 60)]

/-- One completed attempt of cost 1 leaves the run at cost 0. -/
theorem not_rollsUp_of_cost :
    ¬ ∀ (db : Db) (ops : List QueueOp),
      EachStep QueueOp.step QueueOp.RollsUp db.withoutStages ops := by
  intro h
  have hops := h (Db.oneRun none) [.addStages (.quiet 0) 0 [.pmQuery],
    .call (.quiet 1) (.claim "w1" [] [] 60),
    .call (.quiet 2) (.complete 0 { workerId := "w1", costUsd := 1 } [])]
  have hlength : 0 < Db.oneClaim.stages.length := by decide +kernel
  have hbalanced := hops.2.2.1 0 _ Db.oneClaim.stages[0] rfl (by decide +kernel)
    (List.getElem?_eq_getElem hlength)
  exact absurd hbalanced (by decide +kernel +revert)

end AiFund
