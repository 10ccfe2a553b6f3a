import AiFund.Proof.Reports

/-!
# The queue and the stage machine

Every operation of the queue moves a stage along an edge of the stage machine, except a failure
that arrives when the stage is not running: where it is not requeued, `fail_stage` writes `failed`
without asking the machine.
-/

namespace AiFund

open UnitOfWork Rows

variable {db : Db} {env : Env} {op : QueueOp} {id stageId : Nat} {stage : RunStage}

/-- The constraints hold after every operation of the queue. -/
theorem QueueOp.step_violation (hdb : Schema.violation db = none) (op : QueueOp) :
    Schema.violation (op.step db) = none :=
  commit_violation hdb

/-- The reaper rewrites the expired stages and no others. -/
theorem Db.reapAll_stages {stored : Db} {backoff : BackoffPolicy} {expired : List Nat}
    (hnodup : expired.Nodup) :
    (expired.foldl (stored.reapOne env backoff) db).stages[id]? =
      if id ∈ expired then db.stages[id]?.map (·.reaped env id backoff) else db.stages[id]? := by
  have hstages : expired.foldl (fun rows id => rows.modify id (·.reaped env id backoff)) db.stages =
      (expired.foldl (stored.reapOne env backoff) db).stages :=
    List.foldl_hom Db.stages fun db id => by simp [Db.reapOne]
  rw [← hstages, getElem?_foldl_modify hnodup]

/-- What the reaper makes of a stage: it takes those whose lease has expired. -/
theorem Db.reaped_stage {now : Time} {backoff : BackoffPolicy}
    (hstage : db.stages[id]? = some stage) :
    (((env.rows .expired).all (leaseExpired now) db.stages).foldl
        (db.reapOne env backoff) db).stages[id]? =
      some (if leaseExpired now stage then stage.reaped env id backoff else stage) := by
  rw [Db.reapAll_stages (RowOrder.nodup_all _)]
  by_cases hexpired : leaseExpired now stage = true
  · have hmem : id ∈ (env.rows .expired).all (leaseExpired now) db.stages :=
      (env.rows .expired).mem_all.2 ⟨stage, hstage, hexpired⟩
    rw [if_pos hmem, if_pos hexpired, hstage]
    rfl
  · have hmem : id ∉ (env.rows .expired).all (leaseExpired now) db.stages := by
      intro hid
      obtain ⟨row, hrow, hp⟩ := (env.rows .expired).mem_all.1 hid
      obtain rfl := Option.some.inj (hstage.symm.trans hrow)
      exact hexpired hp
    rw [if_neg hmem, if_neg hexpired, hstage]

theorem leaseExpired_iff {now : Time} : leaseExpired now stage = true ↔
    stage.status = .running ∧ ∃ lease, stage.leaseExpiresAt = some lease ∧ lease < now := by
  simp [leaseExpired, Option.any_eq_true]

theorem StageEdge.reaped {backoff : BackoffPolicy} (hrunning : stage.status = .running) :
    StageEdge ⟨stage.attempts, stage.maxAttempts⟩ stage.status
      (stage.reaped env id backoff).status := by
  unfold RunStage.reaped RunStage.releaseClaim
  rw [hrunning]
  by_cases hretry : stage.attempts < stage.maxAttempts
  · have hlt := not_le.2 hretry
    exact ⟨.failRetryable, _, by simp [stageTransition, stageEntries, hlt]; rfl, by simp [hretry]⟩
  · exact ⟨.failTerminal, _, rfl, by simp [hretry]⟩

theorem RunStage.failedWith_status {attempt : AttemptIn} {retryable : Bool}
    {backoff : BackoffPolicy} :
    (stage.failedWith env stageId attempt retryable backoff).status =
      if retryable = true ∧ stage.attempts < stage.maxAttempts then .queued else .failed := by
  unfold failedWith releaseClaim
  split <;> rfl

/-- A report rewrites its stage and no other. -/
theorem Db.reported_stages {runId : Nat} {f : StageAttempt → StageAttempt}
    {g : RunStage → RunStage} :
    (db.reported env stageId runId f g).stages = db.stages.modify stageId g := by
  simp [Db.reported]

/-- What an operation of the queue makes of the status of the stage `id`. -/
inductive StageMoves (db : Db) (op : QueueOp) (id : Nat) (stage : RunStage) : StageStatus → Prop
    where
  | keep : StageMoves db op id stage stage.status
  | claim (hqueued : stage.status = .queued) (hsatisfied : dependencySatisfied db stage = true)
      (hclaims : op.claims db id ≠ 0) : StageMoves db op id stage .running
  | leave {status : StageStatus} (hrunning : stage.status = .running)
      (hedge : StageEdge ⟨stage.attempts, stage.maxAttempts⟩ .running status) :
      StageMoves db op id stage status
  /-- A failure that is not requeued, of a stage that is not running. -/
  | late {env : Env} {attempt : AttemptIn} {retryable : Bool} {backoff : BackoffPolicy}
      (hop : op = .call env (.fail id attempt retryable backoff))
      (hcan : ¬ (retryable = true ∧ stage.attempts < stage.maxAttempts))
      (hidle : stage.status ≠ .running) : StageMoves db op id stage .failed

/-- What no operation changes in a stage. -/
def RunStage.plan (stage : RunStage) : Nat × Int × StageRole × Option Int :=
  (stage.runId, stage.seq, stage.role, stage.dependsOnSeq)

/-- The stage keeps its row, and its row the plan. -/
def QueueOp.MovesStage (db : Db) (op : QueueOp) (after : Db) (id : Nat) (stage : RunStage) : Prop :=
  ∃ stage' : RunStage, after.stages[id]? = some stage' ∧ stage'.plan = stage.plan ∧
    StageMoves db op id stage stage'.status

theorem QueueOp.MovesStage.unchanged {after : Db} (hafter : after.stages = db.stages)
    (hstage : db.stages[id]? = some stage) : op.MovesStage db after id stage :=
  ⟨stage, by rw [hafter, hstage], rfl, .keep⟩

/-- An operation that rewrites one stage moves every stage if it moves that one. -/
theorem QueueOp.MovesStage.modify {after : Db} {g : RunStage → RunStage}
    (hafter : after.stages = db.stages.modify stageId g)
    (hg : ∀ stage, db.stages[stageId]? = some stage → (g stage).plan = stage.plan ∧
      StageMoves db op stageId stage (g stage).status)
    (hstage : db.stages[id]? = some stage) : op.MovesStage db after id stage := by
  rcases eq_or_ne id stageId with rfl | hid
  · obtain ⟨hplan, hmoves⟩ := hg stage hstage
    exact ⟨g stage, by rw [hafter, getElem?_modify_self hstage], hplan, hmoves⟩
  · exact ⟨stage, by rw [hafter, getElem?_modify_of_ne hid, hstage], rfl, .keep⟩

theorem RunStage.plan_failedWith {attempt : AttemptIn} {retryable : Bool}
    {backoff : BackoffPolicy} :
    (stage.failedWith env stageId attempt retryable backoff).plan = stage.plan := by
  unfold failedWith
  split <;> rfl

theorem RunStage.plan_reaped {backoff : BackoffPolicy} :
    (stage.reaped env stageId backoff).plan = stage.plan := by
  unfold reaped
  split <;> rfl

theorem StageMoves.failedWith {attempt : AttemptIn} {retryable : Bool} {backoff : BackoffPolicy}
    (hretry : retryable = true ∧ stage.attempts < stage.maxAttempts → stage.status = .running) :
    StageMoves db (.call env (.fail id attempt retryable backoff)) id stage
      (stage.failedWith env id attempt retryable backoff).status := by
  rw [RunStage.failedWith_status]
  by_cases hcan : retryable = true ∧ stage.attempts < stage.maxAttempts
  · have hlt := not_le.2 hcan.2
    rw [if_pos hcan]
    refine .leave (hretry hcan) ⟨.failRetryable, ⟨.queued, "retryable_failure", true⟩, ?_, rfl⟩
    simp [stageTransition, stageEntries, hlt]
  · rw [if_neg hcan]
    by_cases hrunning : stage.status = .running
    · exact .leave hrunning ⟨.failTerminal, _, rfl, rfl⟩
    · exact .late rfl hcan hrunning

/-- Every stage survives every operation of the queue and moves in one of these ways. -/
theorem QueueOp.movesStage (op : QueueOp) (hstage : db.stages[id]? = some stage) :
    op.MovesStage db (op.step db) id stage := by
  have hcases := op.cases db
  generalize op.step db = after at hcases
  cases hcases with
  | refused => exact .unchanged rfl hstage
  | added => exact ⟨stage, getElem?_append_of_some hstage, rfl, .keep⟩
  | started hview => exact .unchanged (congrArg Prod.fst hview) hstage
  | requeued hview => exact .unchanged (congrArg Prod.fst hview) hstage
  | unclaimed => exact .unchanged rfl hstage
  | claimed hresult hclaimed hclaimable =>
      refine .modify rfl (fun row hrow => ⟨rfl, ?_⟩) hstage
      rw [hclaimed] at hrow
      cases hrow
      simp only [claimable, Bool.and_eq_true, decide_eq_true_eq] at hclaimable
      refine .claim hclaimable.1.1.1.1.1 hclaimable.1.1.2 ?_
      simp [QueueOp.claims, hresult]
  | unheld => exact .unchanged rfl hstage
  | extended => exact .modify (Db.updateStage_stages _ _ _) (fun _ _ => ⟨rfl, .keep⟩) hstage
  | completed hreported hrunning =>
      refine .modify Db.reported_stages (fun row hrow => ⟨rfl, ?_⟩) hstage
      rw [hreported] at hrow
      cases hrow
      exact .leave hrunning ⟨.complete, _, rfl, rfl⟩
  | failed hreported hretry =>
      refine .modify Db.reported_stages (fun row hrow => ⟨RunStage.plan_failedWith, ?_⟩) hstage
      rw [hreported] at hrow
      cases hrow
      exact .failedWith hretry
  | reaped =>
      refine ⟨_, Db.reaped_stage hstage, ?_⟩
      split_ifs with hexpired
      · have hrunning := (leaseExpired_iff.1 hexpired).1
        refine ⟨RunStage.plan_reaped, .leave hrunning ?_⟩
        rw [← hrunning]
        exact .reaped hrunning
      · exact ⟨rfl, .keep⟩

/-- A timely operation refines the stage machine. -/
theorem QueueOp.Timely.refinesStages (h : op.Timely db) : op.RefinesStages db := by
  intro id stage hstage
  obtain ⟨stage', hstage', -, hmoves⟩ := op.movesStage hstage
  refine ⟨stage', hstage', ?_⟩
  generalize stage'.status = status at hmoves
  cases hmoves with
  | keep => exact .inl rfl
  | claim hqueued =>
      rw [hqueued]
      exact .inr ⟨.start, _, rfl, rfl⟩
  | leave hrunning hedge =>
      rw [hrunning]
      exact .inr hedge
  | late hop hcan hidle =>
      subst hop
      rcases h stage hstage with hrunning | hfailed | hretry
      · exact absurd hrunning hidle
      · exact .inl hfailed.symm
      · exact absurd hretry hcan

/-- A failure that is not requeued is executed whatever the status of its stage. -/
theorem QueueOp.RefinesStages.timely (hdb : Schema.violation db = none)
    (h : op.RefinesStages db) : op.Timely db := by
  cases op with
  | call env queueCall =>
      cases queueCall with
      | fail stageId attempt retryable backoff =>
          intro stage hstage
          by_contra hlate
          simp only [not_or] at hlate
          obtain ⟨hrunning, hfailed, hcan⟩ := hlate
          obtain ⟨stage', hstage', hmoved⟩ := h stageId stage hstage
          rw [QueueOp.step_fail hdb hstage fun hretry => absurd hretry hcan, Db.reported_stages,
            getElem?_modify_self hstage] at hstage'
          cases hstage'
          rw [RunStage.failedWith_status, if_neg hcan] at hmoved
          rcases hmoved with hsame | hedge
          · exact hfailed hsame.symm
          · exact hrunning hedge.to_failed
      | _ => trivial
  | _ => trivial

/-- A history refines the stage machine exactly if every failure that it reports is timely. -/
theorem eachStep_refinesStages_iff (hdb : Schema.violation db = none) (ops : List QueueOp) :
    History.EachStep QueueOp.step QueueOp.RefinesStages db ops ↔
      History.EachStep QueueOp.step QueueOp.Timely db ops := by
  have hstep : ∀ (db : Db) (op : QueueOp), Schema.violation db = none →
      Schema.violation (op.step db) = none := fun _ op h => op.step_violation h
  constructor
  · exact History.eachStep_of_invariant (fun db op h _ => hstep db op h)
      (fun db op h hrefines => hrefines.timely h) hdb
  · exact History.eachStep_of_invariant (fun db op h _ => hstep db op h)
      (fun db op _ htimely => htimely.refinesStages) hdb

theorem QueueOp.timely_of_running {env : Env} {id : Nat} {attempt : AttemptIn} {retryable : Bool}
    {backoff : BackoffPolicy} (h : db.stages[id]?.map (·.status) = some .running) :
    QueueOp.Timely db (.call env (.fail id attempt retryable backoff)) := by
  intro stage hstage
  rw [hstage] at h
  exact .inl (Option.some.inj h)

/-- A failure that is worth a retry, and after the retry one that is not. -/
def QueueOp.failedTwice : List QueueOp :=
  [.call (.quiet 2) (.fail 0 { workerId := "w1" } true ⟨60, 3600, 0⟩),
    .call (.quiet 100) (.claim "w2" [] [] 60), .failedBy "w2" 101]

/-- Both failures are timely, and the stage ends failed. -/
theorem eachStep_refinesStages_twice :
    History.EachStep QueueOp.step QueueOp.RefinesStages (Db.oneRun none)
        (QueueOp.pmQueryClaimed ++ QueueOp.failedTwice) ∧
      (runQueue (Db.oneRun none) (QueueOp.pmQueryClaimed ++ QueueOp.failedTwice)).stages.map
        (·.status) = [.failed] := by
  refine ⟨(eachStep_refinesStages_iff (by decide +kernel) _).2 ?_, by decide +kernel⟩
  refine ⟨trivial, trivial, ?_, trivial, ?_, trivial⟩
  · exact QueueOp.timely_of_running (by decide +kernel)
  · exact QueueOp.timely_of_running (by decide +kernel)

/-- A worker whose failure arrives after another worker's success takes the success back. -/
theorem not_refinesStages_late :
    ¬ History.EachStep QueueOp.step QueueOp.RefinesStages (Db.oneRun none)
      (QueueOp.pmQueryClaimed ++ [.completedBy "w1" 2, .failedBy "w1" 3]) := by
  rintro ⟨-, -, -, hlate, -⟩
  set db := runQueue (Db.oneRun none) (QueueOp.pmQueryClaimed ++ [.completedBy "w1" 2])
  change QueueOp.RefinesStages db _ at hlate
  have hbefore : db.stages[0]?.map (·.status) = some .succeeded := by decide +kernel
  have hafter : (QueueOp.step db (.failedBy "w1" 3)).stages[0]?.map (·.status) = some .failed := by
    decide +kernel
  obtain ⟨stage, hstage, hsucceeded⟩ := Option.map_eq_some_iff.1 hbefore
  obtain ⟨stage', hstage', hmoved⟩ := hlate 0 stage hstage
  have hfailed : stage'.status = .failed := by simpa [hstage'] using hafter
  rw [hfailed, hsucceeded] at hmoved
  rcases hmoved with hsame | hedge
  · cases hsame
  · cases hedge.to_failed

end AiFund
