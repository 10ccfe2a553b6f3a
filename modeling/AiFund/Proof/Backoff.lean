import AiFund.Proof.Attempts
import AiFund.Proof.StageMachine
import Mathlib.Algebra.Order.Field.Basic
import Mathlib.Tactic.Linarith

/-!
# Retries back off

A stage that is queued again waits for a delay that doubles with every attempt up to a cap, give or
take its jitter, and no claim returns it before. Both ways of queueing it again draw their delay
from one formula, and a stage is claimed in between, so the least delay never shrinks.
-/

namespace AiFund

open UnitOfWork Rows History

variable {env env' : Env} {db : Db} {op op' : QueueOp} {id : Nat} {stage stage' : RunStage}
  {policy : BackoffPolicy} {a b : Nat} {factor : ℚ} {due past : Time}

/-! ## Delays -/

/-- The delay after some attempts, before jitter. -/
def BackoffPolicy.delay (policy : BackoffPolicy) (attempts : Nat) : ℚ :=
  min (policy.baseS * 2 ^ (attempts - 1)) policy.maxS

structure BackoffPolicy.Nonneg (policy : BackoffPolicy) : Prop where
  baseS : 0 ≤ policy.baseS
  maxS : 0 ≤ policy.maxS
  jitter : 0 ≤ policy.jitter

theorem BackoffPolicy.Nonneg.delay (h : policy.Nonneg) (a : Nat) : 0 ≤ policy.delay a := by
  have hbase : (0 : ℚ) ≤ policy.baseS := by exact_mod_cast h.baseS
  have hmax : (0 : ℚ) ≤ policy.maxS := by exact_mod_cast h.maxS
  exact le_min (by positivity) hmax

theorem BackoffPolicy.Nonneg.delay_mono (h : policy.Nonneg) (hab : a ≤ b) :
    policy.delay a ≤ policy.delay b := by
  have hbase : (0 : ℚ) ≤ policy.baseS := by exact_mod_cast h.baseS
  have hpow : (2 : ℚ) ^ (a - 1) ≤ 2 ^ (b - 1) :=
    pow_le_pow_right₀ (by norm_num) (Nat.sub_le_sub_right hab 1)
  exact min_le_min_right _ (mul_le_mul_of_nonneg_left hpow hbase)

theorem backoffSeconds_eq :
    backoffSeconds a policy factor = max 0 (policy.delay a * (1 + policy.jitter * factor)) := rfl

theorem backoffSeconds_nonneg : 0 ≤ backoffSeconds a policy factor := le_max_left _ _

/-- Jitter moves the delay by its share of it at most. -/
theorem backoffSeconds_bounds (h : policy.Nonneg) (hfactor : -1 ≤ factor ∧ factor ≤ 1) :
    max 0 (policy.delay a * (1 - policy.jitter)) ≤ backoffSeconds a policy factor ∧
      backoffSeconds a policy factor ≤ policy.delay a * (1 + policy.jitter) := by
  have hdelay := h.delay a
  have hlow : 1 - policy.jitter ≤ 1 + policy.jitter * factor := by
    nlinarith [h.jitter, hfactor.1]
  have hhigh : 1 + policy.jitter * factor ≤ 1 + policy.jitter := by
    nlinarith [h.jitter, hfactor.2]
  rw [backoffSeconds_eq]
  refine ⟨max_le_max_left 0 (mul_le_mul_of_nonneg_left hlow hdelay), max_le ?_ ?_⟩
  · exact mul_nonneg hdelay (by linarith [h.jitter])
  · exact mul_le_mul_of_nonneg_left hhigh hdelay

/-! ## One operation -/

/-- The environment and the policy of a call that may queue a stage again. -/
def QueueOp.retries : QueueOp → Option (Env × BackoffPolicy)
  | .call env (.fail _ _ _ backoff) => some (env, backoff)
  | .call env (.reap _ backoff) => some (env, backoff)
  | _ => none

/-- The operation queues the stage again. -/
structure Requeues (db : Db) (op : QueueOp) (id : Nat) (env : Env) (policy : BackoffPolicy)
    (stage stage' : RunStage) : Prop where
  call : op.retries = some (env, policy)
  before : db.stages[id]? = some stage
  after : (op.step db).stages[id]? = some stage'
  left : stage.status ≠ .queued
  queued : stage'.status = .queued

/-- What an operation makes of the time for which a stage waits. -/
inductive Waits (op : QueueOp) (id : Nat) (stage stage' : RunStage) : Prop where
  | keeps (hstatus : stage'.status = stage.status)
      (havailable : stage'.availableAt = stage.availableAt)
  | claims {env : Env} {call : QueueCall} (hop : op = .call env call)
      (hqueued : stage.status = .queued) (hdue : stage.availableAt ≤ env.now)
      (hstatus : stage'.status = .running)
  | requeues {env : Env} {policy : BackoffPolicy} (hop : op.retries = some (env, policy))
      (hrunning : stage.status = .running) (hstatus : stage'.status = .queued)
      (havailable : stage'.availableAt = nextAvailableAt env id stage.attempts policy)
  | ends (hstatus : stage'.status ≠ .queued ∧ stage'.status ≠ .running)

/-- An operation that rewrites one stage lets every other one wait as it did. -/
theorem waits_modify {after : Db} {stageId : Nat} {g : RunStage → RunStage}
    (hafter : after.stages = db.stages.modify stageId g)
    (hg : ∀ stage, db.stages[stageId]? = some stage → Waits op stageId stage (g stage))
    (hstage : db.stages[id]? = some stage) :
    ∃ stage', after.stages[id]? = some stage' ∧ Waits op id stage stage' := by
  rcases eq_or_ne id stageId with rfl | hid
  · exact ⟨g stage, by rw [hafter, getElem?_modify_self hstage], hg stage hstage⟩
  · exact ⟨stage, by rw [hafter, getElem?_modify_of_ne hid, hstage], .keeps rfl rfl⟩

theorem Waits.failedWith {attempt : AttemptIn} {retryable : Bool}
    (hretry : retryable = true ∧ stage.attempts < stage.maxAttempts → stage.status = .running) :
    Waits (.call env (.fail id attempt retryable policy)) id stage
      (stage.failedWith env id attempt retryable policy) := by
  by_cases hcan : retryable = true ∧ stage.attempts < stage.maxAttempts
  · refine .requeues rfl (hretry hcan) ?_ ?_ <;>
      simp [RunStage.failedWith, RunStage.releaseClaim, hcan]
  · refine .ends ?_
    rw [RunStage.failedWith_status, if_neg hcan]
    decide

theorem Waits.reaped {now : Time} (hrunning : stage.status = .running) :
    Waits (.call env (.reap now policy)) id stage (stage.reaped env id policy) := by
  by_cases hcan : stage.attempts < stage.maxAttempts
  · refine .requeues rfl hrunning ?_ ?_ <;>
      simp [RunStage.reaped, RunStage.releaseClaim, hcan]
  · refine .ends ?_
    simp [RunStage.reaped, RunStage.releaseClaim, hcan]

theorem QueueOp.waits (op : QueueOp) (hstage : db.stages[id]? = some stage) :
    ∃ stage', (op.step db).stages[id]? = some stage' ∧ Waits op id stage stage' := by
  have hsame {after : Db} (hafter : after.stages = db.stages) :
      ∃ stage', after.stages[id]? = some stage' ∧ Waits op id stage stage' :=
    ⟨stage, by rw [hafter, hstage], .keeps rfl rfl⟩
  have hcases := op.cases db
  generalize op.step db = after at hcases
  cases hcases with
  | refused => exact hsame rfl
  | added => exact ⟨stage, getElem?_append_of_some hstage, .keeps rfl rfl⟩
  | started hview => exact hsame (congrArg Prod.fst hview)
  | requeued hview => exact hsame (congrArg Prod.fst hview)
  | unclaimed => exact hsame rfl
  | claimed _ hclaimed hclaimable =>
      refine waits_modify rfl (fun row hrow => ?_) hstage
      obtain rfl := Option.some.inj (hclaimed.symm.trans hrow)
      simp only [claimable, Bool.and_eq_true, decide_eq_true_eq] at hclaimable
      exact .claims rfl hclaimable.1.1.1.1.1 hclaimable.1.1.1.1.2 rfl
  | unheld => exact hsame rfl
  | extended =>
      exact waits_modify (Db.updateStage_stages _ _ _) (fun _ _ => .keeps rfl rfl) hstage
  | @completed env _ attempt result =>
      refine waits_modify Db.reported_stages (fun row _ => .ends ?_) hstage
      have hstatus : (row.completed env attempt result).status = .succeeded := rfl
      rw [hstatus]
      decide
  | failed hreported hretry =>
      refine waits_modify Db.reported_stages (fun row hrow => ?_) hstage
      obtain rfl := Option.some.inj (hreported.symm.trans hrow)
      exact .failedWith hretry
  | reaped =>
      refine ⟨_, Db.reaped_stage hstage, ?_⟩
      split_ifs with hexpired
      · exact .reaped (leaseExpired_iff.1 hexpired).1
      · exact .keeps rfl rfl

/-- A stage that is queued again was running, keeps its attempts, and waits for the delay. -/
theorem Requeues.moved (h : Requeues db op id env policy stage stage') :
    stage.status = .running ∧
      stage'.availableAt = env.now + backoffSeconds stage.attempts policy (env.jitter id) := by
  obtain ⟨after, hafter, hwaits⟩ := op.waits h.before
  obtain rfl := Option.some.inj (h.after.symm.trans hafter)
  cases hwaits with
  | keeps hstatus => exact absurd (hstatus.symm.trans h.queued) h.left
  | claims _ _ _ hstatus =>
      rw [h.queued] at hstatus
      cases hstatus
  | requeues hop hrunning _ havailable =>
      obtain ⟨rfl, rfl⟩ := Prod.mk.inj (Option.some.inj (hop.symm.trans h.call))
      exact ⟨hrunning, havailable⟩
  | ends hstatus => exact absurd h.queued hstatus.1

/-! ## Histories -/

/-- The time at which a call is made. -/
def QueueOp.time : QueueOp → Option Time
  | .call env _ => some env.now
  | _ => none

/-- The clock of the calls never goes back. -/
def QueueOp.Clocked (ops : List QueueOp) : Prop := (ops.filterMap QueueOp.time).Pairwise (· ≤ ·)

theorem QueueOp.time_of_retries (h : op.retries = some (env, policy)) :
    op.time = some env.now := by
  cases op with
  | call env' call => cases call <;> cases h <;> rfl
  | _ => cases h

/-- While a stage is queued it is not due before `due`, and while it runs that time has passed. -/
structure Due (db : Db) (id : Nat) (due past : Time) : Prop where
  queued : ∀ stage, db.stages[id]? = some stage → stage.status = .queued → due ≤ stage.availableAt
  running : ∀ stage, db.stages[id]? = some stage → stage.status = .running → due ≤ past

/-- A call at a later time leaves the stage due no earlier. -/
theorem Due.step (h : Due db id due past) (hstage : db.stages[id]? = some stage) {time : Time}
    (hpast : past ≤ time) (htime : op.time = some time ∨ op.time = none ∧ time = past) :
    Due (op.step db) id due time := by
  obtain ⟨stage', hafter, hwaits⟩ := op.waits hstage
  have hsame {row : RunStage} (hrow : (op.step db).stages[id]? = some row) : row = stage' :=
    Option.some.inj (hrow.symm.trans hafter)
  have hat {env : Env} (hop : op.time = some env.now) : time = env.now := by
    rcases htime with htime | ⟨hnone, -⟩
    · exact Option.some.inj (htime.symm.trans hop)
    · rw [hop] at hnone
      cases hnone
  cases hwaits with
  | keeps hstatus havailable =>
      constructor
      · intro row hrow hqueued
        rw [hsame hrow] at hqueued ⊢
        rw [havailable]
        exact h.queued stage hstage (hstatus.symm.trans hqueued)
      · intro row hrow hrunning
        rw [hsame hrow] at hrunning
        exact (h.running stage hstage (hstatus.symm.trans hrunning)).trans hpast
  | @claims env call hop hqueued hdue hstatus =>
      constructor
      · intro row hrow hrow'
        rw [hsame hrow, hstatus] at hrow'
        cases hrow'
      · intro _ _ _
        have hnow : time = env.now := hat (by rw [hop]; rfl)
        rw [hnow]
        exact (h.queued stage hstage hqueued).trans hdue
  | requeues hop hrunning hstatus havailable =>
      constructor
      · intro row hrow _
        rw [hsame hrow, havailable]
        have hnow := hat (QueueOp.time_of_retries hop)
        have hdelay := h.running stage hstage hrunning
        unfold nextAvailableAt
        exact (hdelay.trans hpast).trans (hnow ▸ le_add_of_nonneg_right backoffSeconds_nonneg)
      · intro row hrow hrow'
        rw [hsame hrow, hstatus] at hrow'
        cases hrow'
  | ends hstatus =>
      constructor
      · intro row hrow hrow'
        rw [hsame hrow] at hrow'
        exact absurd hrow' hstatus.1
      · intro row hrow hrow'
        rw [hsame hrow] at hrow'
        exact absurd hrow' hstatus.2

theorem QueueOp.Clocked.tail {ops : List QueueOp} (h : Clocked (op :: ops)) : Clocked ops := by
  unfold Clocked at h ⊢
  rw [List.filterMap_cons] at h
  cases htime : op.time with
  | none => rwa [htime] at h
  | some time =>
      rw [htime] at h
      exact (List.pairwise_cons.1 h).2

theorem QueueOp.Clocked.head {ops : List QueueOp} {time : Time} (h : Clocked (op :: ops))
    (htime : op.time = some time) (later : QueueOp) (hlater : later ∈ ops) (t : Time)
    (ht : later.time = some t) : time ≤ t := by
  unfold Clocked at h
  rw [List.filterMap_cons, htime] at h
  exact (List.pairwise_cons.1 h).1 t (List.mem_filterMap.2 ⟨later, hlater, ht⟩)

theorem QueueOp.Clocked.init {ops rest : List QueueOp} (h : Clocked (ops ++ rest)) :
    Clocked ops := by
  unfold Clocked at h ⊢
  rw [List.filterMap_append] at h
  exact (List.pairwise_append.1 h).1

/-- Along a history whose clock does not go back the stage is due no earlier. -/
theorem Due.run {ops : List QueueOp} (h : Due db id due past)
    (hstage : db.stages[id]? = some stage) (hclocked : QueueOp.Clocked ops)
    (hpast : ∀ op ∈ ops, ∀ t, op.time = some t → past ≤ t) :
    ∃ later, Due (runQueue db ops) id due later := by
  induction ops generalizing db past stage with
  | nil => exact ⟨past, h⟩
  | cons op ops ih =>
      obtain ⟨stage', hstage', -⟩ := op.waits hstage
      cases htime : op.time with
      | none =>
          exact ih (h.step hstage le_rfl (.inr ⟨htime, rfl⟩)) hstage' hclocked.tail
            fun op' hop' => hpast op' (List.mem_cons_of_mem _ hop')
      | some time =>
          exact ih (h.step hstage (hpast op List.mem_cons_self time htime) (.inl htime)) hstage'
            hclocked.tail (hclocked.head htime)

/-- The operation does not queue the stage again. -/
def QueueOp.SparesRetry (id : Nat) (db : Db) (op : QueueOp) : Prop :=
  ∀ env policy stage stage', ¬ Requeues db op id env policy stage stage'

/-- While it is not queued again a stage is due when it was, whatever the clock says. -/
theorem due_run {ops : List QueueOp} (hstage : db.stages[id]? = some stage)
    (hqueued : stage.status = .queued → due ≤ stage.availableAt)
    (hspares : EachStep QueueOp.step (QueueOp.SparesRetry id) db ops)
    (hlater : (runQueue db ops).stages[id]? = some stage') (hqueued' : stage'.status = .queued) :
    due ≤ stage'.availableAt := by
  induction ops generalizing db stage with
  | nil =>
      obtain rfl := Option.some.inj (hstage.symm.trans hlater)
      exact hqueued hqueued'
  | cons op ops ih =>
      obtain ⟨row, hrow, hwaits⟩ := op.waits hstage
      refine ih hrow (fun hrowQueued => ?_) hspares.2 hlater
      cases hwaits with
      | keeps hstatus havailable =>
          rw [havailable]
          exact hqueued (hstatus.symm.trans hrowQueued)
      | claims _ _ _ hstatus =>
          rw [hrowQueued] at hstatus
          cases hstatus
      | requeues hop hrunning hstatus _ =>
          refine absurd ⟨hop, hstage, hrow, ?_, hstatus⟩ (hspares.1 _ _ _ _)
          rw [hrunning]
          decide
      | ends hstatus => exact absurd hrowQueued hstatus.1

/-! ## Retries -/

/-- The call is a claim that returns the stage. -/
def QueueOp.Returns (db : Db) (op : QueueOp) (id : Nat) (env : Env) : Prop :=
  ∃ workerId substrates houses leaseSeconds,
    op = .call env (.claim workerId substrates houses leaseSeconds) ∧
      (commit (claimStage env workerId substrates houses leaseSeconds) db).result = .ok (some id)

/-- A claim returns a stage that is queued and due. -/
theorem QueueOp.Returns.claimable (h : op.Returns db id env) :
    ∃ stage, db.stages[id]? = some stage ∧ stage.status = .queued ∧
      stage.availableAt ≤ env.now := by
  obtain ⟨workerId, substrates, houses, leaseSeconds, -, hresult⟩ := h
  obtain ⟨error, hcommit⟩ | ⟨claimed, s, hs, -, hcommit⟩ :=
    commit_cases (claimStage env workerId substrates houses leaseSeconds) db
  · rw [hcommit] at hresult
    cases hresult
  rw [hcommit] at hresult
  cases hresult
  obtain ⟨hnone, -⟩ | ⟨stageId, stage, hclaimed, hstage, hclaimable, -⟩ :=
    returns_claimStage hs (Synced.clean _ db)
  · cases hnone
  cases hclaimed
  simp only [AiFund.claimable, Bool.and_eq_true, decide_eq_true_eq] at hclaimable
  exact ⟨stage, hstage, hclaimable.1.1.1.1.1, hclaimable.1.1.1.1.2⟩

theorem Accounted.attempts_pos (h : Accounted db id stage) (hrunning : stage.status = .running) :
    1 ≤ stage.attempts := by
  obtain ⟨key, a, ha, hstage, -, hno⟩ := h.exists_open hrunning
  have hof : a ∈ db.attemptsOf id :=
    List.mem_filter.2 ⟨List.mem_of_getElem? ha, by simpa using hstage⟩
  have hmem : stage.attempts ∈ List.range' 1 stage.attempts := by
    rw [← h.numbers, ← hno]
    exact List.mem_map_of_mem hof
  exact (List.mem_range'_1.1 hmem).1

/-- What follows a retry: it is due after a delay around that of its attempts, no claim returns the
stage before, and every later retry has at least its least delay. -/
structure BacksOff (db : Db) (op : QueueOp) (id : Nat) (env : Env) (policy : BackoffPolicy)
    (stage stage' : RunStage) : Prop where
  attempts : 1 ≤ stage.attempts
  lower : env.now + max 0 (policy.delay stage.attempts * (1 - policy.jitter)) ≤ stage'.availableAt
  upper : stage'.availableAt ≤ env.now + policy.delay stage.attempts * (1 + policy.jitter)
  unclaimed : ∀ (between : List QueueOp) (claim : QueueOp) (env' : Env),
    claim.Returns (runQueue db (op :: between)) id env' →
    QueueOp.Clocked (op :: between ++ [claim]) ∨
      EachStep QueueOp.step (QueueOp.SparesRetry id) (op.step db) between →
    stage'.availableAt ≤ env'.now
  grows : policy.jitter ≤ 1 → ∀ (between : List QueueOp) (op' : QueueOp) (env' : Env)
    (later later' : RunStage),
    Requeues (runQueue db (op :: between)) op' id env' policy later later' →
    policy.delay stage.attempts * (1 - policy.jitter) ≤
      policy.delay later.attempts * (1 - policy.jitter)

/-- Every retry in a history of the queue backs off. -/
theorem runQueue_backsOff (db : Db) (ops : List QueueOp)
    (h : Requeues (runQueue db.withoutStages ops) op id env policy stage stage')
    (hpolicy : policy.Nonneg) :
    BacksOff (runQueue db.withoutStages ops) op id env policy stage stage' := by
  have hinv : AttemptInv (runQueue db.withoutStages ops) :=
    History.invariant_of_forall (fun _ _ h => h.step) (.withoutStages db)
  obtain ⟨hrunning, havailable⟩ := h.moved
  obtain ⟨hlow, hhigh⟩ := backoffSeconds_bounds (a := stage.attempts) hpolicy (env.jitter id).2
  refine ⟨(hinv.accounted id stage h.before).attempts_pos hrunning, ?_, ?_, ?_, ?_⟩
  · rw [havailable]
    exact add_le_add_right hlow _
  · rw [havailable]
    exact add_le_add_right hhigh _
  · rintro between claim env' hreturns (hclocked | hspares)
    · obtain ⟨row, hrow, hqueued, hdue⟩ := hreturns.claimable
      have hstart : Due (QueueOp.step (runQueue db.withoutStages ops) op) id stage'.availableAt
          env.now := by
        constructor
        · intro found hfound _
          obtain rfl := Option.some.inj (hfound.symm.trans h.after)
          exact le_rfl
        · intro found hfound hrun
          obtain rfl := Option.some.inj (hfound.symm.trans h.after)
          rw [h.queued] at hrun
          cases hrun
      have htime := QueueOp.time_of_retries h.call
      obtain ⟨later, hlater⟩ := hstart.run h.after hclocked.init.tail
        fun op' hop' => hclocked.init.head htime op' hop'
      exact (hlater.queued row hrow hqueued).trans hdue
    · obtain ⟨row, hrow, hqueued, hdue⟩ := hreturns.claimable
      exact (due_run h.after (fun _ => le_rfl) hspares hrow hqueued).trans hdue
  · intro hjitter between op' env' later later' hlater
    have hattempts : (runQueue (runQueue db.withoutStages ops) (op :: between)).attemptsAt id =
        (runQueue db.withoutStages ops).attemptsAt id + claimCount id _ (op :: between) :=
      attemptsAt_runQueue _
    have hle : stage.attempts ≤ later.attempts := by
      simp only [Db.attemptsAt, h.before, hlater.before, Option.map_some, Option.getD_some]
        at hattempts
      omega
    exact mul_le_mul_of_nonneg_right (hpolicy.delay_mono hle) (by linarith)

/-- A failure that is worth a retry. -/
def QueueOp.retriedBy (workerId : String) (time : Time) : QueueOp :=
  .call (.quiet time) (.fail 0 { workerId } true ⟨60, 3600, 1 / 10⟩)

theorem runQueue_backsOff_retried : ∃ stage stage',
    BacksOff (runQueue (Db.oneRun none).withoutStages QueueOp.pmQueryClaimed)
      (.retriedBy "w1" 2) 0 (.quiet 2) ⟨60, 3600, 1 / 10⟩ stage stage' := by
  set db := runQueue (Db.oneRun none).withoutStages QueueOp.pmQueryClaimed
  have hbefore : db.stages[0]?.map (·.status) = some .running := by decide +kernel
  have hafter : (QueueOp.step db (.retriedBy "w1" 2)).stages[0]?.map (·.status) =
      some .queued := by
    decide +kernel
  obtain ⟨stage, hstage, hrunning⟩ := Option.map_eq_some_iff.1 hbefore
  obtain ⟨stage', hstage', hqueued⟩ := Option.map_eq_some_iff.1 hafter
  refine ⟨stage, stage', runQueue_backsOff (Db.oneRun none) _
    ⟨rfl, hstage, hstage', ?_, hqueued⟩ ⟨by decide, by decide, by norm_num⟩⟩
  rw [hrunning]
  decide

end AiFund
