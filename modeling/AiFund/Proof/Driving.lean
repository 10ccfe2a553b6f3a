import AiFund.DrivenSystem
import AiFund.Library.Traced
import AiFund.Proof.Draining

/-!
# Ticks that look at the runner

What the fake runner does while it is drained are calls of the queue. So a tick that drains it is a
tick with some list of calls for each run, and what holds of every such tick holds of it.
-/

namespace AiFund

open UnitOfWork Rows

variable {env : Env} {fund : FundConfig} {s s' : Session Db} {r : Nat} {workerId : String}
  {leaseSeconds : ℚ} {runner : FakeRunner} {memory : FakeRunner.Memory}

/-! ## Rounds made of calls -/

/-- A call and its time, as a transaction. -/
def timed (call : Env × QueueCall) : DbTxn PUnit := call.2.perform call.1

theorem traced_claim : Traced timed (claimStage env workerId [] [] leaseSeconds) :=
  .of_void (i := (env, .claim workerId [] [] leaseSeconds)) rfl

theorem traced_heartbeat {stageId : Nat} :
    Traced timed (heartbeat env stageId workerId leaseSeconds) :=
  .of_void (i := (env, .heartbeat stageId workerId leaseSeconds)) rfl

theorem traced_completeStage {stageId : Nat} {attempt : AttemptIn} {result : JsonObject} :
    Traced timed (completeStage env stageId attempt result) :=
  Traced.call (f := timed) (env, .complete stageId attempt result)

theorem traced_failStage {stageId : Nat} {attempt : AttemptIn} {retryable : Bool}
    {backoff : BackoffPolicy} :
    Traced timed (failStage env stageId attempt retryable backoff) :=
  Traced.call (f := timed) (env, .fail stageId attempt retryable backoff)

/-- The session of a worker that has just claimed the stage. -/
theorem returns_claimStage_some {stageId : Nat}
    (h : Returns (claimStage env workerId [] [] leaseSeconds) s (some stageId) s') :
    stageId < s'.stored.stages.length ∧ ∃ stage : RunStage,
      s'.loaded.stages[stageId]? = some stage ∧ stage.claimedBy = some workerId ∧
      stage.status = .running ∧ stage.leaseExpiresAt = some (env.now + leaseSeconds) := by
  unfold claimStage at h
  rw [returns_select_bind] at h
  cases hclaim : claimCandidate env [] [] s.stored with
  | none =>
      rw [hclaim] at h
      cases (returns_pure.1 h).1
  | some id =>
      rw [hclaim] at h
      obtain ⟨hlt, stage, hstage, h⟩ := returns_getRow_bind.1 h
      rw [returns_assign_bind, returns_assign_bind, returns_flush_bind] at h
      obtain ⟨heq, rfl⟩ := returns_pure.1 h.2
      obtain rfl := Option.some.inj heq
      have hrow := getElem?_modify_self (f := fun stage : RunStage =>
        stage.claimedFor workerId env.now (env.now + leaseSeconds)) hstage
      exact ⟨(List.getElem?_eq_some_iff.1 hrow).1, _, hrow, rfl, rfl, rfl⟩

/-- A heartbeat at the time of the claim writes what the claim has written. -/
theorem returns_heartbeat_again {stageId : Nat} {stage : RunStage}
    (hlt : stageId < s.stored.stages.length) (hstage : s.loaded.stages[stageId]? = some stage)
    (hholder : stage.claimedBy = some workerId) (hrunning : stage.status = .running)
    (hlease : stage.leaseExpiresAt = some (env.now + leaseSeconds))
    (h : Returns (flush : DbTxn Unit) s () s') :
    Returns (heartbeat env stageId workerId leaseSeconds) s true s' := by
  have hsame : (s.loaded.updateStage stageId fun stage =>
      { stage with leaseExpiresAt := some (env.now + leaseSeconds) }) = s.loaded := by
    have hkept : (s.loaded.updateStage stageId fun stage =>
        { stage with leaseExpiresAt := some (env.now + leaseSeconds) }) =
          s.loaded.updateStage stageId id := by
      refine Db.updateStage_congr fun row hrow => ?_
      obtain rfl := Option.some.inj (hstage.symm.trans hrow)
      rw [← hlease]
      rfl
    rw [hkept, Db.updateStage, List.modify_id]
  unfold heartbeat
  rw [returns_lookup_bind, if_pos hlt, hstage]
  dsimp only
  rw [if_neg (by simp [hholder, hrunning]), returns_assign_bind, hsame]
  exact returns_bind.2 ⟨(), s', h, returns_pure.2 ⟨rfl, rfl⟩⟩

namespace FakeRunner

variable {claimed reported : Env}

theorem traced_round :
    Traced timed (runner.round claimed reported workerId leaseSeconds memory) := by
  intro s round s' h
  obtain ⟨candidate, s₁, hclaim, h⟩ := returns_bind.1 h
  obtain ⟨calls, hcalls⟩ := traced_claim hclaim
  cases candidate with
  | none =>
      obtain ⟨-, rfl⟩ := returns_pure.1 h
      exact ⟨calls, hcalls⟩
  | some stageId =>
      have hprocess : ∃ calls : List (Env × QueueCall), Returns (calls.forM timed) s₁ ⟨⟩ s' := by
        obtain ⟨-, stage, hstage, h⟩ := returns_getRow_bind.1 h
        split_ifs at h with hhangs hfails
        · obtain ⟨hlt, row, hrow, hholder, hrunning, hlease⟩ := returns_claimStage_some hclaim
          obtain ⟨_, s₂, hflush, hpure⟩ := returns_bind.1 h
          obtain ⟨-, rfl⟩ := returns_pure.1 hpure
          exact traced_heartbeat
            (returns_heartbeat_again hlt hrow hholder hrunning hlease hflush)
        · exact (traced_failStage.bind fun _ => .pure _) h
        · exact (traced_completeStage.bind fun _ => .pure _) h
      obtain ⟨more, hmore⟩ := hprocess
      exact ⟨calls ++ more, returns_forM_append.2 ⟨s₁, hcalls, hmore⟩⟩

theorem traced_rounds {clock : Nat → Env} {fuel n : Nat} :
    Traced timed (runner.rounds clock workerId leaseSeconds fuel memory n) := by
  induction fuel generalizing memory n with
  | zero => exact .pure _
  | succ fuel ih =>
      refine traced_round.bind fun round => ?_
      cases round with
      | idle => exact .pure _
      | hung => exact .pure _
      | reported memory => exact ih

theorem traced_drained {clock : Nat → Env} :
    Traced timed (runner.drained clock workerId leaseSeconds memory) :=
  .bind (.bind (.select _) fun _ => traced_rounds) fun _ => .pure _

end FakeRunner

/-! ## Ticks made of calls -/

section Ticks

variable {M : Type} {drain : Nat → M → DbTxn M}

/-- An advance that looks at its runner is an advance with some calls. -/
theorem advanceWith_traced {drain : M → DbTxn M} {memory memory' : M}
    (hdrain : ∀ memory, Traced timed (drain memory))
    (h : Returns (Engine.advanceWith env fund drain memory r) s memory' s') :
    ∃ calls, Returns (Engine.advanceRun env fund ⟨fun _ => calls⟩ r) s () s' := by
  unfold Engine.advanceWith at h
  obtain ⟨hlt, run, hrun, h⟩ := returns_getRow_bind.1 h
  split_ifs at h with hstatus
  · obtain ⟨-, rfl⟩ := returns_pure.1 h
    refine ⟨[], returns_getRow_bind.2 ⟨hlt, run, hrun, ?_⟩⟩
    rw [if_pos hstatus]
    exact returns_pure.2 ⟨rfl, rfl⟩
  · obtain ⟨memory₁, s₁, hdrained, h⟩ := returns_bind.1 h
    obtain ⟨calls, hcalls⟩ := hdrain memory hdrained
    refine ⟨calls, returns_getRow_bind.2 ⟨hlt, run, hrun, ?_⟩⟩
    rw [if_neg hstatus]
    refine returns_bind.2 ⟨(), s₁, hcalls, ?_⟩
    rw [returns_select_bind] at h ⊢
    obtain ⟨_, s₂, hdigest, h⟩ := returns_bind.1 h
    obtain ⟨_, s₃, hsettle, h⟩ := returns_bind.1 h
    obtain ⟨-, rfl⟩ := returns_pure.1 h
    exact returns_bind.2 ⟨⟨⟩, s₂, hdigest, hsettle⟩

theorem tickWith_traced {memory memory' : M} (hdrain : ∀ r memory, Traced timed (drain r memory))
    (h : Returns (Engine.tickWith env fund drain memory) s memory' s') :
    ∃ calls, Returns (Engine.tick env fund ⟨calls⟩) s () s' := by
  unfold Engine.tickWith at h
  rw [returns_select_bind] at h
  obtain ⟨_, s₁, hpromote, h⟩ := returns_bind.1 h
  rw [returns_select_bind] at h
  have hbody (memory : M) (r : Nat) (s : Session Db) (memory' : M) (s' : Session Db)
      (h : Returns (Engine.advanceWith env fund (drain r) memory r) s memory' s') :
      ∃ calls : List (Env × QueueCall),
        Returns (Engine.advanceRun env fund ⟨fun _ => calls⟩ r) s () s' :=
    advanceWith_traced (hdrain r) h
  obtain ⟨calls, hcalls⟩ := traced_foldlM (env.rows .runningRuns).nodup_all hbody h
  refine ⟨calls, returns_select_bind.2 (returns_bind.2 ⟨⟨⟩, s₁, hpromote, ?_⟩)⟩
  exact returns_select_bind.2 hcalls

end Ticks

/-! ## Histories -/

/-- An operation with a runner is an operation of the system, or changes nothing. -/
theorem DrivenOp.becomes (app : App) (db : Db) (op : DrivenOp) :
    ∃ ops, op.Becomes ops ∧ op.step app db = run app db ops := by
  cases op with
  | system op => exact ⟨[op], .system op, rfl⟩
  | advance env draining clock runId =>
      obtain ⟨error, hcommit⟩ | ⟨memory, s, hs, hviolation, hcommit⟩ :=
        commit_cases (draining.advance env app.fund clock runId) db
      · exact ⟨[], .advanceRefused .., congrArg Outcome.after hcommit⟩
      · obtain ⟨calls, hcalls⟩ := advanceWith_traced (fun _ => FakeRunner.traced_drained) hs
        refine ⟨[_], .advance env draining clock runId calls, ?_⟩
        exact (congrArg Outcome.after hcommit).trans
          (congrArg Outcome.after (commit_of_returns hcalls hviolation)).symm
  | tick env draining clock =>
      obtain ⟨error, hcommit⟩ | ⟨memory, s, hs, hviolation, hcommit⟩ :=
        commit_cases (draining.tick env app.fund clock) db
      · exact ⟨[], .tickRefused .., congrArg Outcome.after hcommit⟩
      · obtain ⟨calls, hcalls⟩ := tickWith_traced (fun _ _ => FakeRunner.traced_drained) hs
        refine ⟨[_], .tick env draining clock calls, ?_⟩
        exact (congrArg Outcome.after hcommit).trans
          (congrArg Outcome.after (commit_of_returns hcalls hviolation)).symm

/-- A history in which runners that look at the store are drained is a history of the system, each
of them replaced by the calls that it makes. So what holds after every history of the system holds
after it. -/
theorem runDriven_run (app : App) (db : Db) (ops : List DrivenOp) :
    ∃ pieces, List.Forall₂ DrivenOp.Becomes ops pieces ∧
      runDriven app db ops = run app db pieces.flatten := by
  induction ops generalizing db with
  | nil => exact ⟨[], .nil, rfl⟩
  | cons op ops ih =>
      obtain ⟨piece, hpiece, hstep⟩ := op.becomes app db
      obtain ⟨pieces, hpieces, hrest⟩ := ih (op.step app db)
      refine ⟨piece :: pieces, .cons hpiece hpieces, ?_⟩
      calc
        runDriven app db (op :: ops) = runDriven app (op.step app db) ops := rfl
        _ = run app (op.step app db) pieces.flatten := hrest
        _ = run app (run app db piece) pieces.flatten := by rw [hstep]
        _ = run app db (piece :: pieces).flatten := (History.run_append _).symm

end AiFund
