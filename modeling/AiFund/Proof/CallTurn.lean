import AiFund.Proof.Claims
import AiFund.Proof.Refusals
import AiFund.Proof.Turns

/-!
# The turn of a call

A runner's claims and heartbeats and the reaper always return. A report returns exactly if its stage
is running, or is given up for good.
-/

namespace AiFund

open UnitOfWork Rows

variable {env : Env} {r stageId : Nat} {s : Session Db} {stage : RunStage}
  {coverageId : Option Nat}

namespace Db.Serves

variable {db : Db}

theorem updateStage {f : RunStage → RunStage} (h : db.Serves r coverageId)
    (hf : ∀ stage, ((f stage).runId, (f stage).seq, (f stage).house) =
      (stage.runId, stage.seq, stage.house)) : (db.updateStage stageId f).Serves r coverageId :=
  ⟨h.sound.updateStage hf, h.run, h.coverage⟩

theorem close {id : Option Nat} {f : StageAttempt → StageAttempt} (h : db.Serves r coverageId)
    (hf : ∀ attempt, ((f attempt).stageId, (f attempt).attemptNo) =
      (attempt.stageId, attempt.attemptNo)) : (db.close id f).Serves r coverageId := by
  refine ⟨h.sound.close hf, ?_, ?_⟩
  · cases id <;> exact h.run
  · cases id <;> exact h.coverage

end Db.Serves

theorem completes_closeAttempt {attempt : AttemptIn} {status : AttemptStatus}
    {result : Option JsonObject} {errors : Option Json} {killReason : Option String} :
    Completes (Db.Serves r coverageId)
      (closeAttempt env stageId attempt status result errors killReason) :=
  .bind (.select _) fun _ => .bind (.assign fun _ h => h.close fun _ => rfl) fun _ =>
    .assign fun _ h => h.updateStage fun _ => rfl

theorem completes_rollupRun : Completes (Db.Serves r coverageId) (rollupRun r) := by
  refine .bind (.select _) fun total => .bind (fun s hstored hloaded => ?_) fun _ =>
    .assign fun _ h => h.updateRun fun _ => rfl
  have hrun := List.getElem?_eq_getElem hloaded.run
  exact ⟨_, s, returns_getRow.2 ⟨hstored.run, hrun, rfl⟩, hstored, hloaded⟩

/-- What follows the transition of a reported stage. -/
theorem completes_reported {f : RunStage → RunStage}
    (hf : ∀ stage, ((f stage).runId, (f stage).seq, (f stage).house) =
      (stage.runId, stage.seq, stage.house)) :
    Completes (Db.Serves r coverageId) (do
      assign fun db => db.updateStage stageId f
      rollupRun r
      flush) :=
  .bind (.assign fun _ h => h.updateStage hf) fun _ => .bind completes_rollupRun fun _ =>
    .flush fun _ h => h.sound.legal

/-- A stage that is stored is found, and so is its run. -/
theorem Orderly.found (hs : Orderly s) (hstage : s.stored.stages[stageId]? = some stage) :
    s.loaded.stages[stageId]? = some stage ∧ s.stored.Serves stage.runId none ∧
      s.loaded.Serves stage.runId none := by
  obtain ⟨run, hrun⟩ := Db.run_of_stage hs.stored.legal hstage
  have hlt := (List.getElem?_eq_some_iff.1 hrun).1
  exact ⟨getElem?_of_grown hs.stages hstage, ⟨hs.stored, hlt, rfl⟩, hs.loaded, hs.runs ▸ hlt, rfl⟩

/-- What is loaded of a stage that is stored is what is stored. -/
theorem Orderly.stored_stage (hs : Orderly s) (hid : stageId < s.stored.stages.length)
    (hstage : s.loaded.stages[stageId]? = some stage) :
    s.stored.stages[stageId]? = some stage := by
  have hfound := List.getElem?_eq_getElem hid
  rw [hfound, ← getElem?_of_grown hs.stages hfound, hstage]

/-- A transaction on a row that is found returns if what follows completes. -/
theorem exists_getRow_bind {ρ : Type} {table : Db → List ρ} {id : Nat} {row : ρ}
    {J : Db → Prop} {f : ρ → DbTxn Unit} (hid : id < (table s.stored).length)
    (hrow : (table s.loaded)[id]? = some row) (hf : Completes J (f row)) (hstored : J s.stored)
    (hloaded : J s.loaded) : ∃ s', Returns (getRow table id >>= f) s () s' := by
  obtain ⟨_, s', h, -⟩ := hf s hstored hloaded
  exact ⟨s', returns_getRow_bind.2 ⟨hid, row, hrow, h⟩⟩

theorem completes_ofExcept {α ε : Type} {J : Db → Prop} {wrap : ε → PyError} {x : Except ε α}
    (h : ∃ a, x = .ok a) : Completes J (ofExcept wrap x) := by
  obtain ⟨a, rfl⟩ := h
  exact .pure a

/-! ## Reports -/

theorem completeStage_iff {attempt : AttemptIn} {result : JsonObject} (hs : Orderly s) :
    (∃ stage, s.stored.stages[stageId]? = some stage ∧ stage.status = .running) ↔
      ∃ s', Returns (completeStage env stageId attempt result) s () s' := by
  constructor
  · rintro ⟨stage, hstage, hrunning⟩
    obtain ⟨hloaded, hserves, hserves'⟩ := hs.found hstage
    refine exists_getRow_bind (List.getElem?_eq_some_iff.1 hstage).1 hloaded
      (.bind completes_closeAttempt fun _ => .bind (completes_ofExcept ?_) fun _ =>
        completes_reported fun _ => rfl) hserves hserves'
    rw [hrunning]
    exact (stageTransition_running _).1
  · rintro ⟨s', h⟩
    obtain ⟨hid, stage, hstage, h⟩ := returns_getRow_bind.1 h
    obtain ⟨_, s₁, -, h⟩ := returns_bind.1 h
    obtain ⟨sm, hsm, -⟩ := returns_ofExcept_bind.1 h
    refine ⟨stage, hs.stored_stage hid hstage, ?_⟩
    by_contra hstopped
    obtain ⟨⟨error, herror⟩, -⟩ := stageTransition_refused _ hstopped
    cases herror.symm.trans hsm

theorem failStage_iff {attempt : AttemptIn} {retryable : Bool} {backoff : BackoffPolicy}
    (hs : Orderly s) :
    (∃ stage, s.stored.stages[stageId]? = some stage ∧
        (retryable = true → stage.attempts < stage.maxAttempts → stage.status = .running)) ↔
      ∃ s', Returns (failStage env stageId attempt retryable backoff) s () s' := by
  constructor
  · rintro ⟨stage, hstage, hretries⟩
    obtain ⟨hloaded, hserves, hserves'⟩ := hs.found hstage
    have hreleased : Completes (Db.Serves stage.runId none)
        (retryOrFail env stageId stage retryable backoff) := by
      unfold retryOrFail
      split
      · rename_i hretry
        refine .bind (completes_ofExcept ?_) fun _ => .assign fun _ h => h.updateStage fun _ => rfl
        rw [hretries hretry.1 hretry.2]
        exact (stageTransition_running _).2 hretry.2
      · exact .assign fun _ h => h.updateStage fun _ => rfl
    exact exists_getRow_bind (List.getElem?_eq_some_iff.1 hstage).1 hloaded
      (.bind completes_closeAttempt fun _ => .bind hreleased fun _ =>
        .bind completes_rollupRun fun _ => .flush fun _ h => h.sound.legal) hserves hserves'
  · rintro ⟨s', h⟩
    obtain ⟨hid, stage, hstage, h⟩ := returns_getRow_bind.1 h
    obtain ⟨_, s₁, -, h⟩ := returns_bind.1 h
    obtain ⟨_, s₂, h, -⟩ := returns_bind.1 h
    refine ⟨stage, hs.stored_stage hid hstage, fun hretryable hleft => ?_⟩
    by_contra hstopped
    unfold retryOrFail at h
    rw [if_pos ⟨hretryable, hleft⟩] at h
    obtain ⟨sm, hsm, -⟩ := returns_ofExcept_bind.1 h
    obtain ⟨-, error, herror⟩ := stageTransition_refused _ hstopped
    cases herror.symm.trans hsm

/-! ## Other calls -/

theorem exists_claimStage (env : Env) {workerId : String} {substrates : List Substrate}
    {houses : List String} {leaseSeconds : ℚ} (hs : Orderly s) (hkept : AttemptInv s.loaded) :
    ∃ claimed s',
      Returns (claimStage env workerId substrates houses leaseSeconds) s claimed s' := by
  unfold claimStage
  simp only [returns_select_bind]
  cases hcandidate : claimCandidate env substrates houses s.stored with
  | none => exact ⟨none, s, returns_pure.2 ⟨rfl, rfl⟩⟩
  | some id =>
      obtain ⟨stage, hstage, -⟩ := claimCandidate_eq_some hcandidate
      obtain ⟨hloaded, -⟩ := hs.found hstage
      have hlegal : Schema.violation (s.loaded.claimed env id stage workerId leaseSeconds) = none :=
        hkept.violation_claimed hs.loaded.legal hloaded
      exact ⟨some id, _, returns_getRow_bind.2 ⟨(List.getElem?_eq_some_iff.1 hstage).1, stage,
        hloaded, returns_assign_bind.2 (returns_assign_bind.2 (returns_flush_bind.2
          ⟨hlegal, returns_pure.2 ⟨rfl, rfl⟩⟩))⟩⟩

theorem completes_heartbeat {workerId : String} {leaseSeconds : ℚ} :
    Completes Db.Sound (heartbeat env stageId workerId leaseSeconds) := by
  refine .bind (.lookup _ _) fun found => ?_
  cases found with
  | none => exact .pure _
  | some stage =>
      exact .ite (.pure _) (.bind (.assign fun _ h => h.updateStage fun _ => rfl) fun _ =>
        .bind (.flush fun _ h => h.legal) fun _ => .pure _)

theorem completes_reapExpired {now : Time} {backoff : BackoffPolicy} :
    Completes Db.Sound (reapExpired env now backoff) := by
  refine .bind (.select _) fun expired => .bind (.forM fun id _ => ?_) fun _ =>
    .bind (.flush fun _ h => h.legal) fun _ => .pure _
  refine .bind (.select _) fun _ => .bind (.assign fun _ h => h.close fun _ => rfl) fun _ =>
    .assign fun _ h => h.updateStage fun stage => ?_
  unfold RunStage.reaped RunStage.releaseClaim
  split <;> rfl

/-- A call returns exactly if it can be made. -/
theorem queueCall_iff {call : QueueCall} (hs : Orderly s) (hkept : AttemptInv s.loaded) :
    Engine.CanCall s.stored call ↔ ∃ s', Returns (call.perform env) s () s' := by
  cases call with
  | claim workerId substrates houses leaseSeconds =>
      obtain ⟨claimed, s', h⟩ := exists_claimStage env hs hkept
      exact iff_of_true trivial ⟨s', returns_bind.2 ⟨claimed, s', h, returns_pure.2 ⟨rfl, rfl⟩⟩⟩
  | heartbeat stageId workerId leaseSeconds =>
      obtain ⟨_, s', h, -⟩ := completes_heartbeat s hs.stored hs.loaded
      exact iff_of_true trivial ⟨s', returns_bind.2 ⟨_, s', h, returns_pure.2 ⟨rfl, rfl⟩⟩⟩
  | complete stageId attempt result => exact completeStage_iff hs
  | fail stageId attempt retryable backoff => exact failStage_iff hs
  | reap now backoff =>
      obtain ⟨_, s', h, -⟩ := completes_reapExpired s hs.stored hs.loaded
      exact iff_of_true trivial ⟨s', returns_bind.2 ⟨_, s', h, returns_pure.2 ⟨rfl, rfl⟩⟩⟩

end AiFund
