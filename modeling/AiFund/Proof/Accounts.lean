import AiFund.Proof.Attempts
import AiFund.Proof.Sessions

/-!
# The books of the whole system

A transaction of the system makes many queue calls, and cross-checks may be pending between them. A
session is booked if its attempts are stored and what it has pending are new stages at most; every
part of the program keeps it so.
-/

namespace AiFund

open UnitOfWork Rows

variable {env : Env} {app : App} {fund : FundConfig} {db db' : Db} {s s' : Session Db} {r : Nat}
  {α : Type}

/-- The books of the session are kept; it has no attempts pending, and no stages but new ones. -/
structure Booked (s : Session Db) : Prop where
  kept : AttemptInv s.loaded
  attempts : s.stored.attempts = s.loaded.attempts
  stages : s.stored.stages <+: s.loaded.stages

namespace Booked

theorem clean (h : AttemptInv db) : Booked (Session.clean db) := ⟨h, rfl, List.prefix_rfl⟩

theorem write (h : AttemptInv db) : Booked (s.write db db) := ⟨h, rfl, List.prefix_rfl⟩

/-- What does not touch the stages and their attempts keeps a session booked. -/
theorem of_fixes {m : DbTxn α} (hm : Fixes Db.stageTables m) : Maintains Booked m := by
  rintro s a s' h ⟨hkept, hattempts, hstages⟩
  obtain ⟨hloaded, hstored⟩ := hm h
  have hloadedStages : s'.loaded.stages = s.loaded.stages := congrArg Prod.fst hloaded
  have hloadedAttempts : s'.loaded.attempts = s.loaded.attempts := congrArg Prod.snd hloaded
  refine ⟨hkept.congr hloadedStages hloadedAttempts, ?_, ?_⟩
  · rw [hloadedAttempts]
    rcases hstored with hsame | hflushed
    · exact (congrArg Prod.snd hsame).trans hattempts
    · exact congrArg Prod.snd hflushed
  · rw [hloadedStages]
    rcases hstored with hsame | hflushed
    · have hstored : s'.stored.stages = s.stored.stages := congrArg Prod.fst hsame
      rwa [hstored]
    · have hstored : s'.stored.stages = s.loaded.stages := congrArg Prod.fst hflushed
      exact hstored ▸ List.prefix_rfl

theorem of_told {m : DbTxn α} (hm : Within Db.Told m) : Maintains Booked m :=
  of_fixes (fixes_told hm)

/-- The open attempt that a booked session finds in the store is that of the session. -/
theorem openAttempt_eq (hs : Booked s) (stageId : Nat) :
    openAttempt env stageId s.stored = openAttempt env stageId s.loaded := by
  rw [openAttempt, hs.attempts, openAttempt]

/-- A stage of the store is the session's. -/
theorem loaded_stage (hs : Booked s) {id : Nat} {stage : RunStage}
    (h : s.stored.stages[id]? = some stage) : s.loaded.stages[id]? = some stage := by
  obtain ⟨rest, hrest⟩ := hs.stages
  rw [← hrest]
  exact getElem?_append_of_some h

/-! ## Queue calls -/

theorem claimStage {workerId : String} {substrates : List Substrate} {houses : List String}
    {leaseSeconds : ℚ} :
    Maintains Booked (AiFund.claimStage env workerId substrates houses leaseSeconds) := by
  intro s claimed s' h hs
  unfold AiFund.claimStage at h
  rw [returns_select_bind] at h
  cases hclaim : claimCandidate env substrates houses s.stored with
  | none =>
      rw [hclaim] at h
      obtain ⟨-, rfl⟩ := returns_pure.1 h
      exact hs
  | some id =>
      rw [hclaim] at h
      simp only [returns_bind, returns_getRow, returns_assign, returns_flush, returns_pure] at h
      obtain ⟨stage, _, ⟨-, hstage, rfl⟩, _, _, rfl, _, _, rfl, _, _, ⟨-, rfl⟩, -, rfl⟩ := h
      obtain ⟨stage', hstage', hok⟩ := claimCandidate_eq_some hclaim
      rw [hs.loaded_stage hstage'] at hstage
      cases hstage
      simp only [claimable, Bool.and_eq_true, decide_eq_true_eq] at hok
      exact .write (hs.kept.claimed (hs.loaded_stage hstage') hok.1.1.1.1.1)

theorem heartbeat {stageId : Nat} {workerId : String} {leaseSeconds : ℚ} :
    Maintains Booked (AiFund.heartbeat env stageId workerId leaseSeconds) := by
  intro s held s' h hs
  unfold AiFund.heartbeat at h
  simp only [returns_bind, returns_lookup] at h
  obtain ⟨found, _, ⟨rfl, rfl⟩, h⟩ := h
  split at h
  · obtain ⟨-, rfl⟩ := returns_pure.1 h
    exact hs
  · rename_i stage hstage
    split_ifs at h hstage with hheld
    · obtain ⟨-, rfl⟩ := returns_pure.1 h
      exact hs
    · simp only [returns_bind, returns_assign, returns_flush, returns_pure] at h
      obtain ⟨_, _, rfl, _, _, ⟨-, rfl⟩, -, rfl⟩ := h
      rw [not_or, not_not, not_not] at hheld
      refine .write (hs.kept.heartbeat fun stage' hstage' => ?_)
      rw [hstage] at hstage'
      cases hstage'
      exact hheld.2

/-- A report closes the open attempt and gives up the claim of its stage. -/
theorem report {stageId runId : Nat} {f : StageAttempt → StageAttempt} {g : RunStage → RunStage}
    {cost : ℚ} (hs : Booked s) (hf : ClosesAttempt f)
    (hg : ∀ stage, s.loaded.stages[stageId]? = some stage → Closes stage (g stage)) :
    AttemptInv (((s.loaded.close (openAttempt env stageId s.stored) f).updateStage stageId
      g).updateRun runId fun run => { run with costUsd := cost }) := by
  rw [hs.openAttempt_eq]
  exact (hs.kept.close hf hg).congr rfl rfl

theorem completeStage {stageId : Nat} {attempt : AttemptIn} {result : JsonObject} :
    Maintains Booked (AiFund.completeStage env stageId attempt result) := by
  intro s u s' h hs
  unfold AiFund.completeStage at h
  simp only [returns_bind, returns_getRow, returns_closeAttempt, returns_ofExcept,
    returns_assign, returns_flush] at h
  obtain ⟨stage, _, ⟨-, hstage, rfl⟩, _, _, rfl, sm, _, ⟨hsm, rfl⟩, _, _, rfl, _, _, hroll, -,
    rfl⟩ := h
  have hrunning : sm.toState = .succeeded := by
    cases hstatus : stage.status <;> simp [stageTransition, stageEntries, hstatus] at hsm
    rw [← hsm]
  obtain ⟨-, rfl⟩ := returns_rollupRun hroll
  refine .write ?_
  rw [Db.updateStage_updateStage, hrunning]
  exact hs.report (closesAttempt_closed (by decide)) fun stage _ =>
    (RunStage.closes_completed : Closes stage (stage.completed env attempt result))

theorem failStage {stageId : Nat} {attempt : AttemptIn} {retryable : Bool}
    {backoff : BackoffPolicy} :
    Maintains Booked (AiFund.failStage env stageId attempt retryable backoff) := by
  intro s u s' h hs
  unfold AiFund.failStage at h
  simp only [returns_bind, returns_getRow, returns_closeAttempt, returns_flush] at h
  obtain ⟨stage, _, ⟨-, hstage, rfl⟩, _, _, rfl, _, s₁, hbranch, _, s₂, hroll, -, rfl⟩ := h
  obtain ⟨-, rfl⟩ := returns_rollupRun hroll
  refine .write ?_
  unfold retryOrFail at hbranch
  split_ifs at hbranch with hretry
  · simp only [returns_bind, returns_ofExcept, returns_assign] at hbranch
    obtain ⟨sm, _, ⟨hsm, rfl⟩, rfl⟩ := hbranch
    have hqueued : sm.toState = .queued := by
      cases hstatus : stage.status <;>
        simp [stageTransition, stageEntries, hstatus, not_le.2 hretry.2] at hsm
      rw [← hsm]
    rw [Db.updateStage_updateStage, hqueued]
    refine hs.report (closesAttempt_closed (by decide)) fun row hrow => ?_
    rw [hstage] at hrow
    cases hrow
    exact ⟨rfl, rfl, by simp [RunStage.releaseClaim], rfl, rfl, rfl, fun _ => .inr hretry.2⟩
  · obtain rfl := returns_assign.1 hbranch
    rw [Db.updateStage_updateStage]
    exact hs.report (closesAttempt_closed (by decide)) fun row _ =>
      ⟨rfl, rfl, by simp [RunStage.releaseClaim], rfl, rfl, rfl,
        by simp [RunStage.Retriable, RunStage.releaseClaim]⟩

theorem reapExpired {now : Time} {backoff : BackoffPolicy} :
    Maintains Booked (AiFund.reapExpired env now backoff) := by
  intro s expired s' h hs
  unfold AiFund.reapExpired at h
  simp only [returns_bind, returns_select, returns_flush, returns_pure] at h
  obtain ⟨keys, _, ⟨rfl, rfl⟩, _, _, hloop, _, _, ⟨-, rfl⟩, -, rfl⟩ := h
  rw [returns_reapStages hloop]
  exact .write (hs.kept.reapAll (RowOrder.nodup_all _) fun id _ => (hs.openAttempt_eq id).symm)

theorem queueCall (call : QueueCall) : Maintains Booked (call.perform env) := by
  cases call with
  | claim => exact .bind claimStage fun _ => .pure _
  | heartbeat => exact .bind heartbeat fun _ => .pure _
  | complete => exact completeStage
  | fail => exact failStage
  | reap => exact .bind reapExpired fun _ => .pure _

/-! ## New stages -/

theorem addStages {runId : Nat} {stages : List StageIn} :
    Maintains Booked (AiFund.addStages env runId stages) := by
  intro s u s' h hs
  unfold AiFund.addStages at h
  obtain ⟨rows, hrows, h⟩ := returns_ofExcept_bind.1 h
  rw [returns_assign_bind, returns_flush] at h
  obtain ⟨-, rfl⟩ := h
  refine .write (hs.kept.addStages fun row hrow => ?_)
  obtain ⟨stageIn, -, hto⟩ := of_mem_mapM hrows hrow
  exact stageIn.toRow_fresh hto

theorem createRun {metaHouses : List String} {runType trigger : String} {coverageId : Option Nat}
    {params : JsonObject} {requestedBy triggerRef : Option String} :
    Maintains Booked (Engine.createRun env fund metaHouses runType coverageId trigger params
      requestedBy triggerRef) := by
  refine .bind (of_told (within_ofExcept _ _)) fun policy =>
    .bind (.of_reads reads_findCoverage) fun cov =>
      .bind (.of_reads reads_contributorsFor) fun contributors => ?_
  split
  · exact of_told (.throw _)
  · exact .bind (of_told (within_ofExcept _ _)) fun stages =>
      .bind (of_told within_addRun) fun runId => .bind addStages fun _ => .pure _

/-- A cross-check is appended unclaimed, and without attempts. -/
theorem maybeAppendCrossCheck {run : Run} {stage : RunStage} {result : JsonObject}
    {lastTp : Option Decimal} :
    Maintains Booked (Engine.maybeAppendCrossCheck env fund r run stage result lastTp) := by
  refine .bind (of_told (within_ofExcept _ _)) fun fires => .ite (.pure _)
    (.bind (.of_reads (.select _)) fun existing => .ite (.pure _) ?_)
  split
  · exact of_told (.throw _)
  · refine .bind (.of_reads reads_resolveContributors) fun contributors =>
      .bind (.of_reads (.select _)) fun seq => .bind (of_told (within_ofExcept _ _)) fun policy => ?_
    intro s u s' h hs
    obtain rfl := returns_assign.1 h
    refine ⟨hs.kept.addStages ?_, hs.attempts, hs.stages.trans (List.prefix_append _ _)⟩
    intro row hrow
    obtain rfl := List.mem_singleton.1 hrow
    exact ⟨rfl, rfl, rfl, rfl, rfl, rfl⟩

theorem digestStage {run : Run} {stageId : Nat} :
    Maintains Booked (Engine.digestStage env fund r run stageId) := by
  refine .bind (of_told (within_getRow _ _)) fun stage => ?_
  split
  · exact .bind (.of_reads (.select _)) fun _ => .bind (of_told within_registerPredictions) fun _ =>
      .ite maybeAppendCrossCheck (.pure _)
  · exact .pure _

theorem advanceRun {runner : Engine.Runner} :
    Maintains Booked (Engine.advanceRun env fund runner r) :=
  .bind (of_told (within_getRow _ _)) fun _ => .ite (.pure _)
    (.bind (.forM fun call _ => queueCall call.2) fun _ => .bind (.of_reads (.select _)) fun _ =>
      .bind (.forM fun _ _ => digestStage) fun _ => of_told within_settleRun)

theorem parts (fund : FundConfig) : SessionParts Booked fund where
  clean _ hs := .clean hs.kept
  aside := of_fixes
  createRun _ _ _ _ _ _ _ _ := createRun
  queueCall _ := queueCall
  advanceRun _ _ _ := advanceRun

end Booked

end AiFund
