import AiFund.Containment
import AiFund.Proof.Legal
import AiFund.Proof.OpSteps
import AiFund.Proof.StageProgress

/-!
# Sessions between turns

A turn of the tick ends with a flush, or leaves the session as it was, or has only a cross-check
pending. So what is loaded is what is stored and a few more stages, and both are accepted by the
schema.
-/

namespace AiFund

open UnitOfWork Rows

variable {α : Type} {env : Env} {fund : FundConfig} {runner : Engine.Runner} {r : Nat} {u : Unit}
  {s s' : Session Db} {db : Db}

/-- All that is pending is added stages. -/
structure Orderly (s : Session Db) : Prop where
  pending : ∃ added, s.loaded = { s.stored with stages := s.stored.stages ++ added }
  stored : s.stored.Sound
  loaded : s.loaded.Sound
  lawful : s.loaded.life.Lawful

namespace Orderly

theorem clean (hdb : db.Sound) (hlawful : db.life.Lawful) : Orderly (Session.clean db) :=
  ⟨⟨[], by rw [List.append_nil]; rfl⟩, hdb, hdb, hlawful⟩

theorem view_eq {γ : Type} {π : Db → γ} (hs : Orderly s)
    (hπ : ∀ (db : Db) (rows : List RunStage), π { db with stages := rows } = π db) :
    π s.loaded = π s.stored := by
  obtain ⟨added, hadded⟩ := hs.pending
  rw [hadded]
  exact hπ _ _

theorem synced (hs : Orderly s) : Synced Db.life s := hs.view_eq fun _ _ => rfl

theorem runs (hs : Orderly s) : s.loaded.runs = s.stored.runs := hs.view_eq fun _ _ => rfl

theorem coverages (hs : Orderly s) : s.loaded.coverages = s.stored.coverages :=
  hs.view_eq fun _ _ => rfl

theorem predictions (hs : Orderly s) : s.loaded.predictions = s.stored.predictions :=
  hs.view_eq fun _ _ => rfl

theorem stages (hs : Orderly s) : s.stored.stages <+: s.loaded.stages := by
  obtain ⟨added, hadded⟩ := hs.pending
  exact ⟨added, by rw [hadded]⟩

/-- A transaction that saves what it writes leaves the session orderly. -/
theorem after {m : DbTxn α} {a : α} (hs : Orderly s) (hm : Saves m)
    (hnumbered : Upholds Db.Numbered m) (h : Returns m s a s')
    (hlawful : s'.loaded.life.Lawful) : Orderly s' := by
  rcases hm h with rfl | ⟨heq, hlegal⟩
  · exact hs
  have hafter := hnumbered h ⟨hs.stored.numbered, hs.loaded.numbered⟩
  exact ⟨⟨[], by rw [List.append_nil, heq]⟩, ⟨hlegal, hafter.1⟩, ⟨heq ▸ hlegal, hafter.2⟩, hlawful⟩

end Orderly

/-! ## What saves -/

theorem saves_queueCall (call : QueueCall) : Saves (call.perform env) := by
  cases call with
  | claim =>
      refine .bind (.bind (.select _) fun candidate => ?_) fun _ => .pure _
      cases candidate with
      | none => exact .pure _
      | some stageId =>
          exact .of_flushes (.bind fun _ => .bind fun _ => .bind fun _ =>
            .bind_read .flush fun _ => .pure _)
  | heartbeat =>
      refine .bind (.bind (.of_reads (.lookup _ _)) fun found => ?_) fun _ => .pure _
      cases found with
      | none => exact .pure _
      | some stage =>
          exact .ite (.pure _) (.of_flushes (.bind fun _ => .bind_read .flush fun _ => .pure _))
  | complete =>
      exact .of_flushes (.bind fun _ => .bind fun _ => .bind fun _ => .bind fun _ =>
        .bind fun _ => .flush)
  | fail =>
      exact .of_flushes (.bind fun _ => .bind fun _ => .bind fun _ => .bind fun _ => .flush)
  | reap =>
      exact .bind (.of_flushes (.bind fun _ => .bind fun _ => .bind_read .flush fun _ => .pure _))
        fun _ => .pure _

theorem flushes_transition {covId : Nat} {action : Action} :
    Flushes (Engine.runTransitionOf env covId r action) :=
  .bind fun _ => .bind fun _ => .bind fun _ => .bind fun _ => .bind fun _ => .bind fun _ =>
    .bind fun _ => .bind fun _ => .bind fun _ => .flush

theorem saves_startRun : Saves (startRun env r) := by
  have hmark : Saves (markRunning env r) :=
    .of_flushes (.bind fun _ => .bind_read .flush fun _ => .pure _)
  refine .bind (.of_reads reads_getRow) fun run => ?_
  split
  · exact hmark
  · refine .of_flushes (.bind fun _ => .bind fun owner => ?_)
    intro s a s' h
    split_ifs at h
    · exact Flushes.bind_read .flush (fun _ => .pure _) h
    · exact Flushes.bind (fun _ => .bind_read .flush fun _ => .pure _) h

theorem saves_promoteRun : Saves (Engine.promoteRun env r) := by
  refine .bind (.of_reads reads_getRow) fun run => .ite (.pure _) (.bind saves_startRun fun _ =>
    .ite (.pure _) (.bind (.bind (.of_reads reads_findCoverage) fun cov => ?_) fun _ => .pure _))
  split
  · exact .ite (.of_flushes flushes_transition) (.pure _)
  · exact .pure _

theorem flushes_finishRun {status : RunStatus} {summary error : Option String} :
    Flushes (finishRun env r status summary error) :=
  .bind fun _ => .bind fun _ => .bind fun _ => .bind fun _ => .bind fun _ => .flush

theorem saves_settleRun : Saves (Engine.settleRun env r) := by
  refine .bind (.select _) fun _ => .bind (.of_reads fun _ _ _ h => (returns_inspect.1 h).2) fun _ =>
    .bind (.of_reads reads_getRow) fun run => .ite ?_ (.ite ?_ (.ite ?_ (.ite (.pure _) ?_)))
  · refine .bind (.of_reads reads_getRow) fun _ => .bind ?_ fun _ => .of_flushes flushes_finishRun
    refine .bind (.of_reads reads_findCoverage) fun cov => ?_
    split
    · exact .ite (.of_flushes flushes_transition) (.pure _)
    · exact .pure _
  · exact .of_flushes (.bind fun _ => .bind fun _ => .bind fun _ => .flush)
  · exact .of_flushes (.bind fun _ => .bind fun _ => .bind fun _ => .bind fun _ => .flush)
  · refine .bind (.of_reads reads_getRow) fun _ => .bind (.of_reads reads_findCoverage) fun cov => ?_
    split
    · exact .of_flushes (.bind fun _ => .bind fun _ => .bind fun _ => .flush)
    · exact .of_flushes flushes_finishRun

theorem flushes_registerFromStage {stageId : Nat} {entries : List PredictionIn} :
    Flushes (registerFromStage env stageId entries) :=
  .bind fun _ => .bind fun _ => .bind fun _ => .bind_read .flush fun _ => .pure _

/-! ## Turns leave the session orderly -/

theorem Still.lawful (h : Still s s') (hs : Synced Db.life s) (hlawful : s.loaded.life.Lawful) :
    s'.loaded.life.Lawful := by
  rw [h.synced, h.trail.view_eq, ← hs]
  exact hlawful

theorem Takes.lawful {e : LifeEvent} (h : Takes e s s') (hs : Synced Db.life s)
    (hlawful : s.loaded.life.Lawful) : s'.loaded.life.Lawful := by
  rw [h.synced]
  exact h.step.lawful (hs ▸ hlawful)

namespace Orderly

theorem promoteRun {started : Bool} (hs : Orderly s)
    (h : Returns (Engine.promoteRun env r) s started s') : Orderly s' := by
  refine hs.after saves_promoteRun overlooks_numbered.1.promoteRun h ?_
  obtain ⟨hstill, -⟩ | htakes := promoteRun_cases h hs.synced
  · exact hstill.lawful hs.synced hs.lawful
  · exact htakes.lawful hs.synced hs.lawful

theorem promoteEach (hs : Orderly s) (h : Returns (Engine.promoteEach env r) s u s') :
    Orderly s' := by
  obtain ⟨started, s₁, hpromote, hpure⟩ := returns_bind.1 h
  obtain ⟨-, rfl⟩ := returns_pure.1 hpure
  exact hs.promoteRun hpromote

theorem queueCall {call : QueueCall} (hs : Orderly s) (h : Returns (call.perform env) s u s') :
    Orderly s' :=
  hs.after (saves_queueCall call) (overlooks_numbered.1.toOverlooks.queueCall call) h
    (Still.lawful (keeps_queueCall call h hs.synced) hs.synced hs.lawful)

theorem drain (hs : Orderly s) (h : Returns (runner.drain r) s u s') : Orderly s' :=
  Maintains.forM (fun _ _ _ _ _ h hs => Orderly.queueCall hs h) h hs

theorem settleRun {run : Run} (hs : Orderly s) (hrun : s.loaded.runs[r]? = some run)
    (hrunning : run.status = .running) (h : Returns (Engine.settleRun env r) s u s') :
    Orderly s' := by
  refine hs.after saves_settleRun overlooks_numbered.1.settleRun h ?_
  obtain hstill | ⟨e, -, htakes⟩ := settleRun_cases h hs.synced hrun hrunning
  · exact hstill.lawful hs.synced hs.lawful
  · exact htakes.lawful hs.synced hs.lawful

end Orderly

/-! ## Writes of a turn -/

/-- What the writes of the turn of a run of `coverageId` rely on. -/
structure Db.Serves (r : Nat) (coverageId : Option Nat) (db : Db) : Prop where
  sound : db.Sound
  run : r < db.runs.length
  coverage : coverageId.all db.isCoverage = true

namespace Db.Serves

variable {coverageId : Option Nat}

theorem isRun (h : db.Serves r coverageId) : db.isRun r = true := decide_eq_true h.run

variable (h : db.Serves r coverageId)
include h

theorem addTransition {row : CoverageTransition} (hrun : row.runId = some r) :
    Serves r coverageId { db with transitions := db.transitions ++ [row] } :=
  ⟨h.sound.addTransition (by rw [hrun]; exact h.isRun), h.run, h.coverage⟩

theorem addAudit {row : AuditLog} : Serves r coverageId { db with auditLog := db.auditLog ++ [row] } :=
  ⟨h.sound.addAudit, h.run, h.coverage⟩

theorem addOutbox {event : OutboxEvent} {kind : String} {subject : Nat}
    (hcoverage : event.coverageId = coverageId) (hrun : event.runId = some r)
    (hkey : event.dedupeKey = .fresh kind subject db.outbox.length) :
    Serves r coverageId { db with outbox := db.outbox ++ [event] } :=
  ⟨h.sound.addOutbox (hcoverage ▸ h.coverage) (by rw [hrun]; exact h.isRun) hkey, h.run, h.coverage⟩

theorem addGate {gate : PmGate} (hrun : gate.runId = r) (hkey : gate.idempotencyKey = none) :
    Serves r coverageId { db with gates := db.gates ++ [gate] } :=
  ⟨h.sound.addGate (hrun ▸ h.isRun) hkey, h.run, h.coverage⟩

theorem updateRun {f : Run → Run} (hf : ∀ run, ((f run).coverageId, (f run).type, (f run).triggerRef) =
    (run.coverageId, run.type, run.triggerRef)) : (db.updateRun r f).Serves r coverageId :=
  ⟨h.sound.updateRun hf, by simpa [Db.updateRun] using h.run, h.coverage⟩

omit h in
theorem finishing : Finishing r coverageId (Db.Serves r coverageId) where
  legal _ h := h.sound.legal
  locks _ h := ⟨h.sound.releaseLock, h.run, h.coverage⟩
  run _ _ hf h := h.updateRun hf
  outbox _ _ hcoverage hrun hkey h := h.addOutbox hcoverage hrun hkey

end Db.Serves

end AiFund
