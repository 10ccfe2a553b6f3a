import AiFund.Proof.Reaper
import AiFund.Proof.Settled

/-!
# Recovery from dead workers

A worker that dies leaves its stages running. When their leases have lapsed, the reaper queues them
again or fails them, and then no more is needed than for a run that nobody works on.
-/

namespace AiFund

open UnitOfWork Rows

variable {env reaper : Env} {app : App} {db : Db} {s : Session Db} {r id : Nat} {now : Time}
  {backoff : BackoffPolicy}

/-! ## The reaper commits -/

theorem RunStage.reaped_keys (stage : RunStage) :
    (stage.reaped env id backoff).keys = stage.keys := by
  unfold reaped releaseClaim
  split <;> rfl

/-- The reaper writes no column that a constraint reads. -/
theorem Db.violation_reapOne {stored : Db} :
    Schema.violation (stored.reapOne env backoff db id) = Schema.violation db := by
  have hreap : stored.reapOne env backoff db id =
      { db with
        runs := db.runs
        stages := db.stages.modify id fun stage => stage.reaped env id backoff
        attempts := (openAttempt env id stored).elim db.attempts fun key =>
          db.attempts.modify key fun a => a.lapsed env.now } := by
    rw [reapOne, close_eq]
    rfl
  rw [hreap]
  refine Db.violation_congr rfl (map_modify_of_eq RunStage.reaped_keys) ?_
  cases openAttempt env id stored with
  | none => rfl
  | some key => exact map_modify_of_eq fun _ => rfl

theorem Db.violation_reapAll {stored : Db} {expired : List Nat} :
    Schema.violation (expired.foldl (stored.reapOne env backoff) db) = Schema.violation db := by
  induction expired generalizing db with
  | nil => rfl
  | cons first rest ih => exact ih.trans violation_reapOne

theorem reapStages_returns {expired : List Nat} :
    Returns (expired.forM (reapStage env backoff)) s ()
      { s with loaded := expired.foldl (s.stored.reapOne env backoff) s.loaded } := by
  induction expired generalizing s with
  | nil => exact returns_pure.2 ⟨rfl, rfl⟩
  | cons first rest ih =>
      refine returns_bind.2 ⟨(), { s with loaded := s.stored.reapOne env backoff s.loaded first },
        ?_, ih⟩
      simp [reapStage, returns_bind, Db.reapOne]

/-- The stages that the reaper takes. -/
def Db.expired (db : Db) (env : Env) (now : Time) : List Nat :=
  (env.rows .expired).all (leaseExpired now) db.stages

theorem commit_reapExpired (hdb : Schema.violation db = none) :
    (commit (reapExpired reaper now backoff) db).after =
      (db.expired reaper now).foldl (db.reapOne reaper backoff) db := by
  have hlegal : Schema.violation ((db.expired reaper now).foldl (db.reapOne reaper backoff) db) =
      none := Db.violation_reapAll.trans hdb
  have hreturns : Returns (reapExpired reaper now backoff) (Session.clean db)
      (db.expired reaper now) ((Session.clean db).write _ _) :=
    returns_bind.2 ⟨_, _, returns_select.2 ⟨rfl, rfl⟩, returns_bind.2 ⟨(), _, reapStages_returns,
      returns_flush_bind.2 ⟨hlegal, returns_pure.2 ⟨rfl, rfl⟩⟩⟩⟩
  rw [commit_of_returns hreturns hlegal]
  rfl

/-- Of a run whose leases have all lapsed, the reaper leaves no stage running. -/
theorem reapExpired_idle (hdb : db.Reliable)
    (hlapsed : ∀ stage ∈ db.stages, stage.runId = r → stage.status = .running →
      ∀ lease ∈ stage.leaseExpiresAt, lease < now) :
    ∀ stage ∈ (commit (reapExpired reaper now backoff) db).after.stages, stage.runId = r →
      stage.status ≠ .running := by
  rw [commit_reapExpired hdb.legal]
  intro stage hstage hof hrunning
  obtain ⟨id, hid⟩ := List.getElem?_of_mem hstage
  obtain ⟨hbefore, hleft⟩ := stage_of_reapAll (RowOrder.nodup_all _) hid hrunning
  obtain ⟨lease, hlease⟩ :=
    Option.isSome_iff_exists.1 ((hdb.accounted.accounted id stage hbefore).leaseExpiresAt.2 hrunning)
  have hexpired : leaseExpired now stage = true := leaseExpired_iff.2
    ⟨hrunning, lease, hlease, hlapsed stage (List.mem_of_getElem? hbefore) hof hrunning lease hlease⟩
  exact hleft ((reaper.rows .expired).mem_all.2 ⟨stage, hbefore, hexpired⟩)

/-! ## Recovery -/

/-- However the workers on a run have died, the reaper and two advances with diligent runners take it
out of the running ones, once the leases of its stages have lapsed and if no stage becomes available
while a runner works. -/
theorem lapsedRun_recovers {draining draining' : Draining} {clock clock' : Nat → Env} {env' : Env}
    {memory memory' : FakeRunner.Memory} {db₁ db₂ : Db} (hdb : db.Reliable)
    (hlapsed : ∀ stage ∈ db.stages, stage.runId = r → stage.status = .running →
      ∀ lease ∈ stage.leaseExpiresAt, lease < now)
    (hdiligent : draining.runner.Diligent) (hdiligent' : draining'.runner.Diligent)
    (hsteady : draining.Steady clock db₁ env.now r)
    (hsteady' : draining'.Steady clock' db₂ env'.now r)
    (hreaped : (commit (reapExpired reaper now backoff) db).after = db₁)
    (hfirst : (commit (draining.advance env app.fund clock r) db₁).result = .ok memory)
    (hbetween : (commit (draining.advance env app.fund clock r) db₁).after = db₂)
    (hsecond : (commit (draining'.advance env' app.fund clock' r) db₂).result = .ok memory') :
    (commit (draining'.advance env' app.fund clock' r) db₂).after.Rests r := by
  subst hreaped hbetween
  have hreliable : (commit (reapExpired reaper now backoff) db).after.Reliable := by
    have hstep : (AnyOp.step app db (.desk (.system (.queue reaper (.reap now backoff))))).Reliable :=
      hdb.anyStep _
    rwa [AnyOp.step, DeskOp.step, step, Op.exec, QueueCall.perform, commit_void] at hstep
  have hidle : ∀ stage ∈ (commit (reapExpired reaper now backoff) db).after.stages,
      stage.runId = r → stage.status ≠ .running := reapExpired_idle hdb hlapsed
  have hchecked :=
    (advance_rests_or_checks hreliable hidle hdiligent hsteady hfirst).imp_right And.right
  exact advance_rests_of_checked (hreliable.anyStep (.driven (.advance env draining clock r)))
    (advance_idle hreliable hidle hdiligent hfirst) hdiligent' hsteady' hchecked hsecond

/-- A worker has claimed the first stage of Apple's initiation, and is not heard of again. -/
def Db.abandoned : Db :=
  step App.small Db.initiating (.queue (.quiet 1) (.claim "worker" [] [] 300))

def reapedAt (now : Time) (db : Db) : Db :=
  (commit (reapExpired (.quiet now) now ⟨60, 3600, 0⟩) db).after

/-- The stage had its only attempt, so when the lease has lapsed Apple's initiation fails. -/
theorem lapsedRun_recovers_initiating :
    Db.abandoned.stages.map (·.status) =
        .running :: List.replicate (Db.abandoned.stages.length - 1) .queued ∧
      (advancedAt 960 (advancedAt 900 (reapedAt 400 .abandoned)).after).after.Rests 0 := by
  have hdiligent : diligent.runner.Diligent := rfl
  have hdb : Db.abandoned.Reliable := Db.initiating_reliable.anyStep (.desk (.system _))
  obtain ⟨memory, hfirst⟩ := exists_ok
    (x := (advancedAt 900 (reapedAt 400 .abandoned)).result) (by decide +kernel)
  obtain ⟨memory', hsecond⟩ := exists_ok
    (x := (advancedAt 960 (advancedAt 900 (reapedAt 400 .abandoned)).after).result)
    (by decide +kernel)
  refine ⟨by decide +kernel, ?_⟩
  exact lapsedRun_recovers hdb (by decide +kernel) hdiligent hdiligent
    (by decide +kernel) (by decide +kernel) rfl hfirst rfl hsecond

end AiFund
