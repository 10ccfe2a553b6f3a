import AiFund.Proof.Attempts
import AiFund.Proof.StageMachine

/-!
# The reaper

The lease of a running stage ends when the last claim or heartbeat of its holder said that it would.
The reaper takes the stages whose lease has lapsed, closes their open attempts, and touches nothing
else.
-/

namespace AiFund

open UnitOfWork Rows History

/-- What a successful claim or heartbeat gives its worker. -/
structure StageLease where
  stageId : Nat
  workerId : String
  ends : Time

/-- The lease that an operation gives. -/
def QueueOp.lease (db : Db) : QueueOp → Option StageLease
  | .call env (.claim workerId substrates houses leaseSeconds) =>
      match (commit (claimStage env workerId substrates houses leaseSeconds) db).result with
      | .ok (some stageId) => some ⟨stageId, workerId, env.now + leaseSeconds⟩
      | _ => none
  | .call env (.heartbeat stageId workerId leaseSeconds) =>
      match (commit (heartbeat env stageId workerId leaseSeconds) db).result with
      | .ok true => some ⟨stageId, workerId, env.now + leaseSeconds⟩
      | _ => none
  | _ => none

/-- The leases that a history gives, in its order. -/
def leasesGiven (db : Db) (ops : List QueueOp) : List StageLease :=
  trace QueueOp.step (fun db op => (op.lease db).toList) db ops

/-- The end of the last lease on the stage that the worker was given. -/
def lastLease (leases : List StageLease) (stageId : Nat) (workerId : String) : Option Time :=
  (leases.filter fun lease =>
    lease.stageId = stageId && lease.workerId = workerId).getLast?.map (·.ends)

/-- A call of the reaper takes exactly the dead. -/
structure TakesTheDead (leases : List StageLease) (before : Db) (env : Env) (now : Time)
    (reaped : List Nat) (after : Db) : Prop where
  dead : ∀ id ∈ reaped, ∃ stage workerId leaseEnd, before.stages[id]? = some stage ∧
    stage.status = .running ∧ stage.claimedBy = some workerId ∧
    lastLease leases id workerId = some leaseEnd ∧ leaseEnd < now
  alive : ∀ (id : Nat) (stage : RunStage), after.stages[id]? = some stage →
    stage.status = .running → ∃ leaseEnd, stage.leaseExpiresAt = some leaseEnd ∧ now ≤ leaseEnd
  released : ∀ id ∈ reaped, ∀ stage, before.stages[id]? = some stage →
    ∃ stage', after.stages[id]? = some stage' ∧
      stage'.status = (if stage.attempts < stage.maxAttempts then .queued else .failed) ∧
      stage'.claimedBy = none ∧ stage'.claimedAt = none ∧ stage'.leaseExpiresAt = none
  /-- The stage has one open attempt, and that one is closed. -/
  closed : ∀ id ∈ reaped, ∃ (key : Nat) (a : StageAttempt), before.attempts[key]? = some a ∧
    a.stageId = id ∧ a.status = .running ∧
    after.attempts[key]? = some { a with
      status := .failed, killReason := some "lease_expired", finishedAt := some env.now } ∧
    ∀ (other : Nat) (a' : StageAttempt), before.attempts[other]? = some a' → a'.stageId = id →
      a'.status = .running → other = key
  stages : ∀ id ∉ reaped, after.stages[id]? = before.stages[id]?
  attempts : ∀ key : Nat, (∀ a : StageAttempt, before.attempts[key]? = some a →
    a.stageId ∈ reaped → a.status ≠ .running) → after.attempts[key]? = before.attempts[key]?

variable {env : Env} {db : Db} {op : QueueOp} {id stageId : Nat} {stage stage' : RunStage}
  {backoff : BackoffPolicy} {now : Time} {workerId : String} {leases : List StageLease}
  {lease : StageLease}

/-! ## Leases -/

theorem lastLease_concat :
    lastLease (leases ++ [lease]) id workerId =
      if lease.stageId = id ∧ lease.workerId = workerId then some lease.ends
      else lastLease leases id workerId := by
  by_cases h : lease.stageId = id ∧ lease.workerId = workerId
  · simp [lastLease, h]
  · have hfilter : [lease].filter (fun lease =>
        lease.stageId = id && lease.workerId = workerId) = [] := by simpa using h
    rw [lastLease, List.filter_append, hfilter, List.append_nil, if_neg h]
    rfl

/-- A heartbeat gives no lease and changes nothing, or it extends the lease of its worker. -/
theorem QueueOp.lease_heartbeat (env : Env) (db : Db) (stageId : Nat) (workerId : String)
    (leaseSeconds : ℚ) :
    (QueueOp.lease db (.call env (.heartbeat stageId workerId leaseSeconds)) = none ∧
      QueueOp.step db (.call env (.heartbeat stageId workerId leaseSeconds)) = db) ∨
    ∃ stage, db.stages[stageId]? = some stage ∧ stage.claimedBy = some workerId ∧
      stage.status = .running ∧
      QueueOp.lease db (.call env (.heartbeat stageId workerId leaseSeconds)) =
        some ⟨stageId, workerId, env.now + leaseSeconds⟩ ∧
      QueueOp.step db (.call env (.heartbeat stageId workerId leaseSeconds)) =
        db.updateStage stageId fun stage =>
          { stage with leaseExpiresAt := some (env.now + leaseSeconds) } := by
  have hstep : QueueOp.step db (.call env (.heartbeat stageId workerId leaseSeconds)) =
      (commit (heartbeat env stageId workerId leaseSeconds) db).after :=
    congrArg Outcome.after (commit_void (heartbeat env stageId workerId leaseSeconds) db)
  obtain ⟨error, hcommit⟩ | ⟨held, s, hs, -, hcommit⟩ :=
    commit_cases (heartbeat env stageId workerId leaseSeconds) db
  · exact .inl ⟨by simp [QueueOp.lease, hcommit], by rw [hstep, hcommit]⟩
  obtain ⟨rfl, rfl⟩ | ⟨stage, rfl, hstage, hholder, hrunning, hclean, hstored⟩ :=
    returns_heartbeat hs (Synced.clean _ db)
  · exact .inl ⟨by simp [QueueOp.lease, hcommit], by rw [hstep, hcommit]; rfl⟩
  · refine .inr ⟨stage, hstage, hholder, hrunning, by simp [QueueOp.lease, hcommit], ?_⟩
    rw [hstep, hcommit]
    exact hclean.trans hstored

theorem QueueOp.lease_refused {error : PyError}
    (h : (commit op.perform db).result = .error error) : op.lease db = none := by
  cases op with
  | call env queueCall =>
      cases queueCall with
      | claim workerId substrates houses leaseSeconds =>
          have hclaim : (commit (claimStage env workerId substrates houses leaseSeconds)
              db).result = .error error := result_of_commit_void h
          rw [QueueOp.lease, hclaim]
      | heartbeat stageId workerId leaseSeconds =>
          have hheld : (commit (heartbeat env stageId workerId leaseSeconds) db).result =
              .error error := result_of_commit_void h
          rw [QueueOp.lease, hheld]
      | _ => rfl
  | _ => rfl

/-- A stage that runs after a report is not the one reported on. -/
theorem stage_of_reported {runId : Nat} {f : StageAttempt → StageAttempt}
    {g : RunStage → RunStage} (hg : ∀ stage, Closes stage (g stage))
    (hstage' : (db.reported env stageId runId f g).stages[id]? = some stage')
    (hrunning' : stage'.status = .running) : db.stages[id]? = some stage' := by
  rw [Db.reported_stages] at hstage'
  obtain ⟨rfl, stage, -, rfl⟩ | ⟨-, hstage⟩ := getElem?_modify_cases hstage'
  · exact absurd hrunning' (hg stage).status
  · exact hstage

/-- A stage that runs after the reaper is not one that it took. -/
theorem stage_of_reapAll {expired : List Nat} (hnodup : expired.Nodup)
    (hstage' : (expired.foldl (db.reapOne env backoff) db).stages[id]? = some stage')
    (hrunning' : stage'.status = .running) :
    db.stages[id]? = some stage' ∧ id ∉ expired := by
  rw [Db.reapAll_stages hnodup] at hstage'
  split_ifs at hstage' with hid
  · obtain ⟨stage, -, rfl⟩ := Option.map_eq_some_iff.1 hstage'
    exact absurd hrunning' RunStage.closes_reaped.status
  · exact ⟨hstage', hid⟩

/-- A stage that runs after an operation has just been leased to its holder, or it ran before under
the same lease and nobody was given another one. -/
theorem QueueOp.leased (op : QueueOp) (hstage' : (op.step db).stages[id]? = some stage')
    (hrunning' : stage'.status = .running) :
    (∃ lease, op.lease db = some lease ∧ lease.stageId = id ∧
      stage'.claimedBy = some lease.workerId ∧ stage'.leaseExpiresAt = some lease.ends) ∨
    ∃ stage, db.stages[id]? = some stage ∧ stage.status = .running ∧
      stage'.claimedBy = stage.claimedBy ∧ stage'.leaseExpiresAt = stage.leaseExpiresAt ∧
      ∀ lease, op.lease db = some lease → lease.stageId ≠ id := by
  have hold (hstage : db.stages[id]? = some stage')
      (hlease : ∀ lease, op.lease db = some lease → lease.stageId ≠ id) :
      ∃ stage, db.stages[id]? = some stage ∧ stage.status = .running ∧
        stage'.claimedBy = stage.claimedBy ∧ stage'.leaseExpiresAt = stage.leaseExpiresAt ∧
        ∀ lease, op.lease db = some lease → lease.stageId ≠ id :=
    ⟨stage', hstage, hrunning', rfl, rfl, hlease⟩
  have hidle (hlease : op.lease db = none) : ∀ lease, op.lease db = some lease →
      lease.stageId ≠ id := by
    rw [hlease]
    nofun
  by_cases hop : ∃ env stageId workerId leaseSeconds,
      op = .call env (.heartbeat stageId workerId leaseSeconds)
  · obtain ⟨env, stageId, workerId, leaseSeconds, rfl⟩ := hop
    obtain ⟨hlease, hstep⟩ | ⟨stage, hstage, hholder, hrunning, hlease, hstep⟩ :=
      QueueOp.lease_heartbeat env db stageId workerId leaseSeconds
    · exact .inr (hold (hstep ▸ hstage') (hidle hlease))
    rw [hstep, Db.updateStage_stages] at hstage'
    obtain ⟨rfl, found, hfound, rfl⟩ | ⟨hid, hstage'⟩ := getElem?_modify_cases hstage'
    · obtain rfl := Option.some.inj (hstage.symm.trans hfound)
      exact .inl ⟨_, hlease, rfl, hholder, rfl⟩
    · refine .inr (hold hstage' fun lease hgiven => ?_)
      cases hlease.symm.trans hgiven
      exact hid.symm
  have hcases := op.cases db
  generalize op.step db = after at hcases hstage'
  cases hcases with
  | refused h => exact .inr (hold hstage' (hidle (QueueOp.lease_refused h)))
  | added hrows =>
      refine .inr (hold ?_ (hidle rfl))
      rw [List.getElem?_append] at hstage'
      split at hstage'
      · exact hstage'
      · obtain ⟨stageIn, -, hrow⟩ := of_mem_mapM hrows (List.mem_of_getElem? hstage')
        rw [(stageIn.toRow_fresh hrow).2.1] at hrunning'
        cases hrunning'
  | started hview =>
      have hstages : after.stages = db.stages := congrArg Prod.fst hview
      exact .inr (hold (hstages ▸ hstage') (hidle rfl))
  | requeued hview =>
      have hstages : after.stages = db.stages := congrArg Prod.fst hview
      exact .inr (hold (hstages ▸ hstage') (hidle rfl))
  | unclaimed h => exact .inr (hold hstage' (hidle (by simp [QueueOp.lease, h])))
  | @claimed env workerId substrates houses leaseSeconds stageId _ h =>
      have hlease : QueueOp.lease db (.call env (.claim workerId substrates houses leaseSeconds)) =
          some ⟨stageId, workerId, env.now + leaseSeconds⟩ := by
        simp [QueueOp.lease, h]
      obtain ⟨rfl, stage, hstage, rfl⟩ | ⟨hid, hstage'⟩ := getElem?_modify_cases hstage'
      · exact .inl ⟨_, hlease, rfl, rfl, rfl⟩
      · refine .inr (hold hstage' fun lease hgiven => ?_)
        cases hlease.symm.trans hgiven
        exact hid.symm
  | unheld => exact absurd ⟨_, _, _, _, rfl⟩ hop
  | extended => exact absurd ⟨_, _, _, _, rfl⟩ hop
  | completed =>
      refine .inr (hold (stage_of_reported (fun _ => ?_) hstage' hrunning') (hidle rfl))
      exact RunStage.closes_completed
  | failed =>
      refine .inr (hold (stage_of_reported (fun _ => ?_) hstage' hrunning') (hidle rfl))
      exact RunStage.closes_failedWith
  | reaped =>
      have hstage := (stage_of_reapAll (RowOrder.nodup_all _) hstage' hrunning').1
      exact .inr (hold hstage (hidle rfl))

/-! ## Histories -/

/-- Every running stage is leased to its holder until the end of the holder's last lease on it. -/
def LeasedUntil (leases : List StageLease) (db : Db) : Prop :=
  ∀ (id : Nat) (stage : RunStage), db.stages[id]? = some stage → stage.status = .running →
    ∃ workerId leaseEnd, stage.claimedBy = some workerId ∧
      stage.leaseExpiresAt = some leaseEnd ∧ lastLease leases id workerId = some leaseEnd

theorem LeasedUntil.step (h : LeasedUntil leases db) (op : QueueOp) :
    LeasedUntil (leases ++ (op.lease db).toList) (op.step db) := by
  intro id stage' hstage' hrunning'
  obtain ⟨lease, hlease, rfl, hholder, hend⟩ | ⟨stage, hstage, hrunning, hholder, hend, hothers⟩ :=
    op.leased hstage' hrunning'
  · refine ⟨_, _, hholder, hend, ?_⟩
    rw [hlease, Option.toList_some, lastLease_concat, if_pos ⟨rfl, rfl⟩]
  · obtain ⟨workerId, leaseEnd, hworker, hleaseEnd, hlast⟩ := h id stage hstage hrunning
    refine ⟨workerId, leaseEnd, hholder.trans hworker, hend.trans hleaseEnd, ?_⟩
    cases hlease : op.lease db with
    | none => rwa [Option.toList_none, List.append_nil]
    | some lease =>
        rw [Option.toList_some, lastLease_concat, if_neg fun hsame => hothers lease hlease hsame.1]
        exact hlast

theorem LeasedUntil.run {ops : List QueueOp} (h : LeasedUntil leases db) :
    LeasedUntil (leases ++ leasesGiven db ops) (runQueue db ops) := by
  induction ops generalizing db leases with
  | nil => rwa [leasesGiven, trace, List.append_nil]
  | cons op ops ih =>
      have hrest := ih (h.step op)
      rwa [List.append_assoc] at hrest

theorem leasedUntil_runQueue (db : Db) (ops : List QueueOp) :
    LeasedUntil (leasesGiven db.withoutStages ops) (runQueue db.withoutStages ops) := by
  have hstart : LeasedUntil [] db.withoutStages := fun id stage hstage => by
    simp [Db.withoutStages] at hstage
  exact hstart.run

/-! ## The reaper -/

theorem RunStage.reaped_status : (stage.reaped env id backoff).status =
    if stage.attempts < stage.maxAttempts then .queued else .failed := by
  unfold reaped releaseClaim
  split <;> rfl

/-- The open attempt that the reaper finds is the only one. -/
theorem openAttempt_eq_some {key : Nat} {a : StageAttempt}
    (h : (db.openAttemptsOf stageId).length ≤ 1) (ha : db.attempts[key]? = some a)
    (hstage : a.stageId = stageId) (hrunning : a.status = .running) :
    openAttempt env stageId db = some key := by
  have hmem : ∀ {after : Db}, after.attempts[key]? = some a → after.openAttemptsOf stageId ≠ [] :=
    fun hrow hnil => by
      have hopen := List.filter_eq_nil_iff.1 hnil a (List.mem_of_getElem? hrow)
      simp [hstage, hrunning] at hopen
  cases hkey : openAttempt env stageId db with
  | none => exact absurd (openAttempt_none hkey) (hmem ha)
  | some found =>
      by_contra hne
      have hclosed : (db.close (openAttempt env stageId db) fun a =>
          a.lapsed env.now).openAttemptsOf stageId = [] :=
        openAttemptsOf_close closesAttempt_lapsed h
      rw [hkey] at hclosed
      refine hmem ?_ hclosed
      exact (getElem?_modify_of_ne fun hsame => hne (congrArg some hsame.symm)).trans ha

/-- The reaper rewrites the open attempts of the stages that it takes, and no others. -/
theorem Db.reapAll_attempts {stored : Db} {expired : List Nat} {key : Nat} :
    (expired.foldl (stored.reapOne env backoff) db).attempts[key]? =
      if ∃ id ∈ expired, openAttempt env id stored = some key then
        db.attempts[key]?.map (·.lapsed env.now)
      else db.attempts[key]? := by
  induction expired generalizing db with
  | nil => simp
  | cons first rest ih =>
      have hfirst : (stored.reapOne env backoff db first).attempts[key]? =
          if openAttempt env first stored = some key then
            db.attempts[key]?.map (·.lapsed env.now)
          else db.attempts[key]? := by
        cases hkey : openAttempt env first stored with
        | none => simp [Db.reapOne, Db.close, hkey]
        | some found =>
            by_cases hfound : found = key
            · simp [Db.reapOne, Db.close, hkey, hfound]
            · simp [Db.reapOne, Db.close, hkey, hfound]
      have htwice : ∀ row : Option StageAttempt,
          (row.map (·.lapsed env.now)).map (·.lapsed env.now) = row.map (·.lapsed env.now) :=
        fun row => by cases row <;> rfl
      rw [List.foldl_cons, ih, hfirst]
      simp only [List.exists_mem_cons_iff]
      by_cases hkey : openAttempt env first stored = some key
      · simp [hkey, htwice]
      · simp [hkey]

/-- The reaper takes exactly the dead, after every history of the queue. -/
theorem runQueue_takesTheDead (db : Db) (ops : List QueueOp) (env : Env) (now : Time)
    (backoff : BackoffPolicy) (reaped : List Nat)
    (h : (commit (reapExpired env now backoff) (runQueue db.withoutStages ops)).result =
      .ok reaped) :
    TakesTheDead (leasesGiven db.withoutStages ops) (runQueue db.withoutStages ops) env now reaped
      (commit (reapExpired env now backoff) (runQueue db.withoutStages ops)).after := by
  have hleased := leasedUntil_runQueue db ops
  have hinv : AttemptInv (runQueue db.withoutStages ops) :=
    History.invariant_of_forall (fun _ _ h => h.step) (.withoutStages db)
  generalize runQueue db.withoutStages ops = before at h hleased hinv ⊢
  obtain ⟨error, hcommit⟩ | ⟨keys, s, hs, -, hcommit⟩ :=
    commit_cases (reapExpired env now backoff) before
  · rw [hcommit] at h
    cases h
  rw [hcommit] at h ⊢
  obtain rfl := Except.ok.inj h
  obtain ⟨hkeys, hclean, hstored⟩ := returns_reapExpired hs (Synced.clean _ before)
  have hnodup : keys.Nodup := hkeys ▸ RowOrder.nodup_all _
  have hinv' : AttemptInv (keys.foldl (before.reapOne env backoff) before) :=
    hinv.reapAll hnodup fun _ _ => rfl
  have hmem {id : Nat} : id ∈ keys ↔
      ∃ stage, before.stages[id]? = some stage ∧ leaseExpired now stage = true := by
    rw [hkeys]
    exact (env.rows .expired).mem_all
  have hafter : s.loaded = keys.foldl (before.reapOne env backoff) before :=
    hclean.trans hstored
  rw [hafter]
  constructor
  · intro id hid
    obtain ⟨stage, hstage, hexpired⟩ := hmem.1 hid
    obtain ⟨hrunning, lease, hlease, hlapsed⟩ := leaseExpired_iff.1 hexpired
    obtain ⟨workerId, leaseEnd, hholder, hend, hlast⟩ := hleased id stage hstage hrunning
    obtain rfl := Option.some.inj (hlease.symm.trans hend)
    exact ⟨stage, workerId, lease, hstage, hrunning, hholder, hlast, hlapsed⟩
  · intro id stage hstage hrunning
    obtain ⟨hbefore, hid⟩ := stage_of_reapAll hnodup hstage hrunning
    obtain ⟨leaseEnd, hend⟩ := Option.isSome_iff_exists.1
      ((hinv'.accounted id stage hstage).leaseExpiresAt.2 hrunning)
    refine ⟨leaseEnd, hend, not_lt.1 fun hlapsed => hid (hmem.2 ⟨stage, hbefore, ?_⟩)⟩
    exact leaseExpired_iff.2 ⟨hrunning, leaseEnd, hend, hlapsed⟩
  · intro id hid stage hstage
    refine ⟨stage.reaped env id backoff, ?_, RunStage.reaped_status, rfl, rfl, rfl⟩
    rw [Db.reapAll_stages hnodup, if_pos hid, hstage]
    rfl
  · intro id hid
    obtain ⟨stage, hstage, hexpired⟩ := hmem.1 hid
    have hbooks := hinv.accounted id stage hstage
    obtain ⟨key, a, ha, hof, hopen, -⟩ := hbooks.exists_open (leaseExpired_iff.1 hexpired).1
    have hfound {key : Nat} {a : StageAttempt} (ha : before.attempts[key]? = some a)
        (hof : a.stageId = id) (hopen : a.status = .running) :
        openAttempt env id before = some key :=
      openAttempt_eq_some hbooks.openAttemptsOf_length ha hof hopen
    refine ⟨key, a, ha, hof, hopen, ?_, fun other a' ha' hof' hopen' => ?_⟩
    · rw [Db.reapAll_attempts, if_pos ⟨id, hid, hfound ha hof hopen⟩, ha]
      rfl
    · exact Option.some.inj ((hfound ha' hof' hopen').symm.trans (hfound ha hof hopen))
  · intro id hid
    rw [Db.reapAll_stages hnodup, if_neg hid]
  · intro key hkey
    rw [Db.reapAll_attempts, if_neg ?_]
    rintro ⟨id, hid, hfound⟩
    obtain ⟨a, ha, hstage, hrunning⟩ := openAttempt_some hfound
    exact hkey a ha (hstage ▸ hid) hrunning

/-- One stage is claimed, and its worker is heard of once more. -/
def QueueOp.pmQueryHeard : List QueueOp :=
  QueueOp.pmQueryClaimed ++ [.call (.quiet 30) (.heartbeat 0 "w1" 60)]

theorem runQueue_takesTheDead_heard :
    let before := runQueue (Db.oneRun none).withoutStages QueueOp.pmQueryHeard
    TakesTheDead (leasesGiven (Db.oneRun none).withoutStages QueueOp.pmQueryHeard) before
      (.quiet 100) 100 [0] (commit (reapExpired (.quiet 100) 100 ⟨60, 3600, 0⟩) before).after :=
  runQueue_takesTheDead (Db.oneRun none) _ _ _ _ _ (by decide +kernel)

end AiFund
