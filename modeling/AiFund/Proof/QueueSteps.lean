import AiFund.Library.Frame
import AiFund.QueueSystem

/-!
# What a queue call does

One lemma for each call: when it returns on a clean session, the state it leaves.
-/

namespace AiFund

open UnitOfWork Rows

/-- Nothing is pending in the session. -/
abbrev Clean (s : Session Db) : Prop := Synced id s

section Fields

variable (db : Db) (id : Nat) (key : Option Nat) (f : StageAttempt → StageAttempt)
  (g : RunStage → RunStage) (r : Run → Run)

@[simp] theorem Db.updateStage_stages : (db.updateStage id g).stages = db.stages.modify id g := rfl

@[simp] theorem Db.updateStage_attempts : (db.updateStage id g).attempts = db.attempts := rfl

@[simp] theorem Db.updateStage_runs : (db.updateStage id g).runs = db.runs := rfl

@[simp] theorem Db.updateRun_stages : (db.updateRun id r).stages = db.stages := rfl

@[simp] theorem Db.updateRun_attempts : (db.updateRun id r).attempts = db.attempts := rfl

@[simp] theorem Db.updateRun_runs : (db.updateRun id r).runs = db.runs.modify id r := rfl

@[simp] theorem Db.updateAttempt_stages : (db.updateAttempt id f).stages = db.stages := rfl

@[simp] theorem Db.updateAttempt_runs : (db.updateAttempt id f).runs = db.runs := rfl

@[simp] theorem Db.updateAttempt_attempts :
    (db.updateAttempt id f).attempts = db.attempts.modify id f := rfl

@[simp] theorem Db.close_stages : (db.close key f).stages = db.stages := by
  cases key <;> rfl

@[simp] theorem Db.close_runs : (db.close key f).runs = db.runs := by
  cases key <;> rfl

theorem Db.updateStage_updateStage (g' : RunStage → RunStage) :
    (db.updateStage id g).updateStage id g' = db.updateStage id (g' ∘ g) := by
  simp [updateStage, List.modify_modify_eq]

end Fields

variable {env : Env} {s s' : Session Db} {stageId : Nat}

/-- The state after a report that closes the open attempt with `f`, turns the stage into what `g`
makes of it, and writes the cost total of the stored stages to the run. -/
def Db.reported (db : Db) (env : Env) (stageId : Nat) (runId : Nat)
    (f : StageAttempt → StageAttempt) (g : RunStage → RunStage) : Db :=
  ((db.close (openAttempt env stageId db) f).updateStage stageId g).updateRun runId fun run =>
    { run with costUsd := stageCost db runId }

theorem returns_closeAttempt {attempt : AttemptIn} {status : AttemptStatus}
    {result : Option JsonObject} {errors : Option Json} {killReason : Option String} {u : Unit} :
    Returns (closeAttempt env stageId attempt status result errors killReason) s u s' ↔
      s' = { s with
        loaded := (s.loaded.close (openAttempt env stageId s.stored) fun a =>
          a.closed attempt status env.now result errors killReason).updateStage stageId
            fun stage => { stage with costUsd := stage.costUsd + attempt.charged } } := by
  simp [closeAttempt]

theorem returns_rollupRun {runId : Nat} {u : Unit} (h : Returns (rollupRun runId) s u s') :
    (∃ run, s.loaded.runs[runId]? = some run) ∧ s' = { s with
      loaded := s.loaded.updateRun runId fun run =>
        { run with costUsd := stageCost s.stored runId } } := by
  unfold rollupRun at h
  simp only [returns_bind, returns_select, returns_getRow, returns_assign] at h
  obtain ⟨total, s₁, ⟨rfl, rfl⟩, run, s₂, ⟨-, hrun, rfl⟩, rfl⟩ := h
  exact ⟨⟨run, hrun⟩, rfl⟩

/-- What a completion makes of its stage. -/
def RunStage.completed (stage : RunStage) (env : Env) (attempt : AttemptIn)
    (result : JsonObject) : RunStage :=
  RunStage.releaseClaim
    { stage with
      status := .succeeded
      finishedAt := some env.now
      result := some result
      costUsd := stage.costUsd + attempt.charged
      tokensIn := attempt.tokensIn
      tokensOut := attempt.tokensOut
      transcriptRef := attempt.transcriptRef }

theorem returns_completeStage {attempt : AttemptIn} {result : JsonObject} {u : Unit}
    (h : Returns (completeStage env stageId attempt result) s u s') (hs : Clean s) :
    ∃ stage run, s.stored.stages[stageId]? = some stage ∧ stage.status = .running ∧
      s.stored.runs[stage.runId]? = some run ∧ Clean s' ∧
      s'.stored = s.stored.reported env stageId stage.runId
        (fun a => a.closed attempt .succeeded env.now (some result) none none)
        (fun stage => stage.completed env attempt result) := by
  obtain ⟨db, loaded, written⟩ := s
  obtain rfl : loaded = db := hs
  unfold completeStage at h
  simp only [returns_bind, returns_getRow, returns_closeAttempt, returns_ofExcept,
    returns_assign, returns_flush] at h
  obtain ⟨stage, _, ⟨-, hstage, rfl⟩, _, _, rfl, sm, _, ⟨hsm, rfl⟩, _, _, rfl, _, _, hroll, -,
    rfl⟩ := h
  have hrunning : stage.status = .running := by
    cases hstatus : stage.status <;> simp [stageTransition, stageEntries, hstatus] at hsm ⊢
  have hto : sm.toState = .succeeded := by
    rw [hrunning] at hsm
    cases hsm
    rfl
  obtain ⟨⟨run, hrun⟩, rfl⟩ := returns_rollupRun hroll
  refine ⟨stage, run, hstage, hrunning, by simpa using hrun, rfl, ?_⟩
  rw [hto]
  simp only [Session.write, Db.reported, Db.updateStage_updateStage]
  rfl

/-- What a failure makes of its stage: queued again after a backoff, or failed. -/
def RunStage.failedWith (stage : RunStage) (env : Env) (stageId : Nat) (attempt : AttemptIn)
    (retryable : Bool) (backoff : BackoffPolicy) : RunStage :=
  RunStage.releaseClaim
    (if retryable ∧ stage.attempts < stage.maxAttempts then
      { stage with
        status := .queued
        costUsd := stage.costUsd + attempt.charged
        availableAt := nextAvailableAt env stageId stage.attempts backoff }
    else
      { stage with
        status := .failed
        costUsd := stage.costUsd + attempt.charged
        finishedAt := some env.now })

theorem Db.updateStage_congr {db : Db} {g g' : RunStage → RunStage}
    (h : ∀ stage, db.stages[stageId]? = some stage → g stage = g' stage) :
    db.updateStage stageId g = db.updateStage stageId g' := by
  unfold updateStage
  congr 1
  refine List.ext_getElem? fun i => ?_
  rw [List.getElem?_modify, List.getElem?_modify]
  by_cases hi : stageId = i
  · subst hi
    cases hstage : db.stages[stageId]? with
    | none => rfl
    | some stage => simp [h stage hstage]
  · simp [hi]

theorem returns_failStage {attempt : AttemptIn} {retryable : Bool} {backoff : BackoffPolicy}
    {u : Unit} (h : Returns (failStage env stageId attempt retryable backoff) s u s')
    (hs : Clean s) :
    ∃ stage run, s.stored.stages[stageId]? = some stage ∧
      (retryable = true ∧ stage.attempts < stage.maxAttempts → stage.status = .running) ∧
      s.stored.runs[stage.runId]? = some run ∧ Clean s' ∧
      s'.stored = s.stored.reported env stageId stage.runId
        (fun a => a.closed attempt .failed env.now none none attempt.killReason)
        (fun stage => stage.failedWith env stageId attempt retryable backoff) := by
  obtain ⟨db, loaded, written⟩ := s
  obtain rfl : loaded = db := hs
  unfold failStage at h
  simp only [returns_bind, returns_getRow, returns_closeAttempt] at h
  obtain ⟨stage, _, ⟨-, hstage, rfl⟩, _, _, rfl, _, s₁, hbranch, _, s₂, hroll, hflush⟩ := h
  unfold retryOrFail at hbranch
  have hfound : ∀ row, (loaded.close (openAttempt env stageId loaded) fun a =>
      a.closed attempt .failed env.now none none attempt.killReason).stages[stageId]? = some row →
      row = stage := by
    intro row hrow
    rw [Db.close_stages, hstage] at hrow
    exact (Option.some.inj hrow).symm
  by_cases hretry : retryable = true ∧ stage.attempts < stage.maxAttempts
  · rw [if_pos hretry] at hbranch
    simp only [returns_bind, returns_ofExcept, returns_assign] at hbranch
    obtain ⟨sm, _, ⟨hsm, rfl⟩, rfl⟩ := hbranch
    have hrunning : stage.status = .running := by
      cases hstatus : stage.status <;> simp [stageTransition, stageEntries, hstatus] at hsm ⊢
    have hsm' : sm = ⟨.queued, "retryable_failure", true⟩ := by
      have hlt := not_le.2 hretry.2
      simpa [stageTransition, stageEntries, hrunning, hlt] using hsm.symm
    obtain ⟨-, rfl⟩ := returns_flush.1 hflush
    obtain ⟨⟨run, hrun⟩, rfl⟩ := returns_rollupRun hroll
    refine ⟨stage, run, hstage, fun _ => hrunning, by simpa using hrun, rfl, ?_⟩
    rw [hsm']
    simp only [Session.write, Db.reported, Db.updateStage_updateStage]
    congr 1
    refine Db.updateStage_congr fun row hrow => ?_
    obtain rfl := hfound row hrow
    simp [RunStage.failedWith, RunStage.releaseClaim, hretry]
  · rw [if_neg hretry] at hbranch
    obtain rfl := returns_assign.1 hbranch
    obtain ⟨-, rfl⟩ := returns_flush.1 hflush
    obtain ⟨⟨run, hrun⟩, rfl⟩ := returns_rollupRun hroll
    refine ⟨stage, run, hstage, fun h => absurd h hretry, by simpa using hrun, rfl, ?_⟩
    simp only [Session.write, Db.reported, Db.updateStage_updateStage]
    congr 1
    refine Db.updateStage_congr fun row hrow => ?_
    obtain rfl := hfound row hrow
    simp only [RunStage.failedWith, if_neg hretry]
    rfl

/-- The state after a claim of the stage. -/
def Db.claimed (db : Db) (env : Env) (stageId : Nat) (stage : RunStage) (workerId : String)
    (leaseSeconds : ℚ) : Db :=
  { db with
    stages := db.stages.modify stageId fun stage =>
      stage.claimedFor workerId env.now (env.now + leaseSeconds)
    attempts := db.attempts ++ [newAttempt stageId stage workerId] }

theorem claimCandidate_eq_some {substrates : List Substrate} {houses : List String} {db : Db}
    (h : claimCandidate env substrates houses db = some stageId) :
    ∃ stage, db.stages[stageId]? = some stage ∧
      claimable db env.now substrates houses stage = true := by
  have hmem := List.mem_of_mem_head? (show stageId ∈ _ from h)
  rw [List.mem_insertionSort] at hmem
  exact (env.rows .claimable).mem_all.1 hmem

theorem claimCandidate_eq_none {substrates : List Substrate} {houses : List String} {db : Db}
    (h : claimCandidate env substrates houses db = none) :
    ∀ stage ∈ db.stages, claimable db env.now substrates houses stage = false := by
  intro stage hstage
  obtain ⟨key, hkey⟩ := List.getElem?_of_mem hstage
  refine Bool.eq_false_iff.2 fun hok => ?_
  have hmem : key ∈ (env.rows .claimable).all (claimable db env.now substrates houses) db.stages :=
    (env.rows .claimable).mem_all.2 ⟨stage, hkey, hok⟩
  rw [← List.mem_insertionSort (fun a b => claimBefore db a b), List.head?_eq_none_iff.1 h] at hmem
  cases hmem

theorem returns_claimStage {workerId : String} {substrates : List Substrate}
    {houses : List String} {leaseSeconds : ℚ} {claimed : Option Nat}
    (h : Returns (claimStage env workerId substrates houses leaseSeconds) s claimed s')
    (hs : Clean s) :
    (claimed = none ∧ s' = s) ∨
      ∃ stageId stage, claimed = some stageId ∧ s.stored.stages[stageId]? = some stage ∧
        claimable s.stored env.now substrates houses stage = true ∧ Clean s' ∧
        s'.stored = s.stored.claimed env stageId stage workerId leaseSeconds := by
  obtain ⟨db, loaded, written⟩ := s
  obtain rfl : loaded = db := hs
  unfold claimStage at h
  rw [returns_bind] at h
  obtain ⟨candidate, _, hcandidate, h⟩ := h
  obtain ⟨rfl, rfl⟩ := returns_select.1 hcandidate
  cases hclaim : claimCandidate env substrates houses loaded with
  | none =>
      rw [hclaim] at h
      exact .inl (returns_pure.1 h)
  | some id =>
      rw [hclaim] at h
      simp only [returns_bind, returns_getRow, returns_assign, returns_flush, returns_pure] at h
      obtain ⟨stage, _, ⟨-, hstage, rfl⟩, _, _, rfl, _, _, rfl, _, _, ⟨-, rfl⟩, rfl, rfl⟩ := h
      obtain ⟨stage', hstage', hok⟩ := claimCandidate_eq_some hclaim
      rw [hstage] at hstage'
      cases hstage'
      exact .inr ⟨id, stage, rfl, hstage, hok, rfl, rfl⟩

theorem returns_heartbeat {workerId : String} {leaseSeconds : ℚ} {held : Bool}
    (h : Returns (heartbeat env stageId workerId leaseSeconds) s held s') (hs : Clean s) :
    (held = false ∧ s' = s) ∨
      ∃ stage, held = true ∧ s.stored.stages[stageId]? = some stage ∧
        stage.claimedBy = some workerId ∧ stage.status = .running ∧ Clean s' ∧
        s'.stored = s.stored.updateStage stageId fun stage =>
          { stage with leaseExpiresAt := some (env.now + leaseSeconds) } := by
  obtain ⟨db, loaded, written⟩ := s
  obtain rfl : loaded = db := hs
  unfold heartbeat at h
  simp only [returns_bind, returns_lookup] at h
  obtain ⟨found, _, ⟨rfl, rfl⟩, h⟩ := h
  split at h
  · exact .inl (returns_pure.1 h)
  · rename_i stage hstage
    have hrow : loaded.stages[stageId]? = some stage := by
      split_ifs at hstage with hid
      exact hstage
    split_ifs at h with hheld
    · exact .inl (returns_pure.1 h)
    · simp only [returns_bind, returns_assign, returns_flush, returns_pure] at h
      obtain ⟨_, _, rfl, _, _, ⟨-, rfl⟩, rfl, rfl⟩ := h
      rw [not_or, not_not, not_not] at hheld
      exact .inr ⟨stage, rfl, hrow, hheld.1, hheld.2, rfl, rfl⟩

/-- The reaper's writes for one stage, on top of those it has pending. -/
def Db.reapOne (stored : Db) (env : Env) (backoff : BackoffPolicy) (db : Db) (stageId : Nat) :
    Db :=
  (db.close (openAttempt env stageId stored) fun a => a.lapsed env.now).updateStage stageId
    fun stage => stage.reaped env stageId backoff

theorem returns_reapStage {backoff : BackoffPolicy} {u : Unit}
    (h : Returns (reapStage env backoff stageId) s u s') :
    s' = { s with loaded := s.stored.reapOne env backoff s.loaded stageId } := by
  simp only [reapStage, returns_bind, returns_select, returns_assign] at h
  obtain ⟨key, _, ⟨rfl, rfl⟩, _, _, rfl, rfl⟩ := h
  rfl

theorem returns_reapStages {backoff : BackoffPolicy} {expired : List Nat} {u : Unit}
    (h : Returns (expired.forM (reapStage env backoff)) s u s') :
    s' = { s with loaded := expired.foldl (s.stored.reapOne env backoff) s.loaded } := by
  induction expired generalizing s with
  | nil => exact (returns_pure.1 h).2
  | cons id expired ih =>
      obtain ⟨_, s₁, hfirst, hrest⟩ := returns_bind.1 h
      obtain rfl := returns_reapStage hfirst
      rw [ih hrest]
      rfl

theorem returns_reapExpired {now : Time} {backoff : BackoffPolicy} {expired : List Nat}
    (h : Returns (reapExpired env now backoff) s expired s') (hs : Clean s) :
    expired = (env.rows .expired).all (leaseExpired now) s.stored.stages ∧ Clean s' ∧
      s'.stored = expired.foldl (s.stored.reapOne env backoff) s.stored := by
  obtain ⟨db, loaded, written⟩ := s
  obtain rfl : loaded = db := hs
  unfold reapExpired at h
  simp only [returns_bind, returns_select, returns_flush, returns_pure] at h
  obtain ⟨keys, _, ⟨rfl, rfl⟩, _, _, hloop, _, _, ⟨-, rfl⟩, rfl, rfl⟩ := h
  rw [returns_reapStages hloop]
  exact ⟨rfl, rfl, rfl⟩

/-! ## Operations -/

/-- The part of the database that the queue owns. -/
def Db.stageTables (db : Db) : List RunStage × List StageAttempt := (db.stages, db.attempts)

theorem keeps_getRow {ρ γ : Type} {π : Db → γ} (table : Db → List ρ) (key : Nat) :
    Keeps π (getRow table key) := by
  refine .bind (.lookup _ _) fun row => ?_
  cases row with
  | none => exact .throw _
  | some row => exact .pure _

theorem keeps_ofExcept {α ε γ : Type} {π : Db → γ} (wrap : ε → PyError) (r : Except ε α) :
    Keeps π (ofExcept wrap r) := by
  cases r with
  | ok a => exact .pure _
  | error error => exact .throw _

theorem fixes_getRow {ρ γ : Type} {π : Db → γ} (table : Db → List ρ) (key : Nat) :
    Fixes π (getRow table key) := by
  refine .bind (.lookup _ _) fun row => ?_
  cases row with
  | none => exact .throw _
  | some row => exact .pure _

theorem fixes_ofExcept {α ε γ : Type} {π : Db → γ} (wrap : ε → PyError) (r : Except ε α) :
    Fixes π (ofExcept wrap r) := by
  cases r with
  | ok a => exact .pure _
  | error error => exact .throw _

/-- The start of a run shows only in the runs and the locks. -/
theorem fixes_startRun {γ : Type} {π : Db → γ}
    (hruns : ∀ (db : Db) (rows : List Run), π { db with runs := rows } = π db)
    (hlocks : ∀ (db : Db) (rows : List CoverageRunLock), π { db with locks := rows } = π db)
    (runId : Nat) : Fixes π (startRun env runId) := by
  have hmark : Fixes π (markRunning env runId) :=
    .bind (.assign fun db => hruns db _) fun _ => .bind .flush fun _ => .pure _
  refine .bind (fixes_getRow _ _) fun run => ?_
  split
  · exact hmark
  · refine .bind (.execute fun db => ?_) fun _ => .bind (.select _) fun owner =>
      .ite (.bind .flush fun _ => .pure _) hmark
    unfold Db.insertLock
    split
    · rfl
    · exact hlocks db _

theorem fixes_requeueRun (runId : Nat) (reason : String) :
    Fixes Db.stageTables (requeueRun runId reason) :=
  .bind (fixes_getRow _ _) fun _ => .bind (fixes_ofExcept _ _) fun _ =>
    .bind (.assign fun _ => rfl) fun _ => .flush

/-- What an operation of a queue history does to the database it starts in. -/
inductive QueueStep (db : Db) : QueueOp → Db → Prop where
  | refused {op : QueueOp} {error : PyError} (h : (commit op.perform db).result = .error error) :
      QueueStep db op db
  | added {env : Env} {runId : Nat} {stages : List StageIn} {rows : List RunStage}
      (h : (stages.mapM fun stage => stage.toRow env runId) = .ok rows) :
      QueueStep db (.addStages env runId stages) { db with stages := db.stages ++ rows }
  | started {env : Env} {runId : Nat} {db' : Db} (h : db'.stageTables = db.stageTables) :
      QueueStep db (.startRun env runId) db'
  | requeued {runId : Nat} {reason : String} {db' : Db} (h : db'.stageTables = db.stageTables) :
      QueueStep db (.requeueRun runId reason) db'
  | unclaimed {env : Env} {workerId : String} {substrates : List Substrate}
      {houses : List String} {leaseSeconds : ℚ}
      (h : (commit (claimStage env workerId substrates houses leaseSeconds) db).result =
        .ok none) :
      QueueStep db (.call env (.claim workerId substrates houses leaseSeconds)) db
  | claimed {env : Env} {workerId : String} {substrates : List Substrate} {houses : List String}
      {leaseSeconds : ℚ} {stageId : Nat} {stage : RunStage}
      (h : (commit (claimStage env workerId substrates houses leaseSeconds) db).result =
        .ok (some stageId))
      (hstage : db.stages[stageId]? = some stage)
      (hclaimable : claimable db env.now substrates houses stage = true) :
      QueueStep db (.call env (.claim workerId substrates houses leaseSeconds))
        (db.claimed env stageId stage workerId leaseSeconds)
  | unheld {env : Env} {stageId : Nat} {workerId : String} {leaseSeconds : ℚ} :
      QueueStep db (.call env (.heartbeat stageId workerId leaseSeconds)) db
  | extended {env : Env} {stageId : Nat} {workerId : String} {leaseSeconds : ℚ}
      {stage : RunStage} (hstage : db.stages[stageId]? = some stage)
      (hholder : stage.claimedBy = some workerId) (hrunning : stage.status = .running) :
      QueueStep db (.call env (.heartbeat stageId workerId leaseSeconds))
        (db.updateStage stageId fun stage =>
          { stage with leaseExpiresAt := some (env.now + leaseSeconds) })
  | completed {env : Env} {stageId : Nat} {attempt : AttemptIn} {result : JsonObject}
      {stage : RunStage} {run : Run} (hstage : db.stages[stageId]? = some stage)
      (hrunning : stage.status = .running) (hrun : db.runs[stage.runId]? = some run) :
      QueueStep db (.call env (.complete stageId attempt result))
        (db.reported env stageId stage.runId
          (fun a => a.closed attempt .succeeded env.now (some result) none none)
          fun stage => stage.completed env attempt result)
  | failed {env : Env} {stageId : Nat} {attempt : AttemptIn} {retryable : Bool}
      {backoff : BackoffPolicy} {stage : RunStage} {run : Run}
      (hstage : db.stages[stageId]? = some stage)
      (hretry : retryable = true ∧ stage.attempts < stage.maxAttempts → stage.status = .running)
      (hrun : db.runs[stage.runId]? = some run) :
      QueueStep db (.call env (.fail stageId attempt retryable backoff))
        (db.reported env stageId stage.runId
          (fun a => a.closed attempt .failed env.now none none attempt.killReason)
          fun stage => stage.failedWith env stageId attempt retryable backoff)
  | reaped {env : Env} {now : Time} {backoff : BackoffPolicy} :
      QueueStep db (.call env (.reap now backoff))
        (((env.rows .expired).all (leaseExpired now) db.stages).foldl
          (db.reapOne env backoff) db)

theorem QueueOp.cases_claim (env : Env) (db : Db) (workerId : String)
    (substrates : List Substrate) (houses : List String) (leaseSeconds : ℚ) :
    QueueStep db (.call env (.claim workerId substrates houses leaseSeconds))
      (QueueOp.step db (.call env (.claim workerId substrates houses leaseSeconds))) := by
  have hvoid : commit (QueueOp.call env (.claim workerId substrates houses leaseSeconds)).perform
      db = _ := commit_void (claimStage env workerId substrates houses leaseSeconds) db
  rw [QueueOp.step, hvoid]
  obtain ⟨error, hcommit⟩ | ⟨claimed, s, hs, -, hcommit⟩ :=
    commit_cases (claimStage env workerId substrates houses leaseSeconds) db
  · rw [hcommit] at hvoid ⊢
    exact .refused (by rw [hvoid]; rfl)
  · have hresult : (commit (claimStage env workerId substrates houses leaseSeconds) db).result =
        .ok claimed := by rw [hcommit]
    rw [hcommit]
    obtain ⟨rfl, rfl⟩ | ⟨stageId, stage, rfl, hstage, hok, hclean, hstored⟩ :=
      returns_claimStage hs (Synced.clean _ db)
    · exact .unclaimed hresult
    · change QueueStep db _ s.loaded
      rw [show s.loaded = _ from hclean.trans hstored]
      exact .claimed hresult hstage hok

/-- Every operation takes one of the steps. -/
theorem QueueOp.cases (op : QueueOp) (db : Db) : QueueStep db op (op.step db) := by
  obtain ⟨error, hcommit⟩ | ⟨_, s, hs, -, hcommit⟩ := commit_cases op.perform db
  · have hstep : op.step db = db := by rw [QueueOp.step, hcommit]
    rw [hstep]
    exact .refused (by rw [hcommit])
  have hstep : op.step db = s.loaded := by rw [QueueOp.step, hcommit]
  rw [hstep]
  cases op with
  | addStages env runId stages =>
      simp only [QueueOp.perform, AiFund.addStages, returns_bind, returns_ofExcept,
        returns_assign, returns_flush] at hs
      obtain ⟨rows, _, ⟨hrows, rfl⟩, _, _, rfl, -, rfl⟩ := hs
      exact .added hrows
  | startRun env runId =>
      have hfixes : Fixes Db.stageTables (QueueOp.startRun env runId).perform :=
        .bind (fixes_startRun (fun _ _ => rfl) (fun _ _ => rfl) runId) fun _ => .pure _
      exact .started (hfixes hs).1
  | requeueRun runId reason => exact .requeued (fixes_requeueRun runId reason hs).1
  | call env queueCall =>
      cases queueCall with
      | claim workerId substrates houses leaseSeconds =>
          rw [← hstep]
          exact QueueOp.cases_claim env db workerId substrates houses leaseSeconds
      | heartbeat stageId workerId leaseSeconds =>
          obtain ⟨held, s₁, hheld, hpure⟩ := returns_bind.1 hs
          obtain ⟨-, rfl⟩ := returns_pure.1 hpure
          obtain ⟨-, rfl⟩ | ⟨stage, -, hstage, hholder, hrunning, hclean, hstored⟩ :=
            returns_heartbeat hheld (Synced.clean _ db)
          · exact .unheld
          · rw [show s.loaded = _ from hclean.trans hstored]
            exact .extended hstage hholder hrunning
      | complete stageId attempt result =>
          obtain ⟨stage, run, hstage, hrunning, hrun, hclean, hstored⟩ :=
            returns_completeStage hs (Synced.clean _ db)
          rw [show s.loaded = _ from hclean.trans hstored]
          exact .completed hstage hrunning hrun
      | fail stageId attempt retryable backoff =>
          obtain ⟨stage, run, hstage, hretry, hrun, hclean, hstored⟩ :=
            returns_failStage hs (Synced.clean _ db)
          rw [show s.loaded = _ from hclean.trans hstored]
          exact .failed hstage hretry hrun
      | reap now backoff =>
          obtain ⟨expired, s₁, hexpired, hpure⟩ := returns_bind.1 hs
          obtain ⟨-, rfl⟩ := returns_pure.1 hpure
          obtain ⟨rfl, hclean, hstored⟩ := returns_reapExpired hexpired (Synced.clean _ db)
          rw [show s.loaded = _ from hclean.trans hstored]
          exact .reaped

end AiFund
