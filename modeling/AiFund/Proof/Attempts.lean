import AiFund.Proof.QueueSteps

/-!
# Attempt accounting

The attempt rows of a stage number its claims, at most one is open, and a stage is never claimed
more often than its `max_attempts` allows.
-/

namespace AiFund

open UnitOfWork Rows

def Db.attemptsOf (db : Db) (stageId : Nat) : List StageAttempt :=
  db.attempts.filter fun a => a.stageId = stageId

def Db.openAttemptsOf (db : Db) (stageId : Nat) : List StageAttempt :=
  db.attempts.filter fun a => a.stageId = stageId && a.status = .running

/-- The books of one stage agree. -/
structure Accounted (db : Db) (stageId : Nat) (stage : RunStage) : Prop where
  numbers : (db.attemptsOf stageId).map (·.attemptNo) = List.range' 1 stage.attempts
  opened : (db.openAttemptsOf stageId).map (·.attemptNo) =
    if stage.status = .running then [stage.attempts] else []
  claimedBy : stage.claimedBy.isSome ↔ stage.status = .running
  claimedAt : stage.claimedAt.isSome ↔ stage.status = .running
  leaseExpiresAt : stage.leaseExpiresAt.isSome ↔ stage.status = .running
  bound : (stage.attempts : Int) ≤ max 1 stage.maxAttempts

/-- A queued stage has an attempt left, or has never been claimed. -/
def RunStage.Retriable (stage : RunStage) : Prop :=
  stage.status = .queued → stage.attempts = 0 ∨ (stage.attempts : Int) < stage.maxAttempts

structure AttemptInv (db : Db) : Prop where
  accounted : ∀ id stage, db.stages[id]? = some stage → Accounted db id stage
  retriable : ∀ (id : Nat) (stage : RunStage), db.stages[id]? = some stage → stage.Retriable
  owned : ∀ a ∈ db.attempts, a.stageId < db.stages.length

/-- Writes to a stage that leave its attempt count and give up its claim. -/
structure Closes (stage stage' : RunStage) : Prop where
  attempts : stage'.attempts = stage.attempts
  maxAttempts : stage'.maxAttempts = stage.maxAttempts
  status : stage'.status ≠ .running
  claimedBy : stage'.claimedBy = none
  claimedAt : stage'.claimedAt = none
  leaseExpiresAt : stage'.leaseExpiresAt = none
  retriable : stage'.Retriable

/-- Writes to an attempt row that close it. -/
structure ClosesAttempt (f : StageAttempt → StageAttempt) : Prop where
  stageId : ∀ a, (f a).stageId = a.stageId
  attemptNo : ∀ a, (f a).attemptNo = a.attemptNo
  status : ∀ a, (f a).status ≠ .running

variable {env : Env} {db : Db} {stageId id : Nat} {stage : RunStage}
  {f : StageAttempt → StageAttempt} {g : RunStage → RunStage}

theorem openAttempt_some {key : Nat} (h : openAttempt env stageId db = some key) :
    ∃ a, db.attempts[key]? = some a ∧ a.stageId = stageId ∧ a.status = .running := by
  obtain ⟨a, ha, hp⟩ := (env.rows .openAttempt).of_first h
  simp only [Bool.and_eq_true, decide_eq_true_eq] at hp
  exact ⟨a, ha, hp⟩

theorem openAttempt_none (h : openAttempt env stageId db = none) :
    db.openAttemptsOf stageId = [] := by
  refine List.filter_eq_nil_iff.2 fun a ha => ?_
  simp [(env.rows .openAttempt).first_eq_none.1 h a ha]

theorem attemptsOf_close (hf : ClosesAttempt f) (key : Option Nat) :
    ((db.close key f).attemptsOf id).map (·.attemptNo) =
      (db.attemptsOf id).map (·.attemptNo) := by
  cases key with
  | none => rfl
  | some key =>
      refine map_filter_modify fun a _ => ⟨?_, hf.attemptNo a⟩
      rw [hf.stageId]

theorem openAttemptsOf_close_of_ne (hf : ClosesAttempt f) (hid : id ≠ stageId) :
    ((db.close (openAttempt env stageId db) f).openAttemptsOf id).map (·.attemptNo) =
      (db.openAttemptsOf id).map (·.attemptNo) := by
  cases hkey : openAttempt env stageId db with
  | none => rfl
  | some key =>
      obtain ⟨a, ha, hstage, -⟩ := openAttempt_some hkey
      refine map_filter_modify fun row hrow => ⟨?_, hf.attemptNo row⟩
      rw [ha] at hrow
      cases hrow
      simp [hf.stageId, hstage, hid.symm]

/-- Closing the open attempt leaves the stage without one. -/
theorem openAttemptsOf_close (hf : ClosesAttempt f) (h : (db.openAttemptsOf stageId).length ≤ 1) :
    (db.close (openAttempt env stageId db) f).openAttemptsOf stageId = [] := by
  cases hkey : openAttempt env stageId db with
  | none => exact openAttempt_none hkey
  | some key =>
      obtain ⟨a, ha, hstage, hrunning⟩ := openAttempt_some hkey
      have hcount := countP_modify (p := fun a => a.stageId = stageId && a.status = .running)
        (f := f) ha (by simp [hstage, hrunning]) (by simp [hf.status])
      rw [Db.openAttemptsOf, ← List.countP_eq_length_filter] at h
      refine List.eq_nil_of_length_eq_zero ?_
      rw [Db.openAttemptsOf, ← List.countP_eq_length_filter]
      change (db.attempts.modify key f).countP _ = 0
      omega

theorem Accounted.openAttemptsOf_length (h : Accounted db id stage) :
    (db.openAttemptsOf id).length ≤ 1 := by
  have hlength := congrArg List.length h.opened
  rw [List.length_map] at hlength
  rw [hlength]
  split <;> simp

/-- A running stage has an open attempt, its last one. -/
theorem Accounted.exists_open (h : Accounted db id stage) (hrunning : stage.status = .running) :
    ∃ (key : Nat) (a : StageAttempt), db.attempts[key]? = some a ∧ a.stageId = id ∧
      a.status = .running ∧ a.attemptNo = stage.attempts := by
  have hopened := h.opened
  rw [if_pos hrunning] at hopened
  obtain ⟨a, ha, hno⟩ := List.mem_map.1 (hopened ▸ List.mem_singleton_self stage.attempts)
  obtain ⟨hmem, hopen⟩ := List.mem_filter.1 ha
  obtain ⟨key, hkey⟩ := List.getElem?_of_mem hmem
  simp only [Bool.and_eq_true, decide_eq_true_eq] at hopen
  exact ⟨key, a, hkey, hopen.1, hopen.2, hno⟩

/-- Closing a stage's open attempt and giving up its claim keeps the books. -/
theorem AttemptInv.close (h : AttemptInv db) (hf : ClosesAttempt f)
    (hg : ∀ stage, db.stages[stageId]? = some stage → Closes stage (g stage)) :
    AttemptInv ((db.close (openAttempt env stageId db) f).updateStage stageId g) where
  accounted id row hrow := by
    obtain ⟨rfl, stage, hstage, rfl⟩ | ⟨hid, hrow⟩ := getElem?_modify_cases hrow
    · rw [Db.close_stages] at hstage
      have hbooks := h.accounted id stage hstage
      have hclose := hg stage hstage
      exact {
        numbers := by
          rw [hclose.attempts, ← hbooks.numbers]
          exact attemptsOf_close hf _
        opened := by
          rw [if_neg hclose.status]
          exact List.map_eq_nil_iff.2 (openAttemptsOf_close hf hbooks.openAttemptsOf_length)
        claimedBy := by simp [hclose.claimedBy, hclose.status]
        claimedAt := by simp [hclose.claimedAt, hclose.status]
        leaseExpiresAt := by simp [hclose.leaseExpiresAt, hclose.status]
        bound := by
          rw [hclose.attempts, hclose.maxAttempts]
          exact hbooks.bound }
    · rw [Db.close_stages] at hrow
      have hbooks := h.accounted id row hrow
      exact { hbooks with
        numbers := (attemptsOf_close hf _).trans hbooks.numbers
        opened := (openAttemptsOf_close_of_ne hf hid).trans hbooks.opened }
  retriable id row hrow := by
    obtain ⟨rfl, stage, hstage, rfl⟩ | ⟨hid, hrow⟩ := getElem?_modify_cases hrow
    · rw [Db.close_stages] at hstage
      exact (hg stage hstage).retriable
    · rw [Db.close_stages] at hrow
      exact h.retriable id row hrow
  owned a ha := by
    rw [Db.updateStage_stages, List.length_modify, Db.close_stages]
    rw [Db.updateStage_attempts] at ha
    cases hkey : openAttempt env stageId db with
    | none =>
        rw [hkey] at ha
        exact h.owned a ha
    | some key =>
        rw [hkey] at ha
        exact forall_mem_modify (P := fun a => a.stageId < db.stages.length) h.owned
          (fun a ha => by rwa [hf.stageId]) a ha

/-- The invariant only reads the stages and the attempts. -/
theorem AttemptInv.congr {db' : Db} (h : AttemptInv db) (hstages : db'.stages = db.stages)
    (hattempts : db'.attempts = db.attempts) : AttemptInv db' where
  accounted id stage hstage := by
    rw [hstages] at hstage
    have hbooks := h.accounted id stage hstage
    exact { hbooks with
      numbers := by simpa [Db.attemptsOf, hattempts] using hbooks.numbers
      opened := by simpa [Db.openAttemptsOf, hattempts] using hbooks.opened }
  retriable id stage hstage := h.retriable id stage (hstages ▸ hstage)
  owned a ha := by
    rw [hstages]
    exact h.owned a (hattempts ▸ ha)

/-! ## The calls -/

theorem RunStage.closes_completed {attempt : AttemptIn} {result : JsonObject} :
    Closes stage (stage.completed env attempt result) where
  attempts := rfl
  maxAttempts := rfl
  status := by simp [RunStage.completed, RunStage.releaseClaim]
  claimedBy := rfl
  claimedAt := rfl
  leaseExpiresAt := rfl
  retriable := by simp [RunStage.Retriable, RunStage.completed, RunStage.releaseClaim]

theorem RunStage.closes_failedWith {attempt : AttemptIn} {retryable : Bool}
    {backoff : BackoffPolicy} :
    Closes stage (stage.failedWith env stageId attempt retryable backoff) := by
  unfold RunStage.failedWith
  split
  · rename_i hretry
    exact ⟨rfl, rfl, by simp [RunStage.releaseClaim], rfl, rfl, rfl, fun _ => .inr hretry.2⟩
  · exact ⟨rfl, rfl, by simp [RunStage.releaseClaim], rfl, rfl, rfl,
      by simp [RunStage.Retriable, RunStage.releaseClaim]⟩

theorem RunStage.closes_reaped {backoff : BackoffPolicy} :
    Closes stage (stage.reaped env stageId backoff) := by
  unfold RunStage.reaped
  split
  · rename_i hretry
    exact ⟨rfl, rfl, by simp [RunStage.releaseClaim], rfl, rfl, rfl, fun _ => .inr hretry⟩
  · exact ⟨rfl, rfl, by simp [RunStage.releaseClaim], rfl, rfl, rfl,
      by simp [RunStage.Retriable, RunStage.releaseClaim]⟩

theorem closesAttempt_closed {attempt : AttemptIn} {status : AttemptStatus}
    (hstatus : status ≠ .running) {now : Time} {result : Option JsonObject} {errors : Option Json}
    {killReason : Option String} :
    ClosesAttempt fun a => a.closed attempt status now result errors killReason :=
  ⟨fun _ => rfl, fun _ => rfl, fun _ => hstatus⟩

theorem closesAttempt_lapsed {now : Time} : ClosesAttempt fun a => a.lapsed now :=
  ⟨fun _ => rfl, fun _ => rfl, by simp [StageAttempt.lapsed]⟩

theorem AttemptInv.reported {runId : Nat} (h : AttemptInv db) (hf : ClosesAttempt f)
    (hg : ∀ stage, Closes stage (g stage)) :
    AttemptInv (db.reported env stageId runId f g) :=
  (h.close hf fun stage _ => hg stage).congr rfl rfl

/-- A claim opens the next attempt of a stage that had one left. -/
theorem AttemptInv.claimed {workerId : String} {leaseSeconds : ℚ} (h : AttemptInv db)
    (hstage : db.stages[stageId]? = some stage) (hqueued : stage.status = .queued) :
    AttemptInv (db.claimed env stageId stage workerId leaseSeconds) := by
  have hbooks := h.accounted stageId stage hstage
  have hnumbers : ∀ id, (db.claimed env stageId stage workerId leaseSeconds).attemptsOf id =
      db.attemptsOf id ++ if id = stageId then [newAttempt stageId stage workerId] else [] := by
    intro id
    rcases eq_or_ne id stageId with rfl | hid
    · simp [Db.attemptsOf, Db.claimed, newAttempt, List.filter_append]
    · simp [Db.attemptsOf, Db.claimed, newAttempt, List.filter_append, hid, hid.symm]
  have hopened : ∀ id, (db.claimed env stageId stage workerId leaseSeconds).openAttemptsOf id =
      db.openAttemptsOf id ++ if id = stageId then [newAttempt stageId stage workerId] else [] := by
    intro id
    rcases eq_or_ne id stageId with rfl | hid
    · simp [Db.openAttemptsOf, Db.claimed, newAttempt, List.filter_append]
    · simp [Db.openAttemptsOf, Db.claimed, newAttempt, List.filter_append, hid, hid.symm]
  have hrows : ∀ id row, (db.claimed env stageId stage workerId leaseSeconds).stages[id]? =
      some row → (id = stageId ∧
        row = stage.claimedFor workerId env.now (env.now + leaseSeconds)) ∨
        (id ≠ stageId ∧ db.stages[id]? = some row) := by
    intro id row hrow
    obtain ⟨rfl, stage', hstage', rfl⟩ | hother := getElem?_modify_cases hrow
    · rw [hstage] at hstage'
      cases hstage'
      exact .inl ⟨rfl, rfl⟩
    · exact .inr hother
  constructor
  · intro id row hrow
    obtain ⟨rfl, rfl⟩ | ⟨hid, hrow⟩ := hrows id row hrow
    · constructor
      · rw [hnumbers, if_pos rfl, List.map_append, hbooks.numbers]
        simp [RunStage.claimedFor, newAttempt, List.range'_1_concat, Nat.add_comm]
      · rw [hopened, if_pos rfl, List.map_append, hbooks.opened, hqueued]
        simp [RunStage.claimedFor, newAttempt]
      · simp [RunStage.claimedFor]
      · simp [RunStage.claimedFor]
      · simp [RunStage.claimedFor]
      · have hretry := h.retriable id stage hstage hqueued
        simp only [RunStage.claimedFor]
        omega
    · have hother := h.accounted id row hrow
      refine { hother with numbers := ?_, opened := ?_ }
      · rw [hnumbers, if_neg hid, List.append_nil, hother.numbers]
      · rw [hopened, if_neg hid, List.append_nil, hother.opened]
  · intro id row hrow
    obtain ⟨rfl, rfl⟩ | ⟨-, hrow⟩ := hrows id row hrow
    · simp [RunStage.Retriable, RunStage.claimedFor]
    · exact h.retriable id row hrow
  · intro a ha
    rw [Db.claimed, List.length_modify]
    rcases List.mem_append.1 ha with ha | ha
    · exact h.owned a ha
    · obtain rfl := List.mem_singleton.1 ha
      exact (List.getElem?_eq_some_iff.1 hstage).1

theorem AttemptInv.heartbeat {lease : Time} (h : AttemptInv db)
    (hrunning : ∀ stage, db.stages[stageId]? = some stage → stage.status = .running) :
    AttemptInv (db.updateStage stageId fun stage =>
      { stage with leaseExpiresAt := some lease }) where
  accounted id row hrow := by
    obtain ⟨rfl, stage, hstage, rfl⟩ | ⟨-, hrow⟩ := getElem?_modify_cases hrow
    · have hbooks := h.accounted id stage hstage
      exact { hbooks with leaseExpiresAt := by simp [hrunning stage hstage] }
    · exact { h.accounted id row hrow with }
  retriable id row hrow := by
    obtain ⟨rfl, stage, hstage, rfl⟩ | ⟨-, hrow⟩ := getElem?_modify_cases hrow
    · exact h.retriable id stage hstage
    · exact h.retriable id row hrow
  owned a ha := by
    rw [Db.updateStage_stages, List.length_modify]
    exact h.owned a ha

/-- The reaper closes the stages one by one; a stage still to come is as it was stored. -/
theorem AttemptInv.reapAll {stored : Db} {backoff : BackoffPolicy} {expired : List Nat}
    (h : AttemptInv db) (hnodup : expired.Nodup)
    (hpending : ∀ id ∈ expired, openAttempt env id db = openAttempt env id stored) :
    AttemptInv (expired.foldl (stored.reapOne env backoff) db) := by
  induction expired generalizing db with
  | nil => exact h
  | cons first rest ih =>
      rw [List.nodup_cons] at hnodup
      have hfirst : AttemptInv (stored.reapOne env backoff db first) := by
        rw [Db.reapOne, ← hpending first List.mem_cons_self]
        exact h.close closesAttempt_lapsed fun _ _ => RunStage.closes_reaped
      refine ih hfirst hnodup.2 fun id hid => ?_
      rw [← hpending id (List.mem_cons_of_mem _ hid), Db.reapOne,
        ← hpending first List.mem_cons_self]
      have hne : id ≠ first := by
        rintro rfl
        exact hnodup.1 hid
      cases hkey : openAttempt env first db with
      | none => rfl
      | some key =>
          obtain ⟨a, ha, hstage, -⟩ := openAttempt_some hkey
          unfold openAttempt RowOrder.first RowOrder.all
          congr 2
          refine ids_modify fun row hrow => ?_
          rw [ha] at hrow
          cases hrow
          simp [StageAttempt.lapsed, hstage, hne.symm]

theorem StageIn.toRow_fresh {stage : StageIn} {runId : Nat} {row : RunStage}
    (h : stage.toRow env runId = .ok row) :
    row.attempts = 0 ∧ row.status = .queued ∧ row.claimedBy = none ∧ row.claimedAt = none ∧
      row.leaseExpiresAt = none ∧ row.costUsd = 0 := by
  unfold StageIn.toRow at h
  cases hhouse : required "run_stages.house" (env.runtime.bindText stage.house) with
  | error error =>
      rw [hhouse] at h
      cases h
  | ok house =>
      rw [hhouse] at h
      cases h
      exact ⟨rfl, rfl, rfl, rfl, rfl, rfl⟩

theorem AttemptInv.addStages {rows : List RunStage} (h : AttemptInv db)
    (hrows : ∀ row ∈ rows, row.attempts = 0 ∧ row.status = .queued ∧ row.claimedBy = none ∧
      row.claimedAt = none ∧ row.leaseExpiresAt = none ∧ row.costUsd = 0) :
    AttemptInv { db with stages := db.stages ++ rows } := by
  have hnew : ∀ id row, (db.stages ++ rows)[id]? = some row →
      db.stages[id]? = some row ∨ (db.stages.length ≤ id ∧ row ∈ rows) := by
    intro id row hrow
    rw [List.getElem?_append] at hrow
    split at hrow
    · exact .inl hrow
    · exact .inr ⟨by omega, List.mem_of_getElem? hrow⟩
  constructor
  · intro id row hrow
    rcases hnew id row hrow with hold | ⟨hid, hmem⟩
    · exact { h.accounted id row hold with }
    · obtain ⟨hattempts, hstatus, hby, hat, hlease, -⟩ := hrows row hmem
      have hnone : ∀ a ∈ db.attempts, a.stageId ≠ id := fun a ha =>
        ((h.owned a ha).trans_le hid).ne
      have hof : db.attempts.filter (fun a => a.stageId = id) = [] :=
        List.filter_eq_nil_iff.2 fun a ha => by simp [hnone a ha]
      have hopen : db.attempts.filter (fun a => a.stageId = id && a.status = .running) = [] :=
        List.filter_eq_nil_iff.2 fun a ha => by simp [hnone a ha]
      constructor
      · simp [Db.attemptsOf, hof, hattempts]
      · simp [Db.openAttemptsOf, hopen, hstatus]
      · simp [hby, hstatus]
      · simp [hat, hstatus]
      · simp [hlease, hstatus]
      · rw [hattempts]
        exact le_max_of_le_left zero_le_one
  · intro id row hrow
    rcases hnew id row hrow with hold | ⟨-, hmem⟩
    · exact h.retriable id row hold
    · exact fun _ => .inl (hrows row hmem).1
  · intro a ha
    rw [List.length_append]
    exact (h.owned a ha).trans_le (Nat.le_add_right _ _)

/-! ## Histories -/

/-- How often a stage has been attempted; zero before it exists. -/
def Db.attemptsAt (db : Db) (stageId : Nat) : Nat := (db.stages[stageId]?.map (·.attempts)).getD 0

theorem attemptsAt_congr {db' : Db} (h : db'.stageTables = db.stageTables) :
    db'.attemptsAt id = db.attemptsAt id := by
  rw [Db.attemptsAt, show db'.stages = db.stages from congrArg Prod.fst h, Db.attemptsAt]

theorem attemptsAt_updateStage (hg : ∀ stage, (g stage).attempts = stage.attempts) :
    (db.updateStage stageId g).attemptsAt id = db.attemptsAt id := by
  simp only [Db.attemptsAt, Db.updateStage_stages, List.getElem?_modify]
  cases db.stages[id]? with
  | none => rfl
  | some stage => by_cases hid : stageId = id <;> simp [hid, hg]

theorem attemptsAt_reported {runId : Nat} (hg : ∀ stage, (g stage).attempts = stage.attempts) :
    (db.reported env stageId runId f g).attemptsAt id = db.attemptsAt id := by
  calc
    (db.reported env stageId runId f g).attemptsAt id =
        (db.updateStage stageId g).attemptsAt id := by simp [Db.attemptsAt, Db.reported]
    _ = db.attemptsAt id := attemptsAt_updateStage hg

theorem attemptsAt_reapAll {stored : Db} {backoff : BackoffPolicy} {expired : List Nat} :
    (expired.foldl (stored.reapOne env backoff) db).attemptsAt id = db.attemptsAt id := by
  induction expired generalizing db with
  | nil => rfl
  | cons first rest ih =>
      rw [List.foldl_cons, ih]
      calc
        (stored.reapOne env backoff db first).attemptsAt id =
            (db.close (openAttempt env first stored) fun a => a.lapsed env.now).attemptsAt id :=
          attemptsAt_updateStage fun _ => RunStage.closes_reaped.attempts
        _ = db.attemptsAt id := by simp [Db.attemptsAt]

theorem attemptsAt_claimed {workerId : String} {leaseSeconds : ℚ}
    (hstage : db.stages[stageId]? = some stage) :
    (db.claimed env stageId stage workerId leaseSeconds).attemptsAt id =
      db.attemptsAt id + if stageId = id then 1 else 0 := by
  simp only [Db.attemptsAt, Db.claimed, List.getElem?_modify]
  by_cases hid : stageId = id
  · subst hid
    simp [hstage, RunStage.claimedFor]
  · simp [hid]

theorem QueueOp.claims_refused {op : QueueOp} {error : PyError}
    (h : (commit op.perform db).result = .error error) : op.claims db id = 0 := by
  cases op with
  | addStages env runId stages => rfl
  | startRun env runId => rfl
  | requeueRun runId reason => rfl
  | call env queueCall =>
      cases queueCall with
      | claim workerId substrates houses leaseSeconds =>
          have hclaim : (commit (claimStage env workerId substrates houses leaseSeconds)
              db).result = .error error := result_of_commit_void h
          rw [QueueOp.claims, hclaim]
      | heartbeat stageId workerId leaseSeconds => rfl
      | complete stageId attempt result => rfl
      | fail stageId attempt retryable backoff => rfl
      | reap now backoff => rfl

theorem AttemptInv.step {op : QueueOp} (h : AttemptInv db) : AttemptInv (op.step db) := by
  have hcases := op.cases db
  generalize op.step db = db' at hcases
  cases hcases with
  | refused => exact h
  | added hrows =>
      refine h.addStages fun row hrow => ?_
      obtain ⟨stageIn, -, hto⟩ := of_mem_mapM hrows hrow
      exact stageIn.toRow_fresh hto
  | started hview => exact h.congr (congrArg Prod.fst hview) (congrArg Prod.snd hview)
  | requeued hview => exact h.congr (congrArg Prod.fst hview) (congrArg Prod.snd hview)
  | unclaimed => exact h
  | claimed _ hstage hclaimable =>
      simp only [claimable, Bool.and_eq_true, decide_eq_true_eq] at hclaimable
      exact h.claimed hstage hclaimable.1.1.1.1.1
  | unheld => exact h
  | extended hstage _ hrunning =>
      refine h.heartbeat fun stage' hstage' => ?_
      rw [hstage] at hstage'
      cases hstage'
      exact hrunning
  | completed =>
      exact h.reported (closesAttempt_closed (by decide)) fun _ => RunStage.closes_completed
  | failed =>
      exact h.reported (closesAttempt_closed (by decide)) fun _ => RunStage.closes_failedWith
  | reaped => exact h.reapAll (RowOrder.nodup_all _) fun _ _ => rfl

/-- An operation adds its claims of a stage to the stage's attempts. -/
theorem attemptsAt_step (op : QueueOp) :
    (op.step db).attemptsAt id = db.attemptsAt id + op.claims db id := by
  have hcases := op.cases db
  generalize op.step db = db' at hcases
  cases hcases with
  | refused h => rw [QueueOp.claims_refused h, Nat.add_zero]
  | added hrows =>
      rename_i rows
      change ((db.stages ++ rows)[id]?.map (·.attempts)).getD 0 = db.attemptsAt id + 0
      rw [List.getElem?_append]
      split
      · rfl
      · rename_i hid
        have hold : db.attemptsAt id = 0 := by
          rw [Db.attemptsAt, List.getElem?_eq_none (by omega)]
          rfl
        cases hrow : rows[id - db.stages.length]? with
        | none => simp [hold]
        | some row =>
            obtain ⟨stageIn, -, hto⟩ := of_mem_mapM hrows (List.mem_of_getElem? hrow)
            simp [hold, (stageIn.toRow_fresh hto).1]
  | started hview => exact attemptsAt_congr hview
  | requeued hview => exact attemptsAt_congr hview
  | unclaimed h => simp [QueueOp.claims, h]
  | claimed h hstage =>
      rw [attemptsAt_claimed hstage]
      simp [QueueOp.claims, h]
  | unheld => rfl
  | extended => exact attemptsAt_updateStage fun _ => rfl
  | completed => exact attemptsAt_reported fun _ => RunStage.closes_completed.attempts
  | failed => exact attemptsAt_reported fun _ => RunStage.closes_failedWith.attempts
  | reaped => exact attemptsAt_reapAll

theorem AttemptInv.withoutStages (db : Db) : AttemptInv db.withoutStages where
  accounted id stage hstage := by simp [Db.withoutStages] at hstage
  retriable id stage hstage := by simp [Db.withoutStages] at hstage
  owned a ha := by simp [Db.withoutStages] at ha

theorem attemptsAt_runQueue (ops : List QueueOp) :
    (runQueue db ops).attemptsAt stageId = db.attemptsAt stageId + claimCount stageId db ops := by
  induction ops generalizing db with
  | nil => rfl
  | cons op ops ih =>
      calc
        (runQueue db (op :: ops)).attemptsAt stageId =
            (op.step db).attemptsAt stageId + claimCount stageId (op.step db) ops := ih
        _ = db.attemptsAt stageId + claimCount stageId db (op :: ops) := by
          rw [attemptsAt_step, claimCount, Nat.add_assoc]

/-- Every history of the queue keeps the books of every stage, and the attempts of a stage count
its claims: there are at most `max 1 max_attempts` of them. -/
theorem runQueue_accounted (db : Db) (ops : List QueueOp) (stageId : Nat) (stage : RunStage)
    (h : (runQueue db.withoutStages ops).stages[stageId]? = some stage) :
    Accounted (runQueue db.withoutStages ops) stageId stage ∧
      claimCount stageId db.withoutStages ops = stage.attempts ∧
      (claimCount stageId db.withoutStages ops : Int) ≤ max 1 stage.maxAttempts := by
  have hinv : AttemptInv (runQueue db.withoutStages ops) :=
    History.invariant_of_forall (fun _ _ h => h.step) (.withoutStages db)
  have hbooks := hinv.accounted stageId stage h
  have hcount : claimCount stageId db.withoutStages ops = stage.attempts := by
    have hstart : db.withoutStages.attemptsAt stageId = 0 := rfl
    have hrun : (runQueue db.withoutStages ops).attemptsAt stageId = _ := attemptsAt_runQueue ops
    rw [hstart, Nat.zero_add, Db.attemptsAt, h] at hrun
    exact hrun.symm
  refine ⟨hbooks, hcount, ?_⟩
  rw [hcount]
  exact hbooks.bound

theorem runQueue_accounted_claimed :
    let db := (Db.oneRun none).withoutStages
    let ops := [QueueOp.addStages (.quiet 0) 0 [.pmQuery],
      QueueOp.call (.quiet 1) (.claim "w1" [] [] 60)]
    claimCount 0 db ops = 1 ∧ ∃ stage, (runQueue db ops).stages[0]? = some stage ∧
      Accounted (runQueue db ops) 0 stage ∧ claimCount 0 db ops = stage.attempts ∧
      (claimCount 0 db ops : Int) ≤ max 1 stage.maxAttempts := by
  intro db ops
  have hlength : 0 < (runQueue db ops).stages.length := by decide +kernel
  have hstage := List.getElem?_eq_getElem hlength
  exact ⟨by decide +kernel, _, hstage, runQueue_accounted (Db.oneRun none) ops 0 _ hstage⟩

end AiFund
