import AiFund.Concurrent.Queue
import AiFund.Concurrent.Runs
import AiFund.Library.Bridge
import AiFund.Proof.Legal
import AiFund.Proof.RunSteps

/-!
# Statements of the runs and the queue

Run alone, the statements of a transaction do to a sound database what the session that sends them
does.
-/

namespace AiFund

open ReadCommitted UnitOfWork Rows

variable {α β ε ρ : Type} {db : Db} {env : Env} {r covId stageId : Nat} {s : Session Db}

/-! ## Rewriting rows -/

theorem modify_congr {rows : List ρ} {id : Nat} {row : ρ} {f g : ρ → ρ} (hrow : rows[id]? = some row)
    (h : f row = g row) : rows.modify id f = rows.modify id g := by
  refine List.ext_getElem? fun key => ?_
  rw [List.getElem?_modify, List.getElem?_modify]
  by_cases hkey : id = key
  · subst hkey
    simp [hrow, h]
  · simp [hkey]

theorem modify_eq_self {rows : List ρ} {id : Nat} {row : ρ} {f : ρ → ρ} (hrow : rows[id]? = some row)
    (h : f row = row) : rows.modify id f = rows := by
  have hsame : f row = (fun row => row) row := h
  exact (modify_congr hrow hsame).trans (List.modify_id _ _)

theorem updateRun_congr {run : Run} {f g : Run → Run} (hrun : db.runs[r]? = some run)
    (h : f run = g run) : db.updateRun r f = db.updateRun r g :=
  congrArg (fun runs => { db with runs }) (modify_congr hrun h)

theorem updateRun_eq_self {run : Run} {f : Run → Run} (hrun : db.runs[r]? = some run)
    (h : f run = run) : db.updateRun r f = db :=
  congrArg (fun runs => { db with runs }) (modify_eq_self hrun h)

theorem updateStage_congr {stage : RunStage} {f g : RunStage → RunStage}
    (hstage : db.stages[stageId]? = some stage) (h : f stage = g stage) :
    db.updateStage stageId f = db.updateStage stageId g :=
  congrArg (fun stages => { db with stages }) (modify_congr hstage h)

theorem updateStage_eq_self {stage : RunStage} {f : RunStage → RunStage}
    (hstage : db.stages[stageId]? = some stage) (h : f stage = stage) :
    db.updateStage stageId f = db :=
  congrArg (fun stages => { db with stages }) (modify_eq_self hstage h)

namespace Db.Sound

theorem isCoverage_of_run {run : Run} (h : db.Sound) (hrun : db.runs[r]? = some run) :
    run.coverageId.all db.isCoverage = true := by
  have hrule := Db.violation_eq_none.1 h.legal
    ("fk_runs_coverage_id_coverage", fun db => db.runs.all fun run =>
      run.coverageId.all db.isCoverage) (by simp only [constraints, List.mem_cons]; tauto)
  exact List.all_eq_true.1 hrule run (List.mem_of_getElem? hrun)

end Db.Sound

/-- A run holds one lock at most. -/
theorem Db.violation_secondLock {coverageId : Nat} {acquiredAt : Time}
    (hrun : ∃ lock ∈ db.locks, lock.runId = r) :
    Db.violation { db with locks := db.locks ++ [⟨coverageId, r, acquiredAt⟩] } ≠ none := by
  intro hlegal
  obtain ⟨lock, hlock, hlockRun⟩ := hrun
  have hnodup : ((db.locks ++ [CoverageRunLock.mk coverageId r acquiredAt]).map
      fun lock => lock.runId).Nodup := by
    have hrule := Db.violation_eq_none.1 hlegal
      ("uq_coverage_run_locks_run_id", fun db : Db => (db.locks.map fun lock => lock.runId).Nodup)
      (by simp only [constraints, List.mem_cons]; tauto)
    exact of_decide_eq_true hrule
  rw [List.map_append, List.nodup_append] at hnodup
  exact hnodup.2.2 _ (List.mem_map_of_mem hlock) r (by simp) hlockRun

namespace Concurrent

/-! ## Steps of a script -/

@[simp] theorem eval_send (w : DbWrite) : (send w).eval db = some ((), w.apply db) := by
  simp [send]

@[simp] theorem eval_sendUnless {unchanged : Prop} [Decidable unchanged] (w : DbWrite) :
    (sendUnless unchanged w).eval db = some ((), if unchanged then db else w.apply db) := by
  unfold sendUnless
  split <;> simp

@[simp] theorem eval_sendChecked (legal : Db → Bool) (w : DbWrite) :
    (sendChecked legal w).eval db = if legal db then some ((), w.apply db) else none := by
  unfold sendChecked
  rw [Script.eval_write]
  split <;> rfl

@[simp] theorem eval_getRow {table : Db → List ρ} {id : Nat} :
    (getRow table id).eval db = ((table db)[id]?).map fun row => (row, db) := by
  unfold getRow
  rw [Script.eval_bind, Script.eval_select, Option.bind_some]
  cases (table db)[id]? with
  | none => rfl
  | some row => rfl

@[simp] theorem returned_getRow {table : Db → List ρ} {id : Nat} :
    returned (AiFund.getRow table id) s =
      (if id < (table s.stored).length then (table s.loaded)[id]? else none).map
        fun row => (row, s) := by
  unfold AiFund.getRow
  rw [returned_bind, returned_lookup, Option.bind_some]
  dsimp only
  cases (if id < (table s.stored).length then (table s.loaded)[id]? else none) with
  | none => rfl
  | some row => rfl

theorem eval_forM_nil {f : ρ → DbScript PUnit} : ([].forM f).eval db = some (⟨⟩, db) := rfl

theorem eval_forM_cons {x : ρ} {l : List ρ} {f : ρ → DbScript PUnit} :
    ((x :: l).forM f).eval db = ((f x).eval db).bind fun r => (l.forM f).eval r.2 :=
  Script.eval_bind (f x) (fun _ => l.forM f) db

/-- On a sound database. -/
abbrev Does (script : DbScript α) (txn : DbTxn α) : Prop := ReadCommitted.Does Db.Sound script txn

abbrev DoesAt (db : Db) (script : DbScript α) (txn : DbTxn α) : Prop :=
  ReadCommitted.DoesAt Db.Sound db script txn

/-- A unit of work that ends with a flush does what a script leaves at once. -/
theorem doesAt_of_eq {script : DbScript α} {txn : DbTxn α} {a : α} {db' : Db} (hdb' : db'.Sound)
    (heval : script.eval db = some (a, db'))
    (hreturned : ∀ written : List Db,
      ((returned txn ⟨db, db, written⟩).map fun r => (r.1, r.2.stored, r.2.loaded)) =
        some (a, db', db')) : DoesAt db script txn := by
  constructor
  · intro written
    rw [hreturned, heval]
    rfl
  · intro b db'' h
    rw [heval] at h
    cases h
    exact hdb'

theorem doesAt_of_none {script : DbScript α} {txn : DbTxn α} (heval : script.eval db = none)
    (hreturned : ∀ written, returned txn ⟨db, db, written⟩ = none) : DoesAt db script txn := by
  constructor
  · intro written
    rw [hreturned, heval]
    rfl
  · intro b db' h
    rw [heval] at h
    cases h

theorem doesAt_getRow_bind {table : Db → List ρ} {id : Nat} {k : ρ → DbScript β} {k' : ρ → DbTxn β}
    (h : ∀ row, (table db)[id]? = some row → DoesAt db (k row) (k' row)) :
    DoesAt db (getRow table id >>= k) (AiFund.getRow table id >>= k') := by
  cases hrow : (table db)[id]? with
  | none => exact doesAt_of_none (by simp [hrow]) fun written => by simp [hrow]
  | some row =>
      have hid : id < (table db).length := (List.getElem?_eq_some_iff.1 hrow).1
      have hdoes := h row hrow
      constructor
      · intro written
        have hsame := hdoes.same written
        simpa only [Script.eval_bind, eval_getRow, returned_bind, returned_getRow, if_pos hid, hrow,
          Option.map_some, Option.bind_some] using hsame
      · intro b db' heval
        refine hdoes.keeps b db' ?_
        simpa only [Script.eval_bind, eval_getRow, hrow, Option.map_some, Option.bind_some] using
          heval

theorem doesAt_lookup_bind {table : Db → List ρ} {id : Nat} {k : Option ρ → DbScript β}
    {k' : Option ρ → DbTxn β} (h : DoesAt db (k (table db)[id]?) (k' (table db)[id]?)) :
    DoesAt db (Script.select (fun db => (table db)[id]?) >>= k) (lookup table id >>= k') := by
  have hrow : (if id < (table db).length then (table db)[id]? else none) = (table db)[id]? := by
    split
    · rfl
    · rename_i hid
      rw [List.getElem?_eq_none (Nat.le_of_not_lt hid)]
  constructor
  · intro written
    rw [returned_bind, returned_lookup, Script.eval_bind, Script.eval_select]
    simp only [hrow, Option.bind_some]
    exact h.same written
  · intro b db' heval
    exact h.keeps b db' (by simpa using heval)

/-- The session loads a row again that the script still has. -/
theorem doesAt_getRow_again {table : Db → List ρ} {id : Nat} {row : ρ} {script : DbScript β}
    {k : ρ → DbTxn β} (hrow : (table db)[id]? = some row) (h : DoesAt db script (k row)) :
    DoesAt db script (AiFund.getRow table id >>= k) := by
  have hid : id < (table db).length := (List.getElem?_eq_some_iff.1 hrow).1
  refine ⟨fun written => ?_, h.keeps⟩
  rw [returned_bind, returned_getRow]
  simp only [if_pos hid, hrow, Option.map_some, Option.bind_some]
  exact h.same written

@[simp] theorem returned_ofExcept_ok {wrap : ε → PyError} {a : α} :
    returned (AiFund.ofExcept wrap (.ok a)) s = some (a, s) := rfl

@[simp] theorem returned_ofExcept_error {wrap : ε → PyError} {error : ε} :
    returned (AiFund.ofExcept wrap (.error error) : DbTxn α) s = none := rfl

theorem doesAt_ofExcept_bind {x : Except ε α} {wrap : ε → PyError} {k : α → DbScript β}
    {k' : α → DbTxn β} (h : ∀ a, x = .ok a → DoesAt db (k a) (k' a)) :
    DoesAt db (ofExcept x >>= k) (AiFund.ofExcept wrap x >>= k') := by
  cases x with
  | ok a => exact h a rfl
  | error error => exact .raise _

/-! ## Runs -/

theorem doesAt_markRunning {run : Run} (hdb : db.Sound) (hrun : db.runs[r]? = some run) :
    DoesAt db (markRunning env r run) (AiFund.markRunning env r) := by
  have hrow : db.updateRun r (run.writeRunning env.now) = db.updateRun r fun run =>
      { run with status := .running, startedAt := some (run.startedAt.getD env.now) } :=
    updateRun_congr hrun (by simp [Run.writeRunning])
  have hsound : (db.updateRun r fun run =>
      { run with status := .running, startedAt := some (run.startedAt.getD env.now) }).Sound :=
    hdb.updateRun fun _ => rfl
  refine doesAt_of_eq (a := true) hsound ?_ fun written => ?_
  · rw [markRunning, Script.eval_bind, eval_sendUnless, Option.bind_some, Script.eval_pure, ← hrow]
    split
    · rename_i hunchanged
      obtain ⟨time, htime⟩ := Option.isSome_iff_exists.1 hunchanged.2
      rw [updateRun_eq_self hrun (by cases run; simp_all [Run.writeRunning])]
    · rfl
  · rw [AiFund.markRunning, returned_bind, returned_assign, Option.bind_some, returned_bind,
      returned_flush_of_legal hsound.legal]
    rfl

/-- The insert of the lock, whose refusal is that of the constraint on the run. -/
theorem doesAt_insertLock {acquiredAt : Time} (hdb : db.Sound) :
    DoesAt db (insertLock covId r acquiredAt)
      (execute fun db => db.insertLock covId r acquiredAt) := by
  by_cases hcoverage : (db.locks.any fun lock => lock.coverageId = covId) = true
  · have hkept : db.insertLock covId r acquiredAt = db := if_pos hcoverage
    refine doesAt_of_eq (a := ()) hdb ?_ fun written => ?_
    · rw [insertLock, Script.eval_write, if_pos hcoverage]
      rfl
    · rw [returned_execute_of_legal (by rw [hkept]; exact hdb.legal), hkept]
      rfl
  · have hinserts : db.insertLock covId r acquiredAt =
        { db with locks := db.locks ++ [⟨covId, r, acquiredAt⟩] } := if_neg hcoverage
    by_cases hrun : (db.locks.any fun lock => lock.runId = r) = true
    · obtain ⟨lock, hlock, heq⟩ := List.any_eq_true.1 hrun
      refine doesAt_of_none ?_ fun written => ?_
      · rw [insertLock, Script.eval_write, if_neg hcoverage, if_pos hrun]
        rfl
      · refine returned_execute_of_violation ?_
        rw [hinserts]
        exact Db.violation_secondLock ⟨lock, hlock, of_decide_eq_true heq⟩
    · have hsound : (db.insertLock covId r acquiredAt).Sound := by
        refine hdb.insertLock fun lock hlock heq => absurd ?_ hrun
        exact List.any_eq_true.2 ⟨lock, hlock, decide_eq_true heq⟩
      refine doesAt_of_eq (a := ()) hsound ?_ fun written => ?_
      · rw [insertLock, Script.eval_write, if_neg hcoverage, if_neg hrun, hinserts]
        rfl
      · rw [returned_execute_of_legal hsound.legal]
        rfl

theorem runs_of_insertLock {acquiredAt : Time} {u : Unit} {db' : Db}
    (h : (insertLock covId r acquiredAt).eval db = some (u, db')) : db'.runs = db.runs := by
  rw [insertLock, Script.eval_write, Option.map_eq_some_iff] at h
  obtain ⟨write, hwrite, heq⟩ := h
  cases heq
  split at hwrite
  · cases hwrite
    rfl
  · split at hwrite
    · cases hwrite
    · cases hwrite
      rfl

theorem does_startRun : Does (startRun env r) (AiFund.startRun env r) := by
  intro db hdb
  refine doesAt_getRow_bind fun run hrun => ?_
  cases (if run.mutatesDossier = true then run.coverageId else none) with
  | none => exact doesAt_markRunning hdb hrun
  | some covId =>
      refine (doesAt_insertLock hdb).bind fun _ db' heval hdb' => ?_
      refine .select_bind ?_
      refine .ite (fun _ => ?_) fun _ => ?_
      · refine doesAt_of_eq (a := false) hdb' rfl fun written => ?_
        rw [returned_bind, returned_flush_of_legal hdb'.legal]
        rfl
      · exact doesAt_markRunning hdb' (by rw [runs_of_insertLock heval]; exact hrun)

theorem dropLocks_apply :
    (DbWrite.dropLocks r ((db.locks.filter fun lock => lock.runId = r).map (·.coverageId))).apply db =
      { db with locks := db.locks.filter fun lock => lock.runId ≠ r } := by
  refine congrArg (fun locks => { db with locks }) (List.filter_congr fun lock hlock => ?_)
  by_cases hrun : lock.runId = r
  · have hmem : lock.coverageId ∈ (db.locks.filter fun lock => lock.runId = r).map (·.coverageId) :=
      List.mem_map_of_mem (List.mem_filter.2 ⟨hlock, by simp [hrun]⟩)
    simp only [hrun, hmem]
    simp
  · simp [hrun]

theorem doesAt_finishLoaded {run : Run} {status : RunStatus} {summary error : Option String}
    (hdb : db.Sound) (hrun : db.runs[r]? = some run) :
    DoesAt db (finishLoaded env r run status summary error) (do
      let action ← AiFund.ofExcept id (finishAction status)
      let sm ← AiFund.ofExcept .illegalStateChange (runTransition run.status action {})
      assign fun db => db.updateRun r fun run =>
        { run with
          status := sm.toState
          finishedAt := some env.now
          summary := summary.orElse fun _ => run.summary
          error := error.orElse fun _ => run.error }
      sm.sideEffects.forM (applyFinishEffect env r run status)
      flush) := by
  refine doesAt_ofExcept_bind fun action haction => doesAt_ofExcept_bind fun sm hsm => ?_
  obtain ⟨hentry, heffects⟩ := runEntries_of_runTransition hsm
  rw [(finishAction_entry haction hentry).2.2] at heffects
  let event : OutboxEvent :=
    { kind := "run.finished", coverageId := run.coverageId, runId := some r,
      payload := [("status", .str status.value), ("run_id", .str (toString r))],
      dedupeKey := .fresh "run.finished" r db.outbox.length, availableAt := env.now }
  have hisRun : db.isRun r = true := decide_eq_true (List.getElem?_eq_some_iff.1 hrun).1
  have hreleased := hdb.releaseLock (r := r)
  have htold : Db.Sound { db with
      locks := db.locks.filter fun lock => lock.runId ≠ r, outbox := db.outbox ++ [event] } :=
    hreleased.addOutbox (hdb.isCoverage_of_run hrun) hisRun rfl
  have hsound := htold.updateRun (r := r) (f := fun run =>
    { run with
      status := sm.toState
      finishedAt := some env.now
      summary := summary.orElse fun _ => run.summary
      error := error.orElse fun _ => run.error }) fun _ => rfl
  refine doesAt_of_eq (a := ()) hsound ?_ fun written => ?_
  · simp only [heffects, eval_forM_cons, eval_forM_nil, finishEffect, finishInsert, releaseLock,
      Script.eval_bind, Script.eval_write, Script.eval_pure, eval_send, Option.map_some,
      Option.bind_some]
    refine congrArg (fun db => some ((), db)) ?_
    rw [dropLocks_apply]
    exact updateRun_congr hrun (by simp [Run.writeFinished])
  · simp only [heffects, returned_bind, returned_assign, Option.bind_some, returned_forM_cons,
      applyFinishEffect, returned_forM_nil]
    rw [returned_execute_of_legal hreleased.legal]
    simp only [Option.bind_some, AiFund.addOutbox, returned_assign]
    rw [returned_flush_of_legal]
    · rfl
    · exact hsound.legal

theorem does_finishRun {status : RunStatus} {summary error : Option String} :
    Does (finishRun env r status summary error) (AiFund.finishRun env r status summary error) :=
  fun _ hdb => doesAt_getRow_bind fun _ hrun => doesAt_finishLoaded hdb hrun

/-! ## The queue -/

theorem does_heartbeat {workerId : String} {leaseSeconds : ℚ} :
    Does (heartbeat env stageId workerId leaseSeconds)
      (AiFund.heartbeat env stageId workerId leaseSeconds) := by
  intro db hdb
  refine doesAt_lookup_bind ?_
  cases hstage : db.stages[stageId]? with
  | none => exact .pure hdb _
  | some stage =>
      refine .ite (fun _ => .pure hdb _) fun _ => ?_
      have hsound := hdb.updateStage (i := stageId) (f := fun stage =>
        { stage with leaseExpiresAt := some (env.now + leaseSeconds) }) fun _ => rfl
      refine doesAt_of_eq (a := true) hsound ?_ fun written => ?_
      · simp only [Script.eval_bind, eval_sendUnless, Option.bind_some, Script.eval_pure]
        split
        · rename_i hlease
          rw [updateStage_eq_self hstage (by rw [hlease])]
        · rfl
      · rw [returned_bind, returned_assign, Option.bind_some, returned_bind,
          returned_flush_of_legal hsound.legal]
        rfl

theorem runs_close {id : Option Nat} {f : StageAttempt → StageAttempt} :
    (db.close id f).runs = db.runs := by
  cases id <;> rfl

/-- The attempt that a completion closes, with its row. -/
theorem openAttemptRow_cases (env : Env) (stageId : Nat) (db : Db) :
    (openAttempt env stageId db = none ∧ openAttemptRow env stageId db = none) ∨
      ∃ id row, openAttempt env stageId db = some id ∧ db.attempts[id]? = some row ∧
        openAttemptRow env stageId db = some (id, row) := by
  unfold openAttemptRow
  cases hopen : openAttempt env stageId db with
  | none => exact .inl ⟨rfl, rfl⟩
  | some id =>
      obtain ⟨row, hrow, -⟩ := RowOrder.of_first _ hopen
      exact .inr ⟨id, row, rfl, hrow, by simp [hrow]⟩

theorem eval_closeAttemptRow {attempt : AttemptIn} {result : JsonObject} {now : Time} {base : Db}
    (hbase : base.attempts = db.attempts) :
    (closeAttemptRow attempt now result (openAttemptRow env stageId db)).eval base =
      some ((), base.close (openAttempt env stageId db) fun a =>
        a.closed attempt .succeeded now (some result) none none) := by
  obtain ⟨hopen, hrow⟩ | ⟨id, row, hopen, hid, hrow⟩ := openAttemptRow_cases env stageId db
  · rw [hopen, hrow]
    rfl
  · rw [hopen, hrow, closeAttemptRow, eval_send]
    refine congrArg (fun attempts => some ((), { base with attempts })) ?_
    refine modify_congr (hbase ▸ hid) ?_
    simp [StageAttempt.writeClosed, StageAttempt.closed]

/-- What a completion makes of its stage, of the stage's attempt and of its run. -/
def completed (env : Env) (stageId runId : Nat) (attempt : AttemptIn) (result : JsonObject)
    (status : StageStatus) (db : Db) : Db :=
  (((db.close (openAttempt env stageId db) fun a =>
    a.closed attempt .succeeded env.now (some result) none none).updateStage stageId fun stage =>
      { stage with costUsd := stage.costUsd + attempt.charged }).updateStage stageId fun stage =>
        RunStage.releaseClaim
          { stage with
            status
            finishedAt := some env.now
            result := some result
            tokensIn := attempt.tokensIn
            tokensOut := attempt.tokensOut
            transcriptRef := attempt.transcriptRef }).updateRun runId fun run =>
              { run with costUsd := stageCost db runId }

theorem sound_completed (env : Env) (stageId runId : Nat) (attempt : AttemptIn)
    (result : JsonObject) (status : StageStatus) (hdb : db.Sound) :
    (completed env stageId runId attempt result status db).Sound := by
  refine Db.Sound.updateRun ?_ fun _ => rfl
  refine Db.Sound.updateStage ?_ fun _ => rfl
  refine Db.Sound.updateStage ?_ fun _ => rfl
  exact hdb.close fun _ => rfl

theorem eval_flushCompleted {attempt : AttemptIn} {result : JsonObject} {status : StageStatus}
    {stage : RunStage} {run : Run} (hstage : db.stages[stageId]? = some stage)
    (hrun : db.runs[stage.runId]? = some run) :
    (flushCompleted env stageId attempt result stage (openAttemptRow env stageId db) status
      (stageCost db stage.runId) run).eval db =
        some ((), completed env stageId stage.runId attempt result status db) := by
  have hcost : (if stageCost db stage.runId = run.costUsd then db else
      db.updateRun stage.runId fun row => { row with costUsd := stageCost db stage.runId }) =
        db.updateRun stage.runId fun row => { row with costUsd := stageCost db stage.runId } := by
    split
    · rename_i htotal
      exact (updateRun_eq_self hrun (by rw [htotal])).symm
    · rfl
  have hrow : db.stages.modify stageId (stage.writeCompleted status env.now attempt result) =
      (db.stages.modify stageId fun stage =>
        { stage with costUsd := stage.costUsd + attempt.charged }).modify stageId fun stage =>
          RunStage.releaseClaim
            { stage with
              status
              finishedAt := some env.now
              result := some result
              tokensIn := attempt.tokensIn
              tokensOut := attempt.tokensOut
              transcriptRef := attempt.transcriptRef } := by
    rw [List.modify_modify_eq]
    exact modify_congr hstage (by simp [RunStage.writeCompleted, RunStage.releaseClaim])
  rw [flushCompleted, Script.eval_bind, eval_sendUnless, Option.bind_some]
  change (do
    send (.setStage stageId (stage.writeCompleted status env.now attempt result))
    closeAttemptRow attempt env.now result (openAttemptRow env stageId db) : DbScript Unit).eval
      (if stageCost db stage.runId = run.costUsd then db else
        db.updateRun stage.runId fun row => { row with costUsd := stageCost db stage.runId }) = _
  rw [hcost, Script.eval_bind, eval_send, Option.bind_some]
  refine (eval_closeAttemptRow (by rfl)).trans (congrArg (fun db => some ((), db)) ?_)
  unfold completed
  cases openAttempt env stageId db with
  | none => exact congrArg (fun stages => { db.updateRun stage.runId _ with stages }) hrow
  | some id =>
      exact congrArg (fun stages =>
        { (db.updateRun stage.runId _).updateAttempt id _ with stages }) hrow

theorem does_completeStage {attempt : AttemptIn} {result : JsonObject} :
    Does (completeStage env stageId attempt result)
      (AiFund.completeStage env stageId attempt result) := by
  intro db hdb
  refine doesAt_getRow_bind fun stage hstage => ?_
  cases hsm : stageTransition stage.status .complete ⟨stage.attempts, stage.maxAttempts⟩ with
  | error error =>
      refine doesAt_of_none ?_ fun written => ?_
      · simp [ofExcept]
      · simp [AiFund.closeAttempt]
  | ok sm =>
      cases hrun : db.runs[stage.runId]? with
      | none =>
          refine doesAt_of_none ?_ fun written => ?_
          · simp [ofExcept, hrun]
          · simp [AiFund.closeAttempt, rollupRun, hrun, Db.updateStage]
      | some run =>
          have hid : stage.runId < db.runs.length := (List.getElem?_eq_some_iff.1 hrun).1
          have hsound := sound_completed env stageId stage.runId attempt result sm.toState hdb
          refine doesAt_of_eq (a := ()) hsound ?_ fun written => ?_
          · simp only [Script.eval_bind, Script.eval_select, Option.bind_some, eval_getRow, hrun,
              Option.map_some, ofExcept, Script.eval_pure, eval_flushCompleted hstage hrun]
          · simp only [AiFund.closeAttempt, rollupRun, returned_bind, returned_select,
              returned_assign, Option.bind_some, returned_ofExcept_ok, returned_getRow, if_pos hid]
            have hloaded (f g : RunStage → RunStage) (h : StageAttempt → StageAttempt) :
                (((db.close (openAttempt env stageId db) h).updateStage stageId f).updateStage
                  stageId g).runs[stage.runId]? = some run :=
              (congrArg (fun runs => runs[stage.runId]?) runs_close).trans hrun
            simp only [hloaded, Option.map_some, Option.bind_some]
            rw [returned_flush_of_legal hsound.legal]
            rfl

/-- Rewriting rows with what each of them was at first. -/
theorem foldl_modify_rows {rows current : List ρ} {ids : List Nat} (f : Nat → ρ → ρ)
    (g : Nat → ρ → ρ → ρ) (hnodup : ids.Nodup) (hcurrent : ∀ id ∈ ids, current[id]? = rows[id]?)
    (hfg : ∀ id row, g id row row = f id row) :
    (ids.filterMap fun id => rows[id]?.map fun row => (id, row)).foldl
        (fun rows pair => rows.modify pair.1 (g pair.1 pair.2)) current =
      ids.foldl (fun rows id => rows.modify id (f id)) current := by
  induction ids generalizing current with
  | nil => rfl
  | cons id ids ih =>
      obtain ⟨hnew, hnodup⟩ := List.nodup_cons.1 hnodup
      have hrest (h : ρ → ρ) : ∀ other ∈ ids, (current.modify id h)[other]? = rows[other]? := by
        intro other hother
        have hne : other ≠ id := fun heq => hnew (heq ▸ hother)
        rw [getElem?_modify_of_ne hne]
        exact hcurrent other (List.mem_cons_of_mem id hother)
      have hid := hcurrent id List.mem_cons_self
      cases hrow : rows[id]? with
      | none =>
          have hsame : current.modify id (f id) = current :=
            List.modify_eq_self (List.getElem?_eq_none_iff.1 (hid.trans hrow))
          rw [List.filterMap_cons_none (by rw [hrow]; rfl), List.foldl_cons, hsame]
          exact ih hnodup fun other hother => hcurrent other (List.mem_cons_of_mem id hother)
      | some row =>
          rw [List.filterMap_cons_some (by rw [hrow]; rfl), List.foldl_cons, List.foldl_cons,
            modify_congr (hid.trans hrow) (hfg id row)]
          exact ih hnodup (hrest _)

/-- The stages reaped in turn, each with the attempt that is open in `db`. -/
def reapEach (env : Env) (backoff : BackoffPolicy) (db : Db) (ids : List Nat) (loaded : Db) : Db :=
  ids.foldl (fun loaded id =>
    (loaded.close (openAttempt env id db) fun a => a.lapsed env.now).updateStage id
      fun stage => stage.reaped env id backoff) loaded

theorem returned_forM_reapStage {backoff : BackoffPolicy} {ids : List Nat} {loaded : Db}
    {written : List Db} :
    returned (ids.forM (reapStage env backoff)) ⟨db, loaded, written⟩ =
      some ((), ⟨db, reapEach env backoff db ids loaded, written⟩) := by
  induction ids generalizing loaded with
  | nil => rfl
  | cons id ids ih =>
      rw [returned_forM_cons]
      exact ih

theorem reapEach_eq (env : Env) (backoff : BackoffPolicy) (db : Db) (ids : List Nat)
    (loaded : Db) :
    reapEach env backoff db ids loaded =
      { loaded with
        stages := ids.foldl (fun rows id => rows.modify id fun stage =>
          stage.reaped env id backoff) loaded.stages
        attempts := (ids.filterMap fun id => openAttempt env id db).foldl
          (fun rows id => rows.modify id fun a => a.lapsed env.now) loaded.attempts } := by
  induction ids generalizing loaded with
  | nil => rfl
  | cons id ids ih =>
      change reapEach env backoff db ids _ = _
      rw [ih]
      cases hopen : openAttempt env id db with
      | none => simp [hopen, Db.close, Db.updateStage]
      | some key => simp [hopen, Db.close, Db.updateStage, Db.updateAttempt]

theorem sound_reapEach (env : Env) (backoff : BackoffPolicy) (db : Db) (ids : List Nat)
    {loaded : Db} (hloaded : loaded.Sound) : (reapEach env backoff db ids loaded).Sound := by
  induction ids generalizing loaded with
  | nil => exact hloaded
  | cons id ids ih =>
      refine ih ?_
      refine Db.Sound.updateStage (hloaded.close ?_) fun stage => ?_
      · exact fun _ => rfl
      · unfold RunStage.reaped
        split <;> rfl

theorem eval_forM_setStage {backoff : BackoffPolicy} {pairs : List (Nat × RunStage)} :
    (pairs.forM fun (id, stage) =>
        send (.setStage id (stage.writeReaped env id backoff)) : DbScript PUnit).eval db =
      some (⟨⟩, { db with
        stages := pairs.foldl (fun rows pair =>
          rows.modify pair.1 (pair.2.writeReaped env pair.1 backoff)) db.stages }) := by
  induction pairs generalizing db with
  | nil => rfl
  | cons pair pairs ih =>
      rw [eval_forM_cons]
      exact ih

theorem eval_forM_setAttempt {now : Time} {pairs : List (Nat × StageAttempt)} :
    (pairs.forM fun (id, a) => send (.setAttempt id (a.writeLapsed now)) : DbScript PUnit).eval db =
      some (⟨⟩, { db with
        attempts := pairs.foldl (fun rows pair =>
          rows.modify pair.1 (pair.2.writeLapsed now)) db.attempts }) := by
  induction pairs generalizing db with
  | nil => rfl
  | cons pair pairs ih =>
      rw [eval_forM_cons]
      exact ih

theorem eval_mapM_select {f : α → Db → β} {l : List α} :
    (l.mapM fun a => Script.select (f a) : DbScript (List β)).eval db =
      some (l.map fun a => f a db, db) := by
  induction l with
  | nil => rfl
  | cons a l ih =>
      rw [List.mapM_cons, Script.eval_bind, Script.eval_select, Option.bind_some, Script.eval_bind,
        ih]
      rfl

/-- Each attempt is of one stage. -/
theorem nodup_openAttempts {ids : List Nat} (hnodup : ids.Nodup) :
    (ids.filterMap fun id => openAttempt env id db).Nodup := by
  refine hnodup.filterMap fun a b key ha hb => ?_
  obtain ⟨row, hrow, hp⟩ := RowOrder.of_first _ ha
  obtain ⟨row', hrow', hp'⟩ := RowOrder.of_first _ hb
  obtain rfl := Option.some.inj (hrow.symm.trans hrow')
  simp only [Bool.and_eq_true, decide_eq_true_eq] at hp hp'
  exact hp.1.symm.trans hp'.1

theorem writeReaped_self {stage : RunStage} {id : Nat} {backoff : BackoffPolicy} :
    stage.writeReaped env id backoff stage = stage.reaped env id backoff := by
  unfold RunStage.writeReaped RunStage.reaped RunStage.releaseClaim
  simp only [put_self]
  split <;> rfl

theorem fst_expiredRows {now : Time} :
    (expiredRows env now db).map (·.1) = (env.rows .expired).all (leaseExpired now) db.stages := by
  have hfound : ∀ id ∈ (env.rows .expired).all (leaseExpired now) db.stages,
      (db.stages[id]?.map fun stage => (id, stage)).map (·.1) = some id := by
    intro id hid
    obtain ⟨stage, hstage, -⟩ := (RowOrder.mem_all _).1 hid
    rw [hstage]
    rfl
  rw [expiredRows, List.map_filterMap, List.filterMap_congr hfound, List.filterMap_some]

theorem does_reapExpired {now : Time} {backoff : BackoffPolicy} :
    Does (reapExpired env now backoff) (AiFund.reapExpired env now backoff) := by
  intro db hdb
  have hids : (expiredRows env now db).map (·.1) = _ := fst_expiredRows
  generalize hexpired : (env.rows .expired).all (leaseExpired now) db.stages = expired at hids
  have hnodup : expired.Nodup := hexpired ▸ RowOrder.nodup_all _
  have hstages : (expiredRows env now db).foldl (fun rows pair =>
        rows.modify pair.1 (pair.2.writeReaped env pair.1 backoff)) db.stages =
      expired.foldl (fun rows id => rows.modify id fun stage =>
        stage.reaped env id backoff) db.stages := by
    rw [expiredRows, hexpired]
    exact foldl_modify_rows (fun id (stage : RunStage) => stage.reaped env id backoff)
      (fun id stage row => stage.writeReaped env id backoff row) hnodup (fun _ _ => rfl)
      fun id stage => writeReaped_self
  have hattempts : (((expiredRows env now db).map fun pair =>
        openAttemptRow env pair.1 db).filterMap fun a => a).foldl (fun rows pair =>
          rows.modify pair.1 (pair.2.writeLapsed env.now)) db.attempts =
      (expired.filterMap fun id => openAttempt env id db).foldl
        (fun rows id => rows.modify id fun a => a.lapsed env.now) db.attempts := by
    have hrows : ((expiredRows env now db).map fun pair =>
        openAttemptRow env pair.1 db).filterMap (fun a => a) =
        (expired.filterMap fun id => openAttempt env id db).filterMap fun id =>
          db.attempts[id]?.map fun a => (id, a) := by
      rw [← hids, List.filterMap_map, List.filterMap_filterMap, List.filterMap_map]
      refine List.filterMap_congr fun pair _ => ?_
      simp only [Function.comp_apply, openAttemptRow]
      cases openAttempt env pair.1 db with
      | none => rfl
      | some id =>
          rw [Option.bind_some]
          change (db.attempts[id]?.bind fun a => some (id, a)) = _
          cases db.attempts[id]? <;> rfl
    rw [hrows]
    refine foldl_modify_rows (fun _ (a : StageAttempt) => a.lapsed env.now)
      (fun _ a row => a.writeLapsed env.now row) (nodup_openAttempts hnodup) (fun _ _ => rfl) ?_
    simp [StageAttempt.writeLapsed, StageAttempt.lapsed]
  have hsound := sound_reapEach env backoff db expired hdb
  refine doesAt_of_eq (a := expired) hsound ?_ fun written => ?_
  · simp only [reapExpired, flushReaped, Script.eval_bind, Script.eval_select, Option.bind_some,
      eval_mapM_select, eval_forM_setStage, eval_forM_setAttempt, Script.eval_pure, hids, hstages,
      hattempts, reapEach_eq]
  · rw [AiFund.reapExpired, returned_bind, returned_select, Option.bind_some, returned_bind,
      hexpired, returned_forM_reapStage, Option.bind_some, returned_bind,
      returned_flush_of_legal hsound.legal]
    rfl

end Concurrent

end AiFund
