import AiFund.Concurrent.Advance
import AiFund.Proof.Keys
import AiFund.Proof.LockRace
import AiFund.Proof.Requests

/-!
# Cancelling a run during a tick

A tick and a cancel each work on the run as they have loaded it. As long as neither ends the run
under the other, a terminal status lasts, and the lock goes with the end of the run: the request has
ended the run, or has been refused because the run had ended.
-/

namespace AiFund.Concurrent

open ReadCommitted Rows History UnitOfWork

variable {r c : Nat} {s s' db : Db} {l : Local Db RowKey} {w : DbWrite} {env : Env}
  {new : Option RunStatus} {status : RunStatus} {ids : List Nat} {raises : Assertion Db RowKey}

/-! ## What is pending -/

def statusOf (r : Nat) (db : Db) : Option RunStatus := db.runs[r]?.map (·.status)

theorem Db.ended_eq : Db.ended r db = (statusOf r db).any (·.terminal) := by
  unfold Db.ended statusOf
  cases db.runs[r]? <;> rfl

theorem statusOf_eq {run : Run} (h : db.runs[r]? = some run) :
    statusOf r db = some run.status := by
  unfold statusOf
  rw [h]
  rfl

theorem statusOf_updateRun {k : Nat} {f : Run → Run} (hf : ∀ run, (f run).status = run.status) :
    statusOf r (db.updateRun k f) = statusOf r db := by
  have hruns : (db.runs.modify k f).map (·.status) = db.runs.map (·.status) :=
    map_modify_of_eq hf
  unfold statusOf
  rw [← List.getElem?_map, ← List.getElem?_map]
  exact congrArg (·[r]?) hruns

/-- What is pending gives the run the status `new`, if that is one, and deletes the run's locks on
the coverages `ids`. -/
structure Marks (r : Nat) (new : Option RunStatus) (ids : List Nat) (l : Local Db RowKey) :
    Prop where
  status : ∀ db, statusOf r (l.pending db) = (statusOf r db).map fun status => new.getD status
  locks : ∀ db : Db, (l.pending db).locks =
    db.locks.filter fun lock => ¬ (lock.runId = r ∧ lock.coverageId ∈ ids)

/-- The write leaves the status of the run and the locks alone. -/
structure Aloof (r : Nat) (w : DbWrite) : Prop where
  status : ∀ db, statusOf r (w.apply db) = statusOf r db
  locks : ∀ db : Db, (w.apply db).locks = db.locks

theorem CoverageWrite.aloof (h : CoverageWrite w) : Aloof r w := by
  cases h <;> exact ⟨fun _ => rfl, fun _ => rfl⟩

theorem QueueWrite.aloof (h : QueueWrite w) : Aloof r w := by
  cases h with
  | cost => exact ⟨fun _ => statusOf_updateRun fun _ => rfl, fun _ => rfl⟩
  | _ => exact ⟨fun _ => rfl, fun _ => rfl⟩

namespace Marks

theorem start : Marks r none [] .start := by
  refine ⟨fun db => ?_, fun db => ?_⟩
  · change statusOf r db = _
    cases statusOf r db <;> rfl
  · change db.locks = _
    simp

theorem wrote (h : Marks r new ids l) (hw : Aloof r w) : Marks r new ids (l.wrote w) :=
  ⟨fun db => (hw.status _).trans (h.status db), fun db => (hw.locks _).trans (h.locks db)⟩

theorem saw (h : Marks r new ids l) : Marks r new ids (l.saw s) := ⟨h.status, h.locks⟩

theorem setRun {f : Run → Run} (h : Marks r none ids l) (hf : ∀ run, (f run).status = status) :
    Marks r (some status) ids (l.wrote (DbWrite.setRun r f)) := by
  refine ⟨fun db => ?_, h.locks⟩
  have hset : statusOf r ((l.pending db).updateRun r f) =
      (statusOf r (l.pending db)).map fun _ => status := by
    unfold statusOf Db.updateRun
    cases hrun : (l.pending db).runs[r]? with
    | none => simp [hrun]
    | some run => simp [hrun, hf]
  change statusOf r ((l.pending db).updateRun r f) = _
  rw [hset, h.status]
  cases statusOf r db <;> rfl

theorem dropLocks (h : Marks r new [] l) : Marks r new ids (l.wrote (DbWrite.dropLocks r ids)) := by
  refine ⟨h.status, fun db => ?_⟩
  change (l.pending db).locks.filter _ = _
  rw [h.locks, List.filter_filter]
  simp

theorem mem_locksOf (h : Marks r new ids l) (lock : CoverageRunLock) :
    lock ∈ locksOf c (l.pending s) ↔ lock ∈ locksOf c s ∧ ¬ (lock.runId = r ∧ c ∈ ids) := by
  simp only [locksOf, h.locks, List.mem_filter, decide_eq_true_eq]
  constructor
  · rintro ⟨⟨hlock, hkept⟩, rfl⟩
    exact ⟨⟨hlock, rfl⟩, hkept⟩
  · rintro ⟨⟨hlock, rfl⟩, hkept⟩
    exact ⟨⟨hlock, hkept⟩, rfl⟩

end Marks

/-! ## A transaction that has loaded the run -/

/-- One of the two transactions: whether it has loaded the run, and the statuses with which it works
on what it has loaded. -/
structure Side (r : Nat) where
  loaded : Local Db RowKey → Bool
  fits : RunStatus → Bool
  saw : ∀ l s, loaded l = true → loaded (l.saw s) = true
  wrote : ∀ l w, loaded l = true → loaded (l.wrote w) = true
  opened : ∀ status, fits status = true → status.terminal = false

def Side.tick (r : Nat) : Side r where
  loaded := tickLoaded r
  fits status := status = .running
  saw l s h := by
    obtain ⟨first, hfirst, hrun⟩ := (Option.any_eq_true _ _).1 h
    refine (Option.any_eq_true _ _).2 ⟨first, ?_, hrun⟩
    change (l.seen ++ [l.visible s]).head? = some first
    rw [List.head?_append, hfirst]
    rfl
  wrote _ _ h := h
  opened status h := by
    obtain rfl := of_decide_eq_true h
    rfl

def Side.cancel (r : Nat) : Side r where
  loaded := cancelLoaded r
  fits status := !status.terminal
  saw l s h := by
    obtain ⟨second, hsecond, hrun⟩ := (Option.any_eq_true _ _).1 h
    refine (Option.any_eq_true _ _).2 ⟨second, ?_, hrun⟩
    change (l.seen ++ [l.visible s])[1]? = some second
    exact getElem?_append_of_some hsecond
  wrote _ _ h := h
  opened status h := by simpa using h

variable {side : Side r}

/-- Until it has loaded the run, a transaction relies on nothing; from then on the run is not ended
and no lock of the coverage is touched. -/
def SideRely (side : Side r) (c : Nat) : Rely Db RowKey := fun l s s' =>
  side.loaded l = true → ((statusOf r s).any side.fits = true →
    (statusOf r s').any side.fits = true) ∧ locksOf c s' = locksOf c s

/-- The transaction works on the run, which still fits what it has loaded. -/
structure Working (side : Side r) (new : Option RunStatus) (ids : List Nat) (s : Db)
    (l : Local Db RowKey) : Prop where
  loaded : side.loaded l = true
  fits : (statusOf r s).any side.fits = true
  marks : Marks r new ids l

/-- All locks of the run on the coverage are among those deleted. -/
def Frees (r c : Nat) (ids : List Nat) (s : Db) : Prop :=
  ∀ lock ∈ locksOf c s, lock.runId = r → c ∈ ids

theorem Working.rely (h : Working side new ids s l) (hrely : SideRely side c l s s') :
    Working side new ids s' l :=
  ⟨h.loaded, (hrely h.loaded).1 h.fits, h.marks⟩

theorem stable_working : Stable (SideRely side c) (Working side new ids) :=
  fun _ _ _ h hrely => h.rely hrely

theorem Working.wrote (h : Working side new ids s l) (hw : Aloof r w) :
    Working side new ids s (l.wrote w) :=
  ⟨side.wrote _ _ h.loaded, h.fits, h.marks.wrote hw⟩

theorem Working.saw (h : Working side new ids s l) : Working side new ids s (l.saw s') :=
  ⟨side.saw _ _ h.loaded, h.fits, h.marks.saw⟩

theorem Working.setRun {f : Run → Run} (h : Working side none ids s l)
    (hf : ∀ run, (f run).status = status) :
    Working side (some status) ids s (l.wrote (DbWrite.setRun r f)) :=
  ⟨side.wrote _ _ h.loaded, h.fits, h.marks.setRun hf⟩

theorem Frees.rely (h : Frees r c ids s) (hsame : locksOf c s' = locksOf c s) :
    Frees r c ids s' := by
  unfold Frees
  rw [hsame]
  exact h

/-- The transaction leaves the run in a terminal status and without its lock. -/
structure HasEnded (side : Side r) (c : Nat) (s : Db) (l : Local Db RowKey) : Prop where
  working : ∃ status ids, Working side (some status) ids s l ∧ status.terminal = true ∧
    Frees r c ids s

/-- What a transaction leaves when it commits: nothing that shows in the run or its lock, a status
that is not terminal, or a terminal one without the lock. -/
inductive Leaves (side : Side r) (c : Nat) (s : Db) (l : Local Db RowKey) : Prop
  | idle (h : Marks r none [] l)
  | stopped {status : RunStatus} (hlive : ∀ found, side.fits found = true → found.live = true)
      (h : Working side (some status) [] s l) (hopen : status.terminal = false)
  | ended (h : HasEnded side c s l)

theorem stable_hasEnded : Stable (SideRely side c) (HasEnded side c) := by
  rintro s s' l ⟨status, ids, h, hends, hfrees⟩ hrely
  exact ⟨status, ids, h.rely hrely, hends, hfrees.rely (hrely h.loaded).2⟩

theorem HasEnded.wrote (h : HasEnded side c s l) (hw : Aloof r w) :
    HasEnded side c s (l.wrote w) := by
  obtain ⟨status, ids, h, hends, hfrees⟩ := h.working
  exact ⟨status, ids, h.wrote hw, hends, hfrees⟩

theorem stable_leaves : Stable (SideRely side c) (Leaves side c) := by
  intro s s' l h hrely
  cases h with
  | idle h => exact .idle h
  | stopped hlive h hopen => exact .stopped hlive (h.rely hrely) hopen
  | ended h => exact .ended (stable_hasEnded h hrely)

theorem outline_working {α : Type} {m : DbScript α} (h : m.Writes (Aloof r)) :
    Outline (SideRely side c) .always (Working side new ids) m fun _ => Working side new ids :=
  h.outline stable_working (fun _ _ h => h.saw) fun _ _ _ hw h => h.wrote hw

/-! ## Finishing the run -/

theorem finish_effects {action : RunAction} {status' : RunStatus} {sm : RunTransition}
    (haction : finishAction status = .ok action)
    (hsm : runTransition status' action {} = .ok sm) :
    sm.toState = status ∧ status.terminal = true ∧ status'.terminal = false ∧
      sm.sideEffects = [.releaseLock, .outboxRunFinished] := by
  obtain ⟨hentry, heffects⟩ := runEntries_of_runTransition hsm
  rw [heffects]
  cases status <;> cases haction <;> cases status' <;> simp [runEntries] at hentry <;>
    rw [← hentry.1] <;> exact ⟨rfl, rfl, rfl, rfl⟩

theorem outline_release :
    Outline (SideRely side c) raises (Working side none []) (releaseLock r) fun _ s l =>
      ∃ ids, Working side none ids s l ∧ Frees r c ids s := by
  refine .write ?_ ?_ fun s l _ hnone => by cases hnone
  · rintro s s' l ⟨ids, h, hfrees⟩ hrely
    exact ⟨ids, h.rely hrely, hfrees.rely (hrely h.loaded).2⟩
  · intro s l w h hw
    obtain rfl := Option.some.inj hw
    refine ⟨_, ⟨side.wrote _ _ h.loaded, h.fits, h.marks.dropLocks⟩, fun lock hlock hrun => ?_⟩
    obtain ⟨hmem, hcoverage⟩ := List.mem_filter.1 hlock
    have hheld : lock.coverageId = c := by simpa using hcoverage
    refine List.mem_map.2 ⟨lock, List.mem_filter.2 ⟨?_, by simpa using hrun⟩, hheld⟩
    change lock ∈ (l.pending s).locks
    rw [h.marks.locks]
    exact List.mem_filter.2 ⟨hmem, by simp⟩

/-- A run that is not terminal, as it was loaded, is ended, and its lock is released; where the
state machine of runs has no such transition, the script raises. -/
theorem outline_finishes {P : Assertion Db RowKey} {run : Run} {summary error : Option String}
    (hopen : ∀ s l, P s l → run.status.terminal = false → Working side none [] s l)
    (hraises : ∀ s l, P s l → (∀ action sm, finishAction status = .ok action →
      runTransition run.status action {} ≠ .ok sm) → raises s l) :
    Outline (SideRely side c) raises P (finishLoaded env r run status summary error)
      fun _ => HasEnded side c := by
  refine outline_ofExcept (fun action haction => outline_ofExcept (fun sm hsm => ?_) ?_) ?_
  · obtain ⟨hto, hends, hnot, heffects⟩ := finish_effects haction hsm
    rw [heffects, hto]
    have hstart : Outline (SideRely side c) raises (Working side none [])
        ([RunEffect.releaseLock, .outboxRunFinished].forM (finishEffect r)) fun _ s l =>
          ∃ ids, Working side none ids s l ∧ Frees r c ids s :=
      outline_release.bind fun _ => .pure fun _ _ h => h
    refine (hstart.bind fun _ => ?_).pre fun s l h => hopen s l h hnot
    refine .existing fun ids => ?_
    have hstable {new : Option RunStatus} : Stable (SideRely side c) fun s l =>
        Working side new ids s l ∧ Frees r c ids s := by
      rintro s s' l ⟨h, hfrees⟩ hrely
      exact ⟨h.rely hrely, hfrees.rely (hrely h.loaded).2⟩
    have hinsert : Outline (SideRely side c) raises
        (fun s l => Working side none ids s l ∧ Frees r c ids s)
        ([RunEffect.releaseLock, .outboxRunFinished].forM (finishInsert env r run status))
          fun _ s l => Working side none ids s l ∧ Frees r c ids s := by
      refine .forM fun effect _ => ?_
      cases effect with
      | outboxRunFinished =>
          exact outline_send hstable fun s l h => ⟨h.1.wrote ⟨fun _ => rfl, fun _ => rfl⟩, h.2⟩
      | _ => exact .pure fun _ _ h => h
    refine hinsert.bind fun _ => outline_send stable_hasEnded fun s l h => ?_
    refine ⟨_, ids, h.1.setRun fun row => ?_, hends, h.2⟩
    refine put_of_ne (fun heq => ?_) _
    rw [heq, hnot] at hends
    cases hends
  · intro e he s l h
    refine hraises s l h fun action' sm haction' hsm => ?_
    cases haction.symm.trans haction'
    cases he.symm.trans hsm
  · intro e he s l h
    refine hraises s l h fun action' sm haction' _ => ?_
    cases he.symm.trans haction'

/-- The same of a run that is known to be at work. -/
theorem outline_finishesWorking {run : Run} {summary error : Option String} :
    Outline (SideRely side c) .always (Working side none [])
      (finishLoaded env r run status summary error) fun _ => Leaves side c :=
  (outline_finishes (fun _ _ h _ => h) fun _ _ _ _ => trivial).post fun _ _ _ h => .ended h

/-! ## The tick -/

section Tick

variable {fund : FundConfig} {run : Run} {stage : RunStage} {result : JsonObject}
  {pending : List RunStage} {covId runId stageId : Nat}

theorem writes_findCoverage {allowed : DbWrite → Prop} {coverageId : Option Nat} :
    (findCoverage coverageId).Writes allowed := by
  cases coverageId with
  | none => exact .pure _
  | some covId => exact .select _

theorem writes_resolveContributors {allowed : DbWrite → Prop} :
    (resolveContributors covId).Writes allowed := by
  refine .bind writes_findCoverage fun cov => .bind (.select _) fun explicit => .ite (.pure _) ?_
  refine .bind (.select _) fun houses => ?_
  cases cov with
  | none => exact .raise
  | some cov => exact .pure _

/-- The rows that the results of stages add. -/
inductive DigestWrite : DbWrite → Prop
  | stage (row : RunStage) : DigestWrite (.addStage row)
  | prediction (row : Prediction) : DigestWrite (.addPrediction row)

theorem DigestWrite.aloof (h : DigestWrite w) : Aloof r w := by
  cases h with
  | stage row => exact ⟨fun _ => rfl, fun _ => rfl⟩
  | prediction row =>
      constructor <;> intro db <;>
        simp only [DbWrite.addPrediction, DbWrite.append, Db.insertPrediction] <;> split <;> rfl

theorem writes_sendStages : (sendStages pending).Writes DigestWrite :=
  .forM fun row => writes_sendChecked (.stage row)

theorem writes_registerPredictions :
    (registerPredictions env stageId stage run result pending).Writes DigestWrite := by
  refine .bind writes_ofExcept fun entries => .ite (.pure _) ?_
  refine .bind (.forM fun entry => ?_) fun _ => .bind writes_sendStages fun _ => .pure _
  exact .bind writes_ofExcept fun row => writes_sendChecked (.prediction row)

theorem writes_maybeAppendCrossCheck {allowed : DbWrite → Prop} {lastTp : Option Decimal} :
    (maybeAppendCrossCheck env fund runId run stage result lastTp pending).Writes allowed := by
  refine .bind writes_ofExcept fun fires => .ite (.pure _) (.bind (.select _) fun existing => ?_)
  refine .ite (.pure _) ?_
  split
  · exact .raise
  · exact .bind writes_resolveContributors fun _ => .bind (.select _) fun _ =>
      .bind writes_ofExcept fun _ => .pure _

theorem writes_digestStage (row : Nat × RunStage) :
    (digestStage env fund runId run pending row).Writes DigestWrite := by
  obtain ⟨stageId, stage⟩ := row
  unfold digestStage
  dsimp only
  split
  · refine .bind (.select _) fun _ => .bind writes_registerPredictions fun _ => ?_
    exact .ite writes_maybeAppendCrossCheck (.pure _)
  · exact .pure _

theorem outline_transitionCoverage {cov : Coverage} {recorded : Recorded} {force : Bool} :
    Outline (SideRely side c) .always (Working side new ids)
      (transitionCoverage env covId cov recorded force []) fun _ => Working side new ids :=
  outline_working (writes_transitionCoverage.mono fun _ => CoverageWrite.aloof)

/-- The writes of a tick that advances a run. -/
inductive AdvanceWrite (w : DbWrite) : Prop
  | queue (h : QueueWrite w)
  | digest (h : DigestWrite w)
  | coverage (h : CoverageWrite w)
  | finish (h : FinishWrite w)

theorem AdvanceWrite.keepsKeys (h : AdvanceWrite w) : KeepsKeys w := by
  cases h with
  | queue h => cases h <;> exact fun _ => rfl
  | digest h =>
      cases h with
      | stage row => exact fun _ => rfl
      | prediction row =>
          intro db
          simp only [DbWrite.addPrediction, DbWrite.append, Db.insertPrediction]
          split <;> rfl
  | coverage h => exact h.keepsKeys
  | finish h => exact h.keepsKeys

theorem writes_stopAtGate : (stopAtGate runId run).Writes FinishWrite :=
  .bind writes_ofExcept fun _ => writes_send (.run ..)

theorem writes_transitionBy {cov : Coverage} {recorded : Recorded} {force : Bool} :
    (transitionCoverage env covId cov recorded force []).Writes AdvanceWrite :=
  writes_transitionCoverage.mono fun _ => .coverage

theorem writes_finalizeRun : (finalizeRun env runId run).Writes AdvanceWrite := by
  refine .bind writes_findCoverage fun coverage => ?_
  split
  · exact .bind writes_transitionBy fun _ => writes_stopAtGate.mono fun _ => .finish
  · exact writes_finishLoaded.mono fun _ => .finish

theorem writes_failRun {error : String} : (failRun env runId run error).Writes AdvanceWrite := by
  refine .bind (.bind writes_findCoverage fun coverage => ?_) fun _ =>
    writes_finishLoaded.mono fun _ => .finish
  split
  · exact .ite (.bind writes_transitionBy fun _ => .pure _) (.pure _)
  · exact .pure _

theorem writes_settleRun : (settleRun env runId run pending).Writes AdvanceWrite := by
  refine .bind (.select _) fun rows => .bind (writes_sendStages.mono fun _ => .digest) fun _ => ?_
  refine .ite writes_failRun (.ite ?_ (.ite ?_ (.ite (.pure _) writes_finalizeRun)))
  · exact .bind writes_ofExcept fun _ => writes_send (.finish (.run ..))
  · exact .bind (writes_send (.coverage (.newGate _))) fun _ =>
      writes_stopAtGate.mono fun _ => .finish

theorem writes_advanceRun {drain : Drain} (hdrain : ∀ run, (drain run).Writes QueueWrite) :
    (advanceRun env fund drain runId).Writes AdvanceWrite := by
  refine .bind writes_getRow fun run => .ite (.pure _) ?_
  refine .bind ((hdrain run).mono fun _ => .queue) fun cost => .bind (.select _) fun rows => ?_
  refine .bind (.foldlM (fun _ _ => ?_) _) fun pending => writes_settleRun
  exact (writes_digestStage _).mono fun _ => .digest

/-- A run that is running stops in another status that is not terminal. -/
theorem outline_stop {action : RunAction} {f : RunTransition → Run → Run}
    (hrunning : run.status = .running)
    (haction : ∀ sm, runTransition .running action {} = .ok sm →
      sm.toState.terminal = false ∧ sm.toState ≠ .running)
    (hf : ∀ sm row, (f sm row).status = put run.status sm.toState row.status) :
    Outline (SideRely (.tick r) c) .always (Working (.tick r) none []) (do
      let sm ← ofExcept (runTransition run.status action {})
      send (.setRun r (f sm))) fun _ => Leaves (.tick r) c := by
  rw [hrunning]
  refine outline_ofExcept_bind fun sm hsm => outline_send stable_leaves fun s l h => ?_
  obtain ⟨hopen, hne⟩ := haction sm hsm
  refine .stopped (fun found hfound => ?_) (h.setRun fun row => ?_) hopen
  · rw [of_decide_eq_true hfound]
    rfl
  · rw [hf, hrunning]
    exact put_of_ne hne _

theorem outline_stopAtGate (hrunning : run.status = .running) :
    Outline (SideRely (.tick r) c) .always (Working (.tick r) none []) (stopAtGate r run)
      fun _ => Leaves (.tick r) c := by
  refine outline_stop hrunning (fun sm hsm => ?_) fun _ _ => rfl
  cases hsm
  exact ⟨rfl, by decide⟩

theorem outline_requeueRun {reason : String} (hrunning : run.status = .running) :
    Outline (SideRely (.tick r) c) .always (Working (.tick r) none []) (requeueRun r run reason)
      fun _ => Leaves (.tick r) c := by
  refine outline_stop hrunning (fun sm hsm => ?_) fun _ _ => rfl
  cases hsm
  exact ⟨rfl, by decide⟩

theorem outline_finalizeRun (hrunning : run.status = .running) :
    Outline (SideRely (.tick r) c) .always (Working (.tick r) none []) (finalizeRun env r run)
      fun _ => Leaves (.tick r) c := by
  refine .bind (outline_working writes_findCoverage) fun coverage => ?_
  split
  · exact .bind outline_transitionCoverage fun _ => outline_stopAtGate hrunning
  · exact outline_finishesWorking

theorem outline_failRun {error : String} :
    Outline (SideRely side c) .always (Working side none []) (failRun env r run error)
      fun _ => Leaves side c := by
  refine .bind (Q := fun _ => Working side none []) ?_ fun _ =>
    outline_finishesWorking
  refine .bind (outline_working writes_findCoverage) fun coverage => ?_
  split
  · exact .ite (.bind outline_transitionCoverage fun _ => .pure fun _ _ h => h)
      (.pure fun _ _ h => h)
  · exact .pure fun _ _ h => h

theorem outline_pauseForBudget (hrunning : run.status = .running) :
    Outline (SideRely (.tick r) c) .always (Working (.tick r) none []) (pauseForBudget r run)
      fun _ => Leaves (.tick r) c :=
  .bind (outline_working (writes_send ⟨fun _ => rfl, fun _ => rfl⟩)) fun _ =>
    outline_stopAtGate hrunning

theorem outline_settleRun (hrunning : run.status = .running) :
    Outline (SideRely (.tick r) c) .always (Working (.tick r) none [])
      (settleRun env r run pending) fun _ => Leaves (.tick r) c := by
  refine .bind (outline_working (.select _)) fun rows => ?_
  refine .bind (outline_working (writes_sendStages.mono fun _ => DigestWrite.aloof)) fun _ => ?_
  refine .ite outline_failRun (.ite (outline_requeueRun hrunning) ?_)
  refine .ite (outline_pauseForBudget hrunning) (.ite ?_ (outline_finalizeRun hrunning))
  exact .pure fun _ _ h => .idle h.marks

theorem outline_advanceRun {drain : Drain} (hdrain : ∀ run, (drain run).Writes QueueWrite) :
    Outline (SideRely (.tick r) c) .always (fun _ l => l = .start)
      (advanceRun env fund drain r) fun _ => Leaves (.tick r) c := by
  refine .bind (Q := fun run s l => Marks r none [] l ∧
    (run.status = .running → Working (.tick r) none [] s l))
    (outline_getRow (fun run => ?_) ?_ (fun _ _ _ _ => trivial) .always) fun run => ?_
  · exact fun s s' l h hrely => ⟨h.1, fun hrunning => (h.2 hrunning).rely hrely⟩
  · rintro s l row rfl hrow
    refine ⟨Marks.start.saw, fun hrunning => ⟨?_, ?_, Marks.start.saw⟩⟩
    · change Option.any _ (Local.start.visible s).runs[r]? = true
      rw [hrow]
      exact decide_eq_true hrunning
    · refine (Option.any_eq_true _ _).2 ⟨.running, ?_, rfl⟩
      exact (statusOf_eq hrow).trans (congrArg some hrunning)
  · by_cases hrunning : run.status = .running
    · rw [if_neg (not_not.2 hrunning)]
      refine Outline.pre (P := Working (.tick r) none []) ?_ fun s l h => h.2 hrunning
      have hdrained := (hdrain run).mono fun _ => QueueWrite.aloof (r := r)
      refine .bind (outline_working hdrained) fun cost => ?_
      refine .bind (outline_working (.select _)) fun rows => ?_
      have hdigested (rows : List (Nat × RunStage)) :
          (rows.foldlM (digestStage env fund r run) []).Writes (Aloof r) :=
        (Script.Writes.foldlM (fun _ _ => writes_digestStage _) _).mono fun _ => DigestWrite.aloof
      exact .bind (outline_working (hdigested rows)) fun pending => outline_settleRun hrunning
    · rw [if_pos hrunning]
      exact .pure fun _ _ h => .idle h.1

end Tick

/-! ## The cancel -/

section Cancel

variable {app : App} {request : Request} {notes : Option String} {pm : String}

/-- The request has read its key and written nothing. -/
structure ReadKey (l : Local Db RowKey) : Prop where
  seen : l.seen.length = 1
  keeps : ∀ db, l.pending db = db

theorem ReadKey.marks (h : ReadKey l) : Marks r none [] l := by
  refine ⟨fun db => ?_, fun db => ?_⟩
  · rw [h.keeps]
    exact Marks.start.status db
  · rw [h.keeps]
    exact Marks.start.locks db

/-- The row that the request loads next, if it is open, is one that it works on. -/
theorem ReadKey.working {run : Run} (h : ReadKey l) (hrun : s.runs[r]? = some run)
    (hopen : run.status.terminal = false) : Working (.cancel r) none [] s (l.saw s) := by
  refine ⟨?_, ?_, h.marks.saw⟩
  · change ((l.seen ++ [l.visible s])[1]?.any _) = true
    rw [← h.seen, List.getElem?_concat_length]
    change ((l.pending s).runs[r]?.any _) = true
    rw [h.keeps, hrun]
    change (!run.status.terminal) = true
    rw [hopen]
    rfl
  · rw [statusOf_eq hrun]
    change (!run.status.terminal) = true
    rw [hopen]
    rfl

/-- The row that the request loads next, if it is not open, has ended. -/
theorem ended_of_terminal {run : Run} (hrun : s.runs[r]? = some run)
    (hends : run.status.terminal = true) : Db.ended r s = true := by
  unfold Db.ended
  rw [hrun]
  exact hends

/-- What a request to cancel a run relies on: the other neither stores a key nor deletes the run,
and a terminal status lasts. -/
structure CancelRely (r c : Nat) (l : Local Db RowKey) (s s' : Db) : Prop where
  side : SideRely (.cancel r) c l s s'
  keys : s'.idempotencyKeys = s.idempotencyKeys
  there : (statusOf r s).isSome = true → (statusOf r s').isSome = true
  lasts : Db.ended r s = true → Db.ended r s' = true

/-- The request raises only where the run has ended. -/
def RunEnded (r : Nat) : Assertion Db RowKey := fun s _ => Db.ended r s = true

theorem stable_runEnded : Stable (CancelRely r c) (RunEnded r) :=
  fun _ _ _ h hrely => hrely.lasts h

theorem finishAction_cancelled : finishAction .cancelled = .ok .cancel := rfl

/-- Every run that is not terminal can be cancelled. -/
theorem runTransition_cancel (hopen : status.terminal = false) :
    ∃ sm, runTransition status .cancel {} = .ok sm := by
  cases status <;> first | exact ⟨_, rfl⟩ | cases hopen

theorem outline_finishCancelled :
    Outline (CancelRely r c) (RunEnded r) (fun s l => ReadKey l ∧ (statusOf r s).isSome = true)
      (finishRun env r .cancelled none notes) fun _ => HasEnded (.cancel r) c := by
  refine .bind (Q := fun run s l =>
    (run.status.terminal = false → Working (.cancel r) none [] s l) ∧
      (run.status.terminal = true → RunEnded r s l))
    (outline_getRow (fun run => ?_) ?_ ?_ stable_runEnded) fun run => ?_
  · exact fun s s' l h hrely => ⟨fun hopen => (h.1 hopen).rely hrely.side,
      fun hends => stable_runEnded (h.2 hends) hrely⟩
  · intro s l row h hrow
    change (l.pending s).runs[r]? = some row at hrow
    rw [h.1.keeps] at hrow
    exact ⟨h.1.working hrow, ended_of_terminal hrow⟩
  · intro s l h hnone
    change (l.pending s).runs[r]? = none at hnone
    rw [h.1.keeps] at hnone
    have hthere := h.2
    unfold statusOf at hthere
    rw [hnone] at hthere
    cases hthere
  · by_cases hopen : run.status.terminal = true
    · refine (outline_finishes (fun s l h => h.1) fun s l h _ => h.2 hopen).narrow ?_
      exact fun _ _ _ h => h.side
    · obtain ⟨sm, hsm⟩ := runTransition_cancel (Bool.eq_false_iff.2 hopen)
      refine (outline_finishes (fun s l h => h.1) fun s l h hnot => ?_).narrow ?_
      · exact absurd hsm (hnot .cancel sm finishAction_cancelled)
      · exact fun _ _ _ h => h.side

/-- The key of the request is unused, and the request has stored none. -/
def KeyUnused (key : String) : Assertion Db RowKey := fun s l =>
  keyRow s key = none ∧ Keyless s l

theorem stable_keyUnused {key : String} : Stable (CancelRely r c) (KeyUnused key) :=
  fun _ _ _ h hrely => ⟨(keyRow_congr hrely.keys).trans h.1, h.2⟩

/-- The request has ended the run and has only to store its key. -/
def Cancelled (r c : Nat) (key : String) : Assertion Db RowKey := fun s l =>
  HasEnded (.cancel r) c s l ∧ KeyUnused key s l

theorem stable_cancelled {key : String} : Stable (CancelRely r c) (Cancelled r c key) :=
  fun _ _ _ h hrely => ⟨stable_hasEnded h.1 hrely.side, stable_keyUnused h.2 hrely⟩

theorem outline_handleCancelRun {key : String} :
    Outline (CancelRely r c) (RunEnded r)
      (fun s l => (ReadKey l ∧ (statusOf r s).isSome = true) ∧ KeyUnused key s l)
      (handleCancelRun env r notes pm) fun handling s l =>
        handling.flush = pure () ∧ Cancelled r c key s l := by
  refine .bind (Q := fun _ => Cancelled r c key) ?_ fun _ => .pure fun _ _ h => ⟨rfl, h⟩
  refine writes_finishRun.carry outline_finishCancelled stable_keyUnused (fun _ _ h => h) ?_
  exact fun s l w hw h => ⟨h.1, fun s' => (hw.keepsKeys _).trans (h.2 s')⟩

theorem outline_unusedKey (hkeyed : request.idempotencyKey.getD "" ≠ "") :
    Outline (CancelRely r c) (RunEnded r)
      (fun s l => l = .start ∧ (statusOf r s).isSome = true ∧
        keyRow s (request.idempotencyKey.getD "") = none)
      (idempotency env request) fun idem s l =>
        (idem.key = request.idempotencyKey.getD "" ∧ idem.replay = none) ∧
          (ReadKey l ∧ (statusOf r s).isSome = true) ∧
            KeyUnused (request.idempotencyKey.getD "") s l := by
  unfold idempotency
  rw [if_neg hkeyed]
  refine .bind (Q := fun row? s l => row? = none ∧ (ReadKey l ∧ (statusOf r s).isSome = true) ∧
    KeyUnused (request.idempotencyKey.getD "") s l) ?_ fun row? => .assuming fun hnone => ?_
  · refine .select (fun row? s s' l h hrely => ?_) ?_
    · exact ⟨h.1, ⟨h.2.1.1, hrely.there h.2.1.2⟩, stable_keyUnused h.2.2 hrely⟩
    · rintro s l ⟨rfl, hthere, hunused⟩
      exact ⟨hunused, ⟨⟨rfl, fun _ => rfl⟩, hthere⟩, hunused, fun _ => rfl⟩
  · subst hnone
    exact .pure fun _ _ h => ⟨⟨rfl, rfl⟩, h⟩

/-- A request that is accepted cancels the run, unless it finds that the run has ended. -/
theorem outline_cancelRun (hauthorized : requirePm env app request = .ok pm)
    (hkeyed : request.idempotencyKey.getD "" ≠ "") :
    Outline (CancelRely r c) (RunEnded r)
      (fun s l => l = .start ∧ (statusOf r s).isSome = true ∧
        keyRow s (request.idempotencyKey.getD "") = none)
      (cancelRun env app request r notes) fun _ => HasEnded (.cancel r) c := by
  refine outline_ofExcept (fun pm' hpm => ?_) fun e he => by cases hauthorized.symm.trans he
  cases hauthorized.symm.trans hpm
  refine .bind (outline_unusedKey hkeyed) fun idem => .assuming fun hidem => ?_
  obtain ⟨hkey, hreplay⟩ := hidem
  rw [hreplay, ← hkey]
  refine .bind outline_handleCancelRun fun handling => .assuming fun hflush => ?_
  rw [hflush]
  refine .bind (Q := fun _ => Cancelled r c idem.key) (outline_send stable_cancelled ?_) fun _ => ?_
  · exact fun s l h => ⟨h.1.wrote ⟨fun _ => rfl, fun _ => rfl⟩, h.2.1, fun s' => h.2.2 s'⟩
  · refine .bind (Q := fun _ => Cancelled r c idem.key) (.pure fun _ _ h => h) fun _ => ?_
    refine .bind ?_ fun _ => .pure fun _ _ h => h
    refine outline_sendLegal (fun s l h => List.all_eq_true.2 fun row hrow => ?_)
      (fun s s' l h hrely => stable_hasEnded h hrely.side)
      fun s l h => h.1.wrote ⟨fun _ => rfl, fun _ => rfl⟩
    exact decide_eq_true (keyRow_eq_none.1 ((keyRow_congr (h.2.2 s)).trans h.2.1) row hrow)

end Cancel

/-! ## Both together -/

def tickContract (r c : Nat) : Contract Db RowKey (Option Reply) where
  rely := SideRely (.tick r) c
  raises := .always
  commits _ s l := Leaves (.tick r) c s l ∧ Keyless s l

def requestContract (r c : Nat) : Contract Db RowKey (Option Reply) where
  rely := CancelRely r c
  raises := RunEnded r
  commits _ := HasEnded (.cancel r) c

def cancelContract (r c i : Nat) : Contract Db RowKey (Option Reply) :=
  if i = 0 then tickContract r c else requestContract r c

section Both

variable {app : App} {drain : Drain} {cancelEnv : Env} {request : Request} {notes : Option String}
  {pm : String} {reply : Option Reply} {w : CancelWorld} {i : Nat}

theorem obeys_tickAndCancel (hdrain : ∀ run, (drain run).Writes QueueWrite)
    (haccepts : app.Accepts cancelEnv db request pm) (hthere : (statusOf r db).isSome = true) :
    (tickAndCancel app db env drain r cancelEnv request notes).Obeys (cancelContract r c) := by
  refine .start fun i m hm => ?_
  rcases i with _ | _ | i
  · obtain rfl := Option.some.inj hm
    refine ⟨fun s l => l = .start ∧ Keyless s l, fun _ _ _ h _ => h, ⟨rfl, fun _ => rfl⟩, ?_⟩
    refine .bind (Q := fun _ s l => Leaves (.tick r) c s l ∧ Keyless s l) ?_ fun _ =>
      .pure fun _ _ h => h
    refine (writes_advanceRun hdrain).carry (outline_advanceRun hdrain) (fun _ _ _ h _ => h)
      (fun _ _ h => h) fun s l w hw h s' => ?_
    exact (hw.keepsKeys _).trans (h s')
  · obtain rfl := Option.some.inj hm
    refine ⟨fun s l => l = .start ∧ (statusOf r s).isSome = true ∧
      keyRow s (request.idempotencyKey.getD "") = none, fun s s' l h hrely => ?_,
      ⟨rfl, hthere, haccepts.new⟩, ?_⟩
    · exact ⟨h.1, hrely.there h.2.1, (keyRow_congr hrely.keys).trans h.2.2⟩
    · exact (outline_cancelRun haccepts.authorized haccepts.keyed).bind fun _ =>
        .pure fun _ _ h => h
  · cases hm

theorem Marks.locksOf_nil (h : Marks r new [] l) : locksOf c (l.pending s) = locksOf c s := by
  unfold locksOf
  rw [h.locks]
  simp

theorem Marks.statusOf_none (h : Marks r none ids l) :
    statusOf r (l.pending s) = statusOf r s := by
  rw [h.status]
  cases statusOf r s <;> rfl

/-- What a transaction that works on the run makes of its status. -/
theorem Working.status_cases (h : Working side (some status) ids s l) :
    ∃ found, statusOf r s = some found ∧ side.fits found = true ∧
      statusOf r (l.pending s) = some status := by
  obtain ⟨found, hfound, hfits⟩ := (Option.any_eq_true _ _).1 h.fits
  refine ⟨found, hfound, hfits, ?_⟩
  rw [h.marks.status, hfound]
  rfl

theorem HasEnded.ended (h : HasEnded side c s l) : Db.ended r (l.pending s) = true := by
  obtain ⟨status, ids, hworking, hends, -⟩ := h.working
  obtain ⟨-, -, -, hstatus⟩ := hworking.status_cases
  rw [Db.ended_eq, hstatus]
  exact hends

theorem HasEnded.ends (h : HasEnded side c w.store l)
    (hparty : w.parties[i]? = some (.active (.done reply) l)) : Ends r w i := by
  refine ⟨reply, l, hparty, ?_, h.ended⟩
  obtain ⟨status, ids, hworking, -, -⟩ := h.working
  obtain ⟨found, hfound, hfits, -⟩ := hworking.status_cases
  rw [Db.ended_eq, hfound]
  exact side.opened found hfits

/-- A run that a transaction has ended is without its lock. -/
theorem HasEnded.freed (h : HasEnded side c s l) : (l.pending s).lockOwner c ≠ some r := by
  intro hheld
  obtain ⟨status, ids, hworking, -, hfrees⟩ := h.working
  rw [lockOwner_eq_head?] at hheld
  obtain ⟨lock, hlock, hr⟩ := Option.map_eq_some_iff.1 hheld
  obtain ⟨hkept, hnot⟩ := (hworking.marks.mem_locksOf lock).1 (List.mem_of_head? hlock)
  exact hnot ⟨hr, hfrees lock hkept hr⟩

/-- A commit leaves a terminal status as it is. -/
theorem Leaves.lasts {before : RunStatus} (h : Leaves side c s l)
    (hbefore : statusOf r s = some before) (hterminal : before.terminal = true) :
    statusOf r (l.pending s) = some before := by
  have hnever {status : RunStatus} {ids : List Nat} (h : Working side (some status) ids s l) :
      False := by
    obtain ⟨found, hfound, hfits, -⟩ := h.status_cases
    cases hbefore.symm.trans hfound
    cases hterminal.symm.trans (side.opened before hfits)
  cases h with
  | idle h => exact h.statusOf_none.trans hbefore
  | stopped _ h => exact (hnever h).elim
  | ended h =>
      obtain ⟨status, ids, h, -, -⟩ := h.working
      exact (hnever h).elim

theorem Marks.there (h : Marks r new ids l) (hthere : (statusOf r s).isSome = true) :
    (statusOf r (l.pending s)).isSome = true := by
  rwa [h.status, Option.isSome_map]

theorem Leaves.there (h : Leaves side c s l) (hthere : (statusOf r s).isSome = true) :
    (statusOf r (l.pending s)).isSome = true := by
  cases h with
  | idle h => exact h.there hthere
  | stopped _ h => exact h.marks.there hthere
  | ended h =>
      obtain ⟨status, ids, h, -, -⟩ := h.working
      exact h.marks.there hthere

theorem lockOwner_congr {s s' : Db} (h : locksOf c s' = locksOf c s) :
    s'.lockOwner c = s.lockOwner c := by
  rw [lockOwner_eq_head?, lockOwner_eq_head?, h]

/-- After a commit a run that has ended is without its lock, if this was so before it. -/
theorem Leaves.freed (h : Leaves side c s l)
    (hfreed : Db.ended r s = true → s.lockOwner c ≠ some r)
    (hended : Db.ended r (l.pending s) = true) : (l.pending s).lockOwner c ≠ some r := by
  cases h with
  | idle h =>
      rw [lockOwner_congr h.locksOf_nil]
      refine hfreed ?_
      rwa [Db.ended_eq, ← h.statusOf_none, ← Db.ended_eq]
  | stopped hlive h hopen =>
      obtain ⟨-, -, -, hstatus⟩ := h.status_cases
      rw [Db.ended_eq, hstatus] at hended
      cases hopen.symm.trans hended
  | ended h => exact h.freed

/-- A commit of the tick that does not end the run under the request is one that this relies on. -/
theorem SparesLoaded.tick_respects {request : DbScript (Option Reply)} {l' : Local Db RowKey}
    (h : SparesLoaded r w 0) (hparty : w.parties[0]? = some (.active (.done reply) l))
    (hleaves : Leaves (.tick r) c w.store l ∧ Keyless w.store l)
    (hrequest : w.parties[1]? = some (.active request l')) :
    CancelRely r c l' w.store (l.pending w.store) := by
  refine ⟨fun hloaded => ?_, hleaves.2 _, hleaves.1.there, fun hended => ?_⟩
  · cases hleaves.1 with
    | idle h =>
        rw [h.statusOf_none]
        exact ⟨fun hfits => hfits, h.locksOf_nil⟩
    | stopped _ h hopen =>
        obtain ⟨-, -, -, hstatus⟩ := h.status_cases
        refine ⟨fun _ => ?_, h.marks.locksOf_nil⟩
        rw [hstatus]
        change (!_) = true
        rw [hopen]
        rfl
    | ended hended => cases hloaded.symm.trans (h.cancel rfl (hended.ends hparty) request l' hrequest)
  · rw [Db.ended_eq] at hended ⊢
    obtain ⟨before, hbefore, hterminal⟩ := (Option.any_eq_true _ _).1 hended
    rw [hleaves.1.lasts hbefore hterminal]
    exact hterminal

theorem SparesLoaded.respects (h : SparesLoaded r w i) (hlength : w.parties.length = 2) :
    w.Respects (cancelContract r c) i := by
  intro reply l hi hcommits j m l' hj hm _
  have htwo : (i = 0 ∧ j = 1) ∨ (i = 1 ∧ j = 0) := by
    have hi := (List.getElem?_eq_some_iff.1 hi).1
    have hm := (List.getElem?_eq_some_iff.1 hm).1
    omega
  rcases htwo with ⟨rfl, rfl⟩ | ⟨rfl, rfl⟩
  · exact h.tick_respects hi hcommits hm
  · -- The request ends the run, so the tick has not loaded it.
    intro hloaded
    have hended : HasEnded (.cancel r) c w.store l := hcommits
    cases hloaded.symm.trans (h.tick rfl (hended.ends hi) m l' hm)

/-- What holds while the two are at work. -/
structure Cancelling (r c : Nat) (w : CancelWorld) : Prop where
  obeys : w.Obeys (cancelContract r c)
  length : w.parties.length = 2
  freed : Db.ended r w.store = true → w.store.lockOwner c ≠ some r
  closed : ∀ party, w.parties[1]? = some party → party.ended = true → Db.ended r w.store = true

/-- The commits of either, as far as the run and its lock go. -/
theorem Cancelling.leaves (h : Cancelling r c w)
    (hparty : w.parties[i]? = some (.active (.done reply) l)) :
    Leaves (.tick r) c w.store l ∨ HasEnded (.cancel r) c w.store l := by
  have hcommits := h.obeys.commits hparty
  rcases i with _ | i
  · exact .inl hcommits.1
  · exact .inr hcommits

theorem Cancelling.store_freed (h : Cancelling r c w) (i : Nat) :
    Db.ended r (w.step i).store = true → (w.step i).store.lockOwner c ≠ some r := by
  obtain hsame | ⟨reply, l, hparty, hstore, -⟩ := (w.move i).store_cases
  · rw [hsame]
    exact h.freed
  · rw [hstore]
    rcases h.leaves hparty with hleaves | hended
    · exact hleaves.freed h.freed
    · exact fun _ => hended.freed

theorem Cancelling.lasts (h : Cancelling r c w) {before : RunStatus}
    (hbefore : statusOf r w.store = some before) (hterminal : before.terminal = true) :
    statusOf r (w.step i).store = some before := by
  obtain hsame | ⟨reply, l, hparty, hstore, -⟩ := (w.move i).store_cases
  · rw [hsame]
    exact hbefore
  · rw [hstore]
    rcases h.leaves hparty with hleaves | hended
    · exact hleaves.lasts hbefore hterminal
    · exact (Leaves.ended hended).lasts hbefore hterminal

theorem Cancelling.ended_lasts (h : Cancelling r c w) (hended : Db.ended r w.store = true) :
    Db.ended r (w.step i).store = true := by
  rw [Db.ended_eq] at hended ⊢
  obtain ⟨before, hbefore, hterminal⟩ := (Option.any_eq_true _ _).1 hended
  rw [h.lasts hbefore hterminal]
  exact hterminal

/-- Once the request has ended, committed or rolled back, so has the run. -/
theorem Cancelling.store_closed (h : Cancelling r c w) {party : Party Db RowKey (Option Reply)}
    (hparty : (w.step i).parties[1]? = some party) (hends : party.ended = true) :
    Db.ended r (w.step i).store = true := by
  cases party with
  | active => cases hends
  | committed reply =>
      obtain ⟨hbefore, -⟩ | ⟨rfl, l, hdone, hstore⟩ := (w.move i).committed_cases hparty
      · exact h.ended_lasts (h.closed _ hbefore rfl)
      · rw [hstore]
        exact HasEnded.ended (h.obeys.commits hdone)
  | rolledBack =>
      obtain hbefore | ⟨rfl, m, l, hactive, hraises⟩ := (w.move i).rolledBack_cases hparty
      · exact h.ended_lasts (h.closed _ hbefore rfl)
      · exact h.ended_lasts (h.obeys.raises hactive hraises)

theorem Cancelling.step (h : Cancelling r c w) (hspares : SparesLoaded r w i) :
    Cancelling r c (w.step i) :=
  ⟨h.obeys.step (hspares.respects h.length), (w.move i).length.trans h.length, h.store_freed i,
    fun _ => h.store_closed⟩

/-- A run of the database that has ended does not hold the lock. -/
theorem freed_of_lawful (hlawful : db.life.Lawful) (hended : Db.ended r db = true) :
    db.lockOwner c ≠ some r := by
  intro howner
  obtain ⟨lock, hlock, hr⟩ := Option.map_eq_some_iff.1 howner
  obtain ⟨life, hlife, -, hholds⟩ := hlawful.serial.held ⟨lock.coverageId, lock.runId⟩
    (List.mem_map_of_mem (List.mem_of_find?_eq_some hlock))
  obtain ⟨run, hrun, hterminal⟩ := (Option.any_eq_true _ _).1 hended
  subst hr
  cases (Db.life_run hrun).symm.trans hlife
  rcases hholds with hlive | ⟨hqueued, -⟩
  · change run.status.live = true at hlive
    rw [RunStatus.not_terminal_of_live hlive] at hterminal
    cases hterminal
  · change run.status = .queued at hqueued
    rw [hqueued] at hterminal
    cases hterminal

/-- A tick that advances a run and a request that cancels it, in every interleaving in which neither
ends the run while the other has loaded it. -/
theorem tickAndCancel_staysEnded (hfresh : db.Fresh) (ops : List Op)
    (hrun : r < (AiFund.run app db ops).runs.length)
    (hdrain : ∀ run, (drain run).Writes QueueWrite)
    (haccepts : app.Accepts cancelEnv (AiFund.run app db ops) request pm) (schedule : List Nat)
    (hspares : EachStep World.step (SparesLoaded r)
      (tickAndCancel app (AiFund.run app db ops) env drain r cancelEnv request notes) schedule) :
    StaysEnded r c (tickAndCancel app (AiFund.run app db ops) env drain r cancelEnv request notes)
      schedule := by
  have hthere : (statusOf r (AiFund.run app db ops)).isSome = true := by
    unfold statusOf
    rw [List.getElem?_eq_getElem hrun]
    rfl
  have hstart : Cancelling r c
      (tickAndCancel app (AiFund.run app db ops) env drain r cancelEnv request notes) := by
    refine ⟨obeys_tickAndCancel hdrain haccepts hthere, rfl,
      freed_of_lawful (run_lawful hfresh ops), fun party hparty hends => ?_⟩
    cases hparty
    cases hends
  refine ⟨?_, fun hboth => ?_⟩
  · refine eachStep_of_invariant (fun w i hw hi => hw.step hi) (fun w i hw _ run hrun hterminal => ?_)
      hstart hspares
    exact Option.map_eq_some_iff.1 (hw.lasts (statusOf_eq hrun) hterminal)
  · have hend := invariant (I := Cancelling r c) (fun w i hw hi => hw.step hi) hstart hspares
    have htwo := hend.length
    have hended := hend.closed _ (List.getElem?_eq_getElem (by omega))
      (List.all_eq_true.1 hboth _ (List.getElem_mem _))
    refine ⟨fun hheld => absurd hheld (hend.freed hended), ?_⟩
    rintro ⟨run, hlast, hlive⟩
    obtain ⟨run', hlast', hterminal⟩ := (Option.any_eq_true _ _).1 hended
    cases hlast.symm.trans hlast'
    rw [RunStatus.not_terminal_of_live hlive] at hterminal
    cases hterminal

end Both

def runningDb : Db := AiFund.run retrying .small (Op.initiateApple ++ [.tickWith []])

/-- The first attempt at the stage has failed, and the second one has to wait for a minute. -/
def backsOff : Drain := fun run => do
  send (.setStage 0 fun row => { row with attempts := 1, availableAt := 60 })
  return run.costUsd

theorem writes_backsOff (run : Run) : (backsOff run).Writes QueueWrite :=
  .bind (writes_send (.stage ..)) fun _ => .pure _

/-- The tick requeues the run of Apple's initiation, and the request is to cancel it. -/
def requeueAndCancel : CancelWorld :=
  tickAndCancel retrying runningDb (.quiet 0) backsOff 0 (.quiet 0) (.fromPm "cancel") none

theorem Ends.step {w : CancelWorld} {i : Nat} (h : Ends r w i) :
    Db.ended r (w.step i).store = true := by
  obtain ⟨reply, l, hparty, -, hended⟩ := h
  unfold World.step
  rw [hparty]
  exact hended

/-- The run goes on after the step, or the other transaction has ended already. -/
def goesOn (r : Nat) (w : CancelWorld) (i : Nat) : Bool :=
  !Db.ended r (w.step i).store || w.parties[1 - i]?.all Party.ended

theorem SparesLoaded.of_goesOn {w : CancelWorld} {i : Nat} (h : goesOn r w i = true) :
    SparesLoaded r w i := by
  have hother (hends : Ends r w i) {rest : DbScript (Option Reply)} {l : Local Db RowKey}
      (hactive : w.parties[1 - i]? = some (.active rest l)) : False := by
    unfold goesOn at h
    rw [hends.step, hactive] at h
    cases h
  constructor
  · rintro rfl hends rest l hactive
    exact (hother hends hactive).elim
  · rintro rfl hends rest l hactive
    exact (hother hends hactive).elim

/-- The request loads the run and releases the lock, the tick puts the run back in the queue, and the
request goes on to end it. -/
theorem tickAndCancel_staysEnded_requeued :
    statusOf 0 (requeueAndCancel.run
        (List.replicate 4 1 ++ List.replicate 6 0)).store = some .queued ∧
      statusOf 0 (requeueAndCancel.run
        (List.replicate 4 1 ++ List.replicate 6 0 ++ List.replicate 4 1)).store =
          some .cancelled ∧
      StaysEnded 0 0 requeueAndCancel
        (List.replicate 4 1 ++ List.replicate 6 0 ++ List.replicate 4 1) := by
  have haccepts : App.Accepts retrying (.quiet 0) runningDb (.fromPm "cancel") "pm" :=
    ⟨rfl, by decide, by decide +kernel⟩
  have hgoesOn : EachStep World.step (fun w i => goesOn 0 w i = true) requeueAndCancel
      (List.replicate 4 1 ++ List.replicate 6 0 ++ List.replicate 4 1) := by decide +kernel
  exact ⟨by decide +kernel, by decide +kernel,
    tickAndCancel_staysEnded Db.small_fresh _ (by decide +kernel) writes_backsOff haccepts _
      (hgoesOn.mono fun _ _ => .of_goesOn)⟩

/-- A run that is cancelled after the tick has loaded it is requeued, without its lock. -/
theorem not_staysEnded_requeued :
    ¬ StaysEnded 0 0 requeueAndCancel
      ([0] ++ List.replicate 8 1 ++ List.replicate 4 0 ++ [0]) := by
  intro h
  have hcancelled : statusOf 0 (requeueAndCancel.run
      ([0] ++ List.replicate 8 1 ++ List.replicate 4 0)).store = some .cancelled := by
    decide +kernel
  have hqueued : statusOf 0 ((requeueAndCancel.run
      ([0] ++ List.replicate 8 1 ++ List.replicate 4 0)).step 0).store = some .queued := by
    decide +kernel
  obtain ⟨run, hrun, hstatus⟩ := Option.map_eq_some_iff.1 hcancelled
  obtain ⟨run', hrun', hsame⟩ :=
    (eachStep_append.1 h.lasts).2.1 run hrun (by rw [hstatus]; rfl)
  have hcancelled' := congrArg some (hsame.trans hstatus)
  cases hcancelled'.symm.trans ((statusOf_eq hrun').symm.trans hqueued)

end AiFund.Concurrent
