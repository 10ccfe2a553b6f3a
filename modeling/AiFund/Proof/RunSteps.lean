import AiFund.Proof.Refinement

/-!
# Steps of the runs repository

What starting, requeueing, finishing and gating a run does to the lifecycle.
-/

namespace AiFund

open UnitOfWork Rows

namespace Db

variable (db : Db) {r : Nat} {f : Run → Run}

theorem life_updateRun {g : RunLife → RunLife} (h : ∀ run, (f run).life = g run.life) :
    (db.updateRun r f).life = db.life.setRun r g := by
  unfold updateRun life Life.setRun
  rw [map_modify h]

/-- Writing columns of a run that the lifecycle does not have. -/
theorem life_updateRun_of_eq (h : ∀ run, (f run).life = run.life) :
    (db.updateRun r f).life = db.life := by
  rw [db.life_updateRun (g := id) h]
  unfold Life.setRun
  rw [List.modify_id]

theorem life_updateCoverage {covId : Nat} {state : CoverageState} :
    (db.updateCoverage covId fun cov => { cov with state }).life =
      db.life.setCoverage covId state := by
  unfold updateCoverage life Life.setCoverage
  congr 1
  exact map_modify fun _ => rfl

theorem life_insertLock (covId : Nat) (now : Time) :
    (db.insertLock covId r now).life = db.life.acquire covId r := by
  unfold insertLock Life.acquire
  have hany : (db.life.locks.any fun lock => lock.coverageId = covId) =
      db.locks.any fun lock => lock.coverageId = covId := by
    simp only [life, List.any_map]
    rfl
  rw [hany]
  split
  · rfl
  · simp [life]

theorem lockOwner_eq (covId : Nat) : db.lockOwner covId = db.life.owner covId := by
  unfold lockOwner Life.owner life
  rw [List.find?_map, Option.map_map]
  rfl

end Db

variable {env : Env} {s s₁ s' : Session Db} {r : Nat}

theorem life_run {run : Run} (hs : Synced Db.life s) (h : s.loaded.runs[r]? = some run) :
    s.stored.life.runs[r]? = some run.life := by
  rw [← hs]
  simp [Db.life, h]

/-! ## Starting -/

theorem lands_markRunning {started : Bool} (h : Returns (markRunning env r) s started s') :
    started = true ∧ Lands (s.loaded.life.setRun r RunLife.begun) s s' := by
  unfold markRunning at h
  obtain ⟨_, s₁, hflush, hpure⟩ := returns_bind.1 (returns_assign_bind.1 h)
  obtain ⟨rfl, rfl⟩ := returns_pure.1 hpure
  exact ⟨rfl, (lands_flush hflush).congr (Db.life_updateRun _ fun _ => rfl) rfl⟩

theorem returns_startRun {run : Run} {started : Bool}
    (h : Returns (startRun env r) s started s') (hs : Synced Db.life s)
    (hrun : s.loaded.runs[r]? = some run) (hqueued : run.status = .queued) :
    (started = false ∧ Still s s' ∧
        ∃ covId o, run.life.locked = some covId ∧ s.stored.life.owner covId = some o) ∨
      (started = true ∧ Synced Db.life s' ∧ LifeTrail s s' ∧
        s'.stored.life = (s.stored.life.acquireFor run.life r).setRun r RunLife.begun ∧
        ∀ covId, run.life.locked = some covId →
          (s.stored.life.acquire covId r).owner covId = some r) := by
  have hstart := life_run hs hrun
  have hedge : run.life.Becomes run.life.begun True :=
    ⟨rfl, rfl, rfl, .inr ⟨trivial, .of_entry .start (by rw [Run.life, hqueued]; rfl)⟩⟩
  unfold startRun at h
  obtain ⟨-, found, hfound, h⟩ := returns_getRow_bind.1 h
  obtain rfl : run = found := Option.some.inj (hrun.symm.trans hfound)
  have hlife : (if run.mutatesDossier then run.coverageId else none) = run.life.locked := rfl
  rw [hlife] at h
  cases hlocked : run.life.locked with
  | none =>
      rw [hlocked] at h
      obtain ⟨rfl, hlands⟩ := lands_markRunning h
      rw [hs] at hlands
      refine .inr ⟨rfl, hlands.synced, hlands.trail ?_, ?_, by simp⟩
      · exact .of_modify hstart hedge (by simp [hlocked]) rfl
      · rw [hlands.stored, Life.acquireFor, hlocked]
        rfl
  | some covId =>
      rw [hlocked] at h
      obtain ⟨_, s₁, hinsert, h⟩ := returns_bind.1 h
      have hacquire : Lands (s.stored.life.acquire covId r) s s₁ :=
        lands_execute (f := fun c => c.acquire covId r) hinsert hs fun db => db.life_insertLock _ _
      rw [returns_select_bind, Db.lockOwner_eq, hacquire.stored] at h
      split_ifs at h with howner
      · -- Another run holds the lock, so that the insert did nothing.
        have htaken : ∃ o, s.stored.life.owner covId = some o := by
          cases hfree : s.stored.life.owner covId with
          | some o => exact ⟨o, rfl⟩
          | none =>
              rw [Life.acquire_of_free hfree, Life.owner_append_free hfree, if_pos rfl] at howner
              exact absurd rfl howner
        obtain ⟨o, ho⟩ := htaken
        have hsame : s.stored.life.acquire covId r = s.stored.life := Life.acquire_of_owner ho
        obtain ⟨_, s₂, hflush, hpure⟩ := returns_bind.1 h
        obtain ⟨rfl, rfl⟩ := returns_pure.1 hpure
        have hsecond := (lands_flush hflush).still (hacquire.stored.trans hacquire.loaded.symm)
        exact .inl ⟨rfl, (hacquire.still hsame.symm).trans hsecond, covId, o, rfl, ho⟩
      · rw [not_not] at howner
        obtain ⟨rfl, hlands⟩ := lands_markRunning h
        rw [hacquire.loaded] at hlands
        have hstart' : s₁.stored.life.runs[r]? = some run.life := by
          rw [hacquire.stored, Life.acquire_runs]
          exact hstart
        have hfollows : s₁.stored.life.Follows
            ((s.stored.life.acquire covId r).setRun r RunLife.begun) := by
          refine .of_modify hstart' hedge ?_ (by rw [hacquire.stored]; rfl)
          intro _ _ k hk
          rw [hlocked, Option.some.injEq] at hk
          rw [← hk, hacquire.stored]
          exact howner
        refine .inr ⟨rfl, hlands.synced, ?_, ?_, ?_⟩
        · exact (hacquire.trail (.of_runs (Life.acquire_runs _ _ _))).trans (hlands.trail hfollows)
        · rw [hlands.stored, Life.acquireFor, hlocked]
          rfl
        · intro k hk
          rw [Option.some.injEq] at hk
          rw [← hk]
          exact howner

/-! ## Requeueing and finishing -/

theorem takes_requeueRun {run : Run} {u : Unit}
    (h : Returns (requeueRun r Engine.transientError) s u s') (hs : Synced Db.life s)
    (hrun : s.loaded.runs[r]? = some run) (hrunning : run.status = .running) :
    Takes (.requeue r) s s' := by
  unfold requeueRun at h
  obtain ⟨-, found, hfound, h⟩ := returns_getRow_bind.1 h
  obtain rfl : run = found := Option.some.inj (hrun.symm.trans hfound)
  obtain ⟨sm, hsm, h⟩ := returns_ofExcept_bind.1 h
  rw [hrunning] at hsm
  cases hsm
  have hstart := life_run hs hrun
  have hstatus : run.life.status = .running := hrunning
  have hlands : Lands (s.stored.life.setRun r RunLife.requeued) s s' := by
    refine (lands_flush (returns_assign_bind.1 h)).congr ?_ rfl
    rw [← hs]
    exact Db.life_updateRun _ fun _ => by simp [Run.life, RunLife.requeued]
  refine hlands.takes (.of_modify hstart ⟨rfl, rfl, rfl, .inr ⟨trivial, ?_⟩⟩ ?_ rfl)
    (.requeue hstart hstatus)
  · exact hstatus ▸ .of_entry .requeue rfl
  · intro hqueued
    rw [hstatus] at hqueued
    cases hqueued

theorem finishAction_entry {a b status : RunStatus} {action : RunAction} {cause : String}
    (h : finishAction status = .ok action) (hentry : runEntries a action = some (b, cause)) :
    b = status ∧ status.live = false ∧
      runEffects action b = [.releaseLock, .outboxRunFinished] := by
  cases status with
  | succeeded =>
      cases h
      cases a <;> cases hentry <;> exact ⟨rfl, rfl, rfl⟩
  | failed =>
      cases h
      cases a <;> cases hentry
      exact ⟨rfl, rfl, rfl⟩
  | cancelled =>
      cases h
      cases a <;> cases hentry <;> exact ⟨rfl, rfl, rfl⟩
  | _ => cases h

theorem drafts_addOutbox {kind : String} {coverageId runId : Option Nat} {subject : Nat}
    {payload : JsonObject} :
    Drafts Db.life (addOutbox env kind coverageId runId subject payload) :=
  .assign fun _ => rfl

theorem Db.life_release (db : Db) :
    Db.life { db with locks := db.locks.filter fun lock => lock.runId ≠ r } =
      db.life.release r := by
  unfold Life.release life
  rw [List.filter_map]
  rfl

theorem returns_finishEffects {run : Run} {status : RunStatus} {u : Unit}
    (h : Returns ([.releaseLock, .outboxRunFinished].forM (applyFinishEffect env r run status))
      s u s') :
    s'.written = s.written ++ [s'.stored] ∧ s'.stored.life = s.stored.life.release r ∧
      s'.loaded.life = s.loaded.life.release r := by
  obtain ⟨s₁, hrelease, hrest⟩ := returns_forM_cons.1 h
  obtain ⟨s₂, houtbox, hnil⟩ := returns_forM_cons.1 hrest
  obtain rfl := returns_forM_nil.1 hnil
  unfold applyFinishEffect at hrelease
  obtain ⟨-, rfl⟩ := returns_execute.1 hrelease
  obtain ⟨hstored, hwritten, hloaded⟩ := drafts_addOutbox houtbox
  rw [hstored, hwritten, hloaded]
  exact ⟨rfl, Db.life_release _, Db.life_release _⟩

/-- What a finished run leaves: its status, its last error, and no lock. -/
theorem returns_finishRun {status : RunStatus} {summary error : Option String} {u : Unit}
    (h : Returns (finishRun env r status summary error) s u s') (hs : Synced Db.life s) :
    ∃ run, s.loaded.runs[r]? = some run ∧ RunEdge run.status status ∧ status.live = false ∧
      LifeTrail s s' ∧ Synced Db.life s' ∧
      s'.stored.life = s.stored.life.finish r status error := by
  unfold finishRun at h
  obtain ⟨-, run, hrun, h⟩ := returns_getRow_bind.1 h
  obtain ⟨action, haction, h⟩ := returns_ofExcept_bind.1 h
  obtain ⟨sm, hsm, h⟩ := returns_ofExcept_bind.1 h
  obtain ⟨hentry, heffects⟩ := runEntries_of_runTransition hsm
  obtain ⟨hto, hlive, hlist⟩ := finishAction_entry haction hentry
  rw [heffects, hlist, returns_assign_bind] at h
  obtain ⟨_, s₁, heffects, hflush⟩ := returns_bind.1 h
  obtain ⟨hwritten, hreleased, hloaded⟩ := returns_finishEffects heffects
  have hstored : s₁.stored.life = s.stored.life.release r := hreleased
  have hedge : RunEdge run.status status := hto ▸ .of_entry action hentry
  have hpending : s₁.loaded.life = s.stored.life.finish r status error := by
    rw [hloaded, ← hs, Life.finish]
    congr 1
    refine Db.life_updateRun _ fun run => ?_
    cases error <;> simp [Run.life, RunLife.ended, hto]
  have hlands := (lands_flush hflush).congr hpending rfl
  have hfirst : LifeTrail s s₁ := by
    refine ⟨[s₁.stored], hwritten, ?_, rfl⟩
    rw [List.isChain_pair, hstored]
    exact .of_runs rfl
  have hstart : s₁.stored.life.runs[r]? = some run.life := by
    rw [hstored]
    exact life_run hs hrun
  have hend : run.life.Becomes (run.life.ended status error) True :=
    ⟨rfl, rfl, rfl, .inr ⟨trivial, hedge⟩⟩
  refine ⟨run, hrun, hedge, hlive, hfirst.trans (hlands.trail ?_), hlands.synced, hlands.stored⟩
  refine .of_modify hstart hend ?_ (by rw [hstored]; rfl)
  intro _ hrunning
  rw [RunLife.ended_status] at hrunning
  rw [hrunning] at hlive
  cases hlive

/-! ## Gates -/

theorem Db.life_addGate (db : Db) (gate : PmGate) :
    Db.life { db with gates := db.gates ++ [gate] } = db.life.addGate gate.life := by
  simp [life, Life.addGate]

theorem Db.life_answer (db : Db) {g : Nat} {text : String} {f : PmGate → PmGate}
    (h : ∀ gate, (f gate).life = { gate.life with state := .answered, answer := some text }) :
    (db.updateGate g f).life = db.life.answer g text := by
  unfold updateGate life Life.answer
  congr 1
  exact map_modify h

theorem lands_openGate {kind : GateKind} {prompt : GatePrompt} {payload : List (String × ℚ)}
    {allowedAnswers : List String} {run : Run} {u : Unit}
    (h : Returns (openGate r kind prompt payload allowedAnswers) s u s') (hs : Synced Db.life s)
    (hrun : s.loaded.runs[r]? = some run) :
    Lands (s.stored.life.addGate ⟨r, run.coverageId, kind, .opened, allowedAnswers, none⟩) s s' := by
  unfold openGate at h
  obtain ⟨-, found, hfound, h⟩ := returns_getRow_bind.1 h
  obtain rfl : run = found := Option.some.inj (hrun.symm.trans hfound)
  refine (lands_flush (returns_assign_bind.1 h)).congr ?_ rfl
  rw [← hs]
  exact Db.life_addGate _ _

/-- The status write of a run that has reached a gate. -/
theorem returns_stopAtGate {run : Run} {u : Unit}
    (h : Returns (do
      let sm ← ofExcept .illegalStateChange (runTransition run.status .openGate {})
      assign fun db => db.updateRun r fun run => { run with status := sm.toState }
      flush : DbTxn Unit) s u s')
    (hs : Synced Db.life s) :
    run.status = .running ∧ Lands (s.stored.life.setStatus r .waitingPm) s s' := by
  obtain ⟨sm, hsm, h⟩ := returns_ofExcept_bind.1 h
  have hrunning : run.status = .running := by
    cases hstatus : run.status <;> simp [runTransition, runEntries, hstatus] at hsm ⊢
  rw [hrunning] at hsm
  cases hsm
  refine ⟨hrunning, (lands_flush (returns_assign_bind.1 h)).congr ?_ rfl⟩
  rw [← hs]
  exact Db.life_updateRun _ fun _ => rfl

theorem takes_pauseForBudget {u : Unit} (h : Returns (Engine.pauseForBudget r) s u s')
    (hs : Synced Db.life s) : Takes (.pause r) s s' := by
  unfold Engine.pauseForBudget at h
  obtain ⟨-, run, hrun, h⟩ := returns_getRow_bind.1 h
  obtain ⟨_, s₁, hopen, h⟩ := returns_bind.1 h
  have hgate := lands_openGate hopen hs hrun
  obtain ⟨hrunning, hstop⟩ := returns_stopAtGate h hgate.synced
  have hstart : s.stored.life.runs[r]? = some run.life := life_run hs hrun
  have hstatus : run.life.status = .running := hrunning
  rw [hgate.stored] at hstop
  refine ⟨hstop.synced, (hgate.trail (.of_runs rfl)).trans (hstop.trail ?_), ?_⟩
  · rw [hgate.stored]
    exact .stop (a := s.stored.life.addGate _) hstart hstatus rfl
  · rw [hstop.stored]
    exact .pause hstart hstatus

theorem returns_answerGate {g : Nat} {answer actorId key : String} {notes : Option String}
    {gate : PmGate} (h : Returns (answerGate env g answer actorId notes key) s gate s')
    (hs : Synced Db.life s) : Still s s' ∨ Takes (.answer g) s s' := by
  unfold answerGate at h
  obtain ⟨-, found, hfound, h⟩ := returns_getRow_bind.1 h
  split_ifs at h with hrepeat
  · obtain ⟨-, rfl⟩ := returns_pure.1 h
    exact .inl ⟨hs, .refl _ _⟩
  · obtain ⟨_, s₁, hflush, h⟩ := returns_bind.1 (returns_assign_bind.1 h)
    obtain ⟨-, -, rfl⟩ := returns_getRow.1 h
    have hlands : Lands (s.stored.life.answer g answer) s s' := by
      refine (lands_flush hflush).congr ?_ rfl
      rw [← hs]
      exact Db.life_answer _ fun _ => rfl
    have hgate : s.stored.life.gates[g]? = some found.life := by
      rw [← hs]
      simp [Db.life, hfound]
    exact .inr (hlands.takes (.of_runs rfl) (.answer hgate))

/-! ## Creation -/

theorem drafts_ofExcept {α ε γ : Type} {π : Db → γ} (wrap : ε → PyError) (x : Except ε α) :
    Drafts π (ofExcept wrap x) := by
  cases x with
  | ok a => exact .pure _
  | error error => exact .throw _

theorem keeps_addStages {stages : List StageIn} : Keeps Db.life (addStages env r stages) :=
  .bind (keeps_ofExcept _ _) fun _ => .bind (.assign fun _ => rfl) fun _ => .flush

theorem runs_of_violation {db : Db} (h : Schema.violation db = none) {run : Run}
    (hrun : run ∈ db.runs) :
    (∀ covId, run.coverageId = some covId → covId < db.coverages.length) ∧
      (run.coverageId = none → run.type = .distillation) := by
  have hrules := Db.violation_eq_none.1 h
  have hcovered := hrules ("fk_runs_coverage_id_coverage", _) (by simp [constraints]; rfl)
  have hrequired := hrules ("ck_runs_coverage_required", _) (by simp [constraints]; rfl)
  constructor
  · intro covId hcov
    have := List.all_eq_true.1 hcovered run hrun
    simpa [hcov, Db.isCoverage] using this
  · intro hcov
    have := List.all_eq_true.1 hrequired run hrun
    simpa [hcov] using this

theorem Db.life_addRun (db : Db) (run : Run) :
    Db.life { db with runs := db.runs ++ [run] } =
      { db.life with runs := db.life.runs ++ [run.life] } := by
  simp [life]

/-- A new run belongs to an existing coverage, which only a distillation can do without. -/
theorem takes_createRun {coverageId : Option Nat} {type : RunType} {trigger : String}
    {params : JsonObject} {priority : Json} {budgetCapUsd : Option ℚ}
    {requestedBy triggerRef : Option String} {runId : Nat}
    (h : Returns (RunsRepo.createRun env coverageId type trigger params priority budgetCapUsd
      requestedBy triggerRef) s runId s') (hs : Synced Db.life s) : Takes .create s s' := by
  unfold RunsRepo.createRun at h
  obtain ⟨value, -, h⟩ := returns_ofExcept_bind.1 h
  rw [returns_inspect_bind, returns_assign_bind] at h
  obtain ⟨_, s₁, hflush, h⟩ := returns_bind.1 h
  obtain ⟨-, rfl⟩ := returns_pure.1 h
  obtain ⟨hcovered, hrequired⟩ := runs_of_violation (returns_flush.1 hflush).1 List.mem_concat_self
  have hlands : Lands { s.stored.life with runs := s.stored.life.runs ++
      [⟨coverageId, type, type.mutates, .queued, false, false⟩] } s s' := by
    refine (lands_flush hflush).congr ?_ rfl
    rw [← hs]
    exact Db.life_addRun _ _
  refine hlands.takes (.of_append rfl) (.create ?_ hrequired)
  intro covId hcov
  rw [← hs, Db.life, List.length_map]
  exact hcovered covId hcov

end AiFund
