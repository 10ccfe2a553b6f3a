import AiFund.Proof.Leads
import AiFund.Proof.Serialization
import AiFund.Proof.Turns

/-!
# The turn of a queued run

A run that starts an initiation needs a house as its lead, or none; all else that its promotion does
is accepted.
-/

namespace AiFund

open UnitOfWork Rows

variable {env : Env} {r : Nat} {u : Unit} {s s₁ s' : Session Db} {db : Db}

theorem lockOwner_insertLock {covId : Nat} {now : Time} :
    (db.insertLock covId r now).lockOwner covId = some ((db.lockOwner covId).getD r) := by
  rw [Db.lockOwner_eq, Db.life_insertLock, Db.lockOwner_eq]
  cases howner : db.life.owner covId with
  | none => rw [Life.acquire_of_free howner, Life.owner_append_free howner, if_pos rfl]; rfl
  | some owner => rw [Life.acquire_of_owner howner, howner]; rfl

/-- A run starts if it needs no lock, or no other run holds the lock. -/
theorem started_iff {run : Run} {started : Bool} (hs : Orderly s)
    (hrun : s.loaded.runs[r]? = some run) (h : Returns (startRun env r) s started s') :
    started = true ↔ ∀ covId, run.life.locked = some covId →
      ∀ owner, s.loaded.lockOwner covId = some owner → owner = r := by
  have hmark {started : Bool} {s₀ : Session Db} (h : Returns (markRunning env r) s₀ started s') :
      started = true := by
    obtain ⟨_, _, -, hpure⟩ := returns_bind.1 (returns_assign_bind.1 h)
    exact (returns_pure.1 hpure).1
  unfold startRun at h
  obtain ⟨-, row, hrow, h⟩ := returns_getRow_bind.1 h
  obtain rfl : run = row := Option.some.inj (hrun.symm.trans hrow)
  have hlocked : (if run.mutatesDossier then run.coverageId else none) = run.life.locked := rfl
  rw [hlocked] at h
  cases hneeds : run.life.locked with
  | none =>
      rw [hneeds] at h
      exact iff_of_true (hmark h) nofun
  | some covId =>
      rw [hneeds] at h
      obtain ⟨_, h⟩ := returns_execute_bind.1 h
      rw [returns_select_bind] at h
      change Returns (if (s.stored.insertLock covId r env.now).lockOwner covId ≠ some r then _
        else _) _ _ _ at h
      rw [lockOwner_insertLock, Db.lockOwner_eq, ← hs.synced, ← Db.lockOwner_eq] at h
      simp only [Option.some.injEq, forall_eq']
      cases howner : s.loaded.lockOwner covId with
      | none =>
          rw [howner, if_neg (by simp)] at h
          exact iff_of_true (hmark h) (fun _ h => by cases h)
      | some owner =>
          rw [howner, Option.getD_some] at h
          simp only [Option.some.injEq, forall_eq']
          by_cases hsame : owner = r
          · rw [if_neg (by simp [hsame])] at h
            exact iff_of_true (hmark h) hsame
          · rw [if_pos (by simp [hsame])] at h
            obtain ⟨_, _, -, hpure⟩ := returns_bind.1 h
            rw [(returns_pure.1 hpure).1]
            exact iff_of_false (by decide) hsame

theorem exists_startRun (env : Env) {run : Run} (hs : Orderly s)
    (hrun : s.loaded.runs[r]? = some run) :
    ∃ started s', Returns (startRun env r) s started s' := by
  have hstored : s.stored.runs[r]? = some run := hs.runs ▸ hrun
  have hlt : r < s.stored.runs.length := (List.getElem?_eq_some_iff.1 hstored).1
  have hmark {s₀ : Session Db} (hsound : s₀.loaded.Sound) :
      ∃ started s', Returns (markRunning env r) s₀ started s' := by
    have hmarked : Db.Sound (s₀.loaded.updateRun r fun run =>
        { run with status := .running, startedAt := some (run.startedAt.getD env.now) }) :=
      hsound.updateRun fun _ => rfl
    unfold markRunning
    simp only [returns_assign_bind, returns_flush_bind, returns_pure]
    exact ⟨true, _, hmarked.legal, rfl, rfl⟩
  unfold startRun
  simp only [returns_getRow_bind, hlt, hrun, true_and, Option.some.injEq, exists_eq_left']
  have hlocked : (if run.mutatesDossier then run.coverageId else none) = run.life.locked := rfl
  rw [hlocked]
  cases hneeds : run.life.locked with
  | none => exact hmark hs.loaded
  | some covId =>
      have hheld (lock : CoverageRunLock) (hlock : lock ∈ s.loaded.locks) (hof : lock.runId = r) :
          lock.coverageId = covId := by
        obtain ⟨life, hlife, hlocks, -⟩ := hs.lawful.serial.held ⟨lock.coverageId, lock.runId⟩
          (List.mem_map_of_mem hlock)
        obtain rfl : run.life = life := by
          rw [show (LockLife.mk lock.coverageId lock.runId).runId = r from hof, hs.synced,
            life_run hs.synced hrun] at hlife
          exact Option.some.inj hlife
        exact Option.some.inj (hlocks.symm.trans hneeds)
      have hlocks : s.loaded.locks = s.stored.locks := hs.view_eq fun _ _ => rfl
      have hinserted : (s.loaded.insertLock covId r env.now).Sound := hs.loaded.insertLock hheld
      have hlegal : Schema.violation (s.stored.insertLock covId r env.now) = none :=
        (hs.stored.insertLock (hlocks ▸ hheld)).legal
      simp only [returns_execute_bind, hlegal, true_and, returns_select_bind]
      split_ifs
      · exact ⟨false, _, returns_flush_bind.2 ⟨hinserted.legal, returns_pure.2 ⟨rfl, rfl⟩⟩⟩
      · exact hmark hinserted

/-- A transition that the table has for the state of the coverage, and that has no guard, is
recorded. -/
theorem returns_runTransitionOf {covId : Nat} {cov : Coverage} {action : Action} {sm : Transition}
    (hid : covId < s.stored.coverages.length) (hcov : s.loaded.coverages[covId]? = some cov)
    (hentry : entries (some cov.state) action = some sm)
    (hguards : ∀ ctx, checkGuards action ctx = none) :
    Returns (Engine.runTransitionOf env covId r action) s u s' ↔
      Returns (record env covId (some cov.state) sm action .run (toString r) (some r) none none)
        { s with
          loaded := s.loaded.updateCoverage covId fun cov => { cov with state := sm.toState } }
        u s' := by
  unfold Engine.runTransitionOf transitionCoverage getCoverage buildCtx
  simp only [bind_assoc, pure_bind]
  rw [returns_lookup_bind, if_pos hid, hcov, pure_bind, returns_select_bind, returns_select_bind,
    transition_eq_ok.2 ⟨hentry, hguards _⟩, returns_ofExcept_bind]
  simp only [Except.ok.injEq, exists_eq_left', returns_assign_bind]

/-- A transition is recorded if its side effects return. -/
theorem exists_record {covId : Nat} {fromState : Option CoverageState} {sm : Transition}
    {action : Action} {actorType : ActorType} {actorId : String} {notes requestId : Option String}
    (hs : s.loaded.Serves r (some covId))
    (heffects : ∀ requestId s₁, s₁.stored = s.stored → s₁.loaded.runs = s.loaded.runs →
      s₁.loaded.coverages = s.loaded.coverages → s₁.loaded.houses = s.loaded.houses →
      s₁.loaded.Serves r (some covId) → ∃ s₂, Returns (sm.sideEffects.forM
        (applySideEffect env covId action actorId (some r) requestId)) s₁ ⟨⟩ s₂ ∧
          s₂.loaded.Sound) :
    ∃ s', Returns (record env covId fromState sm action actorType actorId (some r) notes requestId)
      s () s' := by
  have hrest (requestId : String) (s₁ : Session Db) (hstored : s₁.stored = s.stored)
      (hruns : s₁.loaded.runs = s.loaded.runs) (hcoverages : s₁.loaded.coverages = s.loaded.coverages)
      (hhouses : s₁.loaded.houses = s.loaded.houses) (hs₁ : s₁.loaded.Serves r (some covId)) :
      ∃ s', Returns (do
        sm.sideEffects.forM (applySideEffect env covId action actorId (some r) requestId)
        flush) s₁ () s' := by
    obtain ⟨s₂, hreturns, hsound⟩ := heffects requestId s₁ hstored hruns hcoverages hhouses hs₁
    exact ⟨_, returns_bind.2 ⟨_, s₂, hreturns, returns_flush.2 ⟨hsound.legal, rfl⟩⟩⟩
  unfold record addAudit addOutbox
  simp only [returns_inspect_bind, returns_assign_bind]
  refine hrest _ _ rfl rfl rfl rfl ?_
  exact Db.Serves.addOutbox (hs.addTransition rfl).addAudit rfl rfl rfl

/-- An initiation that names its lead, or none, can begin. -/
theorem exists_startInitiation {covId : Nat} {cov : Coverage} {run : Run} {house : Option String}
    (hsound : s.loaded.Sound) (hid : covId < s.stored.coverages.length)
    (hcov : s.loaded.coverages[covId]? = some cov) (hproposed : cov.state = .proposed)
    (hrun : s.loaded.runs[r]? = some run)
    (hhouse : env.runtime.text (run.params.get "lead_house") = some house)
    (hknown : house.all s.loaded.isHouse = true) :
    ∃ s', Returns (Engine.runTransitionOf env covId r .startInitiation) s () s' := by
  have hentry : entries (some cov.state) .startInitiation =
      some ⟨.initiating, "start_initiation", [.setLeadHouse]⟩ := by
    rw [hproposed]
    rfl
  simp only [returns_runTransitionOf hid hcov hentry fun _ => rfl]
  have hlt := (List.getElem?_eq_some_iff.1 hcov).1
  refine exists_record ⟨hsound.setState hcov nofun, (List.getElem?_eq_some_iff.1 hrun).1, ?_⟩ ?_
  · simpa [Db.isCoverage, Db.updateCoverage] using hlt
  intro requestId s₁ hstored hruns hcoverages hhouses hserves
  have hfound : s₁.loaded.runs[r]? = some run := hruns ▸ hrun
  refine ⟨{ s₁ with loaded := s₁.loaded.updateCoverage covId fun cov =>
    { cov with leadHouse := house } }, returns_forM_cons.2 ⟨_, ?_, returns_forM_nil.2 rfl⟩, ?_⟩
  · unfold applySideEffect
    rw [returns_inspect_bind, Option.bind_some, hfound]
    exact returns_ofExcept_bind.2 ⟨house, congrArg bound hhouse, returns_assign.2 rfl⟩
  · refine hserves.sound.updateCoverage (fun _ => rfl) fun cov' hcov' => ?_
    have hmoved : (s.loaded.updateCoverage covId fun cov =>
        { cov with state := .initiating }).coverages[covId]? =
          some { cov with state := .initiating } := getElem?_modify_self hcov
    rw [hcoverages, hmoved] at hcov'
    obtain rfl := Option.some.inj hcov'
    refine ⟨rfl, ?_⟩
    rw [show s₁.loaded.isHouse = s.loaded.isHouse from ?_]
    · exact hknown
    · funext key
      unfold Db.isHouse
      rw [hhouses]
      rfl

/-- What a run that has started finds: the coverages, the houses and what the run is for. -/
structure Starts (r : Nat) (run : Run) (s s' : Session Db) : Prop where
  sound : s'.loaded.Sound
  coverages : s'.loaded.coverages = s.loaded.coverages
  shown : s'.stored.coverages = s.stored.coverages ∨ s'.stored.coverages = s.loaded.coverages
  houses : s'.loaded.houses = s.loaded.houses
  run : ∃ run', s'.loaded.runs[r]? = some run' ∧ run'.params = run.params

theorem starts {run : Run} {started : Bool} (hs : Orderly s) (hrun : s.loaded.runs[r]? = some run)
    (h : Returns (startRun env r) s started s') : Starts r run s s' := by
  have hcoverages : Fixes Db.coverages (startRun env r) :=
    fixes_startRun (fun _ _ => rfl) (fun _ _ => rfl) r
  have hhouses : Fixes Db.houses (startRun env r) :=
    fixes_startRun (fun _ _ => rfl) (fun _ _ => rfl) r
  have hnumbered := overlooks_numbered.1.startRun h ⟨hs.stored.numbered, hs.loaded.numbered⟩
  have hlead : (s.loaded.leads r).1[r]? = some (run.type, run.coverageId, run.params) := by
    simp [Db.leads, hrun]
  have hkept := (overlooksRuns_leads (r := r) fun leads =>
    leads.1[r]? = some (run.type, run.coverageId, run.params)).startRun h
      ⟨by simpa [Db.leads, ← hs.runs] using hlead, hlead⟩
  obtain ⟨run', hrun', hsame⟩ := of_leads hkept.2
  refine ⟨⟨?_, hnumbered.2⟩, (hcoverages h).1, (hcoverages h).2, (hhouses h).1, run', hrun', ?_⟩
  · rcases saves_startRun h with rfl | ⟨heq, hlegal⟩
    · exact hs.loaded.legal
    · exact heq ▸ hlegal
  · exact congrArg (fun x : RunType × Option Nat × JsonObject => x.2.2) hsame

theorem initiates_started {run : Run} {covId : Nat} (hinitiates : run.initiates covId)
    (hfree : run.mutatesDossier = true →
      ∀ owner, db.lockOwner covId = some owner → owner = r) :
    ∀ covId', run.life.locked = some covId' →
      ∀ owner, db.lockOwner covId' = some owner → owner = r := by
  intro covId' hlocked
  obtain ⟨hmutates, hcovId⟩ := Run.life_locked.1 hlocked
  obtain rfl : covId = covId' := Option.some.inj (hinitiates.2.symm.trans hcovId)
  exact hfree hmutates

/-- The lead that an initiation starts with is a house. -/
theorem house_of_startInitiation {covId : Nat} {run : Run}
    (hid : covId < s.loaded.coverages.length)
    (h : Returns (Engine.runTransitionOf env covId r .startInitiation) s u s')
    (hrun : s.loaded.runs[r]? = some run) :
    ∃ house, env.runtime.text (run.params.get "lead_house") = some house ∧
      house.all s.loaded.isHouse = true := by
  obtain ⟨house, hhouse, hcoverages⟩ := returns_startInitiation h hrun
  obtain ⟨hsaved, hlegal⟩ := flushes_transition h
  have haside : Aside Db.houses := by constructor <;> exact fun _ _ => rfl
  have hkept : s'.loaded.houses = s.loaded.houses := (haside.transitionCoverage h).1
  have hrule := Db.violation_eq_none.1 hlegal ("fk_coverage_lead_house_houses",
    fun db => db.coverages.all fun cov => cov.leadHouse.all db.isHouse) (by simp [constraints])
  obtain ⟨cov, hcov⟩ : ∃ cov, s.loaded.coverages[covId]? = some cov :=
    ⟨_, List.getElem?_eq_getElem hid⟩
  have hmoved : { cov with state := .initiating, leadHouse := house } ∈ s'.stored.coverages := by
    rw [← hsaved, hcoverages]
    exact List.mem_of_getElem? (getElem?_modify_self hcov)
  refine ⟨house, hhouse, ?_⟩
  rw [show s.loaded.isHouse = s'.stored.isHouse from ?_]
  · exact List.all_eq_true.1 hrule _ hmoved
  · funext key
    unfold Db.isHouse
    rw [← hsaved, hkept]

/-- The coverage of an initiation that has started is read as it was before. -/
theorem Starts.findCoverage {run : Run} {covId : Nat} {cov : Coverage} (h : Starts r run s s')
    (hs : Orderly s) (hcov : s.loaded.coverages[covId]? = some cov) :
    covId < s'.stored.coverages.length ∧ s'.loaded.coverages[covId]? = some cov := by
  have hlt : covId < s.loaded.coverages.length := (List.getElem?_eq_some_iff.1 hcov).1
  refine ⟨?_, h.coverages ▸ hcov⟩
  rcases h.shown with hshown | hshown
  · rwa [hshown, ← hs.coverages]
  · rwa [hshown]

/-- A run that has started begins its initiation exactly if that can begin. -/
theorem beginInitiation_iff {run : Run} {started : Bool} (hs : Orderly s)
    (hrun : s.loaded.runs[r]? = some run) (hqueued : run.status = .queued)
    (hstart : Returns (startRun env r) s started s₁) (hstarted : started = true) :
    Engine.CanBegin env r s.loaded ↔ ∃ s', Returns (Engine.beginInitiation env r run) s₁ () s' := by
  have hfree := (started_iff hs hrun hstart).1 hstarted
  have hfound := starts hs hrun hstart
  obtain ⟨run₁, hrun₁, hparams⟩ := hfound.run
  have hhouses : s₁.loaded.isHouse = s.loaded.isHouse := by
    funext key
    unfold Db.isHouse
    rw [hfound.houses]
  unfold Engine.CanBegin
  constructor
  · intro hbegin
    unfold Engine.beginInitiation
    cases hcovId : run.coverageId with
    | none =>
        refine ⟨s₁, returns_bind.2 ⟨none, s₁, returns_pure.2 ⟨rfl, rfl⟩, ?_⟩⟩
        split
        · rename_i hsome _
          cases hsome
        · exact returns_pure.2 ⟨rfl, rfl⟩
    | some covId =>
        simp only [Engine.findCoverage, returns_lookup_bind]
        split
        · rename_i covId' cov htype hsame hcov
          obtain rfl : covId = covId' := Option.some.inj hsame
          split_ifs at hcov with hid
          split_ifs with hproposed
          · obtain ⟨house, hhouse, hknown⟩ := hbegin run covId cov hrun hqueued ⟨htype, hcovId⟩
              (hfound.coverages ▸ hcov) hproposed fun hmutates =>
                hfree covId (Run.life_locked.2 ⟨hmutates, hcovId⟩)
            exact exists_startInitiation hfound.sound hid hcov hproposed hrun₁ (hparams ▸ hhouse)
              (hhouses ▸ hknown)
          · exact ⟨s₁, returns_pure.2 ⟨rfl, rfl⟩⟩
        · exact ⟨s₁, returns_pure.2 ⟨rfl, rfl⟩⟩
  · rintro ⟨s', h⟩ row covId cov hrow - hinitiates hcov hproposed -
    obtain rfl : run = row := Option.some.inj (hrun.symm.trans hrow)
    obtain ⟨hid, hcov₁⟩ := hfound.findCoverage hs hcov
    unfold Engine.beginInitiation at h
    rw [hinitiates.1, hinitiates.2] at h
    simp only [Engine.findCoverage, returns_lookup_bind, if_pos hid, hcov₁, if_pos hproposed] at h
    obtain ⟨house, hhouse, hknown⟩ :=
      house_of_startInitiation (List.getElem?_eq_some_iff.1 hcov₁).1 h hrun₁
    exact ⟨house, hparams ▸ hhouse, hhouses ▸ hknown⟩

/-- A turn of a queued run returns exactly if the run can begin. -/
theorem promoteEach_iff (hs : Orderly s) (hr : r < s.stored.runs.length) :
    Engine.CanBegin env r s.loaded ↔ ∃ s', Returns (Engine.promoteEach env r) s () s' := by
  obtain ⟨run, hrun⟩ : ∃ run, s.loaded.runs[r]? = some run :=
    ⟨_, List.getElem?_eq_getElem (hs.runs ▸ hr)⟩
  have hpromote : (∃ s', Returns (Engine.promoteEach env r) s () s') ↔
      ∃ started s', Returns (Engine.promoteRun env r) s started s' := by
    constructor
    · rintro ⟨s', h⟩
      obtain ⟨started, s₁, h, -⟩ := returns_bind.1 h
      exact ⟨started, s₁, h⟩
    · rintro ⟨started, s', h⟩
      exact ⟨s', returns_bind.2 ⟨started, s', h, returns_pure.2 ⟨rfl, rfl⟩⟩⟩
  rw [hpromote]
  unfold Engine.promoteRun
  simp only [returns_getRow_bind, hr, hrun, true_and, Option.some.injEq, exists_eq_left']
  by_cases hqueued : run.status = .queued
  · rw [if_neg (not_not.2 hqueued)]
    obtain ⟨started, s₁, hstart⟩ := exists_startRun env hs hrun
    cases hstarted : started with
    | false =>
        subst hstarted
        refine iff_of_true (fun row covId cov hrow _ hinitiates _ _ hfree => ?_)
          ⟨false, s₁, returns_bind.2 ⟨false, s₁, hstart, returns_pure.2 ⟨rfl, rfl⟩⟩⟩
        obtain rfl : run = row := Option.some.inj (hrun.symm.trans hrow)
        cases (started_iff hs hrun hstart).2 (initiates_started hinitiates hfree)
    | true =>
        subst hstarted
        rw [beginInitiation_iff hs hrun hqueued hstart rfl]
        constructor
        · rintro ⟨s₂, hbegins⟩
          exact ⟨true, s₂, returns_bind.2 ⟨true, s₁, hstart,
            returns_bind.2 ⟨(), s₂, hbegins, returns_pure.2 ⟨rfl, rfl⟩⟩⟩⟩
        · rintro ⟨started, s', h⟩
          obtain ⟨started', s₂, hstart', h⟩ := returns_bind.1 h
          obtain ⟨rfl, rfl⟩ := hstart.unique hstart'
          obtain ⟨_, s₃, hbegins, -⟩ := returns_bind.1 h
          exact ⟨s₃, hbegins⟩
  · rw [if_pos hqueued]
    refine iff_of_true (fun row covId cov hrow hstatus => ?_) ⟨false, s, returns_pure.2 ⟨rfl, rfl⟩⟩
    obtain rfl : run = row := Option.some.inj (hrun.symm.trans hrow)
    exact absurd hstatus hqueued

end AiFund
