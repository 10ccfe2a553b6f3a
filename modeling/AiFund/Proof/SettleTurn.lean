import AiFund.Library.Total
import AiFund.Proof.Digests
import AiFund.Proof.EngineSteps
import AiFund.Proof.PromoteTurn

/-!
# The end of a turn

An advanced run that fails, waits for a retry or pauses is always settled. One whose stages are all
done is settled exactly if it is no initiation, or its coverage is initiating and has a lead.
-/

namespace AiFund

open UnitOfWork Rows

variable {env : Env} {r covId : Nat} {u : Unit} {s s' : Session Db} {db : Db} {run : Run}
  {cov : Coverage} {coverageId : Option Nat} {action : Action} {sm : Transition}

/-! ## Transitions -/

/-- The effect adds a gate or an event. -/
def SideEffect.adds : SideEffect → Bool
  | .openGateInitiationDecision | .outbox _ => true
  | _ => false

theorem completes_adds {effect : SideEffect} {actorId requestId : String}
    (heffect : effect.adds = true) :
    Completes (Db.Serves r (some covId))
      (applySideEffect env covId action actorId (some r) requestId effect) := by
  cases effect with
  | openGateInitiationDecision =>
      have hgate : Completes (Db.Serves r (some covId)) (assign fun db => { db with
          gates := db.gates ++
            [{ runId := r, coverageId := some covId, kind := .initiationDecision, state := .opened,
               prompt := .decideInitiation, payload := [],
               allowedAnswers := ["active", "watch", "reject"] }] } : DbTxn Unit) :=
        .assign fun db h => h.addGate rfl rfl
      exact hgate
  | outbox kind => exact .ite (.pure _) (.assign fun db h => h.addOutbox rfl rfl rfl)
  | _ => cases heffect

/-- A transition that has no guard, and whose effects only add rows, is made where the coverage has
the lead for its new state. -/
theorem exists_runTransitionOf (env : Env) (hstored : s.stored.Serves r (some covId))
    (hloaded : s.loaded.Serves r (some covId)) (hcov : s.loaded.coverages[covId]? = some cov)
    (hentry : entries (some cov.state) action = some sm)
    (hguards : ∀ ctx, checkGuards action ctx = none)
    (heffects : ∀ effect ∈ sm.sideEffects, effect.adds = true)
    (hlead : sm.toState.live = true → cov.leadHouse.isSome = true) :
    ∃ s', Returns (Engine.runTransitionOf env covId r action) s () s' ∧
      s'.stored.Serves r (some covId) ∧ s'.loaded.Serves r (some covId) := by
  have hid : covId < s.stored.coverages.length := of_decide_eq_true hstored.coverage
  have hrecords : Completes (Db.Serves r (some covId))
      (record env covId (some cov.state) sm action .run (toString r) (some r) none none) := by
    refine .bind (.inspect _) fun _ => .bind (.assign fun db h => h.addTransition rfl) fun _ =>
      .bind (.assign fun db h => h.addAudit) fun _ =>
        .bind (.assign fun db h => h.addOutbox rfl rfl rfl) fun _ =>
          .bind (.forM fun effect heffect => completes_adds (heffects effect heffect)) fun _ =>
            .flush fun db h => h.sound.legal
  have hmoved : (s.loaded.updateCoverage covId fun cov => { cov with state := sm.toState }).Serves r
      (some covId) := by
    refine ⟨hloaded.sound.setState hcov hlead, hloaded.run, ?_⟩
    simpa [Db.isCoverage, Db.updateCoverage] using hloaded.coverage
  obtain ⟨_, s', h, hafter⟩ := hrecords
    { s with loaded := s.loaded.updateCoverage covId fun cov => { cov with state := sm.toState } }
    hstored hmoved
  exact ⟨s', (returns_runTransitionOf hid hcov hentry hguards).2 h, hafter⟩

/-! ## Failing -/

theorem Orderly.serves (hs : Orderly s) (hrun : s.loaded.runs[r]? = some run) :
    s.stored.Serves r run.coverageId ∧ s.loaded.Serves r run.coverageId := by
  have hlt := (List.getElem?_eq_some_iff.1 hrun).1
  have hcoverage : run.coverageId.all s.loaded.isCoverage = true := by
    have hcovered := (runs_of_violation hs.loaded.legal (List.mem_of_getElem? hrun)).1
    cases hcovId : run.coverageId with
    | none => rfl
    | some covId => exact decide_eq_true (hcovered covId hcovId)
  have hsame : s.loaded.isCoverage = s.stored.isCoverage := hs.view_eq fun _ _ => rfl
  exact ⟨⟨hs.stored, hs.runs ▸ hlt, hsame ▸ hcoverage⟩, hs.loaded, hlt, hcoverage⟩

theorem exists_failInitiation (env : Env) (hstored : s.stored.Serves r run.coverageId)
    (hloaded : s.loaded.Serves r run.coverageId) :
    ∃ s', Returns (Engine.failInitiation env r run) s () s' ∧
      s'.stored.Serves r run.coverageId ∧ s'.loaded.Serves r run.coverageId := by
  have hnothing : ∃ s', Returns (pure () : DbTxn Unit) s () s' ∧
      s'.stored.Serves r run.coverageId ∧ s'.loaded.Serves r run.coverageId :=
    ⟨s, returns_pure.2 ⟨rfl, rfl⟩, hstored, hloaded⟩
  unfold Engine.failInitiation
  cases hcovId : run.coverageId with
  | none =>
      rw [hcovId] at hnothing
      simp only [Engine.findCoverage, pure_bind]
      split
      · rename_i hsome _
        cases hsome
      · exact hnothing
  | some covId =>
      rw [hcovId] at hstored hloaded hnothing
      simp only [Engine.findCoverage, returns_lookup_bind]
      split
      · rename_i covId' cov htype hsame hcov
        obtain rfl : covId = covId' := Option.some.inj hsame
        split_ifs at hcov with hid
        split_ifs with hinitiating
        · have hentry : entries (some cov.state) .initiationFailed =
              some ⟨.failed, "initiation_failed", [.outbox "run.finished"]⟩ := by
            rw [hinitiating]
            rfl
          exact exists_runTransitionOf env hstored hloaded hcov hentry (fun _ => rfl) (by decide)
            (fun h => by cases h)
        · exact hnothing
      · exact hnothing

/-- A running run can be finished, whatever has become of it. -/
theorem Db.Serves.exists_finishRun {status : RunStatus} (env : Env) (summary error : Option String)
    (hstored : s.stored.Serves r run.coverageId) (hloaded : s.loaded.Serves r run.coverageId)
    (hrun : s.loaded.runs[r]? = some run) (hrunning : run.status = .running)
    (hstatus : status = .succeeded ∨ status = .failed) :
    ∃ s', Returns (finishRun env r status summary error) s () s' := by
  have haction : ∃ action sm, finishAction status = .ok action ∧
      runTransition run.status action {} = .ok sm := by
    rw [hrunning]
    obtain rfl | rfl := hstatus
    · exact ⟨.succeed, _, rfl, rfl⟩
    · exact ⟨.fail, _, rfl, rfl⟩
  obtain ⟨action, sm, haction, hsm⟩ := haction
  obtain ⟨s', h, -⟩ := AiFund.exists_finishRun env summary error Db.Serves.finishing hstored
    hloaded hstored.run hrun haction hsm
  exact ⟨s', h⟩

theorem exists_failRun {error : String} (hs : Orderly s) (hrun : s.loaded.runs[r]? = some run)
    (hrunning : run.status = .running) :
    ∃ s', Returns (Engine.failRun env r error) s () s' := by
  obtain ⟨hstored, hloaded⟩ := hs.serves hrun
  obtain ⟨s₁, habort, hstored₁, hloaded₁⟩ := exists_failInitiation env hstored hloaded
  -- the transition of the coverage has not touched the run
  obtain ⟨hsynced, -, hlife⟩ := returns_failInitiation habort hs.synced
  have hrun₁ : s₁.loaded.life.runs[r]? = some run.life := by
    rw [hsynced, hlife, Life.abort_runs]
    exact life_run hs.synced hrun
  obtain ⟨run₁, hget₁, hlife₁⟩ := Db.life_runs_eq_some.1 hrun₁
  have hcoverage : run₁.coverageId = run.coverageId := congrArg RunLife.coverageId hlife₁
  rw [← hcoverage] at hstored₁ hloaded₁
  obtain ⟨s', hfinish⟩ := hstored₁.exists_finishRun env none (some error) hloaded₁ hget₁
    ((congrArg RunLife.status hlife₁).trans hrunning) (.inr rfl)
  exact ⟨s', returns_getRow_bind.2
    ⟨hstored.run, run, hrun, returns_bind.2 ⟨(), s₁, habort, hfinish⟩⟩⟩

/-! ## Waiting -/

theorem exists_requeueRun {reason : String} (hs : Orderly s) (hrun : s.loaded.runs[r]? = some run)
    (hrunning : run.status = .running) : ∃ s', Returns (requeueRun r reason) s () s' := by
  have hsm : runTransition run.status .requeue {} =
      .ok ⟨.queued, "transient_failure", [.recordTransientError]⟩ := by
    rw [hrunning]
    rfl
  have hrest : Completes Db.Sound (do
      assign fun db => db.updateRun r fun run =>
        { run with status := .queued, error := some reason }
      flush) :=
    .bind (.assign fun db h => h.updateRun fun _ => rfl) fun _ => .flush fun db h => h.legal
  obtain ⟨_, s', h, -⟩ := hrest s hs.stored hs.loaded
  exact ⟨s', returns_getRow_bind.2
    ⟨(hs.serves hrun).1.run, run, hrun, returns_ofExcept_bind.2 ⟨_, hsm, h⟩⟩⟩

theorem exists_stopAtGate (hstored : s.stored.Sound) (hloaded : s.loaded.Sound)
    (hrunning : run.status = .running) :
    ∃ s', Returns (do
      let sm ← ofExcept .illegalStateChange (runTransition run.status .openGate {})
      assign fun db => db.updateRun r fun run => { run with status := sm.toState }
      flush : DbTxn Unit) s () s' := by
  have hsm : runTransition run.status .openGate {} =
      .ok ⟨.waitingPm, "reached_pm_gate", [.openPmGate]⟩ := by
    rw [hrunning]
    rfl
  have hrest : Completes Db.Sound (do
      assign fun db => db.updateRun r fun run => { run with status := .waitingPm }
      flush) :=
    .bind (.assign fun db h => h.updateRun fun _ => rfl) fun _ => .flush fun db h => h.legal
  obtain ⟨_, s', h, -⟩ := hrest s hstored hloaded
  exact ⟨s', returns_ofExcept_bind.2 ⟨_, hsm, h⟩⟩

theorem exists_pauseForBudget (hs : Orderly s) (hrun : s.loaded.runs[r]? = some run)
    (hrunning : run.status = .running) : ∃ s', Returns (Engine.pauseForBudget r) s () s' := by
  obtain ⟨hstored, hloaded⟩ := hs.serves hrun
  have hopens (gate : PmGate) (hof : gate.runId = r) (hkey : gate.idempotencyKey = none) :
      Completes (Db.Serves r run.coverageId) (do
        assign fun db => { db with gates := db.gates ++ [gate] }
        flush) :=
    .bind (.assign fun db h => h.addGate hof hkey) fun _ => .flush fun db h => h.sound.legal
  let cap := run.budgetCapUsd.getD 0
  obtain ⟨_, s₁, hopen, hstored₁, hloaded₁⟩ := hopens
    { runId := r, coverageId := run.coverageId, kind := .budgetCap, state := .opened,
      prompt := .overBudget run.costUsd cap,
      payload := [("cost_usd", run.costUsd), ("cap_usd", cap)],
      allowedAnswers := ["raise_cap", "cancel"] } rfl rfl s hstored hloaded
  obtain ⟨s', hstop⟩ := exists_stopAtGate (r := r) hstored₁.sound hloaded₁.sound hrunning
  refine ⟨s', returns_getRow_bind.2 ⟨hstored.run, run, hrun, returns_bind.2 ⟨(), s₁, ?_, hstop⟩⟩⟩
  exact returns_getRow_bind.2 ⟨hstored.run, run, hrun, hopen⟩

/-! ## Finalizing -/

theorem fixes_deliver_coverages {fromState : Option CoverageState} {cause actorId : String}
    {state : CoverageState} {actorType : ActorType} {runId : Option Nat}
    {notes requestId : Option String} :
    Fixes Db.coverages (record env covId fromState
      ⟨state, cause, [.openGateInitiationDecision, .outbox "gate.opened"]⟩ action actorType actorId
      runId notes requestId) := by
  refine .bind (.inspect _) fun _ => .bind (.assign fun _ => rfl) fun _ =>
    .bind (.assign fun _ => rfl) fun _ => .bind (.assign fun _ => rfl) fun _ =>
      .bind (.bind ?_ fun _ => .bind ?_ fun _ => .pure _) fun _ => .flush
  · exact .bind (fixes_ofExcept _ _) fun _ => .assign fun _ => rfl
  · unfold applySideEffect
    exact .ite (.pure _) (.assign fun _ => rfl)

/-- An initiation that is delivered finds its coverage initiating and leaves it with a lead. -/
theorem of_delivered (hs : Orderly s) (hid : covId < s.stored.coverages.length)
    (hcov : s.loaded.coverages[covId]? = some cov)
    (h : Returns (Engine.runTransitionOf env covId r .initiationDelivered) s u s') :
    cov.state = .initiating ∧ cov.leadHouse.isSome = true := by
  have hinitiating : cov.state = .initiating := by
    have hstate := (lands_transition_deliver h hs.synced).1
    rw [life_coverage hs.synced hcov] at hstate
    exact Option.some.inj hstate
  refine ⟨hinitiating, ?_⟩
  obtain ⟨hsaved, hlegal⟩ := flushes_transition h
  have hentry : entries (some cov.state) .initiationDelivered =
      some ⟨.decisionPending, "initiation_delivered",
        [.openGateInitiationDecision, .outbox "gate.opened"]⟩ := by
    rw [hinitiating]
    rfl
  rw [returns_runTransitionOf hid hcov hentry fun _ => rfl] at h
  have hkept := (fixes_deliver_coverages h).1
  have hpending : { cov with state := .decisionPending } ∈ s'.stored.coverages := by
    rw [← hsaved, hkept]
    exact List.mem_of_getElem? (getElem?_modify_self hcov)
  have hrule := Db.violation_eq_none.1 hlegal ("ck_coverage_lead_required_when_live",
    fun db => db.coverages.all fun cov => !cov.state.live || cov.leadHouse.isSome)
    (by simp [constraints])
  simpa [CoverageState.live] using List.all_eq_true.1 hrule _ hpending

/-- A running run is finalized exactly if it is no initiation, or its coverage is initiating and has
a lead. -/
theorem finalizeRun_iff (hs : Orderly s) (hrun : s.loaded.runs[r]? = some run)
    (hrunning : run.status = .running) :
    (∀ covId cov, run.initiates covId → s.loaded.coverages[covId]? = some cov →
        cov.state = .initiating ∧ cov.leadHouse.isSome = true) ↔
      ∃ s', Returns (Engine.finalizeRun env r) s () s' := by
  obtain ⟨hstored, hloaded⟩ := hs.serves hrun
  have hfinish := hstored.exists_finishRun env none none hloaded hrun hrunning (.inl rfl)
  unfold Engine.finalizeRun
  simp only [returns_getRow_bind, hstored.run, hrun, true_and, Option.some.injEq, exists_eq_left']
  cases hcovId : run.coverageId with
  | none =>
      simp only [Engine.findCoverage, pure_bind]
      refine iff_of_true (fun covId cov hinitiates => ?_) ?_
      · cases hcovId.symm.trans hinitiates.2
      · split
        · rename_i hsome _
          cases hsome
        · exact hfinish
  | some covId =>
      rw [hcovId] at hstored hloaded
      have hid : covId < s.stored.coverages.length := of_decide_eq_true hstored.coverage
      obtain ⟨cov, hcov⟩ : ∃ cov, s.loaded.coverages[covId]? = some cov :=
        ⟨_, List.getElem?_eq_getElem (of_decide_eq_true hloaded.coverage)⟩
      simp only [Engine.findCoverage, returns_lookup_bind, if_pos hid, hcov]
      by_cases htype : run.type = .initiation
      · rw [htype]
        constructor
        · intro hinitiation
          obtain ⟨hinitiating, hlead⟩ := hinitiation covId cov ⟨htype, hcovId⟩ hcov
          have hentry : entries (some cov.state) .initiationDelivered =
              some ⟨.decisionPending, "initiation_delivered",
                [.openGateInitiationDecision, .outbox "gate.opened"]⟩ := by
            rw [hinitiating]
            rfl
          obtain ⟨s₁, hdeliver, hstored₁, hloaded₁⟩ := exists_runTransitionOf env hstored
            hloaded hcov hentry (fun _ => rfl) (by decide) fun _ => hlead
          obtain ⟨s', hstop⟩ := exists_stopAtGate (r := r) hstored₁.sound hloaded₁.sound hrunning
          exact ⟨s', returns_bind.2 ⟨(), s₁, hdeliver, hstop⟩⟩
        · rintro ⟨s', h⟩ covId' cov' hinitiates hcov'
          obtain rfl : covId = covId' := Option.some.inj (hcovId.symm.trans hinitiates.2)
          obtain rfl : cov = cov' := Option.some.inj (hcov.symm.trans hcov')
          obtain ⟨_, s₁, hdeliver, -⟩ := returns_bind.1 h
          exact of_delivered hs hid hcov hdeliver
      · refine iff_of_true (fun covId' cov' hinitiates => absurd hinitiates.1 htype) ?_
        split
        · rename_i hinitiation _ _
          exact absurd hinitiation htype
        · exact hfinish

/-! ## Settling -/

/-- The stages that are looked at are those of the run that are stored. -/
theorem Orderly.mem_shown (hs : Orderly s) (env : Env) (r : Nat) (stage : RunStage) :
    stage ∈ (Engine.stagesOfRun env r s.stored).filterMap (fun id => s.loaded.stages[id]?) ↔
      stage ∈ s.stored.stages ∧ stage.runId = r := by
  rw [AiFund.mem_shown, Shows]
  constructor
  · rintro ⟨id, row, hrow, hof, hstage⟩
    obtain rfl : row = stage :=
      Option.some.inj ((getElem?_of_grown hs.stages hrow).symm.trans hstage)
    exact ⟨List.mem_of_getElem? hrow, hof⟩
  · rintro ⟨hstage, hof⟩
    obtain ⟨id, hid⟩ := List.getElem?_of_mem hstage
    exact ⟨id, stage, hid, hof, getElem?_of_grown hs.stages hid⟩

theorem canSettle_iff {stages : List RunStage} (hrun : db.runs[r]? = some run) :
    Engine.CanSettle r stages db ↔
      ((∀ stage ∈ stages, stage.runId = r → stage.status = .succeeded ∨ stage.status = .skipped) →
        Engine.runOverBudget run = false → ∀ covId cov, run.initiates covId →
          db.coverages[covId]? = some cov →
          cov.state = .initiating ∧ cov.leadHouse.isSome = true) := by
  constructor
  · intro h hdone hbudget covId cov hinitiates hcov
    exact h run covId cov hrun hinitiates hcov hdone hbudget
  · intro h row covId cov hrow hinitiates hcov hdone hbudget
    obtain rfl : run = row := Option.some.inj (hrun.symm.trans hrow)
    exact h hdone hbudget covId cov hinitiates hcov

/-- A running run is settled exactly if it can be settled. -/
theorem settleRun_iff (hs : Orderly s) (hrun : s.loaded.runs[r]? = some run)
    (hrunning : run.status = .running) :
    Engine.CanSettle r s.stored.stages s.loaded ↔
      ∃ s', Returns (Engine.settleRun env r) s () s' := by
  rw [canSettle_iff hrun]
  unfold Engine.settleRun
  simp only [returns_select_bind, returns_inspect_bind, returns_getRow_bind,
    (hs.serves hrun).1.run, hrun, true_and, Option.some.injEq, exists_eq_left']
  have hmem := hs.mem_shown env r
  generalize (Engine.stagesOfRun env r s.stored).filterMap (fun id => s.loaded.stages[id]?) =
    shown at hmem
  -- One of the run's stages has not been done well.
  have hundone {p : RunStage → Bool} (hany : shown.any p = true)
      (hp : ∀ stage, p stage = true → stage.status ≠ .succeeded ∧ stage.status ≠ .skipped) :
      ¬ ∀ stage ∈ s.stored.stages, stage.runId = r →
        stage.status = .succeeded ∨ stage.status = .skipped := by
    intro hall
    obtain ⟨stage, hshown, hstage⟩ := List.any_eq_true.1 hany
    obtain ⟨hstored, hof⟩ := (hmem stage).1 hshown
    rcases hall stage hstored hof with hdone | hdone
    · exact (hp stage hstage).1 hdone
    · exact (hp stage hstage).2 hdone
  split_ifs with hfailed hbackoff hover hdone
  · refine iff_of_true (fun hall => absurd hall (hundone hfailed fun stage hstage => ?_))
      (exists_failRun hs hrun hrunning)
    rw [of_decide_eq_true hstage]
    decide
  · refine iff_of_true (fun hall => absurd hall (hundone hbackoff fun stage hstage => ?_))
      (exists_requeueRun hs hrun hrunning)
    rw [of_decide_eq_true (Bool.and_eq_true_iff.1 hstage).1]
    decide
  · refine iff_of_true (fun _ hbudget => ?_) (exists_pauseForBudget hs hrun hrunning)
    rw [hover] at hbudget
    cases hbudget
  · have hany : shown.any (fun stage => !Engine.stageDone stage) = true := by
      rw [List.any_eq_not_all_not]
      simpa using hdone
    refine iff_of_true (fun hall => absurd hall (hundone hany fun stage hstage => ?_))
      ⟨s, returns_pure.2 ⟨rfl, rfl⟩⟩
    simp only [Engine.stageDone, Bool.not_eq_true', Bool.or_eq_false_iff,
      decide_eq_false_iff_not] at hstage
    exact ⟨hstage.1.1, hstage.2⟩
  · rw [← finalizeRun_iff hs hrun hrunning]
    refine ⟨fun h => h (fun stage hstage hof => ?_) (Bool.eq_false_iff.2 hover), fun h _ _ => h⟩
    have hshown := (hmem stage).2 ⟨hstage, hof⟩
    have hstageDone : Engine.stageDone stage = true := by
      simp only [Bool.not_eq_true', Bool.not_eq_false] at hdone
      exact List.all_eq_true.1 hdone stage hshown
    have hnotFailed : stage.status ≠ .failed := fun h =>
      hfailed (List.any_eq_true.2 ⟨stage, hshown, decide_eq_true h⟩)
    simp only [Engine.stageDone, Bool.or_eq_true, decide_eq_true_eq] at hstageDone
    rcases hstageDone with (hsucceeded | hstageFailed) | hskipped
    · exact .inl hsucceeded
    · exact absurd hstageFailed hnotFailed
    · exact .inr hskipped

end AiFund
