import AiFund.Proof.CoverageSteps

/-!
# Steps of the engine

Queue calls and stage results leave the lifecycle alone; promoting or advancing a run is at most
one step of that run.
-/

namespace AiFund

open UnitOfWork Rows

variable {env : Env} {fund : FundConfig} {s s₁ s' : Session Db} {r : Nat} {u : Unit}

/-! ## Calls that leave the lifecycle alone -/

theorem keeps_rollupRun {runId : Nat} : Keeps Db.life (rollupRun runId) :=
  .bind (.select _) fun _ => .bind (keeps_getRow _ _) fun _ =>
    .assign fun db => db.life_updateRun_of_eq fun _ => rfl

theorem keeps_closeAttempt {stageId : Nat} {attempt : AttemptIn} {status : AttemptStatus}
    {result : Option JsonObject} {errors : Option Json} {killReason : Option String} :
    Keeps Db.life (closeAttempt env stageId attempt status result errors killReason) := by
  refine .bind (.select _) fun key => .bind (.assign fun db => ?_) fun _ => .assign fun _ => rfl
  cases key <;> rfl

theorem keeps_retryOrFail {stageId : Nat} {stage : RunStage} {retryable : Bool}
    {backoff : BackoffPolicy} :
    Keeps Db.life (retryOrFail env stageId stage retryable backoff) :=
  .ite (.bind (keeps_ofExcept _ _) fun _ => .assign fun _ => rfl) (.assign fun _ => rfl)

theorem keeps_claimStage {workerId : String} {substrates : List Substrate}
    {houses : List String} {leaseSeconds : ℚ} :
    Keeps Db.life (claimStage env workerId substrates houses leaseSeconds) := by
  refine .bind (.select _) fun candidate => ?_
  cases candidate with
  | none => exact .pure _
  | some stageId =>
      exact .bind (keeps_getRow _ _) fun _ => .bind (.assign fun _ => rfl) fun _ =>
        .bind (.assign fun _ => rfl) fun _ => .bind .flush fun _ => .pure _

theorem keeps_heartbeat {stageId : Nat} {workerId : String} {leaseSeconds : ℚ} :
    Keeps Db.life (heartbeat env stageId workerId leaseSeconds) := by
  refine .bind (.lookup _ _) fun found => ?_
  cases found with
  | none => exact .pure _
  | some stage =>
      exact .ite (.pure _) (.bind (.assign fun _ => rfl) fun _ => .bind .flush fun _ => .pure _)

theorem keeps_reapStage {backoff : BackoffPolicy} {stageId : Nat} :
    Keeps Db.life (reapStage env backoff stageId) := by
  refine .bind (.select _) fun key => .bind (.assign fun db => ?_) fun _ => .assign fun _ => rfl
  cases key <;> rfl

theorem keeps_queueCall (call : QueueCall) : Keeps Db.life (call.perform env) := by
  cases call with
  | claim => exact .bind keeps_claimStage fun _ => .pure _
  | heartbeat => exact .bind keeps_heartbeat fun _ => .pure _
  | complete =>
      exact .bind (keeps_getRow _ _) fun _ => .bind keeps_closeAttempt fun _ =>
        .bind (keeps_ofExcept _ _) fun _ => .bind (.assign fun _ => rfl) fun _ =>
          .bind keeps_rollupRun fun _ => .flush
  | fail =>
      exact .bind (keeps_getRow _ _) fun _ => .bind keeps_closeAttempt fun _ =>
        .bind keeps_retryOrFail fun _ => .bind keeps_rollupRun fun _ => .flush
  | reap =>
      exact .bind (.bind (.select _) fun _ => .bind (.forM fun _ => keeps_reapStage) fun _ =>
        .bind .flush fun _ => .pure _) fun _ => .pure _

theorem keeps_drain (runner : Engine.Runner) (runId : Nat) : Keeps Db.life (runner.drain runId) :=
  .forM fun _ => keeps_queueCall _

theorem keeps_registerFromStage {stageId : Nat} {entries : List PredictionIn} :
    Keeps Db.life (registerFromStage env stageId entries) := by
  refine .bind (keeps_getRow _ _) fun stage => .bind (keeps_getRow _ _) fun run => ?_
  refine .bind (.mapM fun entry => ?_) fun _ => .bind .flush fun _ => .pure _
  refine .bind (keeps_ofExcept _ _) fun row => .bind (.execute fun db => ?_) fun _ => .select _
  unfold Db.insertPrediction
  split <;> rfl

theorem keeps_resolveContributors {covId : Nat} : Keeps Db.life (resolveContributors covId) := by
  refine .bind (.lookup _ _) fun cov => .bind (.select _) fun explicit => ?_
  refine .ite (.pure _) (.bind (.select _) fun houses => ?_)
  cases cov with
  | none => exact .throw _
  | some cov => exact .pure _

theorem keeps_maybeAppendCrossCheck {run : Run} {stage : RunStage} {result : JsonObject}
    {lastTp : Option Decimal} :
    Keeps Db.life (Engine.maybeAppendCrossCheck env fund r run stage result lastTp) := by
  refine .bind (keeps_ofExcept _ _) fun fires => .ite (.pure _) ?_
  refine .bind (.select _) fun existing => .ite (.pure _) ?_
  cases run.coverageId with
  | none => exact .throw _
  | some covId =>
      exact .bind keeps_resolveContributors fun _ => .bind (.select _) fun _ =>
        .bind (keeps_ofExcept _ _) fun _ => .assign fun _ => rfl

theorem keeps_digestStage {run : Run} {stageId : Nat} :
    Keeps Db.life (Engine.digestStage env fund r run stageId) := by
  refine .bind (keeps_getRow _ _) fun stage => ?_
  split
  · refine .bind (.select _) fun lastTp => .bind ?_ fun _ =>
      .ite keeps_maybeAppendCrossCheck (.pure _)
    refine .bind (keeps_ofExcept _ _) fun entries => .ite (.pure _) ?_
    exact .bind keeps_registerFromStage fun _ => .pure _
  · exact .pure _

/-! ## Initiations -/

theorem returns_findCoverage {coverageId : Option Nat} {cov : Option Coverage}
    (h : Returns (Engine.findCoverage coverageId) s cov s') (hs : Synced Db.life s) :
    s' = s ∧ cov = coverageId.bind (s.loaded.coverages[·]?) := by
  cases coverageId with
  | none => exact (returns_pure.1 h).symm
  | some covId =>
      obtain ⟨rfl, rfl⟩ := returns_lookup.1 h
      have hlength : s'.loaded.coverages.length = s'.stored.coverages.length := by
        simpa [Db.life] using congrArg (fun life => life.coverages.length) hs
      refine ⟨rfl, ?_⟩
      rw [← hlength, Option.bind_some]
      split_ifs with hid
      · rfl
      · rw [List.getElem?_eq_none (not_lt.1 hid)]

/-- What the code reads before it moves the coverage of a run, as the lifecycle sees it. -/
theorem initiationOf_life (hs : Synced Db.life s) (run : Run) :
    s.stored.life.initiationOf run.life = run.coverageId.bind fun covId =>
      if run.type = .initiation then
        (s.loaded.coverages[covId]?).map fun cov => (covId, cov.state)
      else none := by
  rw [← hs]
  unfold Life.initiationOf
  change (run.coverageId >>= fun covId => if run.type = .initiation then _ else none) = _
  cases run.coverageId with
  | none => rfl
  | some covId =>
      by_cases htype : run.type = .initiation
      · simp [htype, Db.life]
        cases s.loaded.coverages[covId]? <;> rfl
      · simp [htype]

theorem initiationOf_eq_none (hs : Synced Db.life s) {run : Run} {found : Option Coverage}
    (hfound : found = run.coverageId.bind (s.loaded.coverages[·]?))
    (hnone : ∀ (covId : Nat) (cov : Coverage), run.type = .initiation →
      run.coverageId = some covId → found = some cov → False) :
    s.stored.life.initiationOf run.life = none := by
  rw [initiationOf_life hs]
  cases hcovId : run.coverageId with
  | none => rfl
  | some covId =>
      rw [hcovId, Option.bind_some] at hfound
      by_cases htype : run.type = .initiation
      · cases hcov : s.loaded.coverages[covId]? with
        | none => simp [hcov]
        | some cov => exact absurd (hfound.trans hcov) (hnone covId cov htype hcovId)
      · simp [htype]

theorem Life.begin_of_ne {c : Life} {run : RunLife}
    (h : ∀ covId, c.initiationOf run ≠ some (covId, .proposed)) : c.begin run = c := by
  unfold begin
  split
  · rename_i covId hof
    exact absurd hof (h covId)
  · rfl

theorem Life.abort_of_ne {c : Life} {run : RunLife}
    (h : ∀ covId, c.initiationOf run ≠ some (covId, .initiating)) : c.abort run = c := by
  unfold abort
  split
  · rename_i covId hof
    exact absurd hof (h covId)
  · rfl

theorem returns_beginInitiation {run : Run}
    (h : Returns (Engine.beginInitiation env r run) s u s') (hs : Synced Db.life s) :
    Synced Db.life s' ∧ LifeTrail s s' ∧ s'.stored.life = s.stored.life.begin run.life := by
  unfold Engine.beginInitiation at h
  obtain ⟨found, s₁, hfind, h⟩ := returns_bind.1 h
  obtain ⟨hs₁, hfound⟩ := returns_findCoverage hfind hs
  rw [hs₁] at h
  have hof := initiationOf_life hs run
  split at h
  · rename_i covId cov htype hcovId
    rw [hcovId, Option.bind_some] at hof hfound
    rw [if_pos htype, ← hfound, Option.map_some] at hof
    split_ifs at h with hproposed
    · obtain ⟨state, sm, hstate, hentry, hlands⟩ := lands_transition_quiet rfl h hs
      have hcov := (Life.initiationOf_eq_some.1 hof).2.2
      rw [hstate, Option.some.injEq, hproposed] at hcov
      rw [hcov] at hentry
      cases hentry
      refine ⟨hlands.synced, hlands.trail (.of_runs rfl), ?_⟩
      rw [hlands.stored, Life.begin, hof, hproposed]
    · obtain ⟨-, rfl⟩ := returns_pure.1 h
      refine ⟨hs, .refl _ _, (Life.begin_of_ne fun k hk => ?_).symm⟩
      rw [hof, Option.some.injEq, Prod.mk.injEq] at hk
      exact hproposed hk.2
  · rename_i hnone
    obtain ⟨-, rfl⟩ := returns_pure.1 h
    refine ⟨hs, .refl _ _, (Life.begin_of_ne fun k hk => ?_).symm⟩
    rw [initiationOf_eq_none hs hfound hnone] at hk
    cases hk

theorem returns_failInitiation {run : Run}
    (h : Returns (Engine.failInitiation env r run) s u s') (hs : Synced Db.life s) :
    Synced Db.life s' ∧ LifeTrail s s' ∧ s'.stored.life = s.stored.life.abort run.life := by
  unfold Engine.failInitiation at h
  obtain ⟨found, s₁, hfind, h⟩ := returns_bind.1 h
  obtain ⟨hs₁, hfound⟩ := returns_findCoverage hfind hs
  rw [hs₁] at h
  have hof := initiationOf_life hs run
  split at h
  · rename_i covId cov htype hcovId
    rw [hcovId, Option.bind_some] at hof hfound
    rw [if_pos htype, ← hfound, Option.map_some] at hof
    split_ifs at h with hinitiating
    · obtain ⟨state, sm, hstate, hentry, hlands⟩ := lands_transition_quiet rfl h hs
      have hcov := (Life.initiationOf_eq_some.1 hof).2.2
      rw [hstate, Option.some.injEq, hinitiating] at hcov
      rw [hcov] at hentry
      cases hentry
      refine ⟨hlands.synced, hlands.trail (.of_runs rfl), ?_⟩
      rw [hlands.stored, Life.abort, hof, hinitiating]
    · obtain ⟨-, rfl⟩ := returns_pure.1 h
      refine ⟨hs, .refl _ _, (Life.abort_of_ne fun k hk => ?_).symm⟩
      rw [hof, Option.some.injEq, Prod.mk.injEq] at hk
      exact hinitiating hk.2
  · rename_i hnone
    obtain ⟨-, rfl⟩ := returns_pure.1 h
    refine ⟨hs, .refl _ _, (Life.abort_of_ne fun k hk => ?_).symm⟩
    rw [initiationOf_eq_none hs hfound hnone] at hk
    cases hk

/-! ## Promotion -/

/-- A promotion starts the run, unless the run is not queued or another one holds its lock. -/
theorem promoteRun_cases {started : Bool} (h : Returns (Engine.promoteRun env r) s started s')
    (hs : Synced Db.life s) :
    (Still s s' ∧ ∀ run, s.stored.life.runs[r]? = some run → run.status = .queued →
      ∃ covId o, run.locked = some covId ∧ s.stored.life.owner covId = some o) ∨
    Takes (.start r) s s' := by
  unfold Engine.promoteRun at h
  obtain ⟨-, run, hrun, h⟩ := returns_getRow_bind.1 h
  have hlife := life_run hs hrun
  split_ifs at h with hqueued
  · obtain ⟨-, rfl⟩ := returns_pure.1 h
    refine .inl ⟨⟨hs, .refl _ _⟩, fun found hfound hstatus => ?_⟩
    rw [hlife, Option.some.injEq] at hfound
    subst hfound
    exact absurd hstatus hqueued
  · rw [not_not] at hqueued
    obtain ⟨ok, s₁, hstart, h⟩ := returns_bind.1 h
    obtain ⟨rfl, hstill, hheld⟩ | ⟨rfl, hs₁, htrail, hstarted, hlock⟩ :=
      returns_startRun hstart hs hrun hqueued
    · obtain ⟨-, rfl⟩ := returns_pure.1 h
      refine .inl ⟨hstill, fun found hfound _ => ?_⟩
      rw [hlife, Option.some.injEq] at hfound
      exact hfound ▸ hheld
    · obtain ⟨_, s₂, hbegin, h⟩ := returns_bind.1 h
      obtain ⟨-, rfl⟩ := returns_pure.1 h
      obtain ⟨hs', htrail', hbegun⟩ := returns_beginInitiation hbegin hs₁
      refine .inr ⟨hs', htrail.trans htrail', ?_⟩
      rw [hbegun, hstarted]
      exact .start hlife hqueued hlock

/-! ## Advancing -/

/-- The step with which an advanced run ends its turn. -/
def LifeEvent.advances (r : Nat) : LifeEvent → Prop
  | .requeue k | .pause k | .deliver k | .succeed k | .fail k => k = r
  | _ => False

theorem takes_finalizeRun {run : Run} (h : Returns (Engine.finalizeRun env r) s u s')
    (hs : Synced Db.life s) (hrun : s.loaded.runs[r]? = some run)
    (hrunning : run.status = .running) : Takes (.deliver r) s s' ∨ Takes (.succeed r) s s' := by
  have hstart := life_run hs hrun
  have hstatus : run.life.status = .running := hrunning
  unfold Engine.finalizeRun at h
  obtain ⟨-, row, hrow, h⟩ := returns_getRow_bind.1 h
  obtain rfl : run = row := Option.some.inj (hrun.symm.trans hrow)
  obtain ⟨found, s₁, hfind, h⟩ := returns_bind.1 h
  obtain ⟨hs₁, hfound⟩ := returns_findCoverage hfind hs
  rw [hs₁] at h
  split at h
  · rename_i covId cov htype hcovId
    obtain ⟨_, s₂, hdeliver, hstop⟩ := returns_bind.1 h
    obtain ⟨hstate, hgate⟩ := lands_transition_deliver hdeliver hs
    obtain ⟨-, hlands⟩ := returns_stopAtGate hstop hgate.synced
    rw [hgate.stored] at hlands
    refine .inl ⟨hlands.synced, (hgate.trail (.of_runs rfl)).trans (hlands.trail ?_), ?_⟩
    · rw [hgate.stored]
      exact .stop hstart hstatus rfl
    · rw [hlands.stored]
      exact .deliver hstart hstatus (Life.initiationOf_eq_some.2 ⟨hcovId, htype, hstate⟩)
  · rename_i hnone
    obtain ⟨-, -, -, -, htrail, hs', hlife⟩ := returns_finishRun h hs
    refine .inr ⟨hs', htrail, ?_⟩
    rw [hlife]
    exact .succeed hstart hstatus (initiationOf_eq_none hs hfound hnone)

theorem takes_failRun {run : Run} {error : String}
    (h : Returns (Engine.failRun env r error) s u s') (hs : Synced Db.life s)
    (hrun : s.loaded.runs[r]? = some run) (hrunning : run.status = .running) :
    Takes (.fail r) s s' := by
  have hstart := life_run hs hrun
  have hstatus : run.life.status = .running := hrunning
  unfold Engine.failRun at h
  obtain ⟨-, row, hrow, h⟩ := returns_getRow_bind.1 h
  obtain rfl : run = row := Option.some.inj (hrun.symm.trans hrow)
  obtain ⟨_, s₁, habort, h⟩ := returns_bind.1 h
  obtain ⟨hs₁, htrail, hlife⟩ := returns_failInitiation habort hs
  obtain ⟨-, -, -, -, htrail', hs', hlife'⟩ := returns_finishRun h hs₁
  refine ⟨hs', htrail.trans htrail', ?_⟩
  rw [hlife', hlife]
  exact .fail hstart hstatus

theorem settleRun_cases {run : Run} (h : Returns (Engine.settleRun env r) s u s')
    (hs : Synced Db.life s) (hrun : s.loaded.runs[r]? = some run)
    (hrunning : run.status = .running) :
    Still s s' ∨ ∃ e, e.advances r ∧ Takes e s s' := by
  unfold Engine.settleRun at h
  rw [returns_select_bind, returns_inspect_bind] at h
  obtain ⟨-, row, -, h⟩ := returns_getRow_bind.1 h
  split_ifs at h
  · exact .inr ⟨.fail r, rfl, takes_failRun h hs hrun hrunning⟩
  · exact .inr ⟨.requeue r, rfl, takes_requeueRun h hs hrun hrunning⟩
  · exact .inr ⟨.pause r, rfl, takes_pauseForBudget h hs⟩
  · obtain ⟨-, rfl⟩ := returns_pure.1 h
    exact .inl ⟨hs, .refl _ _⟩
  · obtain hdeliver | hsucceed := takes_finalizeRun h hs hrun hrunning
    · exact .inr ⟨.deliver r, rfl, hdeliver⟩
    · exact .inr ⟨.succeed r, rfl, hsucceed⟩

theorem advanceRun_cases {runner : Engine.Runner}
    (h : Returns (Engine.advanceRun env fund runner r) s u s') (hs : Synced Db.life s) :
    Still s s' ∨ ∃ e, e.advances r ∧ Takes e s s' := by
  unfold Engine.advanceRun at h
  obtain ⟨-, run, hrun, h⟩ := returns_getRow_bind.1 h
  split_ifs at h with hstatus
  · obtain ⟨-, rfl⟩ := returns_pure.1 h
    exact .inl ⟨hs, .refl _ _⟩
  · rw [not_not] at hstatus
    obtain ⟨_, s₁, hdrain, h⟩ := returns_bind.1 h
    have hdrained := keeps_drain runner r hdrain hs
    rw [returns_select_bind] at h
    obtain ⟨_, s₂, hdigest, hsettle⟩ := returns_bind.1 h
    have hdigested := Keeps.forM (fun _ => keeps_digestStage) hdigest hdrained.synced
    have hstill := hdrained.trans hdigested
    obtain ⟨run', hrun', hrunning⟩ := Still.running hstill hs hrun hstatus
    obtain hsettled | ⟨e, hadvances, htakes⟩ := settleRun_cases hsettle hstill.synced hrun' hrunning
    · exact .inl (hstill.trans hsettled)
    · exact .inr ⟨e, hadvances, htakes.after hstill⟩

theorem refines_advances {runner : Engine.Runner} {runIds : List Nat}
    (h : Returns (runIds.forM (Engine.advanceRun env fund runner)) s u s')
    (hs : Synced Db.life s) : Refines (fun _ e => ∃ r, e.advances r) s s' := by
  refine refines_forM (fun runId s u s' h hs => ?_) h hs
  obtain hstill | ⟨e, hadvances, htakes⟩ := advanceRun_cases h hs
  · exact hstill.refines
  · exact htakes.refines ⟨runId, hadvances⟩

/-- A tick starts and advances runs, one step at a time. -/
def LifeEvent.ofTick : LifeEvent → Prop
  | .start _ | .requeue _ | .pause _ | .deliver _ | .succeed _ | .fail _ => True
  | _ => False

theorem LifeEvent.ofTick_of_advances {e : LifeEvent} (h : e.advances r) : e.ofTick := by
  cases e <;> trivial

theorem refines_tick {runner : Engine.Runner} (h : Returns (Engine.tick env fund runner) s u s')
    (hs : Synced Db.life s) : Refines (fun _ e => e.ofTick) s s' := by
  unfold Engine.tick at h
  rw [returns_select_bind] at h
  obtain ⟨_, s₁, hpromote, h⟩ := returns_bind.1 h
  rw [returns_select_bind] at h
  have hfirst : Refines (fun _ e => e.ofTick) s s₁ := by
    refine refines_forM (fun runId s u s' h hs => ?_) hpromote hs
    obtain ⟨started, s₂, hstart, hpure⟩ := returns_bind.1 h
    obtain ⟨-, rfl⟩ := returns_pure.1 hpure
    obtain ⟨hstill, -⟩ | htakes := promoteRun_cases hstart hs
    · exact hstill.refines
    · exact htakes.refines trivial
  exact hfirst.trans ((refines_advances h hfirst.synced).mono
    fun _ _ ⟨_, hadvances⟩ => LifeEvent.ofTick_of_advances hadvances)

end AiFund
