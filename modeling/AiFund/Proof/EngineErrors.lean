import AiFund.Library.Errors
import AiFund.Orchestrator.Engine

/-!
# Errors of the engine

An illegal coverage transition is the only error here that says something about the coverage: what
the queue calls and the stage results raise is never one.
-/

namespace AiFund

open UnitOfWork Rows

variable {α ε : Type} {env : Env} {fund : FundConfig} {s s' : Session Db} {r : Nat}

def PyError.isTransition : PyError → Bool
  | .illegalTransition _ => true
  | _ => false

/-- Not an illegal coverage transition. -/
def PyError.Legal (error : PyError) : Prop := error.isTransition = false

/-- Every error of the transaction is about something else than a coverage transition. -/
abbrev Legal (m : DbTxn α) : Prop := RaisesOnly PyError.Legal m

abbrev LegalValue (x : Except PyError α) : Prop := FailsOnly PyError.Legal x

theorem legal_violation (db : Db) (error : PyError) (h : Schema.violation db = some error) :
    error.Legal := by
  obtain ⟨rule, -, rfl⟩ := Option.map_eq_some_iff.1 (show db.violation = some error from h)
  rfl

theorem legal_flush : Legal flush := .flush legal_violation

theorem legal_execute {g : Db → Db} : Legal (execute g) := .execute legal_violation

theorem raisesOnly_getRow {P : PyError → Prop} {ρ : Type} {table : Db → List ρ} {id : Nat}
    (h : P .attributeError) : RaisesOnly P (getRow table id) := by
  refine .bind (.lookup _ _) fun row => ?_
  cases row with
  | none => exact .throw h
  | some row => exact .pure _

theorem legal_getRow {ρ : Type} {table : Db → List ρ} {id : Nat} : Legal (getRow table id) :=
  raisesOnly_getRow rfl

theorem raisesOnly_ofExcept {P : PyError → Prop} {wrap : ε → PyError} {x : Except ε α}
    (h : FailsOnly (fun error => P (wrap error)) x) : RaisesOnly P (ofExcept wrap x) := by
  cases x with
  | ok a => exact .pure _
  | error error => exact .throw (h error rfl)

theorem legal_ofExcept {wrap : ε → PyError} {x : Except ε α}
    (h : FailsOnly (fun error => (wrap error).Legal) x) : Legal (ofExcept wrap x) :=
  raisesOnly_ofExcept h

theorem legal_stateChange {x : Except IllegalStateChange α} :
    Legal (ofExcept .illegalStateChange x) := legal_ofExcept fun _ _ => rfl

/-! ## Queue calls -/

theorem legal_closeAttempt {stageId : Nat} {attempt : AttemptIn} {status : AttemptStatus}
    {result : Option JsonObject} {errors : Option Json} {killReason : Option String} :
    Legal (closeAttempt env stageId attempt status result errors killReason) :=
  .bind (.select _) fun _ => .bind (.assign _) fun _ => .assign _

theorem legal_rollupRun {runId : Nat} : Legal (rollupRun runId) :=
  .bind (.select _) fun _ => .bind legal_getRow fun _ => .assign _

theorem legal_queueCall (call : QueueCall) : Legal (call.perform env) := by
  cases call with
  | claim =>
      refine .bind (.bind (.select _) fun candidate => ?_) fun _ => .pure _
      cases candidate with
      | none => exact .pure _
      | some stageId =>
          exact .bind legal_getRow fun _ => .bind (.assign _) fun _ => .bind (.assign _) fun _ =>
            .bind legal_flush fun _ => .pure _
  | heartbeat =>
      refine .bind (.bind (.lookup _ _) fun found => ?_) fun _ => .pure _
      cases found with
      | none => exact .pure _
      | some stage =>
          exact .ite (.pure _) (.bind (.assign _) fun _ => .bind legal_flush fun _ => .pure _)
  | complete =>
      exact .bind legal_getRow fun _ => .bind legal_closeAttempt fun _ =>
        .bind legal_stateChange fun _ => .bind (.assign _) fun _ =>
          .bind legal_rollupRun fun _ => legal_flush
  | fail =>
      exact .bind legal_getRow fun _ => .bind legal_closeAttempt fun _ =>
        .bind (.ite (.bind legal_stateChange fun _ => .assign _) (.assign _)) fun _ =>
          .bind legal_rollupRun fun _ => legal_flush
  | reap =>
      refine .bind (.bind (.select _) fun _ => .bind (.forM fun _ => ?_) fun _ =>
        .bind legal_flush fun _ => .pure _) fun _ => .pure _
      exact .bind (.select _) fun _ => .bind (.assign _) fun _ => .assign _

theorem legal_drain (runner : Engine.Runner) (runId : Nat) : Legal (runner.drain runId) :=
  .forM fun _ => legal_queueCall _

/-! ## Stage results -/

theorem legal_iter (value : Json) : LegalValue value.iter := by
  cases value <;> first | exact .ok _ | exact .failed rfl

theorem legal_asDict (value : Json) : LegalValue value.asDict := by
  cases value <;> first | exact .ok _ | exact .failed rfl

theorem legal_toDecimal (value : Json) : LegalValue (toDecimal value) := by
  unfold toDecimal
  split
  · exact .ok _
  · exact .failed rfl

theorem legal_optDecimal (p : JsonObject) (key : String) : LegalValue (optDecimal p key) := by
  unfold optDecimal
  split
  · exact .ok _
  · exact (legal_toDecimal _).map

theorem legal_item (p : JsonObject) (key : String) : LegalValue (p.item key) := by
  unfold JsonObject.item
  split
  · exact .ok _
  · exact .failed rfl

theorem legal_toDate (value : Json) : LegalValue (toDate value) := by
  unfold toDate
  split
  · exact .ok _
  · exact .failed rfl

theorem legal_parseEntry (entry : Json) : LegalValue (parseEntry entry) := by
  refine (legal_asDict entry).bind fun p => .ite (.ok _) ?_
  exact (legal_item _ _).bind fun _ => (legal_toDate _).bind fun _ =>
    (legal_optDecimal _ _).bind fun _ => (legal_optDecimal _ _).bind fun _ =>
      (legal_optDecimal _ _).bind fun _ => (legal_optDecimal _ _).bind fun _ => .ok _

theorem legal_parsePredictions (result : JsonObject) : LegalValue (parsePredictions result) :=
  (legal_iter _).bind fun entries => (FailsOnly.mapM legal_parseEntry entries).bind fun _ => .ok _

theorem legal_firstTargetPrice (entries : List Json) : LegalValue (firstTargetPrice entries) := by
  induction entries with
  | nil => exact .ok _
  | cons entry entries ih =>
      refine (legal_asDict entry).bind fun p => ?_
      split
      · exact ih
      · exact (legal_toDecimal _).map
      · exact ih

theorem legal_firstStance (entries : List Json) : LegalValue (firstStance entries) := by
  induction entries with
  | nil => exact .ok _
  | cons entry entries ih =>
      refine (legal_asDict entry).bind fun p => ?_
      split
      · exact .ite (.ok _) ih
      · exact ih

theorem legal_targetPriceMoved (new last : Option Decimal) (pct : ℚ) :
    LegalValue (targetPriceMoved new last pct) := by
  unfold targetPriceMoved
  split
  · split
    · exact .ok _
    · split
      · exact .ok _
      · exact .ok _
      · exact .failed rfl
  · exact .ok _

theorem legal_autoCrossCheck (result : JsonObject) (lastTp : Option Decimal)
    (lastStance eventSeverity : Option String) (rule : AutoCrossCheck) :
    LegalValue (autoCrossCheck result lastTp lastStance eventSeverity rule) := by
  refine .ite (.ok _) (.bind ?_ fun _ => (legal_targetPriceMoved _ _ _).bind fun _ =>
    .ite (.ok _) (.ite (.ok _) (.bind ?_ fun _ => .ok _)))
  · exact (legal_iter _).bind fun _ => legal_firstTargetPrice _
  · exact (legal_iter _).bind fun _ => (legal_firstStance _).bind fun _ => .ok _

theorem legal_bindText (value : Json) : LegalValue (env.runtime.bindText value) := by
  unfold Runtime.bindText bound
  split
  · exact .ok _
  · exact .failed rfl

theorem legal_required {column : String} {x : Except PyError (Option α)} (h : LegalValue x) :
    LegalValue (required column x) := by
  cases x with
  | ok found =>
      cases found with
      | none => exact .failed rfl
      | some a => exact .ok _
  | error error => exact .failed (h error rfl)

theorem legal_policy (runType : String) : LegalValue (fund.policy runType) := by
  unfold FundConfig.policy
  split
  · exact .ok _
  · exact .failed rfl

theorem legal_predictionRow (entry : PredictionIn) {stageId : Nat} {stage : RunStage} {run : Run} :
    LegalValue (entry.toRow env stageId stage run) :=
  (legal_required (.ok _)).bind fun _ => (legal_required (legal_bindText _)).bind fun _ =>
    (legal_bindText _).bind fun _ => (legal_bindText _).bind fun _ =>
      (legal_bindText _).bind fun _ => (legal_bindText _).bind fun _ => .ok _

theorem legal_registerFromStage {stageId : Nat} {entries : List PredictionIn} :
    Legal (registerFromStage env stageId entries) := by
  refine .bind legal_getRow fun _ => .bind legal_getRow fun _ => .bind (.mapM fun entry => ?_)
    fun _ => .bind legal_flush fun _ => .pure _
  exact .bind (legal_ofExcept (legal_predictionRow entry)) fun _ => .bind legal_execute fun _ =>
    .select _

theorem legal_resolveContributors {covId : Nat} : Legal (resolveContributors covId) := by
  refine .bind (.lookup _ _) fun cov => .bind (.select _) fun _ => .ite (.pure _)
    (.bind (.select _) fun _ => ?_)
  cases cov with
  | none => exact .throw rfl
  | some cov => exact .pure _

theorem legal_digestStage {run : Run} {stageId : Nat} :
    Legal (Engine.digestStage env fund r run stageId) := by
  refine .bind legal_getRow fun stage => ?_
  split
  · refine .bind (.select _) fun lastTp => .bind ?_ fun _ => .ite ?_ (.pure _)
    · exact .bind (legal_ofExcept (legal_parsePredictions _)) fun _ => .ite (.pure _)
        (.bind legal_registerFromStage fun _ => .pure _)
    · refine .bind (legal_ofExcept (legal_autoCrossCheck _ _ _ _ _)) fun _ => .ite (.pure _)
        (.bind (.select _) fun _ => .ite (.pure _) ?_)
      split
      · exact .throw rfl
      · exact .bind legal_resolveContributors fun _ => .bind (.select _) fun _ =>
          .bind (legal_ofExcept (legal_policy _)) fun _ => .assign _
  · exact .pure _

/-! ## Runs -/

theorem legal_addOutbox {kind : String} {coverageId runId : Option Nat} {subject : Nat}
    {payload : JsonObject} : Legal (addOutbox env kind coverageId runId subject payload) :=
  .assign _

theorem legal_finishRun {status : RunStatus} {summary error : Option String} :
    Legal (finishRun env r status summary error) := by
  refine .bind legal_getRow fun _ => .bind (legal_ofExcept ?_) fun _ =>
    .bind legal_stateChange fun _ => .bind (.assign _) fun _ => .bind (.forM fun effect => ?_)
      fun _ => legal_flush
  · cases status <;> first | exact .ok _ | exact .failed rfl
  · unfold applyFinishEffect
    cases effect with
    | releaseLock => exact legal_execute
    | outboxRunFinished => exact legal_addOutbox
    | _ => exact .pure _

theorem legal_requeueRun {reason : String} : Legal (requeueRun r reason) :=
  .bind legal_getRow fun _ => .bind legal_stateChange fun _ => .bind (.assign _) fun _ =>
    legal_flush

theorem legal_pauseForBudget : Legal (Engine.pauseForBudget r) := by
  refine .bind legal_getRow fun _ => .bind ?_ fun _ => .bind legal_stateChange fun _ =>
    .bind (.assign _) fun _ => legal_flush
  exact .bind legal_getRow fun _ => .bind (.assign _) fun _ => legal_flush

theorem legal_startRun : Legal (startRun env r) := by
  have hmark : Legal (markRunning env r) :=
    .bind (.assign _) fun _ => .bind legal_flush fun _ => .pure _
  refine .bind legal_getRow fun run => ?_
  split
  · exact hmark
  · refine .bind legal_execute fun _ => .bind (.select _) fun _ => .ite ?_ hmark
    exact .bind legal_flush fun _ => .pure _

/-! ## Coverages -/

theorem legal_applySideEffect {covId : Nat} {action : Action} {actorId requestId : String}
    {runId : Option Nat} (effect : SideEffect) :
    Legal (applySideEffect env covId action actorId runId requestId effect) := by
  unfold applySideEffect
  cases effect with
  | outbox kind => exact .ite (.pure _) legal_addOutbox
  | cancelOpenGate => exact legal_execute
  | openGateInitiationDecision =>
      exact .bind (legal_ofExcept (legal_required (.ok _))) fun _ => .assign _
  | answerGate =>
      refine .bind (.select _) fun gate => ?_
      cases gate with
      | none => exact .pure _
      | some gateId => exact .bind (legal_ofExcept (legal_required (.ok _))) fun _ => .assign _
  | setLeadHouse =>
      refine .bind (.inspect _) fun run => ?_
      cases run with
      | none => exact .pure _
      | some run => exact .bind (legal_ofExcept (legal_bindText _)) fun _ => .assign _
  | _ => exact .pure _

theorem legal_record {covId : Nat} {fromState : Option CoverageState} {sm : Transition}
    {action : Action} {actorType : ActorType} {actorId : String} {runId : Option Nat}
    {notes requestId : Option String} :
    Legal (record env covId fromState sm action actorType actorId runId notes requestId) :=
  .bind (.inspect _) fun _ => .bind (.assign _) fun _ => .bind (.assign _) fun _ =>
    .bind legal_addOutbox fun _ => .bind (.forM legal_applySideEffect) fun _ => legal_flush

/-- A transition that the table has for the state of the coverage, and that has no guard, is not
refused. -/
theorem legal_runTransitionOf {covId : Nat} {cov : Coverage} {action : Action} {sm : Transition}
    {error : PyError} (hid : covId < s.stored.coverages.length)
    (hcov : s.loaded.coverages[covId]? = some cov)
    (hentry : entries (some cov.state) action = some sm)
    (hguards : ∀ ctx, checkGuards action ctx = none)
    (h : Raises (Engine.runTransitionOf env covId r action) s error) : error.Legal := by
  unfold Engine.runTransitionOf transitionCoverage getCoverage at h
  simp only [bind_assoc] at h
  rw [raises_lookup_bind, if_pos hid, hcov, pure_bind] at h
  unfold buildCtx at h
  simp only [bind_assoc, pure_bind] at h
  rw [raises_select_bind, raises_select_bind, transition_eq_ok.2 ⟨hentry, hguards _⟩] at h
  have hrest : Legal (do
      assign fun db => db.updateCoverage covId fun cov => { cov with state := sm.toState }
      record env covId (some cov.state) sm action .run (toString r) (some r) none none) :=
    .bind (.assign _) fun _ => legal_record
  exact hrest h

/-- The coverage of a run, when the session has it. -/
theorem legal_findCoverage_bind {coverageId : Option Nat} {f : Option Coverage → DbTxn α}
    {error : PyError} (hnone : Legal (f none))
    (hsome : ∀ covId cov, coverageId = some covId → covId < s.stored.coverages.length →
      s.loaded.coverages[covId]? = some cov → Raises (f (some cov)) s error → error.Legal)
    (h : Raises (Engine.findCoverage coverageId >>= f) s error) : error.Legal := by
  cases coverageId with
  | none =>
      unfold Engine.findCoverage at h
      rw [pure_bind] at h
      exact hnone h
  | some covId =>
      unfold Engine.findCoverage at h
      rw [raises_lookup_bind] at h
      split_ifs at h with hid
      · cases hcov : s.loaded.coverages[covId]? with
        | none =>
            rw [hcov] at h
            exact hnone h
        | some cov =>
            rw [hcov] at h
            exact hsome covId cov rfl hid hcov h
      · exact hnone h

theorem legal_beginInitiation {run : Run} : Legal (Engine.beginInitiation env r run) := by
  intro s error h
  unfold Engine.beginInitiation at h
  refine legal_findCoverage_bind ?_ (fun covId cov hcovId hid hcov h => ?_) h
  · split <;> first | exact .pure _ | contradiction
  · rw [hcovId] at h
    split at h
    · rename_i heq hcovs
      cases heq
      cases hcovs
      split_ifs at h with hproposed
      · exact legal_runTransitionOf hid hcov (by rw [hproposed]; rfl) (fun _ => rfl) h
      · exact absurd h not_raises_pure
    · exact absurd h not_raises_pure

theorem legal_failInitiation {run : Run} : Legal (Engine.failInitiation env r run) := by
  intro s error h
  unfold Engine.failInitiation at h
  refine legal_findCoverage_bind ?_ (fun covId cov hcovId hid hcov h => ?_) h
  · split <;> first | exact .pure _ | contradiction
  · rw [hcovId] at h
    split at h
    · rename_i heq hcovs
      cases heq
      cases hcovs
      split_ifs at h with hinitiating
      · exact legal_runTransitionOf hid hcov (by rw [hinitiating]; rfl) (fun _ => rfl) h
      · exact absurd h not_raises_pure
    · exact absurd h not_raises_pure

theorem legal_promoteRun : Legal (Engine.promoteRun env r) := by
  refine .bind legal_getRow fun _ => .ite (.pure _) (.bind legal_startRun fun _ => .ite (.pure _) ?_)
  exact .bind legal_beginInitiation fun _ => .pure _

theorem legal_failRun {error : String} : Legal (Engine.failRun env r error) :=
  .bind legal_getRow fun _ => .bind legal_failInitiation fun _ => legal_finishRun

/-- A run is finalized if an initiation finds its coverage initiating. -/
theorem legal_finalizeRun {error : PyError}
    (hcoupled : ∀ run covId cov, s.loaded.runs[r]? = some run → run.type = .initiation →
      run.coverageId = some covId → s.loaded.coverages[covId]? = some cov →
      cov.state = .initiating)
    (h : Raises (Engine.finalizeRun env r) s error) : error.Legal := by
  unfold Engine.finalizeRun at h
  rcases raises_bind.1 h with h | ⟨run, s₁, hget, hrest⟩
  · exact legal_getRow h
  · obtain ⟨-, hrun, hs₁⟩ := returns_getRow.1 hget
    rw [hs₁] at hrest
    refine legal_findCoverage_bind ?_ (fun covId cov hcovId hid hcov h => ?_) hrest
    · split
      · contradiction
      · exact legal_finishRun
    · rw [hcovId] at h
      split at h
      · rename_i htype heq hcovs
        cases heq
        cases hcovs
        rcases raises_bind.1 h with h | ⟨_, s₂, -, h⟩
        · have hstate := hcoupled run covId cov hrun htype hcovId hcov
          exact legal_runTransitionOf hid hcov (by rw [hstate]; rfl) (fun _ => rfl) h
        · have hrest : Legal (do
              let sm ← ofExcept .illegalStateChange (runTransition run.status .openGate {})
              assign fun db => db.updateRun r fun run => { run with status := sm.toState }
              flush) :=
            .bind legal_stateChange fun _ => .bind (.assign _) fun _ => legal_flush
          exact hrest h
      · exact legal_finishRun h

end AiFund
