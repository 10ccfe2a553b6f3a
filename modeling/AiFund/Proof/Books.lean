import AiFund.DeskSystem
import AiFund.Proof.Adoption
import AiFund.Proof.Gates
import AiFund.Proof.OpSteps
import AiFund.Proof.Predictions
import AiFund.Proof.Serialization
import AiFund.Proof.Program
import AiFund.Proof.StageTables
import Mathlib.Data.List.Infix

/-!
# Bookkeeping

The table declares dates and closed predictions for decisions and exits, and no code writes them.
The books are kept as long as no coverage is adopted and no rejected run has an open prediction.
-/

namespace AiFund

open UnitOfWork Rows History

variable {app : App} {env : Env} {fund : FundConfig} {request : Request} {db : Db} {covId r : Nat}
  {action : Action} {actorType : ActorType} {pm key actorId : String} {runId : Option Nat}
  {notes requestId : Option String} {s s' : Session Db} {X : Option Nat → Prop}

/-! ## Coverages and rejections -/

/-- A state that no decision to adopt comes before. -/
def CoverageState.idle (state : CoverageState) : Bool := !state.adopted && state ≠ .exited

/-- No coverage is adopted or exited, and the runs of all rejections are among `X`. -/
structure Db.Undecided (X : Option Nat → Prop) (db : Db) : Prop where
  idle : ∀ cov ∈ db.coverages, cov.state.idle = true
  rejected : ∀ row ∈ db.transitions, row.decides = true → row.toState = .rejected → X row.runId

/-- What the rows of the table that the action may use lead to from an idle state. -/
def Action.Idles (action : Action) (X : Option Nat → Prop) (runId : Option Nat) : Prop :=
  ∀ state sm, state.idle = true → entries (some state) action = some sm →
    sm.toState.idle = true ∧ (sm.cause = "pm_decision" → sm.toState = .rejected → X runId)

theorem Action.idles_of_not_decide (h : action ∉ decideActions) : action.Idles X runId := by
  intro state sm hidle hentry
  cases state <;> cases action <;> cases hentry <;> first
    | exact absurd hidle (by decide)
    | exact (h (by decide)).elim
    | exact ⟨rfl, fun hcause => absurd hcause (by decide)⟩

theorem Action.idles_reject (hX : X runId) : Action.decideReject.Idles X runId := by
  intro state sm hidle hentry
  cases state <;> cases hentry
  exact ⟨rfl, fun _ _ => hX⟩

namespace Db.Undecided

theorem mapCoverage {f : Coverage → Coverage} (h : db.Undecided X)
    (hf : ∀ cov, cov.state.idle = true → (f cov).state.idle = true) :
    (db.updateCoverage covId f).Undecided X := by
  refine ⟨fun cov hcov => ?_, h.rejected⟩
  obtain ⟨i, hi⟩ := List.getElem?_of_mem hcov
  obtain ⟨-, old, hold, rfl⟩ | ⟨-, hold⟩ := getElem?_modify_cases hi
  · exact hf old (h.idle old (List.mem_of_getElem? hold))
  · exact h.idle cov (List.mem_of_getElem? hold)

theorem addCoverage {cov : Coverage} (h : db.Undecided X) (hcov : cov.state.idle = true) :
    Db.Undecided X { db with coverages := db.coverages ++ [cov] } := by
  refine ⟨fun row hrow => ?_, h.rejected⟩
  rcases List.mem_append.1 hrow with hold | hnew
  · exact h.idle row hold
  · rw [List.mem_singleton.1 hnew]
    exact hcov

theorem addTransition {row : CoverageTransition} (h : db.Undecided X)
    (hrow : row.decides = true → row.toState = .rejected → X row.runId) :
    Db.Undecided X { db with transitions := db.transitions ++ [row] } := by
  refine ⟨h.idle, fun found hfound => ?_⟩
  rcases List.mem_append.1 hfound with hold | hnew
  · exact h.rejected found hold
  · rw [List.mem_singleton.1 hnew]
    exact hrow

end Db.Undecided

theorem upholds_record_undecided {fromState : Option CoverageState} {sm : Transition}
    (hrow : sm.cause = "pm_decision" → sm.toState = .rejected → X runId) :
    Upholds (Db.Undecided X)
      (record env covId fromState sm action actorType actorId runId notes requestId) := by
  have heffect (effect : SideEffect) (requestId : String) : Upholds (Db.Undecided X)
      (applySideEffect env covId action actorId runId requestId effect) :=
    upholds_sideEffect (fun _ _ h => h.mapCoverage fun _ h => h) (fun _ _ h => ⟨h.idle, h.rejected⟩)
      (fun _ _ _ h => ⟨h.idle, h.rejected⟩) effect
  refine .bind (.inspect _) fun _ => .bind (.assign fun db h => h.addTransition ?_) fun _ =>
    .bind (.assign fun _ h => ⟨h.idle, h.rejected⟩) fun _ =>
      .bind (.assign fun _ h => ⟨h.idle, h.rejected⟩) fun _ =>
        .bind (.forM fun effect => heffect effect _) fun _ => .flush
  simpa [CoverageTransition.decides] using hrow

/-- What follows a look at a coverage may rely on what the invariant says of it. -/
theorem upholds_getCoverage_bind {α : Type} {J : Db → Prop} {f : Coverage → DbTxn α}
    (hf : ∀ (db : Db) (cov : Coverage), J db → db.coverages[covId]? = some cov →
      Upholds J (f cov)) :
    Upholds J (getCoverage action covId >>= f) := by
  intro s b s' h hs
  obtain ⟨cov, hcov, h⟩ := of_returns_getCoverage_bind h
  exact hf s.loaded cov hs.2 hcov h hs

theorem upholds_transition_undecided {force : Bool} (haction : action.Idles X runId) :
    Upholds (Db.Undecided X)
      (transitionCoverage env covId action actorType actorId runId force notes requestId) := by
  refine upholds_getCoverage_bind fun db cov hdb hcov => .bind (.of_reads reads_buildCtx) fun ctx =>
    upholds_ofExcept_bind fun sm hsm => ?_
  obtain ⟨hto, hrow⟩ := haction cov.state sm (hdb.idle cov (List.mem_of_getElem? hcov))
    (transition_eq_ok.1 hsm).1
  exact .bind (.assign fun _ h => h.mapCoverage fun _ _ => hto) fun _ =>
    upholds_record_undecided hrow

theorem overlooks_undecided : OverlooksCourse (Db.Undecided X) where
  stage _ _ _ _ h := ⟨h.idle, h.rejected⟩
  cost _ _ _ h := ⟨h.idle, h.rejected⟩
  attempts _ _ h := ⟨h.idle, h.rejected⟩
  locks _ _ h := ⟨h.idle, h.rejected⟩
  levels _ _ h := ⟨h.idle, h.rejected⟩
  events _ _ h := ⟨h.idle, h.rejected⟩
  newsArticles _ _ h := ⟨h.idle, h.rejected⟩
  auditLog _ _ h := ⟨h.idle, h.rejected⟩
  idempotencyKeys _ _ h := ⟨h.idle, h.rejected⟩
  schedulerJobLogs _ _ h := ⟨h.idle, h.rejected⟩
  run _ _ _ _ h := ⟨h.idle, h.rejected⟩
  gate _ _ _ h := ⟨h.idle, h.rejected⟩
  outbox _ _ _ h := ⟨h.idle, h.rejected⟩
  transition _ _ _ _ _ _ _ _ _ haction :=
    upholds_transition_undecided (Action.idles_of_not_decide haction)

theorem upholds_propose_undecided {ticker exchange name currency : String} {isin : Option String} :
    Upholds (Db.Undecided X)
      (propose env ticker exchange name currency actorId notes isin requestId) := by
  refine .bind (.inspect _) fun _ => .bind (.assign fun _ h => h.addCoverage rfl) fun _ =>
    .bind .flush fun _ => upholds_ofExcept_bind fun sm hsm => ?_
  have hentry := (transition_eq_ok.1 hsm).1
  cases hentry
  exact .bind (upholds_record_undecided fun hcause => absurd hcause (by decide)) fun _ => .pure _

/-- An idle coverage has no lead to change. -/
theorem upholds_setLead_undecided {house : String} {rationale : Option String} :
    Upholds (Db.Undecided X) (setLead env covId house actorId runId rationale) := by
  refine upholds_getCoverage_bind fun db cov hdb hcov => .bind (.select _) fun _ =>
    upholds_ofExcept_bind fun sm hsm => ?_
  have hidle := hdb.idle cov (List.mem_of_getElem? hcov)
  have hentry := (transition_eq_ok.1 hsm).1
  cases hstate : cov.state <;> rw [hstate] at hentry hidle <;> cases hentry <;>
    exact absurd hidle (by decide)

theorem origins_undecided : Origins (Db.Undecided X) fund where
  createRun _ _ _ _ _ _ _ _ :=
    upholds_createRun (fun _ _ h => ⟨h.idle, h.rejected⟩) fun _ _ h => ⟨h.idle, h.rejected⟩
  propose _ _ _ _ _ _ _ _ _ := upholds_propose_undecided
  setLead _ _ _ _ _ _ := upholds_setLead_undecided

theorem upholds_digestStage_undecided {run : Run} {stageId : Nat} :
    Upholds (Db.Undecided X) (Engine.digestStage env fund r run stageId) :=
  upholds_digestStage (fun _ _ _ => upholds_registerFromStage fun _ _ h => ⟨h.idle, h.rejected⟩)
    fun _ _ _ h => ⟨h.idle, h.rejected⟩

/-! ## Predictions of a run at rest -/

def Db.predictionsOf (r : Nat) (db : Db) : List Prediction :=
  db.predictions.filter fun row => row.runId = r

theorem Db.hasOpen_iff : db.HasOpen (·.runId = r) ↔
    ∃ row ∈ db.predictionsOf r, row.status = .opened := by
  simp [HasOpen, predictionsOf, and_assoc]

section Predictions

variable {rows : List Prediction}

theorem overlooksCoverages_predictionsOf :
    OverlooksCoverages fun db => db.predictionsOf r = rows :=
  overlooksCoverages_figures fun figures => figures.1.filter (fun row => row.runId = r) = rows

theorem overlooks_predictionsOf : OverlooksCourse fun db => db.predictionsOf r = rows :=
  overlooks_figures fun figures => figures.1.filter (fun row => row.runId = r) = rows

/-- A stage registers predictions of its own run. -/
theorem registerFromStage_predictionsOf {stageId : Nat} {entries : List PredictionIn}
    {found : List (Option Prediction)}
    (h : Returns (registerFromStage env stageId entries) s found s')
    (hne : ∀ stage, s.loaded.stages[stageId]? = some stage → stage.runId ≠ r)
    (hs : s.stored.predictionsOf r = rows ∧ s.loaded.predictionsOf r = rows) :
    s'.stored.predictionsOf r = rows ∧ s'.loaded.predictionsOf r = rows := by
  obtain ⟨-, stage, hstage, h⟩ := returns_getRow_bind.1 h
  refine Upholds.bind (J := fun db => db.predictionsOf r = rows) (upholds_getRow _ _)
    (fun run => .bind (.mapM fun entry => ?_) fun _ => .bind .flush fun _ => .pure _) h hs
  refine upholds_ofExcept_bind fun row hrow => .bind (.execute fun db hdb => ?_) fun _ => .select _
  have hrun : row.runId ≠ r := by
    rw [(entry.registeredBy_toRow hrow).runId]
    exact hne stage hstage
  unfold Db.insertPrediction
  split
  · exact hdb
  · simpa [Db.predictionsOf, hrun] using hdb

end Predictions

/-! ## Runs at rest -/

/-- The run will do no more work: it waits, or it has ended. -/
def Life.Rests (r : Nat) (c : Life) : Prop :=
  ∃ run, c.runs[r]? = some run ∧ run.status ≠ .queued ∧ run.status ≠ .running

theorem Life.Follows.rests {a b : Life} (h : a.Follows b) (ha : a.Rests r) : b.Rests r := by
  obtain ⟨run, hrun, hqueued, hrunning⟩ := ha
  obtain ⟨run', hrun', hbecomes⟩ := h.becomes r run hrun
  refine ⟨run', hrun', ?_⟩
  rcases hbecomes.status with hsame | ⟨-, hedge⟩
  · rw [hsame]
    exact ⟨hqueued, hrunning⟩
  · obtain ⟨act, cause, hentry⟩ := RunEdge.entry hedge
    cases hstatus : run.status with
    | queued => exact absurd hstatus hqueued
    | running => exact absurd hstatus hrunning
    | waitingPm =>
        rw [hstatus] at hentry
        cases hto : run'.status <;> rw [hto] at hentry <;> cases act <;> cases hentry <;> decide
    | _ =>
        rw [hstatus] at hentry
        cases act <;> cases hentry

theorem step_rests (h : db.life.Rests r) (op : Op) : (step app db op).life.Rests r := by
  have hcommits : Commits (fun _ e => op.allows app db e) db (op.exec app db) := op.commits db
  obtain ⟨-, hchain, hlast⟩ := hcommits
  exact of_chain (P := fun db => db.life.Rests r) (fun _ _ hfollows ha => hfollows.rests ha) hchain
    hlast h

/-! ## Advancing other runs -/

/-- A session in which the run rests and its predictions are the ones given; the stages that the
session has loaded are the stored ones and what is added to them. -/
structure Resting (r : Nat) (rows : List Prediction) (s : Session Db) : Prop where
  synced : Synced Db.life s
  rests : s.stored.life.Rests r
  plans : s.stored.plans <+: s.loaded.plans
  predictions : s.stored.predictionsOf r = rows ∧ s.loaded.predictionsOf r = rows

theorem grows_digestStage {r' stageId : Nat} {run : Run} :
    Grows (· <+: ·) Db.plans (Engine.digestStage env fund r' run stageId) := by
  have hfixes {α : Type} {m : DbTxn α} (h : Fixes Db.plans m) : Grows (· <+: ·) Db.plans m :=
    .of_fixes h
  refine .bind (hfixes (fixes_getRow _ _)) fun stage => ?_
  split
  · refine .bind (hfixes (.select _)) fun _ =>
      .bind (hfixes (Fixes.plans fixes_registerPredictions)) fun _ => .ite ?_ (hfixes (.pure _))
    refine .bind (hfixes (fixes_ofExcept _ _)) fun _ => .ite (hfixes (.pure _))
      (.bind (hfixes (.select _)) fun _ => .ite (hfixes (.pure _)) ?_)
    split
    · exact hfixes (.throw _)
    · refine .bind (hfixes reads_resolveContributors.fixes) fun _ =>
        .bind (hfixes (.select _)) fun _ => .bind (hfixes (fixes_ofExcept _ _)) fun _ =>
          .assign fun db => ?_
      simp [Db.plans]
  · exact hfixes (.pure _)

theorem digestStage_predictionsOf {r' stageId : Nat} {run : Run} {u : Unit}
    {rows : List Prediction}
    (h : Returns (Engine.digestStage env fund r' run stageId) s u s')
    (hne : ∀ stage, s.loaded.stages[stageId]? = some stage → stage.runId ≠ r)
    (hs : s.stored.predictionsOf r = rows ∧ s.loaded.predictionsOf r = rows) :
    s'.stored.predictionsOf r = rows ∧ s'.loaded.predictionsOf r = rows := by
  have hcheck (stage : RunStage) (result : JsonObject) (lastTp : Option Decimal) :
      Upholds (fun db => db.predictionsOf r = rows)
        (Engine.maybeAppendCrossCheck env fund r' run stage result lastTp) :=
    upholds_maybeAppendCrossCheck fun _ _ _ h => h
  unfold Engine.digestStage at h
  obtain ⟨-, stage, hstage, h⟩ := returns_getRow_bind.1 h
  split at h
  · rw [returns_select_bind] at h
    obtain ⟨_, s₁, hregister, h⟩ := returns_bind.1 h
    have hs₁ : s₁.stored.predictionsOf r = rows ∧ s₁.loaded.predictionsOf r = rows := by
      obtain ⟨entries, -, hregister⟩ := returns_ofExcept_bind.1 hregister
      split_ifs at hregister
      · obtain ⟨-, rfl⟩ := returns_pure.1 hregister
        exact hs
      · obtain ⟨found, s₂, hfound, hpure⟩ := returns_bind.1 hregister
        obtain ⟨-, rfl⟩ := returns_pure.1 hpure
        exact registerFromStage_predictionsOf hfound hne hs
    split_ifs at h
    · exact hcheck _ _ _ h hs₁
    · obtain ⟨-, rfl⟩ := returns_pure.1 h
      exact hs₁
  · obtain ⟨-, rfl⟩ := returns_pure.1 h
    exact hs

namespace Resting

variable {rows : List Prediction}

/-- What moves the lifecycle along its edges lets the run rest. -/
theorem of_trail (h : Resting r rows s) (hs' : Synced Db.life s') (htrail : LifeTrail s s')
    (hplans : s'.stored.plans <+: s'.loaded.plans)
    (hrows : s'.stored.predictionsOf r = rows ∧ s'.loaded.predictionsOf r = rows) :
    Resting r rows s' :=
  ⟨hs', htrail.preserves (P := fun db => db.life.Rests r) (fun _ _ hfollows ha => hfollows.rests ha)
    h.rests, hplans, hrows⟩

theorem promoteRun {r' : Nat} : Maintains (Resting r rows) (Engine.promoteRun env r') := by
  intro s started s' h hs
  have hplans : Grows (· <+: ·) Db.plans (Engine.promoteRun env r') :=
    .of_fixes (Fixes.plans fixes_promoteRun)
  have hrows := overlooks_predictionsOf.promoteRun h hs.predictions
  obtain ⟨hstill, -⟩ | htakes := promoteRun_cases h hs.synced
  · exact hs.of_trail hstill.synced (Still.lifeTrail hstill) (hplans h hs.plans).2 hrows
  · exact hs.of_trail htakes.synced htakes.trail (hplans h hs.plans).2 hrows

/-- The stages digested are of the run that is advanced. -/
theorem digests {r' : Nat} {run : Run} {ids : List Nat} {u : Unit} (hne : r' ≠ r)
    (h : Returns (ids.forM (Engine.digestStage env fund r' run)) s u s')
    (hids : ∀ id ∈ ids, (s.stored.plans[id]?).map Prod.fst = some r')
    (hplans : s.stored.plans <+: s.loaded.plans)
    (hrows : s.stored.predictionsOf r = rows ∧ s.loaded.predictionsOf r = rows) :
    s'.stored.plans <+: s'.loaded.plans ∧
      s'.stored.predictionsOf r = rows ∧ s'.loaded.predictionsOf r = rows := by
  induction ids generalizing s with
  | nil =>
      obtain ⟨-, rfl⟩ := returns_pure.1 h
      exact ⟨hplans, hrows⟩
  | cons id ids ih =>
      obtain ⟨_, s₁, hfirst, h⟩ := returns_bind.1 h
      obtain ⟨hgrows, hplans₁⟩ := grows_digestStage hfirst hplans
      refine ih h (fun id' hid' => ?_) hplans₁
        (digestStage_predictionsOf hfirst (fun stage hstage => ?_) hrows)
      · obtain ⟨plan, hplan, hrun⟩ :=
          Option.map_eq_some_iff.1 (hids id' (List.mem_cons_of_mem _ hid'))
        rw [getElem?_of_grown hgrows hplan, Option.map_some, hrun]
      · obtain ⟨plan, hplan, hrun⟩ := Option.map_eq_some_iff.1 (hids id List.mem_cons_self)
        have hloaded := getElem?_of_grown hplans hplan
        rw [Db.plans, List.getElem?_map, hstage] at hloaded
        cases hloaded
        have hrun : stage.runId = r' := hrun
        rw [hrun]
        exact hne

theorem advanceRun {runner : Engine.Runner} {r' : Nat} :
    Maintains (Resting r rows) (Engine.advanceRun env fund runner r') := by
  intro s u s' h hs
  have hlife : Synced Db.life s' ∧ LifeTrail s s' := by
    obtain hstill | ⟨e, -, htakes⟩ := advanceRun_cases h hs.synced
    · exact ⟨hstill.synced, Still.lifeTrail hstill⟩
    · exact ⟨htakes.synced, htakes.trail⟩
  unfold Engine.advanceRun at h
  obtain ⟨-, run, hrun, h⟩ := returns_getRow_bind.1 h
  split_ifs at h with hstatus
  · obtain ⟨-, rfl⟩ := returns_pure.1 h
    exact hs
  rw [not_not] at hstatus
  have hne : r' ≠ r := by
    rintro rfl
    obtain ⟨found, hfound, -, hrests⟩ := hs.rests
    obtain rfl := Option.some.inj (hfound.symm.trans (life_run hs.synced hrun))
    exact hrests hstatus
  obtain ⟨_, s₁, hdrain, h⟩ := returns_bind.1 h
  have hdrains : Grows (· <+: ·) Db.plans (runner.drain r') :=
    .of_fixes (.forM fun call => fixes_queueCall call.2)
  have hplans₁ := (hdrains hdrain hs.plans).2
  have hrows₁ := upholds_drain overlooks_predictionsOf.toOverlooks r' hdrain hs.predictions
  rw [returns_select_bind] at h
  obtain ⟨_, s₂, hdigest, hsettle⟩ := returns_bind.1 h
  have hids : ∀ id ∈ Engine.stagesOfRun env r' s₁.stored,
      (s₁.stored.plans[id]?).map Prod.fst = some r' := by
    intro id hid
    obtain ⟨stage, hstage, hof⟩ := (env.rows .runStages).mem_all.1 hid
    rw [Db.plans, List.getElem?_map, hstage]
    exact congrArg some (of_decide_eq_true hof)
  obtain ⟨hplans₂, hrows₂⟩ := digests hne hdigest hids hplans₁ hrows₁
  have hsettles : Grows (· <+: ·) Db.plans (Engine.settleRun env r') :=
    .of_fixes (Fixes.plans fixes_settleRun)
  exact hs.of_trail hlife.1 hlife.2 (hsettles hsettle hplans₂).2
    (overlooks_predictionsOf.settleRun hsettle hrows₂)

theorem clean (h : db.life.Rests r) : Resting r (db.predictionsOf r) (Session.clean db) :=
  ⟨Synced.clean Db.life db, h, List.prefix_refl _, rfl, rfl⟩

end Resting

/-- No operation touches the predictions of a run at rest. -/
theorem step_predictionsOf (h : db.life.Rests r) (op : Op) :
    (step app db op).predictionsOf r = db.predictionsOf r := by
  have hcommit {α : Type} {m : DbTxn α}
      (hm : Maintains (Resting r (db.predictionsOf r)) m) :
      (commit m db).after.predictionsOf r = db.predictionsOf r := by
    obtain ⟨error, hcommit⟩ | ⟨a, s, hs, -, hcommit⟩ := commit_cases m db
    · rw [hcommit]
    · rw [hcommit]
      exact (hm hs (.clean h)).predictions.2
  cases hop : op.digests with
  | false =>
      have horigins : Origins (fun after => after.predictionsOf r = db.predictionsOf r) app.fund :=
        overlooksCoverages_predictionsOf.origins fun _ _ _ _ _ _ _ _ =>
          upholds_createRun (fun _ _ h => h) fun _ _ h => h
      exact overlooks_predictionsOf.step horigins rfl op
        (fun hdigests => absurd hdigests (by simp [hop]))
        (fun _ _ _ _ _ _ _ => overlooks_predictionsOf.handleDecide fun _ _ _ _ =>
          overlooksCoverages_predictionsOf.transitionCoverage)
        fun _ _ _ _ _ _ _ _ => upholds_answerGate fun _ h => h
  | true =>
      cases op with
      | advanceRun env runner r' => exact hcommit Resting.advanceRun
      | tick env runner =>
          exact hcommit (.bind (.of_reads (.select _)) fun _ =>
            .bind (.forM fun _ _ => .bind Resting.promoteRun fun _ => .pure _) fun _ =>
              .bind (.of_reads (.select _)) fun _ => .forM fun _ _ => Resting.advanceRun)
      | _ => cases hop

/-! ## Steps -/

/-- The run of a rejection for which nothing is left to book: it rests, and none of its predictions
is open. -/
def Db.Shelved (db : Db) (runId : Option Nat) : Prop :=
  ∃ r, runId = some r ∧ db.life.Rests r ∧ ¬ db.HasOpen (·.runId = r)

structure Db.BooksClear (db : Db) : Prop where
  legal : Schema.violation db = none
  undecided : db.Undecided db.Shelved

theorem Db.Undecided.mono {Y : Option Nat → Prop} (h : db.Undecided X) (hXY : ∀ x, X x → Y x) :
    db.Undecided Y :=
  ⟨h.idle, fun row hrow hdecides hto => hXY _ (h.rejected row hrow hdecides hto)⟩

theorem Db.BooksClear.kept (h : db.BooksClear) : db.BooksKept := by
  have hidle {covId : Nat} {cov : Coverage} (hcov : db.coverages[covId]? = some cov) :
      cov.state.adopted = false ∧ cov.state ≠ .exited := by
    simpa [CoverageState.idle] using h.undecided.idle cov (List.mem_of_getElem? hcov)
  constructor
  · intro covId cov hcov hadopted
    rw [(hidle hcov).1] at hadopted
    cases hadopted
  · intro covId cov hcov hexited
    exact absurd hexited (hidle hcov).2
  · intro row hrow hdecides hto r hr
    obtain ⟨r', hr', -, hnone⟩ := h.undecided.rejected row hrow hdecides hto
    obtain rfl : r = r' := Option.some.inj (hr.symm.trans hr')
    exact hnone

theorem Db.Shelved.step {x : Option Nat} (h : db.Shelved x) (op : Op) :
    (step app db op).Shelved x := by
  obtain ⟨r, hr, hrests, hnone⟩ := h
  refine ⟨r, hr, step_rests hrests op, ?_⟩
  rw [Db.hasOpen_iff, step_predictionsOf hrests, ← Db.hasOpen_iff]
  exact hnone

theorem step_undecided (h : db.Undecided X) (op : Op)
    (hop : ∀ env request slug decision notes, op ≠ .api env request (.decide slug decision notes)) :
    (step app db op).Undecided X :=
  overlooks_undecided.step origins_undecided h op (fun _ _ _ _ _ => upholds_digestStage_undecided)
    (fun env request slug decision notes heq => absurd heq (hop env request slug decision notes))
    fun _ _ _ _ _ _ _ _ => upholds_answerGate fun _ h => ⟨h.idle, h.rejected⟩

/-- A rejection adds a row of its run. -/
theorem undecided_handleDecide {slug decision : String} {handled : Handled}
    (h : Returns (handleDecide env slug decision notes pm) (Session.clean db) handled s')
    (haction : decisionAction decision = some .decideReject) (hdb : db.Undecided X)
    (hX : ∀ covId, db.coverages.findIdx? (fun cov => cov.dossierSlug = slug) = some covId →
      X (do
        let gate ← db.gates[← openGateOfCoverage env covId db]?
        return gate.runId)) : s'.stored.Undecided X ∧ s'.loaded.Undecided X := by
  unfold handleDecide at h
  obtain ⟨covId, hslug, h⟩ := of_returns_requireCoverage_bind h
  rw [haction] at h
  dsimp only at h
  rw [returns_select_bind] at h
  obtain ⟨_, s₁, htransition, h⟩ := returns_bind.1 h
  have h₁ := upholds_transition_undecided (Action.idles_reject (hX covId hslug))
    (returns_adaptExcept.1 htransition) ⟨hdb, hdb⟩
  refine Upholds.bind (J := Db.Undecided X) ?_
    (fun _ => .bind (upholds_getRow _ _) fun _ => .pure _) h h₁
  unfold finishDecided
  split
  · exact .pure _
  · exact overlooks_undecided.finishRun

theorem decide_booksClear {slug decision : String} (h : db.BooksClear)
    (howes : DeskOp.OwesNothing app db (.system (.api env request (.decide slug decision notes)))) :
    (step app db (.api env request (.decide slug decision notes))).BooksClear := by
  have hafter : step app db (.api env request (.decide slug decision notes)) =
      (commit (ApiCall.perform env app request (.decide slug decision notes)) db).after := rfl
  refine ⟨step_violation h.legal _, ?_⟩
  have hshelved (x : Option Nat) (hx : db.Shelved x) :
      (step app db (.api env request (.decide slug decision notes))).Shelved x := hx.step _
  rw [hafter] at hshelved ⊢
  obtain ⟨error, hcommit⟩ | ⟨body, s, hs, -, hcommit⟩ :=
    commit_cases (ApiCall.perform env app request (.decide slug decision notes)) db
  · rw [hcommit]
    exact h.undecided
  rw [hcommit] at hshelved ⊢
  change Returns (mutation env app request "coverage.decide" 200 fun pm _ =>
    handleDecide env slug decision notes pm) _ _ _ at hs
  obtain ⟨rfl, -⟩ | ⟨pm, idem, handled, s₁, haccepts, hhandler, hrest⟩ := returns_mutation hs
  · exact h.undecided
  obtain ⟨covId, r, g, action, sm, hslug, hdecides⟩ :=
    returns_handleDecide hhandler (Synced.clean Db.life db)
  obtain ⟨cov, hcov, hpending⟩ : ∃ cov, db.coverages[covId]? = some cov ∧
      cov.state = .decisionPending := by
    have hstate : db.life.coverages[covId]? = some .decisionPending := hdecides.pending
    simpa [Db.life] using hstate
  obtain ⟨run, hrun, hlive⟩ : ∃ run, db.runs[r]? = some run ∧ run.status.live = true := by
    obtain ⟨life, hlife, hlive⟩ := hdecides.run
    obtain ⟨run, hrun, rfl⟩ := Db.life_runs_eq_some.1 hlife
    exact ⟨run, hrun, hlive⟩
  obtain ⟨gate, hgate, -, -, hallowed⟩ := hdecides.gate
  obtain ⟨rfl, hnone⟩ := howes pm covId r run action haccepts hslug hdecides.found hrun hlive
    hdecides.named ⟨cov, g, gate, decision, hcov, hpending, hdecides.chosen, hgate,
      decisionAction_answer hdecides.named, hallowed⟩
  have hdb : db.Undecided fun x => db.Shelved x ∨ x = some r := h.undecided.mono fun _ => .inl
  have hrows : s.loaded.predictionsOf r = db.predictionsOf r := by
    have hdecide : Upholds (fun after => after.predictionsOf r = db.predictionsOf r)
        (handleDecide env slug decision notes pm) :=
      overlooks_predictionsOf.handleDecide fun _ _ _ _ =>
        overlooksCoverages_predictionsOf.transitionCoverage
    exact (overlooks_predictionsOf.toOverlooks.responds hrest (hdecide hhandler ⟨rfl, rfl⟩)).2
  have hrests : s.loaded.life.Rests r := by
    have hstill : Still s₁ s := keeps_response hrest hdecides.synced
    have hlife : s.loaded.life = _ :=
      hstill.synced.trans ((Still.life_eq hstill).trans hdecides.life)
    obtain ⟨started, hstarted, -⟩ := hdecides.run
    refine ⟨started.ended .succeeded none, ?_, by simp [RunLife.ended], by simp [RunLife.ended]⟩
    rw [hlife]
    exact getElem?_modify_self hstarted
  refine Db.Undecided.mono (overlooks_undecided.toOverlooks.responds hrest
    (undecided_handleDecide hhandler hdecides.named hdb fun covId' hslug' => ?_)).2 fun x hx => ?_
  · obtain rfl : covId = covId' := Option.some.inj (hslug.symm.trans hslug')
    exact .inr hdecides.found
  · rcases hx with hx | rfl
    · exact hshelved x hx
    · refine ⟨r, rfl, hrests, ?_⟩
      rw [Db.hasOpen_iff, hrows, ← Db.hasOpen_iff]
      exact hnone

/-! ## The repository -/

/-- The calls of the coverage repository leave the runs and the predictions as they are. -/
theorem overlooksCoverages_runs {runs : List RunLife} {rows : List Prediction} :
    OverlooksCoverages fun db => db.life.runs = runs ∧ db.predictions = rows where
  stage _ _ _ _ h := h
  cost db r _ h := by
    refine ⟨Eq.trans ?_ h.1, h.2⟩
    exact map_modify_of_eq fun _ => rfl
  attempts _ _ h := h
  locks _ _ h := h
  levels _ _ h := h
  events _ _ h := h
  newsArticles _ _ h := h
  auditLog _ _ h := h
  idempotencyKeys _ _ h := h
  schedulerJobLogs _ _ h := h
  coverages _ _ h := h
  transitions _ _ h := h
  leadHistory _ _ h := h
  outbox _ _ _ h := h
  effect _ _ _ _ _ _ := upholds_sideEffect (fun _ _ h => h) (fun _ _ h => h) fun _ _ _ h => h

theorem OverlooksCoverages.coverageCall {J : Db → Prop} (h : OverlooksCoverages J)
    (call : CoverageCall) : Upholds J (CoverageOp.perform { env, call }) := by
  cases call with
  | propose => exact .bind h.propose fun _ => .pure _
  | transition => exact h.transitionCoverage
  | setLead => exact h.setLead

theorem Db.shelved_congr {after : Db} {x : Option Nat} (hruns : after.life.runs = db.life.runs)
    (hrows : after.predictions = db.predictions) (h : db.Shelved x) : after.Shelved x := by
  obtain ⟨r, hr, hrests, hnone⟩ := h
  refine ⟨r, hr, ?_, ?_⟩
  · rw [Life.Rests, hruns]
    exact hrests
  · rw [HasOpen, hrows]
    exact hnone

/-- A decision that the repository applies is one that it may apply. -/
theorem mayDecide_of_returns {force : Bool} {u : Unit} (haction : action ∈ decideActions)
    (h : Returns (transitionCoverage env covId action actorType actorId runId force notes requestId)
      (Session.clean db) u s) : ∃ r, runId = some r ∧ db.MayDecide env covId r action ∧
        ∃ gate ∈ db.gates, gate.runId = r := by
  obtain ⟨answer, hanswer⟩ : ∃ answer, decisionAnswer action = some answer := by
    cases action <;> first | exact ⟨_, rfl⟩ | exact absurd haction (by decide)
  obtain ⟨r, g, gate, sm, hr, hopen, hgate, hrun, -, hallowed, hpending, -⟩ :=
    returns_decision hanswer h (Synced.clean Db.life db)
  obtain ⟨cov, hcov, hstate⟩ : ∃ cov, db.coverages[covId]? = some cov ∧
      cov.state = .decisionPending := by
    have hstate : db.life.coverages[covId]? = some .decisionPending := hpending
    simpa [Db.life] using hstate
  exact ⟨r, hr, ⟨cov, g, gate, answer, hcov, hstate, hopen, hgate, hanswer, hallowed⟩,
    gate, List.mem_of_getElem? hgate, hrun⟩

theorem coverage_booksClear {call : CoverageCall} (h : db.BooksClear)
    (howes : DeskOp.OwesNothing app db (.coverage env call)) :
    (DeskOp.step app db (.coverage env call)).BooksClear := by
  refine ⟨commit_violation h.legal, ?_⟩
  change (commit (CoverageOp.perform { env, call }) db).after.Undecided
    (commit (CoverageOp.perform { env, call }) db).after.Shelved
  obtain ⟨error, hcommit⟩ | ⟨u, s, hs, -, hcommit⟩ :=
    commit_cases (CoverageOp.perform { env, call }) db
  · rw [hcommit]
    exact h.undecided
  rw [hcommit]
  obtain ⟨-, hruns, hrows⟩ := overlooksCoverages_runs.coverageCall call hs ⟨⟨rfl, rfl⟩, rfl, rfl⟩
  have hkept {J : Option Nat → Prop} (hJ : ∀ x, J x → db.Shelved x)
      (hcall : Upholds (Db.Undecided J) (CoverageOp.perform { env, call })) (hdb : db.Undecided J) :
      s.loaded.Undecided s.loaded.Shelved :=
    (hcall hs ⟨hdb, hdb⟩).2.mono fun x hx => Db.shelved_congr hruns hrows (hJ x hx)
  cases call with
  | propose =>
      exact hkept (fun _ hx => hx) (.bind upholds_propose_undecided fun _ => .pure _) h.undecided
  | setLead => exact hkept (fun _ hx => hx) upholds_setLead_undecided h.undecided
  | transition covId action actorType actorId runId force notes requestId =>
      by_cases haction : action ∈ decideActions
      · obtain ⟨r, rfl, hmay, gate, hgate, hrun⟩ := mayDecide_of_returns haction hs
        obtain ⟨⟨rfl, hnone⟩, hrest⟩ := howes hmay
        have hexists : r < db.runs.length := by
          have hrule := Db.violation_eq_none.1 h.legal ("fk_pm_gates_run_id_runs",
            fun db => db.gates.all fun gate => db.isRun gate.runId) (by simp [constraints])
          exact hrun ▸ of_decide_eq_true (List.all_eq_true.1 hrule gate hgate)
        obtain ⟨hqueued, hrunning⟩ := hrest _ (List.getElem?_eq_getElem hexists)
        have hshelved : db.Shelved (some r) :=
          ⟨r, rfl, ⟨_, Db.life_run (List.getElem?_eq_getElem hexists), hqueued, hrunning⟩, hnone⟩
        exact hkept (fun _ hx => hx) (upholds_transition_undecided (Action.idles_reject hshelved))
          h.undecided
      · exact hkept (fun _ hx => hx)
          (upholds_transition_undecided (Action.idles_of_not_decide haction)) h.undecided

/-! ## Histories -/

theorem desk_booksClear (h : db.BooksClear) (op : DeskOp) (howes : op.OwesNothing app db) :
    (DeskOp.step app db op).BooksClear := by
  cases op with
  | coverage env call => exact coverage_booksClear h howes
  | system op =>
      by_cases hdecide : ∃ env request slug decision notes,
          op = .api env request (.decide slug decision notes)
      · obtain ⟨env, request, slug, decision, notes, rfl⟩ := hdecide
        exact decide_booksClear h howes
      · have hkept : (step app db op).Undecided db.Shelved := by
          refine step_undecided h.undecided op fun env request slug decision notes heq => ?_
          exact hdecide ⟨env, request, slug, decision, notes, heq⟩
        exact ⟨step_violation h.legal op, hkept.mono fun _ hx => hx.step op⟩

/-- As long as every decision leaves nothing to book, the books are kept. -/
theorem runDesk_booksKept {ops : List DeskOp} (hdb : Schema.violation db = none) (hfresh : db.Fresh)
    (hrows : db.transitions = [])
    (hops : EachStep (DeskOp.step app) (DeskOp.OwesNothing app) db ops) :
    (runDesk app db ops).BooksKept := by
  have hclear : db.BooksClear := by
    refine ⟨hdb, ?_, ?_⟩
    · rw [hfresh.coverages]
      exact List.forall_mem_nil _
    · rw [hrows]
      exact List.forall_mem_nil _
  have hstep : ∀ (db : Db) (op : DeskOp), db.BooksClear → DeskOp.OwesNothing app db op →
      (DeskOp.step app db op).BooksClear := fun _ op h howes => desk_booksClear h op howes
  exact (invariant hstep hclear hops).kept

/-- The PM rejects Apple, of which the initiation has predicted nothing. -/
def DeskOp.rejectApple : List DeskOp :=
  (Op.deliverApple ++ [Op.ask "decide" (.decide "us_aapl" "reject" none)]).map .system

theorem runDesk_booksKept_reject :
    (runDesk .small .small DeskOp.rejectApple).coverages.map (·.state) = [.rejected] ∧
      (runDesk .small .small DeskOp.rejectApple).BooksKept := by
  refine ⟨by decide +kernel, runDesk_booksKept (by decide +kernel) Db.small_fresh rfl ?_⟩
  rw [DeskOp.rejectApple, List.map_append, eachStep_append]
  refine ⟨⟨trivial, trivial, trivial, trivial⟩, ?_, trivial⟩
  generalize hdb : History.run (DeskOp.step .small) .small (Op.deliverApple.map DeskOp.system) = db
  have hnone : db.predictions = [] := by
    subst hdb
    decide +kernel
  have hreject : decisionAction "reject" = some .decideReject := by decide +kernel
  intro pm covId r run action _ _ _ _ _ haction _
  refine ⟨Option.some.inj (haction.symm.trans hreject), ?_⟩
  rintro ⟨row, hrow, -⟩
  rw [hnone] at hrow
  exact absurd hrow List.not_mem_nil

/-- Apple, initiated with a prediction, and two more requests of the PM. -/
def Db.predictedApple (first second : ApiCall) : Db :=
  let entry : Json := .obj [("kind", .str "target_price"), ("value", .int 200),
    ("currency", .str "USD"), ("horizon_date", .str "2027-01-01")]
  let ops := Op.initiateApple ++
    [.tickWith (QueueCall.succeeds 0 [("predictions", .arr [entry])] ++ QueueCall.succeeds 1 []),
      .ask "first" first, .ask "second" second]
  runDesk .small .small (ops.map .system)

/-- A decision sets no date, an exit sets none and leaves the predictions open, and so does a
rejection. -/
theorem not_booksKept_apple :
    ¬ (Db.predictedApple (.decide "us_aapl" "active" none) (.demote "us_aapl" none)).BooksKept ∧
      ¬ (Db.predictedApple (.decide "us_aapl" "active" none)
        (.exit "us_aapl" false none)).BooksKept ∧
      ¬ (Db.predictedApple (.decide "us_aapl" "reject" none)
        (.rePropose "us_aapl" none)).BooksKept := by
  refine ⟨fun h => ?_, fun h => ?_, fun h => ?_⟩
  · generalize hdb : Db.predictedApple _ _ = db at h
    have hcov : db.coverages[0]?.any (fun cov => cov.state.adopted && cov.decidedAt.isNone) =
        true := by
      subst hdb
      decide +kernel
    have hrow : db.transitions.any (fun row => row.coverageId = 0 && row.decides &&
        row.toState.adopted) = true := by
      subst hdb
      decide +kernel
    simp only [Option.any_eq_true, List.any_eq_true, Bool.and_eq_true, decide_eq_true_eq]
      at hcov hrow
    obtain ⟨cov, hcov, hadopted, hundated⟩ := hcov
    obtain ⟨row, hrow, ⟨hof, hdecides⟩, hto⟩ := hrow
    have hdated := h.decided 0 cov hcov hadopted ⟨row, hrow, hof, hdecides, hto⟩
    rw [Option.isNone_iff_eq_none.1 hundated] at hdated
    cases hdated
  · generalize hdb : Db.predictedApple _ _ = db at h
    have hcov : db.coverages[0]?.any (fun cov => cov.state = .exited && cov.exitedAt.isNone) =
        true := by
      subst hdb
      decide +kernel
    simp only [Option.any_eq_true, Bool.and_eq_true, decide_eq_true_eq] at hcov
    obtain ⟨cov, hcov, hexited, hundated⟩ := hcov
    have hdated := (h.exited 0 cov hcov hexited).1
    rw [Option.isNone_iff_eq_none.1 hundated] at hdated
    cases hdated
  · generalize hdb : Db.predictedApple _ _ = db at h
    have hrow : db.transitions.any (fun row => row.decides && row.toState = .rejected &&
        row.runId = some 0) = true := by
      subst hdb
      decide +kernel
    have hopen : db.predictions.any (fun row => row.runId = 0 && row.status = .opened) = true := by
      subst hdb
      decide +kernel
    simp only [List.any_eq_true, Bool.and_eq_true, decide_eq_true_eq] at hrow hopen
    obtain ⟨row, hrow, ⟨hdecides, hto⟩, hof⟩ := hrow
    exact h.rejected row hrow hdecides hto 0 hof hopen

end AiFund
