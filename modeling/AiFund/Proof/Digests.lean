import AiFund.Proof.EngineSteps
import AiFund.Proof.Predictions
import AiFund.Proof.Program
import AiFund.Proof.Serialization
import AiFund.Proof.StageTables

/-!
# What digesting shows

An advance drains the runner, digests the results of the run's stages and then reads the stages
again. What it reads then are the stages it read before and the cross-checks that a flush has shown.
-/

namespace AiFund

open UnitOfWork Rows

variable {env : Env} {fund : FundConfig} {runner : Engine.Runner} {r n : Nat} {run : Run} {db : Db}
  {s s' : Session Db} {u : Unit}

/-! ## Sessions -/

/-- The stages are at most `n`, and each attempt is of one of the first `n`. -/
structure Db.Attached (n : Nat) (db : Db) : Prop where
  stages : db.stages.length ≤ n
  attempts : ∀ a ∈ db.attempts, a.stageId < n

/-- Nothing that an advance of the run reads is pending: the session has just been opened, or only
other runs have been advanced in it. -/
structure Opens (r : Nat) (s : Session Db) : Prop where
  life : Synced Db.life s
  figures : Synced Db.figures s
  stages : ∃ more, s.loaded.plans = s.stored.plans ++ more ∧ ∀ plan ∈ more, plan.1 ≠ r
  attempts : s.stored.Attached s.loaded.stages.length ∧ s.loaded.Attached s.loaded.stages.length

theorem Opens.clean (h : ∀ a ∈ db.attempts, a.stageId < db.stages.length) :
    Opens r (Session.clean db) :=
  ⟨rfl, rfl, ⟨[], (List.append_nil _).symm, List.forall_mem_nil _⟩, ⟨le_rfl, h⟩, ⟨le_rfl, h⟩⟩

namespace Db.Attached

theorem updateStage {id : Nat} {f : RunStage → RunStage} (h : db.Attached n) :
    (db.updateStage id f).Attached n := by
  refine ⟨?_, h.attempts⟩
  rw [Db.updateStage, List.length_modify]
  exact h.stages

theorem close {key : Option Nat} {f : StageAttempt → StageAttempt} (h : db.Attached n)
    (hf : ∀ a, (f a).stageId = a.stageId) : (db.close key f).Attached n := by
  cases key with
  | none => exact h
  | some id =>
      refine ⟨h.stages, forall_mem_modify h.attempts fun a ha => ?_⟩
      rw [hf]
      exact ha

end Db.Attached

theorem upholds_attached (call : QueueCall) : Upholds (Db.Attached n) (call.perform env) := by
  have hstage (stageId : Nat) (f : RunStage → RunStage) :
      Upholds (Db.Attached n) (assign fun db => db.updateStage stageId f : DbTxn Unit) :=
    .assign fun _ h => h.updateStage
  have hclose {stageId : Nat} {attempt : AttemptIn} {status : AttemptStatus}
      {result : Option JsonObject} {errors : Option Json} {killReason : Option String} :
      Upholds (Db.Attached n)
        (closeAttempt env stageId attempt status result errors killReason) :=
    .bind (.select _) fun _ => .bind (.assign fun _ h => h.close fun _ => rfl) fun _ => hstage _ _
  have hrollup {runId : Nat} : Upholds (Db.Attached n) (rollupRun runId) :=
    .bind (.select _) fun _ => .bind (upholds_getRow _ _) fun _ => .assign fun _ h =>
      ⟨h.stages, h.attempts⟩
  cases call with
  | claim =>
      refine .bind (.bind (.select _) fun candidate => ?_) fun _ => .pure _
      cases candidate with
      | none => exact .pure _
      | some stageId =>
          refine .bind_read (fun _ _ _ h => (returns_getRow.1 h).2.2)
            fun s stage hget hstored _ => ?_
          have hid : stageId < n := (returns_getRow.1 hget).1.trans_le hstored.stages
          refine .bind (hstage _ _) fun _ => .bind (.assign fun db h => ⟨h.stages, ?_⟩) fun _ =>
            .bind .flush fun _ => .pure _
          simp only [List.mem_append, List.mem_singleton, or_imp, forall_and, forall_eq]
          exact ⟨h.attempts, hid⟩
  | heartbeat =>
      refine .bind (.bind (.lookup _ _) fun found => ?_) fun _ => .pure _
      cases found with
      | none => exact .pure _
      | some stage =>
          exact .ite (.pure _) (.bind (hstage _ _) fun _ => .bind .flush fun _ => .pure _)
  | complete =>
      exact .bind (upholds_getRow _ _) fun _ => .bind hclose fun _ =>
        .bind (upholds_ofExcept _ _) fun _ => .bind (hstage _ _) fun _ => .bind hrollup fun _ =>
          .flush
  | fail =>
      exact .bind (upholds_getRow _ _) fun _ => .bind hclose fun _ =>
        .bind (.ite (.bind (upholds_ofExcept _ _) fun _ => hstage _ _) (hstage _ _)) fun _ =>
          .bind hrollup fun _ => .flush
  | reap =>
      refine .bind (.bind (.select _) fun _ => .bind (.forM fun _ => ?_) fun _ =>
        .bind .flush fun _ => .pure _) fun _ => .pure _
      exact .bind (.select _) fun _ => .bind (.assign fun _ h => h.close fun _ => rfl) fun _ =>
        hstage _ _

theorem Db.plans_length (db : Db) : db.plans.length = db.stages.length := List.length_map _

/-- What is pending of the stages stays pending, or a flush stores it. -/
theorem Opens.of_plans {more : List (Nat × Int × StageRole × Option Int)}
    (h : s.loaded.plans = s.stored.plans ++ more)
    (hmore : ∀ plan ∈ more, plan.1 ≠ r) (hloaded : s'.loaded.plans = s.loaded.plans)
    (hstored : s'.stored.plans = s.stored.plans ∨ s'.stored.plans = s.loaded.plans) :
    ∃ more, s'.loaded.plans = s'.stored.plans ++ more ∧ ∀ plan ∈ more, plan.1 ≠ r := by
  rcases hstored with hkept | hflushed
  · exact ⟨more, by rw [hloaded, hkept, h], hmore⟩
  · exact ⟨[], by rw [hloaded, hflushed, List.append_nil], List.forall_mem_nil _⟩

theorem Opens.drain {k : Nat} (hs : Opens r s) (h : Returns (runner.drain k) s u s') :
    Opens r s' := by
  obtain ⟨more, hplans, hmore⟩ := hs.stages
  have hfixes : Fixes Db.plans (runner.drain k) := .forM fun call => fixes_queueCall call.2
  obtain ⟨hloaded, hstored⟩ := hfixes h
  have hfigures := upholds_drain (overlooks_figures (· = s.stored.figures)).toOverlooks k h
    ⟨rfl, hs.figures⟩
  have hlength : s'.loaded.stages.length = s.loaded.stages.length := by
    rw [← Db.plans_length, hloaded, Db.plans_length]
  have hattached : Upholds (Db.Attached s.loaded.stages.length) (runner.drain k) :=
    .forM fun call => upholds_attached call.2
  refine ⟨(keeps_drain runner k h hs.life).synced, hfigures.2.trans hfigures.1.symm,
    Opens.of_plans hplans hmore hloaded hstored, ?_⟩
  rw [hlength]
  exact hattached h hs.attempts

/-! ## One stage -/

/-- The entries that the digest of a stage registers. -/
def RunStage.entries (stage : RunStage) : List PredictionIn :=
  match stage.status, stage.result with
  | .succeeded, some (field :: fields) => (parsePredictions (field :: fields)).toOption.getD []
  | _, _ => []

/-- The stage is an author of an event analysis whose result calls for a cross-check. -/
def RunStage.asksCheck (stage : RunStage) (fund : FundConfig) (run : Run)
    (lastTp : Option Decimal) : Bool :=
  run.type = .eventAnalysis && stage.role = .author &&
    match stage.status, stage.result with
    | .succeeded, some (field :: fields) =>
        (autoCrossCheck (field :: fields) lastTp none none fund.autoCrossCheck).toOption = some true
    | _, _ => false

/-- No cross-check of the run is among the stages. -/
def Db.Unchecked (r : Nat) (db : Db) : Prop :=
  ∀ stage ∈ db.stages, stage.runId = r → stage.role ≠ .crossCheck

/-- A cross-check of the run as it is added. -/
structure RunStage.Checks (check : RunStage) (env : Env) (r : Nat) : Prop where
  runId : check.runId = r
  role : check.role = .crossCheck
  status : check.status = .queued
  availableAt : check.availableAt = env.now

/-- The session with a stage that is not stored yet. -/
def addPending (s : Session Db) (row : RunStage) : Session Db :=
  { s with loaded := { s.loaded with stages := s.loaded.stages ++ [row] } }

theorem existingCheck_eq_none (env : Env) :
    (env.rows .crossCheckStage).first (fun row => row.runId = r && row.role = .crossCheck)
      db.stages = none ↔ db.Unchecked r := by
  rw [RowOrder.first_eq_none]
  simp [Db.Unchecked]

/-- A cross-check is added where one is called for and none is stored. -/
theorem appends_crossCheck {stage : RunStage} {result : JsonObject} {lastTp : Option Decimal}
    (h : Returns (Engine.maybeAppendCrossCheck env fund r run stage result lastTp) s u s') :
    ((autoCrossCheck result lastTp none none fund.autoCrossCheck).toOption = some true ∧
        s.stored.Unchecked r ∧ ∃ check : RunStage, check.Checks env r ∧ s' = addPending s check) ∨
      ¬ ((autoCrossCheck result lastTp none none fund.autoCrossCheck).toOption = some true ∧
        s.stored.Unchecked r) ∧ s' = s := by
  unfold Engine.maybeAppendCrossCheck at h
  obtain ⟨fires, hfires, h⟩ := returns_ofExcept_bind.1 h
  rw [hfires]
  cases fires with
  | false => exact .inr ⟨nofun, (returns_pure.1 h).2⟩
  | true =>
      rw [if_neg (by simp), returns_select_bind] at h
      split_ifs at h with hexisting
      · refine .inr ⟨fun hall => ?_, (returns_pure.1 h).2⟩
        rw [(existingCheck_eq_none env).2 hall.2] at hexisting
        cases hexisting
      · have hnone : s.stored.Unchecked r :=
          (existingCheck_eq_none env).1 (Option.not_isSome_iff_eq_none.1 hexisting)
        split at h
        · exact absurd h not_returns_raise
        · obtain ⟨contributors, s₁, hcontributors, h⟩ := returns_bind.1 h
          rw [reads_resolveContributors hcontributors, returns_select_bind] at h
          obtain ⟨policy, -, h⟩ := returns_ofExcept_bind.1 h
          rw [returns_assign] at h
          exact .inl ⟨rfl, hnone, _, ⟨rfl, rfl, rfl, rfl⟩, h⟩

/-- A digest registers the entries of its stage, in one flush, and then may add a cross-check. -/
theorem returns_digestStage {id : Nat}
    (h : Returns (Engine.digestStage env fund r run id) s u s') :
    ∃ stage s₁, s.loaded.stages[id]? = some stage ∧
      (stage.entries = [] ∧ s₁ = s ∨
        stage.entries ≠ [] ∧ ∃ found, Returns (registerFromStage env id stage.entries) s found s₁) ∧
      (stage.asksCheck fund run (lastTargetPrice env run.coverageId s.stored) = true ∧
          s₁.stored.Unchecked r ∧
            (∃ check : RunStage, check.Checks env r ∧ s' = addPending s₁ check) ∨
        ¬ (stage.asksCheck fund run (lastTargetPrice env run.coverageId s.stored) = true ∧
          s₁.stored.Unchecked r) ∧ s' = s₁) := by
  unfold Engine.digestStage at h
  obtain ⟨-, stage, hstage, h⟩ := returns_getRow_bind.1 h
  refine ⟨stage, ?_⟩
  split at h
  · rename_i field fields hstatus hresult
    rw [returns_select_bind] at h
    obtain ⟨_, s₁, hregister, h⟩ := returns_bind.1 h
    refine ⟨s₁, hstage, ?_, ?_⟩
    · obtain ⟨entries, hentries, hregister⟩ := returns_ofExcept_bind.1 hregister
      have hstage : stage.entries = entries := by
        simp [RunStage.entries, hstatus, hresult, hentries, Except.toOption]
      rw [hstage]
      split_ifs at hregister with hempty
      · exact .inl ⟨List.isEmpty_iff.1 hempty, (returns_pure.1 hregister).2⟩
      · obtain ⟨found, s₂, hfound, hpure⟩ := returns_bind.1 hregister
        obtain ⟨-, rfl⟩ := returns_pure.1 hpure
        exact .inr ⟨fun h => hempty (List.isEmpty_iff.2 h), found, hfound⟩
    · by_cases hauthor : run.type = .eventAnalysis ∧ stage.role = .author
      · have hasks : stage.asksCheck fund run (lastTargetPrice env run.coverageId s.stored) = true ↔
            (autoCrossCheck (field :: fields) (lastTargetPrice env run.coverageId s.stored)
              none none fund.autoCrossCheck).toOption = some true := by
          simp [RunStage.asksCheck, hstatus, hresult, hauthor.1, hauthor.2]
        rw [hasks]
        simp only [decide_eq_true hauthor, if_true] at h
        exact appends_crossCheck h
      · refine .inr ⟨fun hall => hauthor ?_, ?_⟩
        · have hasks := hall.1
          simp only [RunStage.asksCheck, Bool.and_eq_true, decide_eq_true_eq] at hasks
          exact hasks.1
        · rw [decide_eq_false hauthor, if_neg Bool.false_ne_true] at h
          exact (returns_pure.1 h).2
  · rename_i hother
    obtain ⟨-, rfl⟩ := returns_pure.1 h
    refine ⟨s', hstage, .inl ⟨?_, rfl⟩, .inr ⟨fun hall => ?_, rfl⟩⟩
    · unfold RunStage.entries
      split
      · rename_i field fields hstatus hresult
        exact absurd hresult (hother field fields hstatus)
      · rfl
    · have hasks := hall.1
      unfold RunStage.asksCheck at hasks
      split at hasks
      · rename_i field fields hstatus hresult
        exact absurd hresult (hother field fields hstatus)
      · simp at hasks

/-! ## Registrations -/

theorem Db.foldl_insertPrediction (db : Db) (rows : List Prediction) :
    ∃ predictions, rows.foldl Db.insertPrediction db = { db with predictions } := by
  induction rows generalizing db with
  | nil => exact ⟨_, rfl⟩
  | cons row rows ih =>
      obtain ⟨new, hnew, -⟩ := db.insertPrediction_grows row
      obtain ⟨predictions, hall⟩ := ih (db.insertPrediction row)
      refine ⟨predictions, hall.trans ?_⟩
      rw [hnew]

/-- What is inserted depends on the predictions only. -/
theorem Db.predictions_foldl {db' : Db} (rows : List Prediction)
    (h : db.predictions = db'.predictions) : (rows.foldl Db.insertPrediction db).predictions =
      (rows.foldl Db.insertPrediction db').predictions := by
  induction rows generalizing db db' with
  | nil => exact h
  | cons row rows ih =>
      refine ih ?_
      unfold Db.insertPrediction
      rw [h]
      split
      · exact h
      · rfl

theorem returns_registerEntries_rows {id : Nat} {stage : RunStage} {entries : List PredictionIn}
    {found : List (Option Prediction)}
    (h : Returns (entries.mapM (registerEntry env id stage run)) s found s') :
    ∃ rows, entries.mapM (fun entry => entry.toRow env id stage run) = .ok rows ∧
      s'.stored = rows.foldl Db.insertPrediction s.stored ∧
      s'.loaded = rows.foldl Db.insertPrediction s.loaded := by
  induction entries generalizing s found with
  | nil =>
      rw [List.mapM_nil] at h
      obtain ⟨-, rfl⟩ := returns_pure.1 h
      exact ⟨[], rfl, rfl, rfl⟩
  | cons entry entries ih =>
      rw [List.mapM_cons] at h
      obtain ⟨first, s₁, hfirst, h⟩ := returns_bind.1 h
      obtain ⟨rest, s₂, hrest, hpure⟩ := returns_bind.1 h
      obtain ⟨-, rfl⟩ := returns_pure.1 hpure
      obtain ⟨row, hrow, -, -, rfl⟩ := returns_registerEntry.1 hfirst
      obtain ⟨rows, hrows, hstored, hloaded⟩ := ih hrest
      refine ⟨row :: rows, ?_, hstored, hloaded⟩
      rw [List.mapM_cons, hrow, hrows]
      rfl

theorem returns_registerFromStage_rows {id : Nat} {entries : List PredictionIn}
    {found : List (Option Prediction)}
    (h : Returns (registerFromStage env id entries) s found s') :
    ∃ stage run rows, s.loaded.stages[id]? = some stage ∧
      s.loaded.runs[stage.runId]? = some run ∧
      entries.mapM (fun entry => entry.toRow env id stage run) = .ok rows ∧
      s'.stored = s'.loaded ∧ s'.loaded = rows.foldl Db.insertPrediction s.loaded := by
  obtain ⟨-, stage, hstage, h⟩ := returns_getRow_bind.1 h
  obtain ⟨-, run, hrun, h⟩ := returns_getRow_bind.1 h
  obtain ⟨_, s₁, hentries, h⟩ := returns_bind.1 h
  rw [returns_flush_bind] at h
  obtain ⟨-, h⟩ := h
  obtain ⟨-, rfl⟩ := returns_pure.1 h
  obtain ⟨rows, hrows, -, hloaded⟩ := returns_registerEntries_rows hentries
  exact ⟨stage, run, rows, hstage, hrun, hrows, rfl, hloaded⟩

/-! ## All stages -/

/-- What digesting stages of the run does to the tables that the advance reads afterwards. -/
structure Digested (env : Env) (r : Nat) (s s' : Session Db) : Prop where
  runs : s'.loaded.runs = s.loaded.runs
  attempts : s'.loaded.attempts = s.loaded.attempts
  gates : s'.loaded.gates = s.loaded.gates
  stages : ∃ checks, s'.loaded.stages = s.loaded.stages ++ checks ∧
    (∀ check ∈ checks, check.Checks env r) ∧ (s'.stored.stages = s.stored.stages ∨
      ∃ shown, shown <+: checks ∧ s'.stored.stages = s.loaded.stages ++ shown)

theorem Digested.refl : Digested env r s s :=
  ⟨rfl, rfl, rfl, [], (List.append_nil _).symm, List.forall_mem_nil _, .inl rfl⟩

theorem Digested.trans {s₁ : Session Db} (h : Digested env r s s₁) (h' : Digested env r s₁ s') :
    Digested env r s s' := by
  obtain ⟨checks, hloaded, hchecks, hstored⟩ := h.stages
  obtain ⟨checks', hloaded', hchecks', hstored'⟩ := h'.stages
  refine ⟨h'.runs.trans h.runs, h'.attempts.trans h.attempts, h'.gates.trans h.gates,
    checks ++ checks', by rw [hloaded', hloaded, List.append_assoc],
    List.forall_mem_append.2 ⟨hchecks, hchecks'⟩, ?_⟩
  rcases hstored' with hkept' | ⟨shown', hshown', hstored'⟩
  · rcases hstored with hkept | ⟨shown, hshown, hstored⟩
    · exact .inl (hkept'.trans hkept)
    · exact .inr ⟨shown, hshown.trans (List.prefix_append _ _), hkept'.trans hstored⟩
  · refine .inr ⟨checks ++ shown', (List.prefix_append_right_inj _).2 hshown', ?_⟩
    rw [hstored', hloaded, List.append_assoc]

theorem digested_register {id : Nat} {entries : List PredictionIn}
    {found : List (Option Prediction)}
    (h : Returns (registerFromStage env id entries) s found s') : Digested env r s s' := by
  obtain ⟨_, _, rows, -, -, -, hstored, hloaded⟩ := returns_registerFromStage_rows h
  obtain ⟨predictions, hall⟩ := s.loaded.foldl_insertPrediction rows
  rw [hall] at hloaded
  rw [hloaded] at hstored
  refine ⟨by rw [hloaded], by rw [hloaded], by rw [hloaded], [], by rw [hloaded, List.append_nil],
    List.forall_mem_nil _, .inr ⟨[], List.prefix_refl _, ?_⟩⟩
  rw [hstored, List.append_nil]

theorem digested_addPending {check : RunStage} (hcheck : check.Checks env r) :
    Digested env r s (addPending s check) :=
  ⟨rfl, rfl, rfl, [check], rfl, List.forall_mem_singleton.2 hcheck, .inl rfl⟩

theorem digested_digestStage {id : Nat}
    (h : Returns (Engine.digestStage env fund r run id) s u s') : Digested env r s s' := by
  obtain ⟨stage, s₁, -, hregister, hcheck⟩ := returns_digestStage h
  have hfirst : Digested env r s s₁ := by
    rcases hregister with ⟨-, rfl⟩ | ⟨-, found, hfound⟩
    · exact .refl
    · exact digested_register hfound
  rcases hcheck with ⟨-, -, check, hcheck, rfl⟩ | ⟨-, rfl⟩
  · exact hfirst.trans (digested_addPending hcheck)
  · exact hfirst

theorem digested_forM {ids : List Nat}
    (h : Returns (ids.forM (Engine.digestStage env fund r run)) s u s') : Digested env r s s' := by
  induction ids generalizing s with
  | nil =>
      obtain ⟨-, rfl⟩ := returns_pure.1 h
      exact .refl
  | cons id ids ih =>
      obtain ⟨_, s₁, hfirst, hrest⟩ := returns_bind.1 h
      exact (digested_digestStage hfirst).trans (ih hrest)

/-! ## What is read -/

/-- The stages of the run that are read from the store, as the session has loaded them. -/
def Shows (r : Nat) (s : Session Db) (stage : RunStage) : Prop :=
  ∃ (id : Nat) (row : RunStage), s.stored.stages[id]? = some row ∧ row.runId = r ∧
    s.loaded.stages[id]? = some stage

theorem mem_shown {stage : RunStage} :
    stage ∈ (Engine.stagesOfRun env r s.stored).filterMap (fun id => s.loaded.stages[id]?) ↔
      Shows r s stage := by
  simp only [List.mem_filterMap, Engine.stagesOfRun, RowOrder.mem_all, decide_eq_true_eq, Shows]
  constructor
  · rintro ⟨id, ⟨row, hrow, hof⟩, hstage⟩
    exact ⟨id, row, hrow, hof, hstage⟩
  · rintro ⟨id, row, hrow, hof, hstage⟩
    exact ⟨id, ⟨row, hrow, hof⟩, hstage⟩

theorem Opens.shows_iff {stage : RunStage} (hs : Opens r s) :
    Shows r s stage ↔ stage ∈ s.loaded.stages ∧ stage.runId = r := by
  obtain ⟨more, hplans, hmore⟩ := hs.stages
  have hrunId {id : Nat} {row : RunStage} (hrow : s.stored.stages[id]? = some row)
      (hstage : s.loaded.stages[id]? = some stage) : stage.runId = row.runId := by
    have hold : s.loaded.plans[id]? = some row.plan := by
      rw [hplans]
      refine getElem?_append_of_some ?_
      rw [Db.plans, List.getElem?_map, hrow]
      rfl
    rw [Db.plans, List.getElem?_map, hstage] at hold
    exact congrArg Prod.fst (Option.some.inj hold)
  constructor
  · rintro ⟨id, row, hrow, hof, hstage⟩
    exact ⟨List.mem_of_getElem? hstage, (hrunId hrow hstage).trans hof⟩
  · rintro ⟨hmem, hof⟩
    obtain ⟨id, hstage⟩ := List.getElem?_of_mem hmem
    by_cases hid : id < s.stored.stages.length
    · have hrow : s.stored.stages[id]? = some s.stored.stages[id] := List.getElem?_eq_getElem hid
      exact ⟨id, _, hrow, (hrunId hrow hstage).symm.trans hof, hstage⟩
    · have hplan : s.loaded.plans[id]? = some stage.plan := by
        rw [Db.plans, List.getElem?_map, hstage]
        rfl
      rw [hplans, List.getElem?_append_right (by rw [Db.plans_length]; omega)] at hplan
      exact absurd hof (hmore _ (List.mem_of_getElem? hplan))

theorem Opens.stored_le (hs : Opens r s) : s.stored.stages.length ≤ s.loaded.stages.length := by
  obtain ⟨more, hplans, -⟩ := hs.stages
  rw [← Db.plans_length, ← Db.plans_length, hplans, List.length_append]
  omega

/-- After the digests the stages are read that were there before, and cross-checks that a flush has
shown. -/
theorem Digested.shows {stage : RunStage} (h : Digested env r s s') (hs : Opens r s) :
    (Shows r s' stage → Shows r s stage ∨ stage.Checks env r) ∧
      (Shows r s stage → Shows r s' stage) := by
  obtain ⟨checks, hloaded, hchecks, hstored⟩ := h.stages
  have hle := hs.stored_le
  constructor
  · rintro ⟨id, row, hrow, hof, hstage⟩
    rw [hloaded] at hstage
    rcases hstored with hkept | ⟨shown, -, hshown⟩
    · rw [hkept] at hrow
      have hid := (List.getElem?_eq_some_iff.1 hrow).1
      rw [List.getElem?_append_left (hid.trans_le hle)] at hstage
      exact .inl ⟨id, row, hrow, hof, hstage⟩
    · by_cases hid : id < s.loaded.stages.length
      · rw [hshown, List.getElem?_append_left hid] at hrow
        rw [List.getElem?_append_left hid, hrow, Option.some.injEq] at hstage
        subst hstage
        exact .inl (hs.shows_iff.2 ⟨List.mem_of_getElem? hrow, hof⟩)
      · rw [List.getElem?_append_right (not_lt.1 hid)] at hstage
        exact .inr (hchecks stage (List.mem_of_getElem? hstage))
  · intro hshows
    have hof := (hs.shows_iff.1 hshows).2
    obtain ⟨id, row, hrow, hrowOf, hstage⟩ := hshows
    have hnew : s'.loaded.stages[id]? = some stage := by
      rw [hloaded]
      exact getElem?_append_of_some hstage
    rcases hstored with hkept | ⟨shown, -, hshown⟩
    · exact ⟨id, row, hkept ▸ hrow, hrowOf, hnew⟩
    · refine ⟨id, stage, ?_, hof, hnew⟩
      rw [hshown]
      exact getElem?_append_of_some hstage

end AiFund
