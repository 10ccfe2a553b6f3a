import AiFund.Proof.Settling

/-!
# What a finalized run leaves behind

A cross-check that a digest adds is pending until something flushes it, and the only flush before
the advance settles is that of a later stage with predictions to register. Where none comes the
advance finalizes the run without having seen the cross-check.
-/

namespace AiFund

open UnitOfWork Rows

variable {env : Env} {fund : FundConfig} {runner : Engine.Runner} {r : Nat} {run : Run} {db : Db}
  {s s' : Session Db} {u : Unit} {stages : List (Nat × RunStage)}

/-- If the run has been moved on then all its stages have succeeded or been skipped. -/
def FinalizesDone (r : Nat) (before after : Db) : Prop :=
  MovesOn r before after → ∀ stage ∈ after.stages, stage.runId = r →
    stage.status = .succeeded ∨ stage.status = .skipped

/-- The stages of the run as the session has loaded them, in the order of their digests. -/
def Engine.loadedStages (env : Env) (r : Nat) (s : Session Db) : List (Nat × RunStage) :=
  (Engine.stagesOfRun env r s.stored).filterMap fun id => s.loaded.stages[id]?.map (id, ·)

/-- The store once the predictions of a stage are registered. -/
def RunStage.registers (stage : RunStage) (env : Env) (id : Nat) (run : Run) (db : Db) : Db :=
  match stage.entries.mapM fun entry => entry.toRow env id stage run with
  | .ok rows => rows.foldl Db.insertPrediction db
  | .error _ => db

/-- A stage calls for a cross-check, and no stage after the first that does registers anything. -/
def leavesCheck (env : Env) (fund : FundConfig) (run : Run) : List (Nat × RunStage) → Db → Bool
  | [], _ => false
  | (id, stage) :: rest, db =>
      if stage.asksCheck fund run (lastTargetPrice env run.coverageId db) then
        rest.all fun later => later.2.entries.isEmpty
      else leavesCheck env fund run rest (stage.registers env id run db)

/-- All work that the runner has left is done, the run has no cross-check yet, and one is called for
but not flushed. -/
structure LosesCheck (env : Env) (fund : FundConfig) (r : Nat) (run : Run) (s : Session Db) :
    Prop where
  done : ∀ stage ∈ s.loaded.stages, stage.runId = r →
    stage.status = .succeeded ∨ stage.status = .skipped
  budget : Engine.runOverBudget run = false
  unchecked : s.loaded.Unchecked r
  leaves : leavesCheck env fund run (Engine.loadedStages env r s) s.stored = true

/-! ## What is flushed -/

/-- The session has loaded the stages as they are listed. -/
def Loads (stages : List (Nat × RunStage)) (s : Session Db) : Prop :=
  ∀ x ∈ stages, s.loaded.stages[x.1]? = some x.2

theorem Loads.digested (h : Loads stages s) (hs : Digested env r s s') : Loads stages s' := by
  obtain ⟨checks, hloaded, -, -⟩ := hs.stages
  intro x hx
  rw [hloaded]
  exact getElem?_append_of_some (h x hx)

theorem Loads.tail {x : Nat × RunStage} (h : Loads (x :: stages) s) : Loads stages s :=
  fun y hy => h y (List.mem_cons_of_mem _ hy)

/-- A digest that registers nothing leaves the store as it is, and any other shows it all that is
pending. -/
theorem stored_digestStage {id : Nat} {stage : RunStage}
    (hstage : s.loaded.stages[id]? = some stage)
    (h : Returns (Engine.digestStage env fund r run id) s u s') :
    stage.entries = [] ∧ s'.stored = s.stored ∨
      stage.entries ≠ [] ∧ s'.stored.stages = s.loaded.stages := by
  obtain ⟨row, s₁, hrow, hregister, hcheck⟩ := returns_digestStage h
  obtain rfl := Option.some.inj (hstage.symm.trans hrow)
  have hkept : s'.stored = s₁.stored := by
    rcases hcheck with ⟨-, -, check, -, rfl⟩ | ⟨-, rfl⟩ <;> rfl
  rw [hkept]
  rcases hregister with ⟨hnone, rfl⟩ | ⟨hsome, found, hfound⟩
  · exact .inl ⟨hnone, rfl⟩
  · obtain ⟨_, _, rows, -, -, -, hstored, hloaded⟩ := returns_registerFromStage_rows hfound
    obtain ⟨predictions, hall⟩ := s.loaded.foldl_insertPrediction rows
    refine .inr ⟨hsome, ?_⟩
    rw [hstored, hloaded, hall]

theorem digests_quiet
    (h : Returns ((stages.map Prod.fst).forM (Engine.digestStage env fund r run)) s u s')
    (hloads : Loads stages s) (hquiet : ∀ x ∈ stages, x.2.entries = []) :
    s'.stored = s.stored := by
  induction stages generalizing s with
  | nil =>
      obtain ⟨-, rfl⟩ := returns_pure.1 h
      rfl
  | cons x rest ih =>
      obtain ⟨_, s₁, hfirst, hrest⟩ := returns_bind.1 h
      rw [ih hrest (hloads.tail.digested (digested_digestStage hfirst))
        fun y hy => hquiet y (List.mem_cons_of_mem _ hy)]
      rcases stored_digestStage (hloads x List.mem_cons_self) hfirst with ⟨-, hkept⟩ | ⟨hsome, -⟩
      · exact hkept
      · exact absurd (hquiet x List.mem_cons_self) hsome

/-- Where one of the stages registers predictions all that was pending before is stored. -/
theorem digests_flush
    (h : Returns ((stages.map Prod.fst).forM (Engine.digestStage env fund r run)) s u s')
    (hloads : Loads stages s) (hsome : ∃ x ∈ stages, x.2.entries ≠ []) :
    s.loaded.stages <+: s'.stored.stages := by
  induction stages generalizing s with
  | nil =>
      obtain ⟨x, hx, -⟩ := hsome
      cases hx
  | cons x rest ih =>
      obtain ⟨_, s₁, hfirst, hrest⟩ := returns_bind.1 h
      have hdigested := digested_digestStage hfirst
      obtain ⟨checks, hloaded, -, -⟩ := hdigested.stages
      rcases stored_digestStage (hloads x List.mem_cons_self) hfirst with ⟨hnone, -⟩ | ⟨-, hshown⟩
      · have hgrown : s.loaded.stages <+: s₁.loaded.stages := ⟨checks, hloaded.symm⟩
        refine hgrown.trans (ih hrest (hloads.tail.digested hdigested) ?_)
        obtain ⟨y, hy, hne⟩ := hsome
        rcases List.mem_cons.1 hy with rfl | hy
        · exact absurd hnone hne
        · exact ⟨y, hy, hne⟩
      · obtain ⟨_, -, -, hkept | ⟨shown, -, hstored⟩⟩ := (digested_forM hrest).stages
        · have hsame := hkept.trans hshown
          exact hsame ▸ List.prefix_refl _
        · rw [hstored, hloaded, List.append_assoc]
          exact List.prefix_append _ _

/-! ## Cross-checks that are left -/

theorem Db.unchecked_iff : db.Unchecked r ↔
    ∀ plan ∈ db.plans, plan.1 = r → plan.2.2.1 ≠ .crossCheck := by
  simp [Db.Unchecked, Db.plans, RunStage.plan]

theorem Opens.unchecked_iff (hs : Opens r s) : s.stored.Unchecked r ↔ s.loaded.Unchecked r := by
  obtain ⟨more, hplans, hmore⟩ := hs.stages
  rw [Db.unchecked_iff, Db.unchecked_iff, hplans, List.forall_mem_append]
  exact ⟨fun h => ⟨h, fun plan hplan hof => absurd hof (hmore plan hplan)⟩, fun h => h.1⟩

theorem lastTargetPrice_congr {db' : Db} {covId : Option Nat}
    (h : db'.predictions = db.predictions) :
    lastTargetPrice env covId db' = lastTargetPrice env covId db := by
  unfold lastTargetPrice
  rw [h]

theorem RunStage.registers_of_nil {stage : RunStage} {id : Nat} (h : stage.entries = []) :
    stage.registers env id run db = db := by
  unfold RunStage.registers
  rw [h]
  rfl

/-- A session in which no cross-check of the run has been added, nor a prediction left pending. -/
structure Uncrossed (r : Nat) (run : Run) (predictions : List Prediction) (s : Session Db) :
    Prop where
  stored : s.stored.Unchecked r
  loaded : s.loaded.Unchecked r
  run : s.loaded.runs[r]? = some run
  predictions : s.stored.predictions = predictions ∧ s.loaded.predictions = predictions

/-- What registering the predictions of a stage of the run leaves. -/
theorem Uncrossed.register {s₁ : Session Db} {x : Nat × RunStage}
    (hs : Uncrossed r run db.predictions s) (hstage : s.loaded.stages[x.1]? = some x.2)
    (hof : x.2.runId = r)
    (h : x.2.entries = [] ∧ s₁ = s ∨ x.2.entries ≠ [] ∧
      ∃ found, Returns (registerFromStage env x.1 x.2.entries) s found s₁) :
    Uncrossed r run (x.2.registers env x.1 run db).predictions s₁ ∧
      s₁.loaded.stages = s.loaded.stages := by
  rcases h with ⟨hnone, rfl⟩ | ⟨-, found, hfound⟩
  · rw [RunStage.registers_of_nil hnone]
    exact ⟨hs, rfl⟩
  · obtain ⟨stage, run', rows, hrow, hrun', hrows, hstored, hloaded⟩ :=
      returns_registerFromStage_rows hfound
    obtain rfl := Option.some.inj (hstage.symm.trans hrow)
    rw [hof] at hrun'
    obtain rfl := Option.some.inj (hs.run.symm.trans hrun')
    have hregisters : x.2.registers env x.1 run db = rows.foldl Db.insertPrediction db := by
      unfold RunStage.registers
      rw [hrows]
    have hpredictions : s₁.loaded.predictions = (x.2.registers env x.1 run db).predictions := by
      rw [hregisters, hloaded]
      exact Db.predictions_foldl rows hs.predictions.2
    obtain ⟨predictions, hall⟩ := s.loaded.foldl_insertPrediction rows
    rw [hall] at hloaded
    refine ⟨⟨?_, ?_, ?_, ?_, hpredictions⟩, by rw [hloaded]⟩
    · rw [hstored, hloaded]
      exact hs.loaded
    · rw [hloaded]
      exact hs.loaded
    · rw [hloaded]
      exact hs.run
    · rw [hstored]
      exact hpredictions

/-- The digests leave a cross-check behind, or they add none, or they show the first they add. -/
theorem digests_leavesCheck {run₀ : Run}
    (h : Returns ((stages.map Prod.fst).forM (Engine.digestStage env fund r run₀)) s u s')
    (hloads : Loads stages s) (hof : ∀ x ∈ stages, x.2.runId = r)
    (hsame : run₀.type = run.type ∧ run₀.coverageId = run.coverageId)
    (hs : Uncrossed r run db.predictions s) :
    (leavesCheck env fund run stages db = true →
      s'.stored.Unchecked r ∧ ∃ check ∈ s'.loaded.stages, check.Checks env r) ∧
    (leavesCheck env fund run stages db = false →
      s'.loaded.stages = s.loaded.stages ∨ ∃ check, Shows r s' check ∧ check.Checks env r) := by
  induction stages generalizing s db with
  | nil =>
      obtain ⟨-, rfl⟩ := returns_pure.1 h
      exact ⟨nofun, fun _ => .inl rfl⟩
  | cons x rest ih =>
      obtain ⟨_, s₁, hfirst, hrest⟩ := returns_bind.1 h
      have hdigested := digested_digestStage hfirst
      have hloads₁ := hloads.tail.digested hdigested
      obtain ⟨stage, s₂, hstage, hregister, hcheck⟩ := returns_digestStage hfirst
      obtain rfl := Option.some.inj ((hloads x List.mem_cons_self).symm.trans hstage)
      obtain ⟨hmid, hstages⟩ := hs.register hstage (hof x List.mem_cons_self) hregister
      have hasks : x.2.asksCheck fund run₀ (lastTargetPrice env run₀.coverageId s.stored) =
          x.2.asksCheck fund run (lastTargetPrice env run.coverageId db) := by
        rw [hsame.2, lastTargetPrice_congr hs.predictions.1]
        simp only [RunStage.asksCheck, hsame.1]
      rw [hasks] at hcheck
      unfold leavesCheck
      split_ifs with hask
      · obtain ⟨check, hadded, rfl⟩ : ∃ check : RunStage, check.Checks env r ∧
            s₁ = addPending s₂ check := by
          rcases hcheck with ⟨-, -, hadded⟩ | ⟨hnot, -⟩
          · exact hadded
          · exact absurd ⟨hask, hmid.stored⟩ hnot
        have hlast : (addPending s₂ check).loaded.stages[s₂.loaded.stages.length]? = some check :=
          List.getElem?_concat_length
        obtain ⟨checks, hloaded, -, -⟩ := (digested_forM hrest).stages
        have hkept : s'.loaded.stages[s₂.loaded.stages.length]? = some check := by
          rw [hloaded]
          exact getElem?_append_of_some hlast
        refine ⟨fun hquiet => ⟨?_, check, List.mem_of_getElem? hkept, hadded⟩, fun hsome => .inr ?_⟩
        · rw [digests_quiet hrest hloads₁ (by simpa using hquiet)]
          exact hmid.stored
        · obtain ⟨y, hy, hne⟩ := List.all_eq_false.1 hsome
          have hflush := digests_flush hrest hloads₁ ⟨y, hy, by simpa using hne⟩
          exact ⟨check, ⟨_, check, getElem?_of_grown hflush hlast, hadded.runId, hkept⟩, hadded⟩
      · obtain rfl : s₁ = s₂ := by
          rcases hcheck with ⟨hasked, -⟩ | ⟨-, hsame⟩
          · exact absurd hasked hask
          · exact hsame
        rw [← hstages]
        exact ih hrest hloads₁ (fun y hy => hof y (List.mem_cons_of_mem _ hy)) hmid

/-- A run that has a cross-check gets no second one. -/
theorem digests_checked {ids : List Nat}
    (h : Returns (ids.forM (Engine.digestStage env fund r run)) s u s')
    (hs : ¬ s.stored.Unchecked r ∧ ¬ s.loaded.Unchecked r) :
    s'.loaded.stages = s.loaded.stages := by
  induction ids generalizing s with
  | nil =>
      obtain ⟨-, rfl⟩ := returns_pure.1 h
      rfl
  | cons id ids ih =>
      obtain ⟨_, s₁, hfirst, hrest⟩ := returns_bind.1 h
      obtain ⟨stage, s₂, -, hregister, hcheck⟩ := returns_digestStage hfirst
      have hmid : (¬ s₂.stored.Unchecked r ∧ ¬ s₂.loaded.Unchecked r) ∧
          s₂.loaded.stages = s.loaded.stages := by
        rcases hregister with ⟨-, rfl⟩ | ⟨-, found, hfound⟩
        · exact ⟨hs, rfl⟩
        · obtain ⟨_, _, rows, -, -, -, hstored, hloaded⟩ := returns_registerFromStage_rows hfound
          obtain ⟨predictions, hall⟩ := s.loaded.foldl_insertPrediction rows
          rw [hstored, hloaded, hall]
          exact ⟨⟨hs.2, hs.2⟩, rfl⟩
      obtain rfl : s₁ = s₂ := by
        rcases hcheck with ⟨-, hnone, -⟩ | ⟨-, hsame⟩
        · exact absurd hnone hmid.1.1
        · exact hsame
      rw [ih hrest hmid.1, hmid.2]

theorem loadedStages_fst (hs : Opens r s) :
    (Engine.loadedStages env r s).map Prod.fst = Engine.stagesOfRun env r s.stored := by
  unfold Engine.loadedStages
  rw [List.map_filterMap]
  refine (List.filterMap_congr fun id hid => ?_).trans List.filterMap_some
  obtain ⟨row, hrow, -⟩ := (env.rows .runStages).mem_all.1 hid
  have hlt := (List.getElem?_eq_some_iff.1 hrow).1.trans_le hs.stored_le
  rw [List.getElem?_eq_getElem hlt]
  rfl

theorem mem_loadedStages {x : Nat × RunStage} (hs : Opens r s)
    (hx : x ∈ Engine.loadedStages env r s) :
    s.loaded.stages[x.1]? = some x.2 ∧ x.2.runId = r := by
  obtain ⟨id, hid, hmap⟩ := List.mem_filterMap.1 hx
  obtain ⟨stage, hstage, rfl⟩ := Option.map_eq_some_iff.1 hmap
  obtain ⟨row, hrow, hof⟩ := (env.rows .runStages).mem_all.1 hid
  exact ⟨hstage, (hs.shows_iff.1 ⟨id, row, hrow, of_decide_eq_true hof, hstage⟩).2⟩

/-- A store that shows no cross-check of the run shows none that the digests have added. -/
theorem Digested.shows_of_unchecked {stage : RunStage} (h : Digested env r s s') (hs : Opens r s)
    (hnone : s'.stored.Unchecked r) (hshows : Shows r s' stage) : Shows r s stage := by
  obtain ⟨checks, hloaded, hchecks, hstored⟩ := h.stages
  rcases (h.shows hs).1 hshows with hold | hcheck
  · exact hold
  obtain ⟨id, row, hrow, hof, hstage⟩ := hshows
  have hid : id < s.loaded.stages.length := by
    have hlt := (List.getElem?_eq_some_iff.1 hrow).1
    rcases hstored with hkept | ⟨shown, hleading, hshown⟩
    · rw [hkept] at hlt
      exact hlt.trans_le hs.stored_le
    · cases shown with
      | nil => simpa [hshown] using hlt
      | cons check shown =>
          have hadded := hchecks check (hleading.subset List.mem_cons_self)
          have hmem : check ∈ s'.stored.stages := by simp [hshown]
          exact absurd hadded.role (hnone check hmem hadded.runId)
  rw [hloaded, List.getElem?_append_left hid] at hstage
  have hmem := List.mem_of_getElem? hstage
  exact hs.shows_iff.2 ⟨hmem, hcheck.runId⟩

/-! ## Finalizing -/

theorem Advances.leavesCheck {run₀ : Run} {s₁ s₂ : Session Db}
    (h : Advances env fund runner r run₀ run s s₁ s₂ s') (hrun : s.loaded.runs[r]? = some run₀)
    (hnone : s₁.loaded.Unchecked r) :
    (AiFund.leavesCheck env fund run (Engine.loadedStages env r s₁) s₁.stored = true →
      s₂.stored.Unchecked r ∧ ∃ check ∈ s₂.loaded.stages, check.Checks env r) ∧
    (AiFund.leavesCheck env fund run (Engine.loadedStages env r s₁) s₁.stored = false →
      s₂.loaded.stages = s₁.loaded.stages ∨ ∃ check, Shows r s₂ check ∧ check.Checks env r) := by
  have hlife : run₀.life = run.life := by
    have hrow : s₂.loaded.runs[r]? = some run := by
      rw [(digested_forM h.digested).runs]
      exact h.row
    exact Option.some.inj ((Db.life_run hrun).symm.trans (h.life ▸ Db.life_run hrow))
  have hdigested := h.digested
  rw [← loadedStages_fst h.opens] at hdigested
  have hpredictions : s₁.loaded.predictions = s₁.stored.predictions :=
    congrArg Prod.fst h.opens.figures
  exact digests_leavesCheck hdigested (fun x hx => (mem_loadedStages h.opens hx).1)
    (fun x hx => (mem_loadedStages h.opens hx).2)
    ⟨congrArg RunLife.type hlife, congrArg RunLife.coverageId hlife⟩
    ⟨h.opens.unchecked_iff.2 hnone, hnone, h.row, rfl, hpredictions⟩

/-- An advance finalizes only what is done, exactly where the run was not running or what the runner
has left of it loses no cross-check. -/
theorem advanceRun_finalizesDone_iff (hs : AwaitsTurn r s)
    (h : Returns (Engine.advanceRun env fund runner r) s u s')
    (hrun : s.loaded.runs[r]? = some run) :
    FinalizesDone r s.loaded s'.loaded ↔ run.status ≠ .running ∨
      ∃ s₁ run₁, Returns (runner.drain r) s () s₁ ∧ s₁.loaded.runs[r]? = some run₁ ∧
        ¬ LosesCheck env fund r run₁ s₁ := by
  by_cases hrunning : run.status = .running
  · obtain ⟨run₁, s₁, s₂, hadvances⟩ := advances hs.opens h hrun hrunning
    have hdigested := digested_forM hadvances.digested
    have hstages : s'.loaded.stages = s₂.loaded.stages :=
      congrArg Prod.fst (fixes_settleRun hadvances.settled).1
    unfold FinalizesDone
    rw [hadvances.settles.movesOn_iff hadvances.synced hrun hrunning hadvances.life.symm, hstages]
    constructor
    · intro hfinal
      refine .inr ⟨s₁, run₁, hadvances.drained, hadvances.row, fun hloses => ?_⟩
      obtain ⟨hnone, check, hcheck, hadded⟩ :=
        (hadvances.leavesCheck hrun hloses.unchecked).1 hloses.leaves
      have hdone := hfinal ⟨fun stage hshows => ?_, hloses.budget⟩ check hcheck hadded.runId
      · simp [hadded.status] at hdone
      · obtain ⟨hstage, hof⟩ := hadvances.opens.shows_iff.1
          (hdigested.shows_of_unchecked hadvances.opens hnone hshows)
        exact hloses.done stage hstage hof
    · rintro (hnot | ⟨s₁', run₁', hdrained, hrow, hkeeps⟩) ⟨hdone, hbudget⟩ stage hstage hof
      · exact absurd hrunning hnot
      obtain ⟨-, rfl⟩ := EStateM.Result.ok.inj (hdrained.symm.trans hadvances.drained)
      obtain rfl := Option.some.inj (hrow.symm.trans hadvances.row)
      have hold (stage : RunStage) (hstage : stage ∈ s₁'.loaded.stages) (hof : stage.runId = r) :
          stage.status = .succeeded ∨ stage.status = .skipped :=
        hdone stage ((hdigested.shows hadvances.opens).2
          (hadvances.opens.shows_iff.2 ⟨hstage, hof⟩))
      by_cases hadds : s₂.loaded.stages = s₁'.loaded.stages
      · exact hold stage (hadds ▸ hstage) hof
      have hnone : s₁'.loaded.Unchecked r := by
        by_contra hcrossed
        exact hadds (digests_checked hadvances.digested
          ⟨mt hadvances.opens.unchecked_iff.1 hcrossed, hcrossed⟩)
      refine absurd ⟨hold, hbudget, hnone, ?_⟩ hkeeps
      by_contra hshown
      rcases (hadvances.leavesCheck hrun hnone).2 (Bool.eq_false_iff.2 hshown) with
        hsame | ⟨check, hshows, hadded⟩
      · exact hadds hsame
      · have hdone := hdone check hshows
        simp [hadded.status] at hdone
  · unfold Engine.advanceRun at h
    obtain ⟨-, row, hrow, h⟩ := returns_getRow_bind.1 h
    obtain rfl : run = row := Option.some.inj (hrun.symm.trans hrow)
    rw [if_pos hrunning] at h
    obtain ⟨-, rfl⟩ := returns_pure.1 h
    exact iff_of_true (fun hmoves => absurd hmoves not_movesOn_self) (.inl hrunning)

/-- A run that reasons anew about a stock that was priced at 100, and whose only stage is being
worked on. -/
def Db.repricing : Db where
  houses := [{ key := "gpt" }]
  coverages :=
    [{ ticker := "7203", exchange := "TSE", name := "Toyota", currency := "JPY", state := .active,
       leadHouse := some "gpt", dossierSlug := "tse-7203" }]
  runs :=
    [{ coverageId := some 0, type := .initiation, status := .succeeded, trigger := "pm",
       mutatesDossier := true, createdAt := 0 },
     { coverageId := some 0, type := .eventAnalysis, status := .running, trigger := "pm",
       mutatesDossier := true, createdAt := 0 }]
  locks := [{ coverageId := 0, runId := 1, acquiredAt := 0 }]
  stages :=
    [{ runId := 0, seq := 1, role := .author, house := "gpt", substrate := .harness,
       status := .succeeded, availableAt := 0, attempts := 1, maxAttempts := 3 },
     { runId := 1, seq := 1, role := .author, house := "gpt", substrate := .harness,
       status := .running, availableAt := 0, claimedBy := some "w1", attempts := 1,
       maxAttempts := 3 }]
  predictions :=
    [{ coverageId := 0, runId := 0, stageId := 0, house := "gpt", kind := "target_price",
       value := some (.finite 100 0), currency := some "JPY", stance := none,
       scenarioLabel := none, scenarioProb := none, scenarioGroup := none,
       horizonDate := ⟨2027, 1, 1⟩, confidence := none, rationaleRef := none,
       idempotencyKey := "prior", createdAt := 0, direction := none, pinnedPrice := none }]

/-- The worker completes the stage with the result. -/
def Engine.Runner.reporting (result : JsonObject) : Engine.Runner :=
  ⟨fun _ => [(.quiet 2, .complete 1 { workerId := "w1" } result)]⟩

def JsonObject.repriced : JsonObject :=
  [("predictions", .arr [.obj [("kind", .str "target_price"), ("value", .int 200),
    ("currency", .str "JPY"), ("horizon_date", .str "2027-01-01")]])]

theorem awaitsTurn_repricing : AwaitsTurn 1 (Session.clean Db.repricing) :=
  .clean _ (List.forall_mem_nil _)

theorem advanceRun_finalizesDone_quiet :
    ∃ s', Returns (Engine.advanceRun (.quiet 2) App.small.fund (.reporting []) 1)
        (Session.clean Db.repricing) () s' ∧
      (s'.loaded.runs.map fun run => decide (run.status = .succeeded)) = [true, true] ∧
      FinalizesDone 1 Db.repricing s'.loaded := by
  obtain ⟨⟨⟩, s', hs', hafter⟩ := exists_returns
    (p := fun _ s => decide
      ((s.loaded.runs.map fun run => decide (run.status = .succeeded)) = [true, true]))
    (m := Engine.advanceRun (.quiet 2) App.small.fund (.reporting []) 1)
    (s := Session.clean Db.repricing) (by decide +kernel)
  obtain ⟨⟨⟩, s₁, hs₁, hdrained⟩ := exists_returns
    (p := fun _ s => s.loaded.runs[1]?.any fun run =>
      !leavesCheck (.quiet 2) App.small.fund run (Engine.loadedStages (.quiet 2) 1 s) s.stored)
    (m := (Engine.Runner.reporting []).drain 1) (s := Session.clean Db.repricing)
    (by decide +kernel)
  obtain ⟨run₁, hrun₁, hleaves⟩ := (Option.any_eq_true _ _).1 hdrained
  rw [Bool.not_eq_true'] at hleaves
  refine ⟨s', hs', of_decide_eq_true hafter,
    (advanceRun_finalizesDone_iff awaitsTurn_repricing hs' rfl).2
      (.inr ⟨s₁, run₁, hs₁, hrun₁, fun hloses => ?_⟩)⟩
  exact Bool.false_ne_true (hleaves.symm.trans hloses.leaves)

/-- The price doubles: the run succeeds with the cross-check still queued. -/
theorem not_finalizesDone_repriced :
    ¬ ∀ (env : Env) (fund : FundConfig) (runner : Engine.Runner) (r : Nat) (s s' : Session Db)
      (run : Run), AwaitsTurn r s → Returns (Engine.advanceRun env fund runner r) s () s' →
      s.loaded.runs[r]? = some run → FinalizesDone r s.loaded s'.loaded := by
  intro h
  obtain ⟨⟨⟩, s', hs', hafter⟩ := exists_returns
    (p := fun _ s => (s.loaded.runs[1]?.any fun run : Run => decide (run.status = .succeeded)) &&
      s.loaded.stages.any fun stage => decide (stage.runId = 1 ∧ stage.status = .queued))
    (m := Engine.advanceRun (.quiet 2) App.small.fund (.reporting JsonObject.repriced) 1)
    (s := Session.clean Db.repricing) (by decide +kernel)
  rw [Bool.and_eq_true, Option.any_eq_true, List.any_eq_true] at hafter
  obtain ⟨⟨run', hrun', hsucceeded⟩, stage, hstage, hqueued⟩ := hafter
  obtain ⟨hof, hqueued⟩ := of_decide_eq_true hqueued
  have hmoves : MovesOn 1 (Session.clean Db.repricing).loaded s'.loaded :=
    .inl ⟨_, run', rfl, hrun', by decide, of_decide_eq_true hsucceeded⟩
  have hdone := h _ _ _ _ _ _ _ awaitsTurn_repricing hs' rfl hmoves stage hstage hof
  simp [hqueued] at hdone

end AiFund
