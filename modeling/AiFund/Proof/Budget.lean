import AiFund.Proof.Costs
import AiFund.Proof.Settling

/-!
# The budget cap of a run

An advance compares the cap with the cost that the last report has left on the run, which lags
behind the attempts, and it does so only after it has looked for failures and backoffs.
-/

namespace AiFund

open UnitOfWork Rows

variable {env : Env} {fund : FundConfig} {runner : Engine.Runner} {r : Nat} {run : Run} {db : Db}
  {s s' : Session Db} {u : Unit} {cap : ℚ}

/-- If the attempts have cost more than the cap then the run is not running, and it has not been
moved on. -/
def HonoursCap (r : Nat) (cap : ℚ) (before after : Db) : Prop :=
  cap < attemptCost after r →
    (∀ run, after.runs[r]? = some run → run.status ≠ .running) ∧ ¬ MovesOn r before after

/-- The attempts have cost no more than the cap, or the run counts more than that, or a stage stops
it before its cost is looked at. -/
def Db.Capped (db : Db) (now : Time) (r : Nat) (cap : ℚ) (run : Run) : Prop :=
  attemptCost db r ≤ cap ∨ cap < run.costUsd ∨ ∃ stage ∈ db.stages, stage.runId = r ∧
    (stage.status = .failed ∨ Engine.backoffPending now stage = true)

/-! ## Costs -/

theorem attemptCost_append {checks : List RunStage} {after : Db}
    (hattached : ∀ a ∈ db.attempts, a.stageId < db.stages.length)
    (hstages : after.stages = db.stages ++ checks) (hattempts : after.attempts = db.attempts) :
    attemptCost after r = attemptCost db r := by
  unfold attemptCost
  rw [hattempts]
  refine congrArg (fun rows : List StageAttempt => (rows.map (·.costUsd)).sum)
    (List.filter_congr fun a ha => ?_)
  rw [hstages, List.getElem?_append_left (hattached a ha)]

/-- The advance reports no cost beside what the runner reports. -/
theorem Advances.attemptCost_eq {run₀ : Run} {s₁ s₂ : Session Db}
    (h : Advances env fund runner r run₀ run s s₁ s₂ s') :
    attemptCost s'.loaded r = attemptCost s₁.loaded r := by
  have hdigested := digested_forM h.digested
  obtain ⟨checks, hstages, -, -⟩ := hdigested.stages
  have htables : s'.loaded.stageTables = s₂.loaded.stageTables := (fixes_settleRun h.settled).1
  have hstages' : s'.loaded.stages = s₂.loaded.stages := congrArg Prod.fst htables
  have hattempts' : s'.loaded.attempts = s₂.loaded.attempts := congrArg Prod.snd htables
  exact attemptCost_append h.opens.attempts.2.attempts (hstages'.trans hstages)
    (hattempts'.trans hdigested.attempts)

/-- The run keeps the cap that it was created with. -/
theorem Advances.budgetCapUsd_eq {run₀ : Run} {s₁ s₂ : Session Db} (hs : Opens r s)
    (h : Advances env fund runner r run₀ run s s₁ s₂ s') (hrun : s.loaded.runs[r]? = some run₀) :
    run.budgetCapUsd = run₀.budgetCapUsd := by
  obtain ⟨-, hfigures⟩ :=
    upholds_drain (overlooks_figures (· = s.loaded.figures)).toOverlooks r h.drained
      ⟨hs.figures.symm, rfl⟩
  have hcaps : s₁.loaded.runs.map (·.budgetCapUsd) = s.loaded.runs.map (·.budgetCapUsd) :=
    congrArg Prod.snd hfigures
  have hcap := congrArg (fun caps => caps[r]?) hcaps
  simpa [h.row, hrun] using hcap

theorem Engine.runOverBudget_iff (hcap : run.budgetCapUsd = some cap) (hpos : 0 < cap) :
    Engine.runOverBudget run = true ↔ cap < run.costUsd := by
  simp [Engine.runOverBudget, hcap, hpos.ne']

/-- A cross-check that has just been added neither has failed nor waits. -/
theorem RunStage.Checks.goesOn {check : RunStage} (h : check.Checks env r) :
    ¬ (check.status = .failed ∨ Engine.backoffPending env.now check = true) := by
  simp [Engine.backoffPending, h.status, h.availableAt]

/-- The digests show no stage that would stop the run. -/
theorem Advances.stopped_iff {run₀ : Run} {s₁ s₂ : Session Db}
    (h : Advances env fund runner r run₀ run s s₁ s₂ s') :
    (∃ stage, Shows r s₂ stage ∧
        (stage.status = .failed ∨ Engine.backoffPending env.now stage = true)) ↔
      ∃ stage ∈ s₁.loaded.stages, stage.runId = r ∧
        (stage.status = .failed ∨ Engine.backoffPending env.now stage = true) := by
  constructor
  · rintro ⟨stage, hshows, hstops⟩
    rcases ((digested_forM h.digested).shows h.opens).1 hshows with hold | hcheck
    · obtain ⟨hstage, hof⟩ := h.opens.shows_iff.1 hold
      exact ⟨stage, hstage, hof, hstops⟩
    · exact absurd hstops hcheck.goesOn
  · rintro ⟨stage, hstage, hof, hstops⟩
    exact ⟨stage, ((digested_forM h.digested).shows h.opens).2 (h.opens.shows_iff.2 ⟨hstage, hof⟩),
      hstops⟩

/-! ## The cap -/

/-- An advance honours the cap exactly where the run was not running, or where what the runner has
left of it keeps to the cap, counts more than the cap or is stopped by a stage. -/
theorem advanceRun_honoursCap_iff (hs : AwaitsTurn r s)
    (h : Returns (Engine.advanceRun env fund runner r) s u s')
    (hrun : s.loaded.runs[r]? = some run) (hcap : run.budgetCapUsd = some cap) (hpos : 0 < cap) :
    HonoursCap r cap s.loaded s'.loaded ↔ run.status ≠ .running ∨
      ∃ s₁ run₁, Returns (runner.drain r) s () s₁ ∧ s₁.loaded.runs[r]? = some run₁ ∧
        s₁.loaded.Capped env.now r cap run₁ := by
  by_cases hrunning : run.status = .running
  · obtain ⟨run₁, s₁, s₂, hadvances⟩ := advances hs.opens h hrun hrunning
    have hover := Engine.runOverBudget_iff
      ((hadvances.budgetCapUsd_eq hs.opens hrun).trans hcap) hpos
    have hstops := hadvances.settles.stops_iff hadvances.synced hrun hrunning hadvances.life.symm
    unfold HonoursCap
    rw [hadvances.attemptCost_eq, hstops, hover, hadvances.stopped_iff]
    constructor
    · intro hhonours
      refine .inr ⟨s₁, run₁, hadvances.drained, hadvances.row, ?_⟩
      by_cases hcost : attemptCost s₁.loaded r ≤ cap
      · exact .inl hcost
      · rcases hhonours (not_le.1 hcost) with hstage | hcounts
        · exact .inr (.inr hstage)
        · exact .inr (.inl hcounts)
    · rintro (hnot | ⟨s₁', run₁', hdrained, hrow, hcapped⟩) hcost
      · exact absurd hrunning hnot
      · obtain ⟨-, rfl⟩ := EStateM.Result.ok.inj (hdrained.symm.trans hadvances.drained)
        obtain rfl := Option.some.inj (hrow.symm.trans hadvances.row)
        rcases hcapped with hkept | hcounts | hstage
        · exact absurd hkept (not_le.2 hcost)
        · exact .inr hcounts
        · exact .inl hstage
  · unfold Engine.advanceRun at h
    obtain ⟨-, row, hrow, h⟩ := returns_getRow_bind.1 h
    obtain rfl : run = row := Option.some.inj (hrun.symm.trans hrow)
    rw [if_pos hrunning] at h
    obtain ⟨-, rfl⟩ := returns_pure.1 h
    refine iff_of_true (fun _ => ⟨fun run' hrun' => ?_, not_movesOn_self⟩) (.inl hrunning)
    obtain rfl := Option.some.inj (hrun.symm.trans hrun')
    exact hrunning

/-- A run with a cap of 10 whose only stage is being worked on. -/
def Db.cappedRun : Db :=
  runQueue (Db.oneRun (some 10)).withoutStages QueueOp.pmQueryClaimed

/-- The worker completes the stage at the cost given. -/
def Engine.Runner.costing (costUsd : ℚ) : Engine.Runner :=
  ⟨fun _ => [(.quiet 2, .complete 0 { workerId := "w1", costUsd } [])]⟩

theorem awaitsTurn_cappedRun : AwaitsTurn 0 (Session.clean Db.cappedRun) :=
  .clean _ (by decide +kernel)

theorem Db.cappedRun_run : ∃ run, Db.cappedRun.runs[0]? = some run ∧
    run.budgetCapUsd = some 10 ∧ run.status = .running := by
  have hany : (Db.cappedRun.runs[0]?.any fun run =>
      decide (run.budgetCapUsd = some 10 ∧ run.status = .running)) = true := by decide +kernel
  obtain ⟨run, hrun, hdecide⟩ := (Option.any_eq_true _ _).1 hany
  exact ⟨run, hrun, of_decide_eq_true hdecide⟩

/-- The worker fails the stage at twice the cap, takes it again after the delay and completes it. -/
def Engine.Runner.retrying : Engine.Runner :=
  ⟨fun _ => [(.quiet 2, .fail 0 { workerId := "w1", costUsd := 20 } true ⟨60, 3600, 0⟩),
    (.quiet 100, .claim "w1" [] [] 60),
    (.quiet 101, .complete 0 { workerId := "w1", costUsd := 1 } [])]⟩

/-- The second report counts what the first one cost, and the run is paused. -/
theorem advanceRun_honoursCap_paused :
    ∃ s', Returns (Engine.advanceRun (.quiet 101) App.small.fund .retrying 0)
        (Session.clean Db.cappedRun) () s' ∧ 10 < attemptCost s'.loaded 0 ∧
      (∃ run, s'.loaded.runs[0]? = some run ∧ run.status = .waitingPm) ∧
      HonoursCap 0 10 Db.cappedRun s'.loaded := by
  obtain ⟨⟨⟩, s', hs', hpaused⟩ := exists_returns
    (p := fun _ s => decide (10 < attemptCost s.loaded 0) &&
      s.loaded.runs[0]?.any fun run => run.status = .waitingPm)
    (m := Engine.advanceRun (.quiet 101) App.small.fund .retrying 0)
    (s := Session.clean Db.cappedRun) (by decide +kernel)
  obtain ⟨⟨⟩, s₁, hs₁, hcounts⟩ := exists_returns
    (p := fun _ s => s.loaded.runs[0]?.any fun run => 10 < run.costUsd)
    (m := Engine.Runner.retrying.drain 0) (s := Session.clean Db.cappedRun) (by decide +kernel)
  rw [Bool.and_eq_true, decide_eq_true_eq, Option.any_eq_true] at hpaused
  obtain ⟨hcost, run', hrun', hwaiting⟩ := hpaused
  obtain ⟨run₁, hrun₁, hover⟩ := (Option.any_eq_true _ _).1 hcounts
  obtain ⟨run, hrun, hcap, -⟩ := Db.cappedRun_run
  exact ⟨s', hs', hcost, ⟨run', hrun', of_decide_eq_true hwaiting⟩,
    (advanceRun_honoursCap_iff awaitsTurn_cappedRun hs' hrun hcap (by decide)).2
      (.inr ⟨s₁, run₁, hs₁, hrun₁, .inr (.inl (of_decide_eq_true hover))⟩)⟩

/-- A stage that costs twice the cap finishes its run. -/
theorem not_honoursCap_double :
    ¬ ∀ (env : Env) (fund : FundConfig) (runner : Engine.Runner) (r : Nat) (s s' : Session Db)
      (run : Run) (cap : ℚ), AwaitsTurn r s →
      Returns (Engine.advanceRun env fund runner r) s () s' → s.loaded.runs[r]? = some run →
      run.budgetCapUsd = some cap → 0 < cap → HonoursCap r cap s.loaded s'.loaded := by
  intro h
  obtain ⟨⟨⟩, s', hs', hafter⟩ := exists_returns
    (p := fun _ s => decide (10 < attemptCost s.loaded 0) &&
      s.loaded.runs[0]?.any fun run => run.status = .succeeded)
    (m := Engine.advanceRun (.quiet 2) App.small.fund (.costing 20) 0)
    (s := Session.clean Db.cappedRun) (by decide +kernel)
  rw [Bool.and_eq_true, decide_eq_true_eq, Option.any_eq_true] at hafter
  obtain ⟨hcost, run', hrun', hsucceeded⟩ := hafter
  obtain ⟨run, hrun, hcap, hrunning⟩ := Db.cappedRun_run
  refine (h _ _ _ _ _ _ _ _ awaitsTurn_cappedRun hs' hrun hcap (by decide) hcost).2
    (.inl ⟨run, run', hrun, hrun', ?_, of_decide_eq_true hsucceeded⟩)
  rw [hrunning]
  decide

end AiFund
