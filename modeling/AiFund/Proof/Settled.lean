import AiFund.Progress
import AiFund.Proof.Draining
import AiFund.Proof.Reliable
import AiFund.Proof.Settling

/-!
# Two advances settle a run

A runner that hangs on nothing leaves no stage that could be claimed. So an advance takes its run out
of the running ones, unless another worker holds a stage, time has passed, or a cross-check was
added; and a cross-check is added once.
-/

namespace AiFund

open UnitOfWork Rows

variable {env : Env} {app : App} {fund : FundConfig} {db db' : Db} {s s' : Session Db} {r : Nat}
  {run : Run} {u : Unit}

/-! ## Digests -/

/-- The store shows a part of the session's stages. -/
def Leading (s : Session Db) : Prop := s.stored.stages <+: s.loaded.stages

theorem registered_stages {id : Nat} {entries : List PredictionIn}
    {found : List (Option Prediction)} (h : Returns (registerFromStage env id entries) s found s') :
    s'.loaded.stages = s.loaded.stages ∧ s'.stored.stages = s.loaded.stages := by
  obtain ⟨_, _, rows, -, -, -, hstored, hloaded⟩ := returns_registerFromStage_rows h
  obtain ⟨predictions, hall⟩ := s.loaded.foldl_insertPrediction rows
  rw [hstored, hloaded, hall]
  exact ⟨rfl, rfl⟩

theorem Db.Unchecked.of_subset (h : db'.Unchecked r) (hsub : db.stages ⊆ db'.stages) :
    db.Unchecked r :=
  fun stage hstage => h stage (hsub hstage)

theorem Leading.of_eq (h : s.stored.stages = s.loaded.stages) : Leading s := by
  unfold Leading
  exact h ▸ List.prefix_rfl

/-- A stage that a digest adds is the first cross-check of its run, as far as the store shows. -/
theorem digest_unchecked {id : Nat} (hs : Leading s)
    (h : Returns (Engine.digestStage env fund r run id) s u s') :
    (s'.loaded.stages = s.loaded.stages ∨ s.stored.Unchecked r) ∧
      s.stored.stages <+: s'.stored.stages ∧ Leading s' := by
  obtain ⟨stage, s₁, -, hregister, hcheck⟩ := returns_digestStage h
  have hfirst : s₁.loaded.stages = s.loaded.stages ∧ s.stored.stages <+: s₁.stored.stages ∧
      Leading s₁ := by
    rcases hregister with ⟨-, rfl⟩ | ⟨-, found, hfound⟩
    · exact ⟨rfl, List.prefix_rfl, hs⟩
    · obtain ⟨hloaded, hstored⟩ := registered_stages hfound
      exact ⟨hloaded, hstored ▸ hs, .of_eq (hstored.trans hloaded.symm)⟩
  obtain ⟨hloaded, hshown, hleading⟩ := hfirst
  rcases hcheck with ⟨-, hunchecked, check, -, rfl⟩ | ⟨-, rfl⟩
  · exact ⟨.inr (hunchecked.of_subset hshown.subset), hshown,
      hleading.trans (List.prefix_append _ _)⟩
  · exact ⟨.inl hloaded, hshown, hleading⟩

theorem digests_unchecked {ids : List Nat} (hs : Leading s)
    (h : Returns (ids.forM (Engine.digestStage env fund r run)) s u s') :
    s'.loaded.stages = s.loaded.stages ∨ s.stored.Unchecked r := by
  induction ids generalizing s with
  | nil =>
      obtain ⟨-, rfl⟩ := returns_pure.1 h
      exact .inl rfl
  | cons id ids ih =>
      obtain ⟨_, s₁, hfirst, hrest⟩ := returns_bind.1 h
      obtain ⟨hadded, hshown, hleading⟩ := digest_unchecked hs hfirst
      rcases ih hleading hrest with hsame | hunchecked
      · rcases hadded with hkept | hunchecked
        · exact .inl (hsame.trans hkept)
        · exact .inr hunchecked
      · exact .inr (hunchecked.of_subset hshown.subset)

/-! ## One advance -/

/-- The runner hangs on no stage. -/
def FakeRunner.Diligent (runner : FakeRunner) : Prop := runner.hangRoles = []

/-- A run whose stages offer nothing to claim, and that has not failed, waits for a stage that is
running or not available yet. -/
theorem Grounded.waits {last : Time} (h : Grounded r db.plans)
    (hnothing : ∀ stage ∈ db.stages, AiFund.claimable db last [] [] stage = false)
    (hrun : db.runs[r]? = some run) (hrunning : run.status = .running)
    (hfailed : ∀ stage ∈ db.stages, stage.runId = r → stage.status ≠ .failed)
    (hopen : ∃ stage ∈ db.stages, stage.runId = r ∧ Engine.stageDone stage = false) :
    ∃ stage ∈ db.stages, stage.runId = r ∧
      (stage.status = .running ∨ stage.status = .queued ∧ last < stage.availableAt) := by
  by_contra hnone
  simp only [not_exists, not_and, not_or, not_lt] at hnone
  have hidle (stage : RunStage) (hstage : stage ∈ db.stages) (hof : stage.runId = r) :
      stage.status ≠ .running := (hnone stage hstage hof).1
  obtain ⟨waiting, hwaiting, hof, hdone⟩ := hopen
  have hqueued : waiting.status = .queued := by
    have hrunning := hidle waiting hwaiting hof
    cases hstatus : waiting.status <;> simp_all [Engine.stageDone]
  obtain ⟨stage, hstage, -, hclaimable⟩ := h.claimable
    { run := ⟨run, hrun, hrunning⟩
      idle := fun stage hstage hof => ⟨hidle stage hstage hof, hfailed stage hstage hof⟩
      queued := ⟨waiting, hwaiting, hof, hqueued⟩
      available := fun stage hstage hof hqueued => (hnone stage hstage hof).2 hqueued }
  rw [hnothing stage hstage] at hclaimable
  cases hclaimable

/-- What an advance with a diligent runner is made of, from a reliable store. -/
theorem returns_advance {draining : Draining} {clock : Nat → Env} {memory : FakeRunner.Memory}
    (hdb : db.Reliable) (hrun : db.runs[r]? = some run) (hrunning : run.status = .running)
    (h : Returns (draining.advance env fund clock r) (Session.clean db) memory s') :
    ∃ memory' n written db₁ s₂,
      draining.runner.Drains (clock (2 * n)) draining.workerId draining.memory memory' n db db₁ ∧
      (draining.drained clock db).after = db₁ ∧
      draining.lastLook clock db = (clock (2 * n)).now ∧
      Returns ((Engine.stagesOfRun env r db₁).forM (Engine.digestStage env fund r run))
        ⟨db₁, db₁, written⟩ ⟨⟩ s₂ ∧ Returns (Engine.settleRun env r) s₂ () s' := by
  unfold Draining.advance Engine.advanceWith at h
  obtain ⟨-, row, hrow, h⟩ := returns_getRow_bind.1 h
  obtain rfl : run = row := Option.some.inj (hrun.symm.trans hrow)
  rw [if_neg (not_not.2 hrunning)] at h
  obtain ⟨memory₁, s₁, hdrained, h⟩ := returns_bind.1 h
  obtain ⟨drained, s₀, hdrain, hpure⟩ := returns_bind.1 hdrained
  obtain ⟨-, rfl⟩ := returns_pure.1 hpure
  obtain ⟨memory', n, written, db₁, hends, hdrains⟩ :=
    FakeRunner.drain_drains draining.runner clock draining.memory draining.workerId
      draining.leaseSeconds [] hdb.accounted hdb.legal
  obtain ⟨-, rfl⟩ := EStateM.Result.ok.inj (hdrain.symm.trans hends)
  rw [returns_select_bind] at h
  obtain ⟨_, s₂, hdigest, h⟩ := returns_bind.1 h
  obtain ⟨_, s₃, hsettle, hpure⟩ := returns_bind.1 h
  obtain ⟨-, rfl⟩ := returns_pure.1 hpure
  have hcommit : draining.drained clock db = ⟨.ok (some (memory', n)), db₁, written ++ [db₁]⟩ :=
    commit_of_returns hends hdrains.works.legal
  refine ⟨memory', n, written, db₁, s₂, hdrains, congrArg Outcome.after hcommit, ?_, hdigest, hsettle⟩
  unfold Draining.lastLook
  rw [hcommit]

theorem Reaches.rests {status : RunStatus} {gates : List GateLife}
    (h : Reaches r status gates db.life db'.life) (hstatus : status ≠ .running) : db'.Rests r :=
  fun _ hrun => (h.status_eq hrun).symm ▸ hstatus

/-- A settlement that does not take the run out of the running ones leaves the session as it is. -/
theorem Settles.rests_or_waits (h : Settles env r run s s') (hs : Synced Db.life s) :
    s'.loaded.Rests r ∨ s' = s ∧
      (∀ stage, Shows r s stage →
        stage.status ≠ .failed ∧ Engine.backoffPending env.now stage = false) ∧
      ∃ stage, Shows r s stage ∧ Engine.stageDone stage = false := by
  have htakes {e : LifeEvent} (h : Takes e s s') : LifeStep e s.loaded.life s'.loaded.life :=
    h.reaches hs rfl
  cases h with
  | fail _ h => exact .inl ((reaches_fail (htakes h)).rests (by decide))
  | requeue _ _ h => exact .inl ((reaches_requeue (htakes h)).rests (by decide))
  | pause _ _ h =>
      obtain ⟨covId, hreaches⟩ := reaches_pause (htakes h)
      exact .inl (hreaches.rests (by decide))
  | wait hnone _ hopen hstill => exact .inr ⟨hstill, hnone, hopen⟩
  | finalize _ _ h =>
      rcases h with hdeliver | hsucceed
      · obtain ⟨covId, hreaches⟩ := reaches_deliver (htakes hdeliver)
        exact .inl (hreaches.rests (by decide))
      · exact .inl ((reaches_succeed (htakes hsucceed)).rests (by decide))

/-- What a diligent runner has worked on is not running. -/
theorem FakeRunner.Works.held {runner : FakeRunner} {workerId : String} {stage : RunStage}
    (h : runner.Works workerId db db') (hdiligent : runner.Diligent) (hstage : stage ∈ db'.stages)
    (hstatus : stage.status = .running) : stage ∈ db.stages := by
  obtain ⟨id, hid⟩ := List.getElem?_of_mem hstage
  obtain hkept | ⟨_, -, -, hleaves⟩ := h.stages id stage hid
  · exact List.mem_of_getElem? hkept
  · cases hleaves with
    | hangs _ _ hrole =>
        rw [hdiligent] at hrole
        cases hrole
    | succeeded h => cases hstatus.symm.trans h
    | queued h _ => cases hstatus.symm.trans h
    | failed h _ _ => cases hstatus.symm.trans h

theorem Db.unchecked_plans (h : db'.plans = db.plans) (hunchecked : db'.Unchecked r) :
    db.Unchecked r := by
  intro stage hstage hof hrole
  have hplan : stage.plan ∈ db'.plans := by
    rw [h]
    exact List.mem_map_of_mem hstage
  obtain ⟨row, hrow, heq⟩ := List.mem_map.1 hplan
  simp only [RunStage.plan, Prod.mk.injEq] at heq
  exact hunchecked row hrow (heq.1.trans hof) (heq.2.2.1.trans hrole)

/-- A session that shows and stores the same stages shows those of the run. -/
theorem shows_of_eq {stage : RunStage} (hstored : s.stored.stages = db.stages)
    (hloaded : s.loaded.stages = db.stages) :
    Shows r s stage ↔ stage ∈ db.stages ∧ stage.runId = r := by
  unfold Shows
  rw [hstored, hloaded]
  constructor
  · rintro ⟨id, row, hrow, hof, hstage⟩
    obtain rfl : row = stage := Option.some.inj (hrow.symm.trans hstage)
    exact ⟨List.mem_of_getElem? hstage, hof⟩
  · rintro ⟨hstage, hof⟩
    obtain ⟨id, hid⟩ := List.getElem?_of_mem hstage
    exact ⟨id, stage, hid, hof, hid⟩

/-- From any reliable store, an advance with a diligent runner takes its run out of the running ones,
or another worker holds a stage of it, or one has become available since the runner's last look, or
the run has got its cross-check. -/
theorem advance_rests {draining : Draining} {clock : Nat → Env} {memory : FakeRunner.Memory}
    (hdb : db.Reliable) (hdiligent : draining.runner.Diligent)
    (h : (commit (draining.advance env fund clock r) db).result = .ok memory) :
    (commit (draining.advance env fund clock r) db).after.Rests r ∨
      KeptRunning r draining clock env.now db
        (commit (draining.advance env fund clock r) db).after := by
  obtain ⟨s', hreturns, -, hafter⟩ := commit_result h
  rw [hafter]
  obtain ⟨-, run, hrun, hbody⟩ := returns_getRow_bind.1 hreturns
  by_cases hrunning : run.status = .running
  · obtain ⟨memory', n, written, db₁, s₂, hdrains, hdrained, hlook, hdigest, hsettle⟩ :=
      returns_advance hdb hrun hrunning hreturns
    have hgrounded : Grounded r db₁.plans := by
      rw [hdrains.works.plans]
      exact hdb.grounded r
    have hnothing : ∀ stage ∈ db₁.stages,
        claimable db₁ (clock (2 * n)).now [] [] stage = false := by
      obtain hnothing | ⟨stage, -, -, -, hrole⟩ := hdrains.stops
      · exact hnothing
      · rw [hdiligent] at hrole
        cases hrole
    obtain ⟨run₁, hrun₁, hlife⟩ : ∃ run₁, db₁.runs[r]? = some run₁ ∧ run₁.life = run.life := by
      refine Db.life_runs_eq_some.1 ?_
      rw [hdrains.works.life]
      exact Db.life_run hrun
    have hrunning₁ : run₁.status = .running := (congrArg RunLife.status hlife).trans hrunning
    have hdigested := digested_forM hdigest
    have hsynced : Synced Db.life s₂ :=
      (Keeps.forM (fun _ => keeps_digestStage) hdigest rfl).synced
    have hsettles := settles_settleRun hsettle hsynced (hdigested.runs.symm ▸ hrun₁) hrunning₁
    obtain hrests | ⟨rfl, hnone, hopen⟩ := hsettles.rests_or_waits hsynced
    · exact .inl hrests
    obtain ⟨checks, hloaded, hchecks, hstored⟩ := hdigested.stages
    refine .inr ?_
    cases checks with
    | cons check checks =>
        have hcheck := hchecks check List.mem_cons_self
        have hunchecked : db₁.Unchecked r := by
          have hleading : Leading (⟨db₁, db₁, written⟩ : Session Db) := .of_eq rfl
          obtain hsame | hunchecked := digests_unchecked hleading hdigest
          · simp [hloaded] at hsame
          · exact hunchecked
        refine .checked (Db.unchecked_plans hdrains.works.plans hunchecked) check ?_ hcheck.runId
          hcheck.role
        rw [hloaded]
        simp
    | nil =>
        have hkept : s'.loaded.stages = db₁.stages := by simpa using hloaded
        have hshown : s'.stored.stages = db₁.stages := by
          obtain hsame | ⟨shown, hshown, hsame⟩ := hstored
          · exact hsame
          · obtain rfl := List.prefix_nil.1 hshown
            simpa using hsame
        simp only [shows_of_eq hshown hkept] at hnone hopen
        obtain ⟨stage, hstage, hof, hwaits⟩ := hgrounded.waits hnothing hrun₁ hrunning₁
          (fun stage hstage hof => (hnone stage ⟨hstage, hof⟩).1)
          (by simpa only [and_assoc] using hopen)
        rcases hwaits with hheld | ⟨hqueued, hlast⟩
        · exact .held stage (hdrains.works.held hdiligent hstage hheld) (hkept ▸ hstage) hof hheld
        · refine .ripened fun hsteady => ?_
          have hpending := (hnone stage ⟨hstage, hof⟩).2
          have hnow : stage.availableAt ≤ env.now := by
            simpa [Engine.backoffPending, hqueued] using hpending
          have hlater := hsteady stage (hdrained ▸ hstage) hof hqueued (hlook ▸ hlast)
          exact absurd hnow (not_le.2 hlater)
  · rw [if_pos hrunning] at hbody
    obtain ⟨-, rfl⟩ := returns_pure.1 hbody
    refine .inl fun row hrow => ?_
    obtain rfl : run = row := Option.some.inj (hrun.symm.trans hrow)
    exact hrunning

/-! ## Two advances -/

section Advances

variable {draining draining' : Draining} {clock clock' : Nat → Env} {env' : Env}
  {memory memory' : FakeRunner.Memory}

/-- An advance of a run that is not running changes nothing. -/
theorem advance_resting (hrests : db.Rests r)
    (h : (commit (draining.advance env fund clock r) db).result = .ok memory) :
    (commit (draining.advance env fund clock r) db).after = db := by
  obtain ⟨s', hreturns, -, hafter⟩ := commit_result h
  obtain ⟨-, run, hrun, hbody⟩ := returns_getRow_bind.1 hreturns
  rw [if_pos (hrests run hrun)] at hbody
  obtain ⟨-, rfl⟩ := returns_pure.1 hbody
  exact hafter

/-- A stage that is running after an advance with a diligent runner was running before. -/
theorem advance_held {stage : RunStage} (hdb : db.Reliable)
    (hdiligent : draining.runner.Diligent)
    (h : (commit (draining.advance env fund clock r) db).result = .ok memory)
    (hstage : stage ∈ (commit (draining.advance env fund clock r) db).after.stages)
    (hstatus : stage.status = .running) : stage ∈ db.stages := by
  obtain ⟨s', hreturns, -, hafter⟩ := commit_result h
  obtain ⟨-, run, hrun, -⟩ := returns_getRow_bind.1 hreturns
  by_cases hrunning : run.status = .running
  · obtain ⟨_, n, written, db₁, s₂, hdrains, -, -, hdigest, hsettle⟩ :=
      returns_advance hdb hrun hrunning hreturns
    have hkept : s'.loaded.stages = s₂.loaded.stages :=
      congrArg Prod.fst (fixes_settleRun hsettle).1
    obtain ⟨checks, hloaded, hchecks, -⟩ := (digested_forM hdigest).stages
    rw [hafter, hkept, hloaded, List.mem_append] at hstage
    rcases hstage with hold | hcheck
    · exact hdrains.works.held hdiligent hold hstatus
    · cases hstatus.symm.trans (hchecks stage hcheck).status
  · have hrests : db.Rests r := fun row hrow =>
      Option.some.inj (hrun.symm.trans hrow) ▸ hrunning
    rwa [advance_resting hrests h] at hstage

theorem advance_idle (hdb : db.Reliable)
    (hidle : ∀ stage ∈ db.stages, stage.runId = r → stage.status ≠ .running)
    (hdiligent : draining.runner.Diligent)
    (h : (commit (draining.advance env fund clock r) db).result = .ok memory) :
    ∀ stage ∈ (commit (draining.advance env fund clock r) db).after.stages, stage.runId = r →
      stage.status ≠ .running :=
  fun stage hstage hof hstatus =>
    hidle stage (advance_held hdb hdiligent h hstage hstatus) hof hstatus

/-- If no other worker holds a stage and none becomes available while the runner works, only its first
cross-check keeps a run running. -/
theorem advance_rests_or_checks (hdb : db.Reliable)
    (hidle : ∀ stage ∈ db.stages, stage.runId = r → stage.status ≠ .running)
    (hdiligent : draining.runner.Diligent) (hsteady : draining.Steady clock db env.now r)
    (h : (commit (draining.advance env fund clock r) db).result = .ok memory) :
    (commit (draining.advance env fund clock r) db).after.Rests r ∨
      db.Unchecked r ∧ ¬ (commit (draining.advance env fund clock r) db).after.Unchecked r := by
  obtain hrests | hkept := advance_rests hdb hdiligent h
  · exact .inl hrests
  refine .inr ?_
  cases hkept with
  | held stage hbefore _ hof hstatus => exact absurd hstatus (hidle stage hbefore hof)
  | ripened hunsteady => exact absurd hsteady hunsteady
  | checked hnone check hafter hof hrole =>
      exact ⟨hnone, fun hunchecked => hunchecked check hafter hof hrole⟩

/-- So an advance of a run that has its cross-check takes it out of the running ones. -/
theorem advance_rests_of_checked (hdb : db.Reliable)
    (hidle : ∀ stage ∈ db.stages, stage.runId = r → stage.status ≠ .running)
    (hdiligent : draining.runner.Diligent) (hsteady : draining.Steady clock db env.now r)
    (hchecked : db.Rests r ∨ ¬ db.Unchecked r)
    (h : (commit (draining.advance env fund clock r) db).result = .ok memory) :
    (commit (draining.advance env fund clock r) db).after.Rests r := by
  rcases hchecked with hrests | hchecked
  · rwa [advance_resting hrests h]
  · obtain hrests | ⟨hunchecked, -⟩ := advance_rests_or_checks hdb hidle hdiligent hsteady h
    · exact hrests
    · exact absurd hunchecked hchecked

/-- From any reliable store, two advances with diligent runners take a run out of the running ones, if
no other worker holds a stage of it and no stage becomes available while the runner works. -/
theorem twoAdvances_rest (hdb : db.Reliable)
    (hidle : ∀ stage ∈ db.stages, stage.runId = r → stage.status ≠ .running)
    (hdiligent : draining.runner.Diligent) (hdiligent' : draining'.runner.Diligent)
    (hsteady : draining.Steady clock db env.now r)
    (hsteady' : draining'.Steady clock' db' env'.now r)
    (hfirst : (commit (draining.advance env app.fund clock r) db).result = .ok memory)
    (hbetween : (commit (draining.advance env app.fund clock r) db).after = db')
    (hsecond : (commit (draining'.advance env' app.fund clock' r) db').result = .ok memory') :
    (commit (draining'.advance env' app.fund clock' r) db').after.Rests r := by
  subst hbetween
  have hchecked := (advance_rests_or_checks hdb hidle hdiligent hsteady hfirst).imp_right And.right
  exact advance_rests_of_checked (hdb.anyStep (.driven (.advance env draining clock r)))
    (advance_idle hdb hidle hdiligent hfirst) hdiligent' hsteady' hchecked hsecond

end Advances

theorem exists_ok {α ε : Type} {x : Except ε α} (h : x.toOption.isSome = true) :
    ∃ a, x = .ok a := by
  obtain ⟨a, ha⟩ := Option.isSome_iff_exists.1 h
  exact ⟨a, eq_ok_of_toOption ha⟩

/-- Apple's initiation is running. -/
def Db.initiating : Db :=
  runAny App.small Db.small ((Op.initiateApple ++ [Op.tickWith []]).map fun op => .desk (.system op))

theorem Db.initiating_reliable : Db.initiating.Reliable := by
  have hsmall : Db.small.Reliable := .of_empty (by decide +kernel) rfl rfl
  exact History.invariant_of_forall (fun _ op h => h.anyStep op) hsmall

def diligent : Draining := { runner := {} }

/-- The runner's clock: a second passes at every look. -/
def secondsFrom (start k : Nat) : Env := .quiet (start + k)

/-- An advance with a runner that completes what it claims, settled half a minute later. -/
def advancedAt (start : Nat) (db : Db) : Outcome Db PyError FakeRunner.Memory :=
  commit (diligent.advance (.quiet (start + 30)) App.small.fund (secondsFrom start) 0) db

/-- Two advances take Apple's initiation to its gate. -/
theorem twoAdvances_rest_initiating :
    Db.initiating.runs.map (·.status) = [.running] ∧
      (advancedAt 60 (advancedAt 0 .initiating).after).after.Rests 0 := by
  have hdiligent : diligent.runner.Diligent := rfl
  obtain ⟨memory, hfirst⟩ := exists_ok (x := (advancedAt 0 .initiating).result) (by decide +kernel)
  obtain ⟨memory', hsecond⟩ := exists_ok
    (x := (advancedAt 60 (advancedAt 0 .initiating).after).result) (by decide +kernel)
  refine ⟨by decide +kernel, ?_⟩
  exact twoAdvances_rest Db.initiating_reliable (by decide +kernel) hdiligent hdiligent
    (by decide +kernel) (by decide +kernel) hfirst rfl hsecond

end AiFund
