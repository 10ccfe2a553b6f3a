import AiFund.Proof.Digests

/-!
# How an advance settles

After the digests an advance fails the run, requeues it, pauses it, lets it go on or finalizes it.
Which of the five it does is read off the stages that the digests have shown and off the cost that
the runner has left on the run.
-/

namespace AiFund

open UnitOfWork Rows

variable {env : Env} {fund : FundConfig} {runner : Engine.Runner} {r n : Nat} {run : Run} {db : Db}
  {s s' : Session Db} {u : Unit}

/-! ## The five ways -/

/-- The five ways in which an advance ends, by what it reads of the stages and of the run. -/
inductive Settles (env : Env) (r : Nat) (run : Run) (s s' : Session Db) : Prop where
  | fail (hfailed : ∃ stage, Shows r s stage ∧ stage.status = .failed)
      (htakes : Takes (.fail r) s s')
  | requeue (hnone : ∀ stage, Shows r s stage → stage.status ≠ .failed)
      (hbackoff : ∃ stage, Shows r s stage ∧ Engine.backoffPending env.now stage = true)
      (htakes : Takes (.requeue r) s s')
  | pause (hnone : ∀ stage, Shows r s stage →
        stage.status ≠ .failed ∧ Engine.backoffPending env.now stage = false)
      (hover : Engine.runOverBudget run = true) (htakes : Takes (.pause r) s s')
  | wait (hnone : ∀ stage, Shows r s stage →
        stage.status ≠ .failed ∧ Engine.backoffPending env.now stage = false)
      (hunder : Engine.runOverBudget run = false)
      (hopen : ∃ stage, Shows r s stage ∧ Engine.stageDone stage = false) (hstill : s' = s)
  | finalize (hdone : ∀ stage, Shows r s stage →
        stage.status = .succeeded ∨ stage.status = .skipped)
      (hunder : Engine.runOverBudget run = false)
      (htakes : Takes (.deliver r) s s' ∨ Takes (.succeed r) s s')

theorem settles_settleRun (h : Returns (Engine.settleRun env r) s u s') (hs : Synced Db.life s)
    (hrun : s.loaded.runs[r]? = some run) (hrunning : run.status = .running) :
    Settles env r run s s' := by
  unfold Engine.settleRun at h
  rw [returns_select_bind, returns_inspect_bind] at h
  obtain ⟨-, row, hrow, h⟩ := returns_getRow_bind.1 h
  obtain rfl : run = row := Option.some.inj (hrun.symm.trans hrow)
  have hany {p : RunStage → Bool} :
      ((Engine.stagesOfRun env r s.stored).filterMap fun id => s.loaded.stages[id]?).any p = true ↔
        ∃ stage, Shows r s stage ∧ p stage = true := by
    simp only [List.any_eq_true, mem_shown]
  have hnone {p : RunStage → Bool} (h : ¬ ((Engine.stagesOfRun env r s.stored).filterMap
      fun id => s.loaded.stages[id]?).any p = true) (stage : RunStage) (hshows : Shows r s stage) :
      p stage = false :=
    Bool.eq_false_iff.2 fun hp => h (hany.2 ⟨stage, hshows, hp⟩)
  split_ifs at h with hfailed hbackoff hover hopen
  · simp only [hany, decide_eq_true_eq] at hfailed
    exact .fail hfailed (takes_failRun h hs hrun hrunning)
  · refine .requeue (fun stage hshows => ?_) (hany.1 hbackoff) (takes_requeueRun h hs hrun hrunning)
    exact of_decide_eq_false (hnone hfailed stage hshows)
  · refine .pause (fun stage hshows => ⟨?_, hnone hbackoff stage hshows⟩) hover
      (takes_pauseForBudget h hs)
    exact of_decide_eq_false (hnone hfailed stage hshows)
  · refine .wait (fun stage hshows => ⟨?_, hnone hbackoff stage hshows⟩) (Bool.eq_false_iff.2 hover)
      ?_ (returns_pure.1 h).2
    · exact of_decide_eq_false (hnone hfailed stage hshows)
    · rw [Bool.not_eq_true', List.all_eq_false] at hopen
      obtain ⟨stage, hstage, hdone⟩ := hopen
      exact ⟨stage, mem_shown.1 hstage, Bool.eq_false_iff.2 hdone⟩
  · refine .finalize (fun stage hshows => ?_) (Bool.eq_false_iff.2 hover)
      (takes_finalizeRun h hs hrun hrunning)
    rw [Bool.not_eq_true', Bool.not_eq_false] at hopen
    have hdone := List.all_eq_true.1 hopen stage (mem_shown.2 hshows)
    have hfailed : stage.status ≠ .failed := of_decide_eq_false (hnone hfailed stage hshows)
    simpa [Engine.stageDone, hfailed] using hdone

/-! ## Moving on -/

/-- Between the two states the run has succeeded, or has come to the gate of its initiation. -/
def MovesOn (r : Nat) (before after : Db) : Prop :=
  (∃ run run', before.runs[r]? = some run ∧ after.runs[r]? = some run' ∧
      run.status ≠ .succeeded ∧ run'.status = .succeeded) ∨
    ∃ gate ∈ after.gates.drop before.gates.length,
      gate.runId = r ∧ gate.kind = .initiationDecision

theorem not_movesOn_self : ¬ MovesOn r db db := by
  rintro (⟨run, run', hrun, hrun', hbefore, hafter⟩ | ⟨gate, hgate, -⟩)
  · obtain rfl := Option.some.inj (hrun.symm.trans hrun')
    exact hbefore hafter
  · rw [List.drop_length] at hgate
    cases hgate

/-- The status that a step leaves the run in, and the gates that it adds. -/
structure Reaches (r : Nat) (status : RunStatus) (gates : List GateLife) (before after : Life) :
    Prop where
  run : ∃ run, after.runs[r]? = some run ∧ run.status = status
  gates : after.gates = before.gates ++ gates

theorem Reaches.of_modify {status : RunStatus} {gates : List GateLife} {a b : Life} {run : RunLife}
    {f : RunLife → RunLife} (hrun : a.runs[r]? = some run) (hruns : b.runs = a.runs.modify r f)
    (hf : (f run).status = status) (hgates : b.gates = a.gates ++ gates) :
    Reaches r status gates a b := by
  refine ⟨⟨f run, ?_, hf⟩, hgates⟩
  rw [hruns]
  exact getElem?_modify_self hrun

section Events

variable {a b : Life}

theorem reaches_fail (h : LifeStep (.fail r) a b) : Reaches r .failed [] a b := by
  cases h with
  | @fail _ _ _ error hrun =>
      exact .of_modify (f := fun run => run.ended .failed error) hrun (by simp) rfl (by simp)

theorem reaches_requeue (h : LifeStep (.requeue r) a b) : Reaches r .queued [] a b := by
  cases h with
  | requeue hrun => exact .of_modify hrun rfl rfl (List.append_nil _).symm

theorem reaches_pause (h : LifeStep (.pause r) a b) :
    ∃ covId, Reaches r .waitingPm [budgetGate r covId] a b := by
  cases h with
  | pause hrun => exact ⟨_, .of_modify hrun rfl rfl rfl⟩

theorem reaches_deliver (h : LifeStep (.deliver r) a b) :
    ∃ covId, Reaches r .waitingPm [initiationGate r covId] a b := by
  cases h with
  | deliver hrun => exact ⟨_, .of_modify hrun rfl rfl rfl⟩

theorem reaches_succeed (h : LifeStep (.succeed r) a b) : Reaches r .succeeded [] a b := by
  cases h with
  | succeed hrun => exact .of_modify hrun rfl rfl (List.append_nil _).symm

theorem reaches_of_eq (hrun : db.runs[r]? = some run) (h : b = db.life) :
    Reaches r run.status [] db.life b := by
  subst h
  exact ⟨⟨_, Db.life_run hrun, rfl⟩, (List.append_nil _).symm⟩

end Events

section Reaches

variable {status : RunStatus} {gates : List GateLife} {after : Db}

theorem Reaches.status_eq (h : Reaches r status gates db.life after.life) {run' : Run}
    (hrun' : after.runs[r]? = some run') : run'.status = status := by
  obtain ⟨life, hlife, hstatus⟩ := h.run
  obtain rfl := Option.some.inj ((Db.life_run hrun').symm.trans hlife)
  exact hstatus

theorem Reaches.movesOn_iff (h : Reaches r status gates db.life after.life)
    (hrun : db.runs[r]? = some run) (hrunning : run.status = .running) :
    MovesOn r db after ↔ status = .succeeded ∨
      ∃ gate ∈ gates, gate.runId = r ∧ gate.kind = .initiationDecision := by
  have hnew : (after.gates.drop db.gates.length).map PmGate.life = gates := by
    rw [List.map_drop]
    have hgates : after.gates.map PmGate.life = db.gates.map PmGate.life ++ gates := h.gates
    rw [hgates, List.drop_left' (List.length_map _)]
  unfold MovesOn
  rw [← hnew]
  refine or_congr ⟨?_, fun hsucceeded => ?_⟩ ?_
  · rintro ⟨_, run', -, hrun', -, hsucceeded⟩
    exact (h.status_eq hrun').symm.trans hsucceeded
  · obtain ⟨life, hlife, -⟩ := h.run
    obtain ⟨run', hrun', rfl⟩ := Db.life_runs_eq_some.1 hlife
    refine ⟨run, run', hrun, hrun', ?_, (h.status_eq hrun').trans hsucceeded⟩
    rw [hrunning]
    decide
  · simp only [List.mem_map, exists_exists_and_eq_and]
    rfl

end Reaches

section Settles

variable {before : Run}

theorem Takes.reaches {e : LifeEvent} (h : Takes e s s') (hs : Synced Db.life s)
    (hlife : db.life = s.loaded.life) : LifeStep e db.life s'.loaded.life := by
  rw [hlife, hs, h.synced]
  exact h.step

/-- An advance moves the run on exactly where all the stages that it reads have succeeded or been
skipped and the run is not over its budget. -/
theorem Settles.movesOn_iff (h : Settles env r run s s') (hs : Synced Db.life s)
    (hrun : db.runs[r]? = some before) (hrunning : before.status = .running)
    (hlife : db.life = s.loaded.life) :
    MovesOn r db s'.loaded ↔ (∀ stage, Shows r s stage →
      stage.status = .succeeded ∨ stage.status = .skipped) ∧ Engine.runOverBudget run = false := by
  cases h with
  | fail hfailed htakes =>
      rw [(reaches_fail (htakes.reaches hs hlife)).movesOn_iff hrun hrunning]
      refine iff_of_false (by simp) fun hall => ?_
      obtain ⟨stage, hshows, hfailed⟩ := hfailed
      have hdone := hall.1 stage hshows
      simp [hfailed] at hdone
  | requeue hnone hbackoff htakes =>
      rw [(reaches_requeue (htakes.reaches hs hlife)).movesOn_iff hrun hrunning]
      refine iff_of_false (by simp) fun hall => ?_
      obtain ⟨stage, hshows, hbackoff⟩ := hbackoff
      have hdone := hall.1 stage hshows
      simp only [Engine.backoffPending, Bool.and_eq_true, decide_eq_true_eq] at hbackoff
      simp [hbackoff.1] at hdone
  | pause hnone hover htakes =>
      obtain ⟨covId, hreaches⟩ := reaches_pause (htakes.reaches hs hlife)
      rw [hreaches.movesOn_iff hrun hrunning, hover]
      exact iff_of_false (by simp [budgetGate]) fun hall => nomatch hall.2
  | wait hnone hunder hopen hstill =>
      rw [hstill, (reaches_of_eq hrun hlife.symm).movesOn_iff hrun hrunning, hrunning]
      refine iff_of_false (by simp) fun hall => ?_
      obtain ⟨stage, hshows, hopen⟩ := hopen
      rcases hall.1 stage hshows with hdone | hdone <;> simp [Engine.stageDone, hdone] at hopen
  | finalize hdone hunder htakes =>
      refine iff_of_true ?_ ⟨hdone, hunder⟩
      rcases htakes with htakes | htakes
      · obtain ⟨covId, hreaches⟩ := reaches_deliver (htakes.reaches hs hlife)
        exact (hreaches.movesOn_iff hrun hrunning).2
          (.inr ⟨_, List.mem_singleton_self _, rfl, rfl⟩)
      · exact ((reaches_succeed (htakes.reaches hs hlife)).movesOn_iff hrun hrunning).2 (.inl rfl)

/-- An advance stops the run short of its end exactly where it reads a stage that has failed or
waits for its backoff, or where the run is over its budget. -/
theorem Settles.stops_iff (h : Settles env r run s s') (hs : Synced Db.life s)
    (hrun : db.runs[r]? = some before) (hrunning : before.status = .running)
    (hlife : db.life = s.loaded.life) :
    ((∀ run', s'.loaded.runs[r]? = some run' → run'.status ≠ .running) ∧
        ¬ MovesOn r db s'.loaded) ↔
      (∃ stage, Shows r s stage ∧
        (stage.status = .failed ∨ Engine.backoffPending env.now stage = true)) ∨
      Engine.runOverBudget run = true := by
  rw [h.movesOn_iff hs hrun hrunning hlife]
  have hstops {status : RunStatus} {gates : List GateLife}
      (hreaches : Reaches r status gates db.life s'.loaded.life) (hstatus : status ≠ .running)
      (run' : Run) (hrun' : s'.loaded.runs[r]? = some run') : run'.status ≠ .running := by
    rwa [hreaches.status_eq hrun']
  cases h with
  | fail hfailed htakes =>
      refine iff_of_true ⟨hstops (reaches_fail (htakes.reaches hs hlife)) nofun, fun hall => ?_⟩
        (.inl ?_)
      · obtain ⟨stage, hshows, hfailed⟩ := hfailed
        have hdone := hall.1 stage hshows
        simp [hfailed] at hdone
      · obtain ⟨stage, hshows, hfailed⟩ := hfailed
        exact ⟨stage, hshows, .inl hfailed⟩
  | requeue hnone hbackoff htakes =>
      obtain ⟨stage, hshows, hbackoff⟩ := hbackoff
      refine iff_of_true ⟨hstops (reaches_requeue (htakes.reaches hs hlife)) nofun, fun hall => ?_⟩
        (.inl ⟨stage, hshows, .inr hbackoff⟩)
      have hdone := hall.1 stage hshows
      simp only [Engine.backoffPending, Bool.and_eq_true, decide_eq_true_eq] at hbackoff
      simp [hbackoff.1] at hdone
  | pause hnone hover htakes =>
      obtain ⟨covId, hreaches⟩ := reaches_pause (htakes.reaches hs hlife)
      refine iff_of_true ⟨hstops hreaches nofun, fun hall => ?_⟩ (.inr hover)
      rw [hover] at hall
      exact nomatch hall.2
  | wait hnone hunder hopen hstill =>
      refine iff_of_false (fun hall => ?_) (not_or.2 ⟨fun hstage => ?_, by simp [hunder]⟩)
      · have hreaches := reaches_of_eq hrun (b := s'.loaded.life) (by rw [hstill, hlife])
        obtain ⟨run', hrun', -⟩ := hreaches.run
        obtain ⟨row, hrow, -⟩ := Db.life_runs_eq_some.1 hrun'
        exact hall.1 row hrow ((hreaches.status_eq hrow).trans hrunning)
      · obtain ⟨stage, hshows, hstopped⟩ := hstage
        simp [hnone stage hshows] at hstopped
  | finalize hdone hunder htakes =>
      refine iff_of_false (fun hall => hall.2 ⟨hdone, hunder⟩)
        (not_or.2 ⟨fun hstage => ?_, by simp [hunder]⟩)
      obtain ⟨stage, hshows, hstopped⟩ := hstage
      rcases hdone stage hshows with hdone | hdone <;>
        simp [Engine.backoffPending, hdone] at hstopped

end Settles

/-! ## The turn of a run -/

theorem Opens.of_fixes {α : Type} {m : DbTxn α} {a : α} (hs : Opens r s) (h : Returns m s a s')
    (hm : Fixes Db.stageTables m) (hlife : Synced Db.life s')
    (hfigures : Synced Db.figures s') : Opens r s' := by
  obtain ⟨more, hplans, hmore⟩ := hs.stages
  obtain ⟨hkept, hshown⟩ := hm h
  have hlength : s'.loaded.stages.length = s.loaded.stages.length :=
    congrArg (fun tables => tables.1.length) hkept
  have hattached {db db' : Db} (htables : db'.stageTables = db.stageTables)
      (hdb : db.Attached s.loaded.stages.length) : db'.Attached s.loaded.stages.length := by
    have hstages : db'.stages = db.stages := congrArg Prod.fst htables
    have hattempts : db'.attempts = db.attempts := congrArg Prod.snd htables
    exact ⟨hstages ▸ hdb.stages, hattempts ▸ hdb.attempts⟩
  obtain ⟨hplans', hstored'⟩ := Fixes.plans hm h
  refine ⟨hlife, hfigures, Opens.of_plans hplans hmore hplans' hstored', ?_⟩
  rw [hlength]
  refine ⟨?_, hattached hkept hs.attempts.2⟩
  rcases hshown with hstored | hstored
  · exact hattached hstored hs.attempts.1
  · exact hattached hstored hs.attempts.2

theorem Opens.figures_of {α : Type} {m : DbTxn α} {a : α} (hs : Opens r s)
    (h : Returns m s a s') (hm : Upholds (fun db => db.figures = s.stored.figures) m) :
    Synced Db.figures s' := by
  obtain ⟨hstored, hloaded⟩ := hm h ⟨rfl, hs.figures⟩
  exact hloaded.trans hstored.symm

theorem Opens.promoteRun {k : Nat} {started : Bool} (hs : Opens r s)
    (h : Returns (Engine.promoteRun env k) s started s') : Opens r s' := by
  have hlife : Synced Db.life s' := by
    obtain ⟨hstill, -⟩ | htakes := promoteRun_cases h hs.life
    · exact hstill.synced
    · exact htakes.synced
  exact hs.of_fixes h fixes_promoteRun hlife
    (hs.figures_of h (overlooks_figures (· = s.stored.figures)).promoteRun)

theorem figures_digestStage {id : Nat} (hs : Synced Db.figures s)
    (h : Returns (Engine.digestStage env fund r run id) s u s') : Synced Db.figures s' := by
  obtain ⟨stage, s₁, -, hregister, hcheck⟩ := returns_digestStage h
  have hregistered : Synced Db.figures s₁ := by
    rcases hregister with ⟨-, rfl⟩ | ⟨-, found, hfound⟩
    · exact hs
    · obtain ⟨_, _, _, -, -, -, hflushed, -⟩ := returns_registerFromStage_rows hfound
      exact (congrArg Db.figures hflushed).symm
  rcases hcheck with ⟨-, -, check, -, rfl⟩ | ⟨-, rfl⟩
  · exact hregistered
  · exact hregistered

/-- What digesting another run leaves pending is not of this run. -/
theorem Opens.digests {k : Nat} {ids : List Nat} (hs : Opens r s) (hne : k ≠ r)
    (h : Returns (ids.forM (Engine.digestStage env fund k run)) s u s')
    (hlife : Synced Db.life s') : Opens r s' := by
  obtain ⟨more, hplans, hmore⟩ := hs.stages
  obtain ⟨checks, hloaded, hchecks, hstored⟩ := (digested_forM h).stages
  have hplans' : s'.loaded.plans = s.loaded.plans ++ checks.map RunStage.plan := by
    rw [Db.plans, hloaded, List.map_append]
    rfl
  have hother (plan : Nat × Int × StageRole × Option Int)
      (hplan : plan ∈ checks.map RunStage.plan) : plan.1 ≠ r := by
    obtain ⟨check, hcheck, rfl⟩ := List.mem_map.1 hplan
    have hof : check.plan.1 = k := (hchecks check hcheck).runId
    rw [hof]
    exact hne
  have hlength : s.loaded.stages.length ≤ s'.loaded.stages.length := by
    rw [hloaded, List.length_append]
    omega
  have hattempts : Upholds (fun db => ∀ a ∈ db.attempts, a.stageId < s.loaded.stages.length)
      (ids.forM (Engine.digestStage env fund k run)) :=
    .forM fun id => upholds_digestStage
      (fun _ _ _ => upholds_registerFromStage fun _ _ h => h) fun _ _ _ h => h
  obtain ⟨hstoredAttempts, hloadedAttempts⟩ :=
    hattempts h ⟨hs.attempts.1.attempts, hs.attempts.2.attempts⟩
  refine ⟨hlife, ?_, ?_, ?_, le_rfl, fun a ha => (hloadedAttempts a ha).trans_le hlength⟩
  · exact Maintains.forM (I := Synced Db.figures)
      (fun _ _ _ _ _ h hs => figures_digestStage hs h) h hs.figures
  · rcases hstored with hkept | ⟨shown, ⟨rest, hrest⟩, hshown⟩
    · refine ⟨more ++ checks.map RunStage.plan, ?_, List.forall_mem_append.2 ⟨hmore, hother⟩⟩
      have hold : s'.stored.plans = s.stored.plans := congrArg (List.map RunStage.plan) hkept
      rw [hplans', hplans, hold, List.append_assoc]
    · refine ⟨rest.map RunStage.plan, ?_, fun plan hplan => hother plan ?_⟩
      · have hnew : s'.stored.plans = s.loaded.plans ++ shown.map RunStage.plan := by
          rw [Db.plans, hshown, List.map_append]
          rfl
        rw [hplans', hnew, ← hrest, List.map_append, List.append_assoc]
      · rw [← hrest, List.map_append]
        exact List.mem_append_right _ hplan
  · refine ⟨?_, fun a ha => (hstoredAttempts a ha).trans_le hlength⟩
    rcases hstored with hkept | ⟨shown, hleading, hshown⟩
    · rw [hkept]
      exact hs.stored_le.trans hlength
    · rw [hshown, hloaded, List.length_append, List.length_append]
      exact Nat.add_le_add_left hleading.length_le _

theorem Opens.advanceRun {k : Nat} (hs : Opens r s) (hne : k ≠ r)
    (h : Returns (Engine.advanceRun env fund runner k) s u s') : Opens r s' := by
  have hlife : Synced Db.life s' := by
    obtain hstill | ⟨e, -, htakes⟩ := advanceRun_cases h hs.life
    · exact hstill.synced
    · exact htakes.synced
  unfold Engine.advanceRun at h
  obtain ⟨-, run, -, h⟩ := returns_getRow_bind.1 h
  split_ifs at h
  · obtain ⟨-, rfl⟩ := returns_pure.1 h
    exact hs
  obtain ⟨_, s₁, hdrain, h⟩ := returns_bind.1 h
  rw [returns_select_bind] at h
  obtain ⟨_, s₂, hdigest, hsettle⟩ := returns_bind.1 h
  have hdrained := hs.drain hdrain
  have hdigested := hdrained.digests hne hdigest
    (Keeps.forM (fun _ => keeps_digestStage) hdigest hdrained.life).synced
  exact hdigested.of_fixes hsettle fixes_settleRun hlife
    (hdigested.figures_of hsettle (overlooks_figures (· = s₂.stored.figures)).settleRun)

/-- The session of a tick up to the turn of the run: the session has been opened on a store whose
attempts are of its stages, and runs have been promoted and other runs advanced in it. -/
inductive AwaitsTurn (r : Nat) : Session Db → Prop where
  | clean (db : Db) (h : ∀ a ∈ db.attempts, a.stageId < db.stages.length) :
      AwaitsTurn r (Session.clean db)
  | promoteRun (env : Env) (k : Nat) {s s' : Session Db} {started : Bool} (hs : AwaitsTurn r s)
      (h : Returns (Engine.promoteRun env k) s started s') : AwaitsTurn r s'
  | advanceRun (env : Env) (fund : FundConfig) (runner : Engine.Runner) {k : Nat}
      {s s' : Session Db} {u : Unit} (hs : AwaitsTurn r s) (hne : k ≠ r)
      (h : Returns (Engine.advanceRun env fund runner k) s u s') : AwaitsTurn r s'

theorem AwaitsTurn.opens (h : AwaitsTurn r s) : Opens r s := by
  induction h with
  | clean db h => exact .clean h
  | promoteRun env k hs h ih => exact ih.promoteRun h
  | advanceRun env fund runner hs hne h ih => exact ih.advanceRun hne h

/-- An advance of a running run: the session that the runner leaves, the one that the digests leave
and the settlement of it. -/
structure Advances (env : Env) (fund : FundConfig) (runner : Engine.Runner) (r : Nat)
    (run₀ run : Run) (s s₁ s₂ s' : Session Db) : Prop where
  drained : Returns (runner.drain r) s () s₁
  opens : Opens r s₁
  row : s₁.loaded.runs[r]? = some run
  running : run.status = .running
  digested : Returns ((Engine.stagesOfRun env r s₁.stored).forM
    (Engine.digestStage env fund r run₀)) s₁ () s₂
  synced : Synced Db.life s₂
  life : s₂.loaded.life = s.loaded.life
  settles : Settles env r run s₂ s'
  settled : Returns (Engine.settleRun env r) s₂ () s'

theorem advances (hs : Opens r s) (h : Returns (Engine.advanceRun env fund runner r) s u s')
    (hrun : s.loaded.runs[r]? = some run) (hrunning : run.status = .running) :
    ∃ run₁ s₁ s₂, Advances env fund runner r run run₁ s s₁ s₂ s' := by
  unfold Engine.advanceRun at h
  obtain ⟨-, row, hrow, h⟩ := returns_getRow_bind.1 h
  obtain rfl : run = row := Option.some.inj (hrun.symm.trans hrow)
  rw [if_neg (not_not.2 hrunning)] at h
  obtain ⟨_, s₁, hdrain, h⟩ := returns_bind.1 h
  rw [returns_select_bind] at h
  obtain ⟨_, s₂, hdigest, hsettle⟩ := returns_bind.1 h
  have hdrained := keeps_drain runner r hdrain hs.life
  have hdigested := Keeps.forM (fun _ => keeps_digestStage) hdigest hdrained.synced
  have hstill : Still s s₂ := hdrained.trans hdigested
  obtain ⟨run₁, hrun₁, hrunning₁⟩ := Still.running hdrained hs.life hrun hrunning
  have hrun₂ : s₂.loaded.runs[r]? = some run₁ := by
    rw [(digested_forM hdigest).runs]
    exact hrun₁
  refine ⟨run₁, s₁, s₂, hdrain, hs.drain hdrain, hrun₁, hrunning₁, hdigest, hdigested.synced, ?_,
    settles_settleRun hsettle hdigested.synced hrun₂ hrunning₁, hsettle⟩
  rw [hdigested.synced, hs.life]
  exact hstill.life_eq

end AiFund
