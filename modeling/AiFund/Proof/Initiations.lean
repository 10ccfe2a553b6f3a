import AiFund.Proof.Gates

/-!
# Initiations

An initiation and its coverage move together, unless the run is cancelled, its gate is answered on
its own, or it starts on a coverage that has moved on.
-/

namespace AiFund

open UnitOfWork Rows History

variable {app : App} {db : Db} {c c' : Life} {e : LifeEvent} {r covId : Nat} {f : RunLife → RunLife}

def RunLife.initiates (run : RunLife) (covId : Nat) : Prop :=
  run.type = .initiation ∧ run.coverageId = some covId

theorem RunLife.Becomes.initiates {run run' : RunLife} {touched : Prop}
    (h : run.Becomes run' touched) : run'.initiates covId ↔ run.initiates covId := by
  rw [RunLife.initiates, h.type, h.coverageId]
  rfl

/-- An initiation needs the lock of its coverage. -/
theorem RunLife.initiates.locked {run : RunLife} (h : run.initiates covId) (hc : c.Formed)
    (hrun : c.runs[r]? = some run) : run.locked = some covId := by
  unfold RunLife.locked
  rw [hc.mutates r run hrun, h.1]
  exact h.2

/-! ## Attended coverages -/

/-- Every coverage under initiation or decision has the run that will move it on. -/
structure Life.Attended (c : Life) : Prop where
  initiating : ∀ covId, c.coverages[covId]? = some .initiating →
    ∃ (r : Nat) (run : RunLife), c.runs[r]? = some run ∧ run.initiates covId ∧
      run.status.terminal = false
  pending : ∀ covId, c.coverages[covId]? = some .decisionPending →
    ∃ (r : Nat) (run : RunLife), c.runs[r]? = some run ∧ run.initiates covId ∧
      run.status = .waitingPm ∧ ∃ (g : Nat) (gate : GateLife), c.gates[g]? = some gate ∧
        gate.runId = r ∧ gate.kind = .initiationDecision ∧ gate.state = .opened

/-- The step leaves no coverage without its run. -/
structure LifeEvent.SparesCoverages (c : Life) (e : LifeEvent) : Prop where
  cancel : ∀ (r covId : Nat) (run : RunLife), e = .cancel r → c.runs[r]? = some run →
    run.initiates covId →
    (c.coverages[covId]? = some .initiating → ∃ (r' : Nat) (run' : RunLife), r' ≠ r ∧
      c.runs[r']? = some run' ∧ run'.initiates covId ∧ run'.status.terminal = false) ∧
    (c.coverages[covId]? = some .decisionPending → run.status ≠ .waitingPm)
  answer : ∀ (g covId : Nat) (gate : GateLife), e = .answer g → c.gates[g]? = some gate →
    gate.kind = .initiationDecision → gate.state = .opened → gate.coverageId = some covId →
    c.coverages[covId]? ≠ some .decisionPending

/-- A decision is about the coverage of its run. -/
theorem LifeStep.decide_run {k g : Nat} {action : Action} {run : RunLife}
    (hstep : LifeStep (.decide k r g action) c c') (hc : c.Gated) (hrun : c.runs[r]? = some run)
    (hinitiates : run.initiates covId) : k = covId := by
  cases hstep with
  | decide hrun' hlive hpending hentry hanswer hfound hasked hgate =>
      obtain ⟨old, hold, hcoverage, -⟩ := hc.run _ hfound.1
      rw [hfound.2.2.1, hrun] at hold
      cases hold
      rw [hfound.2.1, hinitiates.2] at hcoverage
      exact (Option.some.inj hcoverage).symm

theorem LifeStep.started {run : RunLife} (hstep : LifeStep (.start r) c c')
    (hrun : c.runs[r]? = some run) : c'.runs[r]? = some run.begun ∧ run.status = .queued := by
  cases hstep with
  | start hfound hqueued =>
      rw [hrun, Option.some.injEq] at hfound
      subst hfound
      refine ⟨?_, hqueued⟩
      rw [Life.begin_runs, Life.setRun_runs, Life.acquireFor_runs]
      exact getElem?_modify_self hrun

theorem LifeStep.start_lock {run : RunLife} (hstep : LifeStep (.start r) c c')
    (hrun : c.runs[r]? = some run) (covId : Nat) (hlocked : run.locked = some covId) :
    (c.acquire covId r).owner covId = some r := by
  cases hstep with
  | start hfound hqueued hlock =>
      rw [hrun, Option.some.injEq] at hfound
      exact hlock covId (hfound ▸ hlocked)

/-- An open initiation of an initiating coverage is open after the step, or another one is. -/
theorem LifeStep.still_initiating {run : RunLife} (hstep : LifeStep e c c')
    (hspares : e.SparesCoverages c) (hc : c.Lawful) (hrun : c.runs[r]? = some run)
    (hinitiates : run.initiates covId) (hopen : run.status.terminal = false)
    (hbefore : c.coverages[covId]? = some .initiating)
    (hafter : c'.coverages[covId]? = some .initiating) :
    ∃ (r : Nat) (run : RunLife), c'.runs[r]? = some run ∧ run.initiates covId ∧
      run.status.terminal = false := by
  have hkeeps {k : Nat} {old : RunLife} (hk : c.runs[k]? = some old) (hold : old.initiates covId)
      (holdOpen : old.status.terminal = false) (hsubject : e.subject ≠ some k) :
      ∃ (r : Nat) (run : RunLife), c'.runs[r]? = some run ∧ run.initiates covId ∧
        run.status.terminal = false := by
    obtain ⟨new, hnew, hbecomes⟩ := hstep.run_after hk
    refine ⟨k, new, hnew, hbecomes.initiates.2 hold, ?_⟩
    rw [hbecomes.status.resolve_right fun h => hsubject h.1]
    exact holdOpen
  by_cases hsubject : e.subject = some r
  · have hof : c.initiationOf run = some (covId, .initiating) :=
      Life.initiationOf_eq_some.2 ⟨hinitiates.2, hinitiates.1, hbefore⟩
    cases hstep with
    | start hrun' hqueued hlock =>
        cases hsubject
        exact ⟨r, run.begun, (LifeStep.started (.start hrun' hqueued hlock) hrun).1, hinitiates, rfl⟩
    | requeue =>
        cases hsubject
        exact ⟨r, run.requeued, getElem?_modify_self hrun, hinitiates, rfl⟩
    | pause =>
        cases hsubject
        exact ⟨r, { run with status := .waitingPm }, getElem?_modify_self hrun, hinitiates, rfl⟩
    | deliver =>
        cases hsubject
        exact ⟨r, { run with status := .waitingPm }, getElem?_modify_self hrun, hinitiates, rfl⟩
    | succeed hrun' hrunning hnone =>
        cases hsubject
        rw [hrun] at hrun'
        cases hrun'
        rw [hof] at hnone
        cases hnone
    | fail hrun' hrunning =>
        cases hsubject
        rw [hrun] at hrun'
        cases hrun'
        have hfailed : (c.abort run).coverages[covId]? = some .failed := by
          rw [Life.abort, hof]
          exact getElem?_modify_self hbefore
        cases hfailed.symm.trans hafter
    | cancel =>
        cases hsubject
        obtain ⟨r', run', hr', hrun', hinitiates', hopen'⟩ :=
          (hspares.cancel r covId run rfl hrun hinitiates).1 hbefore
        refine hkeeps hrun' hinitiates' hopen' fun h => hr' ?_
        exact (Option.some.inj h).symm
    | decide hrun' hlive hpending hentry hanswer hfound hasked hgate =>
        cases hsubject
        obtain rfl := LifeStep.decide_run
          (.decide hrun' hlive hpending hentry hanswer hfound hasked hgate) hc.gated hrun hinitiates
        cases hpending.symm.trans hbefore
    | _ => cases hsubject
  · exact hkeeps hrun hinitiates hopen hsubject

/-- A waiting initiation of a coverage that awaits its decision still waits after the step. -/
theorem LifeStep.still_pending {run : RunLife} {g : Nat} {gate : GateLife}
    (hstep : LifeStep e c c') (hspares : e.SparesCoverages c) (hc : c.Lawful)
    (hrun : c.runs[r]? = some run) (hinitiates : run.initiates covId)
    (hwaiting : run.status = .waitingPm) (hgate : c.gates[g]? = some gate)
    (hgateRun : gate.runId = r) (hkind : gate.kind = .initiationDecision)
    (hopen : gate.state = .opened) (hbefore : c.coverages[covId]? = some .decisionPending)
    (hafter : c'.coverages[covId]? = some .decisionPending) :
    ∃ (r : Nat) (run : RunLife), c'.runs[r]? = some run ∧ run.initiates covId ∧
      run.status = .waitingPm ∧ ∃ (g : Nat) (gate : GateLife), c'.gates[g]? = some gate ∧
        gate.runId = r ∧ gate.kind = .initiationDecision ∧ gate.state = .opened := by
  -- Only a decision or a cancellation moves a waiting run, and the coverage moves with a decision.
  have hdecide : ∀ k g action, e ≠ .decide k r g action := by
    rintro k g action rfl
    obtain rfl := hstep.decide_run hc.gated hrun hinitiates
    obtain ⟨-, answer, -, hanswer, -, -, -, -, -, sm, hentry, hstate⟩ :=
      hstep.decide_gates hc.gated
    rw [hstate, Option.some.injEq] at hafter
    cases action <;> cases hanswer <;> cases hentry <;> cases hafter
  have hnot {status : RunStatus} {found : RunLife} (hfound : c.runs[r]? = some found)
      (hstatus : found.status = status) : status = .waitingPm := by
    rw [hrun, Option.some.injEq] at hfound
    rw [← hstatus, ← hfound]
    exact hwaiting
  have hsubject : e.subject ≠ some r := by
    intro hsubject
    cases hstep with
    | start hfound hqueued =>
        cases hsubject
        cases hnot hfound hqueued
    | requeue hfound hrunning =>
        cases hsubject
        cases hnot hfound hrunning
    | pause hfound hrunning =>
        cases hsubject
        cases hnot hfound hrunning
    | deliver hfound hrunning =>
        cases hsubject
        cases hnot hfound hrunning
    | succeed hfound hrunning =>
        cases hsubject
        cases hnot hfound hrunning
    | fail hfound hrunning =>
        cases hsubject
        cases hnot hfound hrunning
    | cancel =>
        cases hsubject
        exact (hspares.cancel r covId run rfl hrun hinitiates).2 hbefore hwaiting
    | decide =>
        cases hsubject
        exact hdecide _ _ _ rfl
    | _ => cases hsubject
  have hgateCov : gate.coverageId = some covId := by
    obtain ⟨found, hfound, hcoverage, -⟩ := hc.gated.run gate (List.mem_of_getElem? hgate)
    rw [hgateRun, hrun, Option.some.injEq] at hfound
    rw [← hcoverage, ← hfound]
    exact hinitiates.2
  have hanswers : e.answers ≠ some g := by
    intro hanswers
    cases hstep with
    | answer =>
        cases hanswers
        exact hspares.answer g covId gate rfl hgate hkind hopen hgateCov hbefore
    | decide _ _ _ _ _ _ _ hfound =>
        cases hanswers
        rw [hgate, Option.some.injEq] at hfound
        rw [← hfound.2.1, ← hfound.1, hgateRun] at hdecide
        exact hdecide _ _ _ rfl
    | _ => cases hanswers
  obtain ⟨new, hnew, hbecomes⟩ := hstep.run_after hrun
  obtain ⟨text, hget⟩ := hstep.gate_after hgate
  rw [if_neg hanswers] at hget
  refine ⟨r, new, hnew, hbecomes.initiates.2 hinitiates, ?_, g, gate, hget, hgateRun, hkind, hopen⟩
  rw [hbecomes.status.resolve_right fun h => hsubject h.1]
  exact hwaiting

/-- A decision or a transition of the PM leaves no initiation behind. -/
theorem not_settling {state : CoverageState} {action : Action} {sm : Transition}
    (hentry : entries (some state) action = some sm)
    (haction : (decisionAnswer action).isSome = true ∨ action.shifts = true) :
    sm.toState ≠ .initiating ∧ sm.toState ≠ .decisionPending := by
  cases state <;> cases action <;> cases hentry <;> simp_all [decisionAnswer, Action.shifts]

theorem LifeStep.attended (hstep : LifeStep e c c') (hspares : e.SparesCoverages c)
    (hc : c.Lawful) (h : c.Attended) : c'.Attended := by
  constructor
  · intro covId hafter
    obtain ⟨state, hbefore⟩ | hproposed := hstep.coverage_before hafter
    · obtain ⟨found, hfound, hmove⟩ := hstep.coverage_after hbefore
      obtain rfl : .initiating = found := Option.some.inj (hafter.symm.trans hfound)
      generalize hend : CoverageState.initiating = last at hmove
      cases hmove with
      | stays =>
          subst hend
          obtain ⟨r, run, hrun, hinitiates, hopen⟩ := h.initiating covId hbefore
          exact hstep.still_initiating hspares hc hrun hinitiates hopen hbefore hafter
      | @begins r run hrun hcoverage htype =>
          exact ⟨r, run.begun, (hstep.started hrun).1, ⟨htype, hcoverage⟩, rfl⟩
      | delivered => cases hend
      | aborted => cases hend
      | decided hentry hanswer => exact absurd hend.symm (not_settling hentry (.inl hanswer)).1
      | shifted hshift hentry => exact absurd hend.symm (not_settling hentry (.inr hshift)).1
    · cases hproposed
  · intro covId hafter
    obtain ⟨state, hbefore⟩ | hproposed := hstep.coverage_before hafter
    · obtain ⟨found, hfound, hmove⟩ := hstep.coverage_after hbefore
      obtain rfl : .decisionPending = found := Option.some.inj (hafter.symm.trans hfound)
      generalize hend : CoverageState.decisionPending = last at hmove
      cases hmove with
      | stays =>
          subst hend
          obtain ⟨r, run, hrun, hinitiates, hwaiting, g, gate, hgate, hgateRun, hkind, hopen⟩ :=
            h.pending covId hbefore
          exact hstep.still_pending hspares hc hrun hinitiates hwaiting hgate hgateRun hkind hopen
            hbefore hafter
      | begins => cases hend
      | @delivered r run hrun hrunning hcoverage htype =>
          obtain ⟨hnone, -⟩ | ⟨k, old, new, hopens, hold, -, hwaiting, hgates, hgateRun, -, hopen,
            hkind⟩ := hstep.gates_cases
          · cases hnone
          · cases hopens
            rw [hrun, Option.some.injEq] at hold
            subst hold
            refine ⟨r, _, hwaiting, ⟨htype, hcoverage⟩, rfl, c.gates.length, new, ?_, hgateRun,
              hkind rfl, hopen⟩
            rw [hgates]
            exact List.getElem?_concat_length
      | aborted => cases hend
      | decided hentry hanswer => exact absurd hend.symm (not_settling hentry (.inl hanswer)).2
      | shifted hshift hentry => exact absurd hend.symm (not_settling hentry (.inr hshift)).2
    · cases hproposed

/-! ## Histories -/

theorem Life.Attended.rows (h : db.life.Attended) : db.Attended := by
  constructor
  · intro covId cov hcov hstate
    obtain ⟨r, life, hlife, hinitiates, hopen⟩ :=
      h.initiating covId (Db.life_coverages_eq_some.2 ⟨cov, hcov, hstate⟩)
    obtain ⟨run, hrun, rfl⟩ := Db.life_runs_eq_some.1 hlife
    refine ⟨r, run, hrun, hinitiates, ?_⟩
    change run.status.terminal = false at hopen
    cases hstatus : run.status <;> simp_all [RunStatus.terminal]
  · intro covId cov hcov hstate
    obtain ⟨r, life, hlife, hinitiates, hwaiting, g, gateLife, hget, hgate⟩ :=
      h.pending covId (Db.life_coverages_eq_some.2 ⟨cov, hcov, hstate⟩)
    obtain ⟨run, hrun, rfl⟩ := Db.life_runs_eq_some.1 hlife
    obtain ⟨gate, hgateGet, rfl⟩ := Db.life_gates_eq_some.1 hget
    exact ⟨r, run, hrun, hinitiates, hwaiting, gate, List.mem_of_getElem? hgateGet, hgate⟩

theorem Op.SparesCoverages.event {op : Op} (h : op.SparesCoverages app db)
    (hallows : op.allows app db e) : e.SparesCoverages db.life := by
  constructor
  · rintro r covId life rfl hlife hinitiates
    obtain ⟨run, hrun, rfl⟩ := Db.life_runs_eq_some.1 hlife
    have hcancels := Op.cancels_of_allows hallows
    constructor
    · intro hstate
      obtain ⟨cov, hcov, hcovState⟩ := Db.life_coverages_eq_some.1 hstate
      obtain ⟨r', run', hr', hrun', hrest⟩ :=
        (h.cancel r covId run cov hcancels hrun hinitiates hcov).1 hcovState
      exact ⟨r', run'.life, hr', Db.life_run hrun', hrest⟩
    · intro hstate
      obtain ⟨cov, hcov, hcovState⟩ := Db.life_coverages_eq_some.1 hstate
      exact (h.cancel r covId run cov hcancels hrun hinitiates hcov).2 hcovState
  · rintro g covId life rfl hlife hkind hopen hgateCov hstate
    obtain ⟨gate, hgate, rfl⟩ := Db.life_gates_eq_some.1 hlife
    obtain ⟨cov, hcov, hcovState⟩ := Db.life_coverages_eq_some.1 hstate
    exact h.answer g covId gate cov (Op.answers_of_allows hallows) hgate hkind hopen hgateCov hcov
      hcovState

theorem LifeEvent.SparesCoverages.of_background (he : e.background) : e.SparesCoverages c := by
  constructor
  · rintro r covId run rfl
    exact he.elim
  · rintro g covId gate rfl
    exact he.elim

theorem Op.SparesCoverages.step (op : Op) (hspares : op.SparesCoverages app db)
    (hdb : db.life.Lawful) (h : db.life.Attended) : (step app db op).life.Attended :=
  op_preserves hdb (fun _ _ hallows hstep hc => hstep.attended (hspares.event hallows) hdb hc)
    (fun _ _ _ hop hallows hstep ha hc =>
      hstep.attended (.of_background (Op.background_of_allows hop hallows)) ha hc) h

/-- In every history that neither cancels the last open initiation of a coverage nor takes the gate
of a decision away, every coverage under initiation or decision has the run that will move it on. -/
theorem run_attended (hdb : db.Fresh) (ops : List Op)
    (hops : EachStep (step app) (Op.SparesCoverages app) db ops) : (run app db ops).Attended := by
  have hstart : db.life.Lawful ∧ db.life.Attended := by
    refine ⟨hdb.lawful, ?_⟩
    constructor <;> simp [Db.life, hdb.coverages]
  have hend : (run app db ops).life.Lawful ∧ (run app db ops).life.Attended :=
    invariant (I := fun db => db.life.Lawful ∧ db.life.Attended)
      (fun _ op h hspares => ⟨h.1.step op, Op.SparesCoverages.step op hspares h.1 h.2⟩) hstart hops
  exact hend.2.rows

theorem Op.SparesCoverages.of_others {op : Op} (hcancel : ∀ r, ¬ op.Cancels app db r)
    (hanswer : ∀ g, ¬ op.Answers app db g) : op.SparesCoverages app db :=
  ⟨fun r _ _ _ h => absurd h (hcancel r), fun g _ _ _ h => absurd h (hanswer g)⟩

theorem run_attended_small :
    (run .small .small Op.deliverApple).coverages.map (·.state) = [.decisionPending] ∧
      (run .small .small Op.deliverApple).Attended := by
  refine ⟨by decide +kernel, run_attended Db.small_fresh _ ?_⟩
  refine ⟨.of_others ?_ ?_, .of_others ?_ ?_, .of_others ?_ ?_, trivial⟩ <;>
    · rintro _ ⟨_, _, _, _, h⟩
      simp [Op.ask, Op.tickWith] at h

/-- A cancelled initiation leaves its coverage initiating. -/
theorem not_attended_cancelled :
    ¬ (run .small .small (Op.initiateApple ++
      [.tickWith [], .ask "cancel" (.cancelRun 0 none)])).Attended := by
  intro h
  have hstate : (run .small .small (Op.initiateApple ++
      [.tickWith [], .ask "cancel" (.cancelRun 0 none)])).coverages[0]?.map (·.state) =
        some .initiating := by decide +kernel
  have hruns : (run .small .small (Op.initiateApple ++
      [.tickWith [], .ask "cancel" (.cancelRun 0 none)])).runs.map (·.status) =
        [.cancelled] := by decide +kernel
  obtain ⟨cov, hcov, hinitiating⟩ := Option.map_eq_some_iff.1 hstate
  obtain ⟨r, run, hrun, -, hstatus⟩ := h.initiating 0 cov hcov hinitiating
  have hmem := List.mem_map_of_mem (f := fun run => run.status) (List.mem_of_getElem? hrun)
  rw [hruns, List.mem_singleton] at hmem
  simp [hmem] at hstatus

end AiFund
