import AiFund.Proof.LifeFields

/-!
# Invariants of the lifecycle

What every step preserves: which runs own the coverage locks, and which gates a run can have.
-/

namespace AiFund

open Rows

variable {c c' : Life} {e : LifeEvent} {r covId g : Nat} {run run' : RunLife} {gate : GateLife}
  {f : RunLife → RunLife} {status : RunStatus} {error : Option String}

namespace Life

/-! ## Locks -/

/-- A run that works on a dossier owns the lock, and every lock is owned by a run that may. -/
structure Serial (c : Life) : Prop where
  started : ∀ (r : Nat) (run : RunLife), c.runs[r]? = some run → run.status.live = true →
    run.started = true
  owns : ∀ (r : Nat) (run : RunLife) (covId : Nat), c.runs[r]? = some run →
    run.locked = some covId → run.status.live = true → c.owner covId = some r
  held : ∀ lock ∈ c.locks, ∃ run, c.runs[lock.runId]? = some run ∧
    run.locked = some lock.coverageId ∧ run.holds

theorem Serial.congr (h : c.Serial) (hruns : c'.runs = c.runs) (hlocks : c'.locks = c.locks) :
    c'.Serial := by
  have howner : ∀ covId, c'.owner covId = c.owner covId := by
    intro covId
    rw [owner, hlocks, owner]
  constructor
  · rw [hruns]
    exact h.started
  · intro r run covId hrun
    rw [howner]
    rw [hruns] at hrun
    exact h.owns r run covId hrun
  · rw [hruns, hlocks]
    exact h.held

/-- A run may change as long as it stays a rightful owner of its lock. -/
theorem Serial.setRun (h : c.Serial) (hrun : c.runs[r]? = some run)
    (hlocked : (f run).locked = run.locked)
    (hlive : (f run).status.live = true → run.status.live = true ∧ (f run).started = true)
    (hholds : ∀ lock ∈ c.locks, lock.runId = r → (f run).holds) : (c.setRun r f).Serial where
  started := by
    intro k found hfound hfoundLive
    obtain ⟨rfl, old, hold, rfl⟩ | ⟨-, hold⟩ := getElem?_modify_cases hfound
    · obtain rfl : run = old := Option.some.inj (hrun.symm.trans hold)
      exact (hlive hfoundLive).2
    · exact h.started k found hold hfoundLive
  owns := by
    intro k found covId hfound hfoundLocked hfoundLive
    obtain ⟨rfl, old, hold, rfl⟩ | ⟨-, hold⟩ := getElem?_modify_cases hfound
    · obtain rfl : run = old := Option.some.inj (hrun.symm.trans hold)
      rw [hlocked] at hfoundLocked
      exact h.owns k run covId hrun hfoundLocked (hlive hfoundLive).1
    · exact h.owns k found covId hold hfoundLocked hfoundLive
  held := by
    intro lock hlock
    obtain ⟨old, hold, holdLocked, holdHolds⟩ := h.held lock hlock
    by_cases hk : lock.runId = r
    · obtain rfl : run = old := Option.some.inj (hrun.symm.trans (hk ▸ hold))
      refine ⟨f run, ?_, hlocked.trans holdLocked, hholds lock hlock hk⟩
      rw [hk]
      exact getElem?_modify_self hrun
    · exact ⟨old, (getElem?_modify_of_ne hk).trans hold, holdLocked, holdHolds⟩

/-- A run that starts with the lock it needs becomes its owner. -/
theorem Serial.start (h : c.Serial) (hrun : c.runs[r]? = some run)
    (hlock : ∀ covId, run.locked = some covId → (c.acquire covId r).owner covId = some r)
    (hlocked : (f run).locked = run.locked) (hlive : (f run).status.live = true)
    (hstarted : (f run).started = true) : ((c.acquireFor run r).setRun r f).Serial where
  started := by
    intro k found hfound hfoundLive
    rw [setRun_runs, acquireFor_runs] at hfound
    obtain ⟨rfl, old, hold, rfl⟩ | ⟨-, hold⟩ := getElem?_modify_cases hfound
    · obtain rfl : run = old := Option.some.inj (hrun.symm.trans hold)
      exact hstarted
    · exact h.started k found hold hfoundLive
  owns := by
    intro k found covId hfound hfoundLocked hfoundLive
    rw [setRun_runs, acquireFor_runs] at hfound
    change (c.acquireFor run r).owner covId = some k
    obtain ⟨rfl, old, hold, rfl⟩ | ⟨-, hold⟩ := getElem?_modify_cases hfound
    · obtain rfl : run = old := Option.some.inj (hrun.symm.trans hold)
      rw [hlocked] at hfoundLocked
      rw [acquireFor, hfoundLocked]
      exact hlock covId hfoundLocked
    · exact owner_acquireFor (h.owns k found covId hold hfoundLocked hfoundLive)
  held := by
    intro lock hlockMem
    rw [setRun_runs, acquireFor_runs]
    have hself : (c.runs.modify r f)[r]? = some (f run) := getElem?_modify_self hrun
    rcases mem_acquireFor hlockMem with hold | ⟨hnew, hr⟩
    · obtain ⟨old, hfound, hfoundLocked, hfoundHolds⟩ := h.held lock hold
      by_cases hk : lock.runId = r
      · obtain rfl : run = old := Option.some.inj (hrun.symm.trans (hk ▸ hfound))
        rw [hk]
        exact ⟨f run, hself, hlocked.trans hfoundLocked, .inl hlive⟩
      · exact ⟨old, (getElem?_modify_of_ne hk).trans hfound, hfoundLocked, hfoundHolds⟩
    · rw [hr]
      exact ⟨f run, hself, hlocked.trans hnew, .inl hlive⟩

/-- A run that ends gives its lock back. -/
theorem Serial.finish (h : c.Serial) (hstatus : status.live = false) :
    (c.finish r status error).Serial where
  started := by
    intro k found hfound hfoundLive
    obtain ⟨rfl, old, hold, rfl⟩ | ⟨-, hold⟩ := getElem?_modify_cases hfound
    · simp [hstatus] at hfoundLive
    · exact h.started k found hold hfoundLive
  owns := by
    intro k found covId hfound hfoundLocked hfoundLive
    obtain ⟨rfl, old, hold, rfl⟩ | ⟨hk, hold⟩ := getElem?_modify_cases hfound
    · simp [hstatus] at hfoundLive
    · exact owner_finish (h.owns k found covId hold hfoundLocked hfoundLive) hk
  held := by
    intro lock hlock
    rw [finish_locks, List.mem_filter, decide_eq_true_iff] at hlock
    obtain ⟨old, hold, holdLocked, holdHolds⟩ := h.held lock hlock.1
    exact ⟨old, (getElem?_modify_of_ne hlock.2).trans hold, holdLocked, holdHolds⟩

/-- A run that waits for the PM keeps its lock. -/
theorem Serial.wait (h : c.Serial) (hrun : c.runs[r]? = some run) (hrunning : run.status = .running) :
    (c.setStatus r .waitingPm).Serial := by
  have hlive : run.status.live = true := by rw [hrunning]; rfl
  exact h.setRun hrun rfl (fun _ => ⟨hlive, h.started r run hrun hlive⟩) fun _ _ _ => .inl rfl

/-- A new run is queued and owns nothing. -/
theorem Serial.create (h : c.Serial) (hnew : run.status = .queued) :
    ({ c with runs := c.runs ++ [run] } : Life).Serial where
  started := by
    intro k found hfound hlive
    obtain hold | ⟨-, rfl⟩ := getElem?_concat_cases hfound
    · exact h.started k found hold hlive
    · simp [hnew, RunStatus.live] at hlive
  owns := by
    intro k found covId hfound hlocked hlive
    obtain hold | ⟨-, rfl⟩ := getElem?_concat_cases hfound
    · exact h.owns k found covId hold hlocked hlive
    · simp [hnew, RunStatus.live] at hlive
  held := by
    intro lock hlock
    obtain ⟨old, hold, hrest⟩ := h.held lock hlock
    exact ⟨old, getElem?_append_of_some hold, hrest⟩

end Life

theorem LifeStep.serial (hstep : LifeStep e c c') (h : c.Serial) : c'.Serial := by
  cases hstep with
  | propose => exact h.congr rfl rfl
  | create => exact h.create rfl
  | start hrun hqueued hlock =>
      have hstart := h.start (f := RunLife.begun) hrun hlock rfl rfl rfl
      exact hstart.congr (by simp) (by simp)
  | requeue hrun hrunning =>
      have hstarted := h.started _ _ hrun (by rw [hrunning]; rfl)
      refine h.setRun hrun rfl ?_ fun _ _ _ => .inr ⟨rfl, hstarted, rfl⟩
      intro hlive
      cases hlive
  | pause hrun hrunning => exact Life.Serial.wait (h.congr rfl rfl) hrun hrunning
  | deliver hrun hrunning hinitiation => exact Life.Serial.wait (h.congr rfl rfl) hrun hrunning
  | succeed hrun hrunning hinitiation => exact h.finish rfl
  | fail hrun hrunning => exact Life.Serial.finish (h.congr (by simp) (by simp)) rfl
  | cancel hrun hopen => exact h.finish rfl
  | decide hrun hlive hpending hentry hanswer hfound hasked hgate =>
      exact Life.Serial.finish (h.congr rfl rfl) rfl
  | answer hgate => exact h.congr rfl rfl
  | shift hstate hshift hentry => exact h.congr rfl rfl

/-! ## Runs -/

/-- The run whose status a step changes. -/
def LifeEvent.subject : LifeEvent → Option Nat
  | .start r | .requeue r | .pause r | .deliver r | .succeed r | .fail r | .cancel r => some r
  | .decide _ r _ _ => some r
  | .propose | .create | .answer _ | .shift _ _ => none

/-- What a step can make of a run. -/
structure RunLife.Becomes (run run' : RunLife) (touched : Prop) : Prop where
  coverageId : run'.coverageId = run.coverageId
  type : run'.type = run.type
  mutates : run'.mutates = run.mutates
  status : run'.status = run.status ∨ (touched ∧ RunEdge run.status run'.status)

theorem RunLife.Becomes.refl {touched : Prop} : run.Becomes run touched := ⟨rfl, rfl, rfl, .inl rfl⟩

theorem becomes_modify {runs : List RunLife} {k : Nat} {old : RunLife}
    (hk : runs[k]? = some old) (hrun : runs[r]? = some run)
    (hf : run.Becomes (f run) True) :
    ∃ new, (runs.modify r f)[k]? = some new ∧ old.Becomes new (r = k) := by
  by_cases hkr : k = r
  · subst hkr
    obtain rfl : run = old := Option.some.inj (hrun.symm.trans hk)
    refine ⟨f run, getElem?_modify_self hk, hf.coverageId, hf.type, hf.mutates, ?_⟩
    exact hf.status.imp_right fun hedge => ⟨rfl, hedge.2⟩
  · exact ⟨old, (getElem?_modify_of_ne hkr).trans hk, .refl⟩

theorem RunEdge.of_open {status : RunStatus} (h : status.terminal = false) :
    RunEdge status .cancelled := by
  cases status with
  | queued => exact .of_entry .cancel rfl
  | running => exact .of_entry .cancel rfl
  | waitingPm => exact .of_entry .cancel rfl
  | _ => cases h

theorem RunEdge.of_live {status : RunStatus} (h : status.live = true) :
    RunEdge status .succeeded := by
  cases status with
  | running => exact .of_entry .succeed rfl
  | waitingPm => exact .of_entry .succeed rfl
  | _ => cases h

/-- Every run is still there after a step, and its status moved along an edge if at all. -/
theorem LifeStep.run_after (hstep : LifeStep e c c') {k : Nat} {old : RunLife}
    (hk : c.runs[k]? = some old) :
    ∃ new, c'.runs[k]? = some new ∧ old.Becomes new (e.subject = some k) := by
  have hmodify {r : Nat} {run : RunLife} {f : RunLife → RunLife} (hsubject : e.subject = some r)
      (hrun : c.runs[r]? = some run) (hf : run.Becomes (f run) True) :
      ∃ new, (c.runs.modify r f)[k]? = some new ∧ old.Becomes new (e.subject = some k) := by
    obtain ⟨new, hnew, hbecomes⟩ := becomes_modify hk hrun hf
    refine ⟨new, hnew, hbecomes.coverageId, hbecomes.type, hbecomes.mutates, ?_⟩
    exact hbecomes.status.imp_right fun ⟨hr, hedge⟩ => ⟨hr ▸ hsubject, hedge⟩
  cases hstep with
  | propose => exact ⟨old, hk, .refl⟩
  | create => exact ⟨old, getElem?_append_of_some hk, .refl⟩
  | start hrun hqueued hlock =>
      rw [Life.begin_runs, Life.setRun_runs, Life.acquireFor_runs]
      exact hmodify rfl hrun ⟨rfl, rfl, rfl, .inr ⟨trivial, hqueued ▸ .of_entry .start rfl⟩⟩
  | requeue hrun hrunning =>
      exact hmodify rfl hrun ⟨rfl, rfl, rfl, .inr ⟨trivial, hrunning ▸ .of_entry .requeue rfl⟩⟩
  | pause hrun hrunning =>
      exact hmodify rfl hrun ⟨rfl, rfl, rfl, .inr ⟨trivial, hrunning ▸ .of_entry .openGate rfl⟩⟩
  | deliver hrun hrunning hinitiation =>
      exact hmodify rfl hrun ⟨rfl, rfl, rfl, .inr ⟨trivial, hrunning ▸ .of_entry .openGate rfl⟩⟩
  | succeed hrun hrunning hinitiation =>
      exact hmodify rfl hrun ⟨rfl, rfl, rfl, .inr ⟨trivial, hrunning ▸ .of_entry .succeed rfl⟩⟩
  | fail hrun hrunning =>
      rw [Life.finish_runs, Life.abort_runs]
      exact hmodify rfl hrun ⟨rfl, rfl, rfl, .inr ⟨trivial, hrunning ▸ .of_entry .fail rfl⟩⟩
  | cancel hrun hopen =>
      exact hmodify rfl hrun ⟨rfl, rfl, rfl, .inr ⟨trivial, .of_open hopen⟩⟩
  | decide hrun hlive hpending hentry hanswer hfound hasked hgate =>
      exact hmodify rfl hrun ⟨rfl, rfl, rfl, .inr ⟨trivial, .of_live hlive⟩⟩
  | answer hgate => exact ⟨old, hk, .refl⟩
  | shift hstate hshift hentry => exact ⟨old, hk, .refl⟩

/-- A run after a step was there before, or is a new one that has not started. -/
theorem LifeStep.run_before (hstep : LifeStep e c c') {k : Nat} {new : RunLife}
    (hk : c'.runs[k]? = some new) :
    (∃ old, c.runs[k]? = some old) ∨
      (new.status = .queued ∧ new.mutates = new.type.mutates ∧
        (∀ covId, new.coverageId = some covId → covId < c.coverages.length) ∧
        (new.coverageId = none → new.type = .distillation)) := by
  cases hold : c.runs[k]? with
  | some old => exact .inl ⟨old, rfl⟩
  | none =>
      rw [List.getElem?_eq_none_iff] at hold
      have hlength := (List.getElem?_eq_some_iff.1 hk).1
      cases hstep with
      | create hcoverage hrequired =>
          obtain hfound | ⟨-, rfl⟩ := getElem?_concat_cases hk
          · have := (List.getElem?_eq_some_iff.1 hfound).1
            omega
          · exact .inr ⟨rfl, rfl, hcoverage, hrequired⟩
      | _ => exact absurd hlength (by simpa using hold)

/-! ## Coverages -/

/-- What a step can make of the state of a coverage. -/
inductive CoverageMove (c : Life) (covId : Nat) : LifeEvent → CoverageState → CoverageState → Prop
    where
  | stays (e : LifeEvent) (state : CoverageState) : CoverageMove c covId e state state
  | begins {r : Nat} {run : RunLife} (hrun : c.runs[r]? = some run)
      (hcoverage : run.coverageId = some covId) (htype : run.type = .initiation) :
      CoverageMove c covId (.start r) .proposed .initiating
  | delivered {r : Nat} {run : RunLife} (hrun : c.runs[r]? = some run)
      (hrunning : run.status = .running) (hcoverage : run.coverageId = some covId)
      (htype : run.type = .initiation) :
      CoverageMove c covId (.deliver r) .initiating .decisionPending
  | aborted {r : Nat} {run : RunLife} (hrun : c.runs[r]? = some run)
      (hrunning : run.status = .running) (hcoverage : run.coverageId = some covId)
      (htype : run.type = .initiation) :
      CoverageMove c covId (.fail r) .initiating .failed
  | decided {r g : Nat} {action : Action} {sm : Transition}
      (hentry : entries (some .decisionPending) action = some sm)
      (hanswer : (decisionAnswer action).isSome = true) :
      CoverageMove c covId (.decide covId r g action) .decisionPending sm.toState
  | shifted {state : CoverageState} {action : Action} {sm : Transition}
      (hshift : action.shifts = true) (hentry : entries (some state) action = some sm) :
      CoverageMove c covId (.shift covId action) state sm.toState

theorem LifeStep.coverage_after (hstep : LifeStep e c c') {state : CoverageState}
    (h : c.coverages[covId]? = some state) :
    ∃ state', c'.coverages[covId]? = some state' ∧ CoverageMove c covId e state state' := by
  have hset {k : Nat} {old new : CoverageState} (hk : c.coverages[k]? = some old)
      (hmove : k = covId → CoverageMove c covId e old new) :
      ∃ state', (c.coverages.modify k fun _ => new)[covId]? = some state' ∧
        CoverageMove c covId e state state' := by
    by_cases hcov : covId = k
    · subst hcov
      obtain rfl : old = state := Option.some.inj (hk.symm.trans h)
      exact ⟨new, getElem?_modify_self hk, hmove rfl⟩
    · exact ⟨state, (getElem?_modify_of_ne hcov).trans h, .stays e state⟩
  cases hstep with
  | propose => exact ⟨state, getElem?_append_of_some h, .stays _ state⟩
  | create => exact ⟨state, h, .stays _ state⟩
  | @start _ r run hrun hqueued hlock =>
      have hof : Life.initiationOf _ run = c.initiationOf run :=
        Life.initiationOf_congr (Life.acquireFor_coverages c r run)
      obtain ⟨k, hk, hcoverages⟩ | ⟨-, hcoverages⟩ := Life.begin_coverages
        ((c.acquireFor run r).setRun r RunLife.begun) run
      · rw [hcoverages]
        obtain ⟨hcoverage, htype, hstate⟩ := Life.initiationOf_eq_some.1 (hof.symm.trans hk)
        rw [Life.setRun_coverages, Life.acquireFor_coverages]
        exact hset hstate fun hk => .begins hrun (hk ▸ hcoverage) htype
      · rw [hcoverages, Life.setRun_coverages, Life.acquireFor_coverages]
        exact ⟨state, h, .stays _ state⟩
  | requeue => exact ⟨state, h, .stays _ state⟩
  | pause => exact ⟨state, h, .stays _ state⟩
  | deliver hrun hrunning hinitiation =>
      obtain ⟨hcoverage, htype, hstate⟩ := Life.initiationOf_eq_some.1 hinitiation
      exact hset hstate fun hk => .delivered hrun hrunning (hk ▸ hcoverage) htype
  | succeed => exact ⟨state, h, .stays _ state⟩
  | @fail _ r run _ hrun hrunning =>
      obtain ⟨k, hk, hcoverages⟩ | ⟨-, hcoverages⟩ := Life.abort_coverages c run
      · rw [Life.finish_coverages, hcoverages]
        obtain ⟨hcoverage, htype, hstate⟩ := Life.initiationOf_eq_some.1 hk
        exact hset hstate fun hk => .aborted hrun hrunning (hk ▸ hcoverage) htype
      · rw [Life.finish_coverages, hcoverages]
        exact ⟨state, h, .stays _ state⟩
  | cancel => exact ⟨state, h, .stays _ state⟩
  | decide hrun hlive hpending hentry hanswer hfound hasked hgate =>
      refine hset hpending fun hk => ?_
      subst hk
      exact .decided hentry (by rw [hanswer]; rfl)
  | answer => exact ⟨state, h, .stays _ state⟩
  | shift hstate hshift hentry =>
      refine hset hstate fun hk => ?_
      subst hk
      exact .shifted hshift hentry

theorem LifeStep.coverages_length (hstep : LifeStep e c c') :
    c'.coverages.length = c.coverages.length ∨
      c'.coverages = c.coverages ++ [.proposed] := by
  cases hstep with
  | propose => exact .inr rfl
  | @start _ r run =>
      left
      obtain ⟨k, -, hcoverages⟩ | ⟨-, hcoverages⟩ := Life.begin_coverages
        ((c.acquireFor run r).setRun r RunLife.begun) run <;> simp [hcoverages]
  | @fail _ r run =>
      left
      obtain ⟨k, -, hcoverages⟩ | ⟨-, hcoverages⟩ := Life.abort_coverages c run <;>
        simp [hcoverages]
  | _ => simp

/-- A coverage after a step was there before, or has just been proposed. -/
theorem LifeStep.coverage_before (hstep : LifeStep e c c') {state' : CoverageState}
    (h : c'.coverages[covId]? = some state') :
    (∃ state, c.coverages[covId]? = some state) ∨ state' = .proposed := by
  obtain hlength | happend := hstep.coverages_length
  · have hlt := (List.getElem?_eq_some_iff.1 h).1
    rw [hlength] at hlt
    exact .inl ⟨_, List.getElem?_eq_getElem hlt⟩
  · rw [happend] at h
    obtain hold | ⟨-, rfl⟩ := getElem?_concat_cases h
    · exact .inl ⟨state', hold⟩
    · exact .inr rfl

/-! ## Gates -/

/-- The gate that a step answers. -/
def LifeEvent.answers : LifeEvent → Option Nat
  | .decide _ _ g _ => some g
  | .answer g => some g
  | _ => none

/-- The run that a step stops at a new gate. -/
def LifeEvent.opens : LifeEvent → Option Nat
  | .pause r | .deliver r => some r
  | _ => none

theorem Life.getElem?_answer {k : Nat} {text : String} (hk : c.gates[k]? = some gate) :
    (c.answer g text).gates[k]? =
      some (if k = g then { gate with state := .answered, answer := some text } else gate) := by
  by_cases hg : k = g
  · subst hg
    rw [if_pos rfl]
    exact getElem?_modify_self hk
  · rw [if_neg hg]
    exact (getElem?_modify_of_ne hg).trans hk

/-- Every gate is still there after a step, changed only if the step answers it. -/
theorem LifeStep.gate_after (hstep : LifeStep e c c') {k : Nat} (hk : c.gates[k]? = some gate) :
    ∃ text, c'.gates[k]? =
      some (if e.answers = some k then
        { gate with state := .answered, answer := some text } else gate) := by
  cases hstep with
  | pause => exact ⟨"", getElem?_append_of_some hk⟩
  | deliver => exact ⟨"", getElem?_append_of_some hk⟩
  | @decide _ _ r g action run sm found asked gate' answer =>
      refine ⟨answer, (Life.getElem?_answer hk).trans ?_⟩
      simp only [LifeEvent.answers, Option.some.injEq, eq_comm]
  | @answer _ g gate' answer =>
      refine ⟨answer, (Life.getElem?_answer hk).trans ?_⟩
      simp only [LifeEvent.answers, Option.some.injEq, eq_comm]
  | _ => exact ⟨"", by simpa [LifeEvent.answers] using hk⟩

def GateLife.place (gate : GateLife) : Nat × Option Nat := (gate.runId, gate.coverageId)

/-- A step opens at most one gate, for a running run that it stops there. -/
theorem LifeStep.gates_cases (hstep : LifeStep e c c') :
    (e.opens = none ∧ c'.gates.map GateLife.place = c.gates.map GateLife.place) ∨
      ∃ r run new, e.opens = some r ∧ c.runs[r]? = some run ∧ run.status = .running ∧
        c'.runs[r]? = some { run with status := .waitingPm } ∧ c'.gates = c.gates ++ [new] ∧
        new.runId = r ∧ new.coverageId = run.coverageId ∧ new.state = .opened ∧
        (e = .deliver r → new.kind = .initiationDecision) := by
  have hanswer (g : Nat) (text : String) :
      (c.answer g text).gates.map GateLife.place = c.gates.map GateLife.place := by
    calc
      (c.answer g text).gates.map GateLife.place =
          (c.gates.map GateLife.place).modify g id := map_modify fun _ => rfl
      _ = c.gates.map GateLife.place := List.modify_id _ _
  cases hstep with
  | @pause _ r run hrun hrunning =>
      refine .inr ⟨r, run, _, rfl, hrun, hrunning, getElem?_modify_self hrun, rfl, rfl, rfl, rfl, ?_⟩
      intro h
      cases h
  | @deliver _ r covId run hrun hrunning hinitiation =>
      obtain ⟨hcoverage, -, -⟩ := Life.initiationOf_eq_some.1 hinitiation
      exact .inr ⟨r, run, _, rfl, hrun, hrunning, getElem?_modify_self hrun, rfl, rfl,
        hcoverage.symm, rfl, fun _ => rfl⟩
  | decide => exact .inl ⟨rfl, hanswer _ _⟩
  | answer => exact .inl ⟨rfl, hanswer _ _⟩
  | _ => exact .inl ⟨rfl, by simp⟩

namespace Life

/-! ## Well-formed rows -/

/-- The fixed columns of a run agree with its type and its coverage exists. -/
structure Formed (c : Life) : Prop where
  mutates : ∀ (r : Nat) (run : RunLife), c.runs[r]? = some run → run.mutates = run.type.mutates
  covered : ∀ (r : Nat) (run : RunLife) (covId : Nat), c.runs[r]? = some run →
    run.coverageId = some covId → covId < c.coverages.length
  required : ∀ (r : Nat) (run : RunLife), c.runs[r]? = some run → run.coverageId = none →
    run.type = .distillation

/-- Every gate belongs to a run that has reached it, and no run reaches two. -/
structure Gated (c : Life) : Prop where
  run : ∀ gate ∈ c.gates, ∃ run, c.runs[gate.runId]? = some run ∧
    run.coverageId = gate.coverageId ∧ run.status.gated = true
  once : (c.gates.map (·.runId)).Nodup

theorem Gated.same (h : c.Gated) {g k : Nat} {gate gate' : GateLife}
    (hg : c.gates[g]? = some gate) (hk : c.gates[k]? = some gate') (hrun : gate.runId = gate'.runId) :
    g = k := by
  have hlt : g < (c.gates.map (·.runId)).length := by
    rw [List.length_map]
    exact (List.getElem?_eq_some_iff.1 hg).1
  refine (List.getElem?_inj hlt h.once).1 ?_
  rw [List.getElem?_map, List.getElem?_map, hg, hk, Option.map_some, Option.map_some, hrun]

end Life

theorem LifeStep.formed (hstep : LifeStep e c c') (h : c.Formed) : c'.Formed := by
  have hlength : c.coverages.length ≤ c'.coverages.length := by
    obtain hlength | happend := hstep.coverages_length
    · omega
    · simp [happend]
  constructor
  · intro r new hnew
    obtain ⟨old, hold⟩ | ⟨-, hmutates, -⟩ := hstep.run_before hnew
    · obtain ⟨new', hnew', hbecomes⟩ := hstep.run_after hold
      obtain rfl : new = new' := Option.some.inj (hnew.symm.trans hnew')
      rw [hbecomes.mutates, hbecomes.type]
      exact h.mutates r old hold
    · exact hmutates
  · intro r new covId hnew hcov
    obtain ⟨old, hold⟩ | ⟨-, -, hcovered, -⟩ := hstep.run_before hnew
    · obtain ⟨new', hnew', hbecomes⟩ := hstep.run_after hold
      obtain rfl : new = new' := Option.some.inj (hnew.symm.trans hnew')
      exact (h.covered r old covId hold (hbecomes.coverageId ▸ hcov)).trans_le hlength
    · exact (hcovered covId hcov).trans_le hlength
  · intro r new hnew hcov
    obtain ⟨old, hold⟩ | ⟨-, -, -, hrequired⟩ := hstep.run_before hnew
    · obtain ⟨new', hnew', hbecomes⟩ := hstep.run_after hold
      obtain rfl : new = new' := Option.some.inj (hnew.symm.trans hnew')
      rw [hbecomes.type]
      exact h.required r old hold (hbecomes.coverageId ▸ hcov)
    · exact hrequired hcov

theorem RunEdge.gated {a b : RunStatus} (h : RunEdge a b) (ha : a.gated = true) : b.gated = true := by
  obtain ⟨action, cause, hentry⟩ := h.entry
  cases a with
  | queued => cases ha
  | running => cases ha
  | _ => cases action <;> cases hentry <;> rfl

theorem RunLife.Becomes.gated {touched : Prop} (h : run.Becomes run' touched)
    (hrun : run.status.gated = true) : run'.status.gated = true := by
  rcases h.status with hsame | ⟨-, hedge⟩
  · rw [hsame]
    exact hrun
  · exact hedge.gated hrun

theorem LifeStep.gated (hstep : LifeStep e c c') (h : c.Gated) : c'.Gated := by
  have hafter {r : Nat} {coverageId : Option Nat} (hr : ∃ run, c.runs[r]? = some run ∧
      run.coverageId = coverageId ∧ run.status.gated = true) :
      ∃ run, c'.runs[r]? = some run ∧ run.coverageId = coverageId ∧ run.status.gated = true := by
    obtain ⟨run, hrun, hcoverage, hgated⟩ := hr
    obtain ⟨run', hrun', hbecomes⟩ := hstep.run_after hrun
    exact ⟨run', hrun', hbecomes.coverageId.trans hcoverage, hbecomes.gated hgated⟩
  obtain ⟨-, hplaces⟩ | ⟨r, run, new, -, hrun, hrunning, hwaiting, hgates, hr, hcoverage, -⟩ :=
    hstep.gates_cases
  · constructor
    · intro gate hgate
      have hmem : gate.place ∈ c.gates.map GateLife.place := hplaces ▸ List.mem_map_of_mem hgate
      obtain ⟨old, hold, hplace⟩ := List.mem_map.1 hmem
      obtain ⟨hrunId, hcoverageId⟩ := Prod.mk.inj hplace
      rw [← hrunId, ← hcoverageId]
      exact hafter (h.run old hold)
    · have hruns : c'.gates.map (·.runId) = c.gates.map (·.runId) := by
        have hfst := congrArg (List.map Prod.fst) hplaces
        rwa [List.map_map, List.map_map] at hfst
      rw [hruns]
      exact h.once
  · constructor
    · intro gate hgate
      rw [hgates] at hgate
      rcases List.mem_append.1 hgate with hold | hnew
      · exact hafter (h.run gate hold)
      · obtain rfl := List.mem_singleton.1 hnew
        rw [hr]
        exact ⟨_, hwaiting, hcoverage.symm, rfl⟩
    · rw [hgates, List.map_append, List.map_singleton, List.nodup_append]
      refine ⟨h.once, List.nodup_singleton _, ?_⟩
      intro k hk k' hk' hkk
      -- A running run has no gate yet.
      obtain ⟨gate, hgate, rfl⟩ := List.mem_map.1 hk
      rw [List.mem_singleton, hr] at hk'
      obtain ⟨old, hold, -, hgated⟩ := h.run gate hgate
      rw [hkk, hk', hrun] at hold
      cases hold
      rw [hrunning] at hgated
      cases hgated

end AiFund
