import AiFund.Proof.Adoption

/-!
# Gates

Unless a gate is answered or its run cancelled behind its back, a run waits exactly while it has
an open gate.
-/

namespace AiFund

open UnitOfWork Rows History

variable {app : App} {db : Db} {c c' : Life} {e : LifeEvent} {r : Nat} {f : RunLife → RunLife}

namespace Life

/-- The run has an open gate. -/
def OpenFor (c : Life) (r : Nat) : Prop :=
  ∃ (g : Nat) (gate : GateLife), c.gates[g]? = some gate ∧ gate.runId = r ∧ gate.state = .opened

/-- A run waits exactly while it has an open gate. -/
def Matched (c : Life) : Prop :=
  ∀ (r : Nat) (run : RunLife), c.runs[r]? = some run → (run.status = .waitingPm ↔ c.OpenFor r)

theorem Matched.congr (h : c.Matched) (hruns : c'.runs = c.runs) (hgates : c'.gates = c.gates) :
    c'.Matched := by
  intro r run hrun
  rw [hruns] at hrun
  rw [OpenFor, hgates]
  exact h r run hrun

/-- A run that neither stops at a gate nor leaves one. -/
theorem Matched.setRun {run : RunLife} (h : c.Matched) (hrun : c.runs[r]? = some run)
    (hbefore : run.status ≠ .waitingPm) (hafter : (f run).status ≠ .waitingPm)
    (hruns : c'.runs = c.runs.modify r f) (hgates : c'.gates = c.gates) : c'.Matched := by
  intro k found hfound
  rw [OpenFor, hgates]
  rw [hruns] at hfound
  obtain ⟨rfl, old, hold, rfl⟩ | ⟨-, hold⟩ := getElem?_modify_cases hfound
  · obtain rfl : run = old := Option.some.inj (hrun.symm.trans hold)
    have hopen := h k run hrun
    simp only [hbefore, false_iff] at hopen
    simp only [hafter, false_iff]
    exact hopen
  · exact h k found hold

/-- A run that stops at a new gate. -/
theorem Matched.stop {new : GateLife} (h : c.Matched) (hnew : new.runId = r)
    (hopen : new.state = .opened)
    (hruns : c'.runs = c.runs.modify r fun run => { run with status := .waitingPm })
    (hgates : c'.gates = c.gates ++ [new]) : c'.Matched := by
  intro k found hfound
  rw [hruns] at hfound
  have hiff : c'.OpenFor k ↔ c.OpenFor k ∨ k = r := by
    unfold OpenFor
    rw [hgates]
    constructor
    · rintro ⟨g, gate, hgate, hrun, hgateOpen⟩
      obtain hold | ⟨-, rfl⟩ := getElem?_concat_cases hgate
      · exact .inl ⟨g, gate, hold, hrun, hgateOpen⟩
      · exact .inr (hrun.symm.trans hnew)
    · rintro (⟨g, gate, hgate, hrest⟩ | rfl)
      · exact ⟨g, gate, getElem?_append_of_some hgate, hrest⟩
      · exact ⟨c.gates.length, new, List.getElem?_concat_length, hnew, hopen⟩
  rw [hiff]
  obtain ⟨rfl, old, hold, rfl⟩ | ⟨hk, hold⟩ := getElem?_modify_cases hfound
  · simp
  · rw [h k found hold, or_iff_left hk]

theorem openFor_answer {g k : Nat} {text : String} : (c.answer g text).OpenFor k ↔
    ∃ (i : Nat) (gate : GateLife), i ≠ g ∧ c.gates[i]? = some gate ∧ gate.runId = k ∧
      gate.state = .opened := by
  constructor
  · rintro ⟨i, gate, hgate, hrun, hopen⟩
    obtain ⟨rfl, old, -, rfl⟩ | ⟨hi, hold⟩ := getElem?_modify_cases hgate
    · cases hopen
    · exact ⟨i, gate, hi, hold, hrun, hopen⟩
  · rintro ⟨i, gate, hi, hgate, hrun, hopen⟩
    exact ⟨i, gate, (getElem?_modify_of_ne hi).trans hgate, hrun, hopen⟩

end Life

/-- The step does not end a wait from one side only. -/
def LifeEvent.sparesGates (c : Life) : LifeEvent → Prop
  | .cancel r => ∀ run, c.runs[r]? = some run → run.status ≠ .waitingPm
  | .answer g => ∀ gate, c.gates[g]? = some gate → gate.state ≠ .opened
  | _ => True

theorem LifeStep.matched (hstep : LifeStep e c c') (hspares : e.sparesGates c) (hc : c.Gated)
    (h : c.Matched) : c'.Matched := by
  cases hstep with
  | propose => exact h.congr rfl rfl
  | create hcoverage hrequired =>
      intro k found hfound
      change _ ↔ c.OpenFor k
      obtain hold | ⟨rfl, rfl⟩ := getElem?_concat_cases hfound
      · exact h k found hold
      · -- A new run has no gate yet.
        have hnone : ¬ c.OpenFor c.runs.length := by
          rintro ⟨g, gate, hgate, hrun, -⟩
          obtain ⟨run, hget, -⟩ := hc.run gate (List.mem_of_getElem? hgate)
          have hlength := (List.getElem?_eq_some_iff.1 hget).1
          omega
        simp [hnone]
  | start hrun hqueued hlock =>
      exact h.setRun (f := RunLife.begun) hrun (by simp [hqueued]) (by simp [RunLife.begun]) (by simp)
        (by simp)
  | requeue hrun hrunning =>
      exact h.setRun (f := RunLife.requeued) hrun (by simp [hrunning]) (by simp [RunLife.requeued]) rfl
        rfl
  | pause hrun hrunning => exact h.stop rfl rfl rfl rfl
  | deliver hrun hrunning hinitiation => exact h.stop rfl rfl rfl rfl
  | succeed hrun hrunning hinitiation => exact h.setRun hrun (by simp [hrunning]) (by simp) rfl rfl
  | @fail _ r run error hrun hrunning =>
      exact h.setRun (f := fun run => run.ended .failed error) hrun (by simp [hrunning]) (by simp)
        (by simp) (by simp)
  | cancel hrun hopen => exact h.setRun hrun (hspares _ hrun) (by simp) rfl rfl
  | @decide _ covId r g action run sm found asked gate text hrun hlive hpending hentry hanswer hfound
      hasked hgate =>
      intro k new hnew
      obtain ⟨hget, hgateRun, hopen⟩ := hgate
      change _ ↔ (c.answer g text).OpenFor k
      rw [Life.openFor_answer]
      obtain ⟨rfl, old, hold, rfl⟩ | ⟨hk, hold⟩ := getElem?_modify_cases hnew
      · -- The gate that is answered is the only one of the run.
        rw [RunLife.ended_status]
        refine iff_of_false (by simp) ?_
        rintro ⟨i, other, hi, hother, hotherRun, -⟩
        exact hi (hc.same hother hget (hotherRun.trans hgateRun.symm))
      · rw [h k new hold]
        constructor
        · rintro ⟨i, other, hother, hotherRun, hotherOpen⟩
          refine ⟨i, other, ?_, hother, hotherRun, hotherOpen⟩
          rintro rfl
          rw [hget] at hother
          cases hother
          exact hk (hotherRun.symm.trans hgateRun)
        · rintro ⟨i, other, -, hrest⟩
          exact ⟨i, other, hrest⟩
  | @answer _ g gate text hgate =>
      intro k found hfound
      rw [h k found hfound, Life.openFor_answer]
      constructor
      · rintro ⟨i, other, hother, hrun, hopen⟩
        refine ⟨i, other, ?_, hother, hrun, hopen⟩
        rintro rfl
        exact hspares other hother hopen
      · rintro ⟨i, other, -, hrest⟩
        exact ⟨i, other, hrest⟩
  | shift hstate hshift hentry => exact h.congr rfl rfl

theorem Db.openFor_life : db.life.OpenFor r ↔
    ∃ gate ∈ db.gates, gate.runId = r ∧ gate.state = .opened := by
  constructor
  · rintro ⟨g, life, hlife, hrun, hopen⟩
    obtain ⟨gate, hgate, rfl⟩ := Db.life_gates_eq_some.1 hlife
    exact ⟨gate, List.mem_of_getElem? hgate, hrun, hopen⟩
  · rintro ⟨gate, hgate, hrest⟩
    obtain ⟨g, hget⟩ := List.getElem?_of_mem hgate
    exact ⟨g, gate.life, Db.life_gates_eq_some.2 ⟨gate, hget, rfl⟩, hrest⟩

theorem Life.Matched.gatesMatch (h : db.life.Matched) (hdb : db.life.Gated) : db.GatesMatch where
  waiting := by
    intro r run hrun hwaiting
    obtain ⟨gate, hgate, hgateRun, hopen⟩ :=
      Db.openFor_life.1 ((h r run.life (Db.life_run hrun)).1 hwaiting)
    have honce : (db.gates.map (·.runId)).Nodup := by
      have honce := hdb.once
      rwa [Db.life, List.map_map] at honce
    refine countP_eq_one honce hgate (by simp [hgateRun, hopen]) fun other _ hother => ?_
    rw [decide_eq_true_iff] at hother
    exact hother.1.trans hgateRun.symm
  ended := by
    intro r run hrun hterminal
    rw [List.countP_eq_zero]
    intro gate hgate hopen
    rw [decide_eq_true_iff] at hopen
    have hwaiting := (h r run.life (Db.life_run hrun)).2 (Db.openFor_life.2 ⟨gate, hgate, hopen⟩)
    change run.status = .waitingPm at hwaiting
    rw [hwaiting] at hterminal
    cases hterminal

theorem Op.SparesGates.step (op : Op) (hspares : op.SparesGates app db) (hdb : db.life.Lawful)
    (h : db.life.Matched) : (step app db op).life.Matched := by
  refine op_preserves hdb (fun e c' hallows hstep hc => ?_) (fun e a b hop hallows hstep ha hc => ?_) h
  · refine hstep.matched ?_ hdb.gated hc
    cases e with
    | cancel r =>
        intro life hlife
        obtain ⟨run, hrun, rfl⟩ := Db.life_runs_eq_some.1 hlife
        exact hspares.cancel r run (Op.cancels_of_allows hallows) hrun
    | answer g =>
        intro life hlife
        obtain ⟨gate, hgate, rfl⟩ := Db.life_gates_eq_some.1 hlife
        exact hspares.answer g gate (Op.answers_of_allows hallows) hgate
    | _ => trivial
  · refine hstep.matched ?_ ha.gated hc
    have hbackground := Op.background_of_allows hop hallows
    cases e with
    | cancel r => exact hbackground.elim
    | answer g => exact hbackground.elim
    | _ => trivial

/-- In every history that neither cancels a waiting run nor answers an open gate on its own, a run
waits exactly at its one open gate and an ended run has none. -/
theorem run_gatesMatch (hdb : db.Fresh) (ops : List Op)
    (hops : EachStep (step app) (Op.SparesGates app) db ops) : (run app db ops).GatesMatch := by
  have hstart : db.life.Lawful ∧ db.life.Matched := by
    refine ⟨hdb.lawful, fun r life hlife => ?_⟩
    obtain ⟨run, hrun, -⟩ := Db.life_runs_eq_some.1 hlife
    simp [hdb.runs] at hrun
  have hend : (run app db ops).life.Lawful ∧ (run app db ops).life.Matched :=
    invariant (I := fun db => db.life.Lawful ∧ db.life.Matched)
      (fun _ op h hspares => ⟨h.1.step op, Op.SparesGates.step op hspares h.1 h.2⟩) hstart hops
  exact hend.2.gatesMatch hend.1.gated

theorem Op.SparesGates.of_others {op : Op} (hcancel : ∀ r, ¬ op.Cancels app db r)
    (hanswer : ∀ g, ¬ op.Answers app db g) : op.SparesGates app db :=
  ⟨fun r _ h => absurd h (hcancel r), fun g _ h => absurd h (hanswer g)⟩

/-- The history of one initiation up to the decision that it waits for. -/
def Op.deliverApple : List Op :=
  Op.initiateApple ++ [.tickWith (QueueCall.succeeds 0 [] ++ QueueCall.succeeds 1 [])]

theorem run_gatesMatch_small :
    (run .small .small Op.deliverApple).runs.map (·.status) = [.waitingPm] ∧
      (run .small .small Op.deliverApple).GatesMatch := by
  refine ⟨by decide +kernel, run_gatesMatch Db.small_fresh _ ?_⟩
  refine ⟨.of_others ?_ ?_, .of_others ?_ ?_, .of_others ?_ ?_, trivial⟩ <;>
    · rintro _ ⟨_, _, _, _, h⟩
      simp [Op.ask, Op.tickWith] at h

/-- A cancelled run leaves the gate that it waited at open. -/
theorem not_gatesMatch_cancelled :
    ¬ (run .small .small (Op.deliverApple ++ [.ask "cancel" (.cancelRun 0 none)])).GatesMatch := by
  intro h
  have hstatus : (run .small .small (Op.deliverApple ++
      [.ask "cancel" (.cancelRun 0 none)])).runs[0]?.map (·.status) = some .cancelled := by
    decide +kernel
  obtain ⟨run, hrun, hcancelled⟩ := Option.map_eq_some_iff.1 hstatus
  have hcount := h.ended 0 run hrun (by rw [hcancelled]; rfl)
  revert hcount
  decide +kernel

end AiFund
