import AiFund.Proof.OpSteps

/-!
# Per-ticker serialization
-/

namespace AiFund

open UnitOfWork Rows History

variable {app : App} {a b db : Db} {r : Nat}

theorem RunStatus.not_terminal_of_live {status : RunStatus} (h : status.live = true) :
    status.terminal = false := by
  cases status with
  | running => rfl
  | waitingPm => rfl
  | _ => cases h

theorem Db.life_runs_eq_some {life : RunLife} :
    db.life.runs[r]? = some life ↔ ∃ run, db.runs[r]? = some run ∧ run.life = life := by
  simp [Db.life]

theorem Db.life_run {run : Run} (h : db.runs[r]? = some run) : db.life.runs[r]? = some run.life :=
  life_runs_eq_some.2 ⟨run, h, rfl⟩

theorem Run.life_locked {run : Run} {covId : Nat} :
    run.life.locked = some covId ↔ run.mutatesDossier = true ∧ run.coverageId = some covId := by
  unfold RunLife.locked
  change (if run.mutatesDossier = true then run.coverageId else none) = some covId ↔ _
  split_ifs with hmutates <;> simp [hmutates]

theorem Life.Serial.serialized (h : db.life.Serial) : db.Serialized := by
  have howns {r : Nat} {run : Run} {covId : Nat} (hrun : db.runs[r]? = some run)
      (hmutates : run.mutatesDossier = true) (hcov : run.coverageId = some covId)
      (hlive : run.status.live = true) : db.lockOwner covId = some r := by
    rw [Db.lockOwner_eq]
    exact h.owns r run.life covId (Db.life_run hrun) (Run.life_locked.2 ⟨hmutates, hcov⟩) hlive
  have hheld : ∀ lock ∈ db.locks, ∃ run, db.runs[lock.runId]? = some run ∧
      (run.status.live = true ∨ run.requeued) := by
    intro lock hlock
    obtain ⟨life, hlife, -, hholds⟩ := h.held ⟨lock.coverageId, lock.runId⟩ (List.mem_map_of_mem hlock)
    obtain ⟨run, hrun, rfl⟩ := Db.life_runs_eq_some.1 hlife
    refine ⟨run, hrun, hholds.imp_right fun ⟨hqueued, hstarted, htransient⟩ => ?_⟩
    exact ⟨hqueued, hstarted, of_decide_eq_true htransient⟩
  refine ⟨?_, fun r run covId hrun hmutates hcov hlive => howns hrun hmutates hcov hlive, hheld, ?_⟩
  · intro r r' run run' covId hrun hrun' hmutates hmutates' hcov hcov' hlive hlive'
    have howner := howns hrun hmutates hcov hlive
    rw [howns hrun' hmutates' hcov' hlive', Option.some.injEq] at howner
    exact howner.symm
  · rintro _ run hrun hterminal lock hlock rfl
    obtain ⟨found, hfound, hstatus⟩ := hheld lock hlock
    obtain rfl : run = found := Option.some.inj (hrun.symm.trans hfound)
    rcases hstatus with hlive | ⟨hqueued, -⟩
    · rw [RunStatus.not_terminal_of_live hlive] at hterminal
      cases hterminal
    · rw [hqueued] at hterminal
      cases hterminal

theorem Life.Follows.rows (h : a.life.Follows b.life) : a.Follows b := by
  have hmoves {r : Nat} {run : Run} (hrun : a.runs[r]? = some run) : ∃ run',
      b.runs[r]? = some run' ∧ (run'.status = run.status ∨ RunEdge run.status run'.status) := by
    obtain ⟨life', hlife', hbecomes⟩ := h.becomes r run.life (Db.life_run hrun)
    obtain ⟨run', hrun', rfl⟩ := Db.life_runs_eq_some.1 hlife'
    exact ⟨run', hrun', hbecomes.status.imp_right And.right⟩
  refine ⟨fun r run hrun => hmoves hrun, ?_, ?_⟩
  · intro r run run' hrun hrun' hterminal
    obtain ⟨found, hfound, hstatus⟩ := hmoves hrun
    obtain rfl : run' = found := Option.some.inj (hrun'.symm.trans hfound)
    refine hstatus.resolve_right fun hedge => ?_
    rw [hedge.not_terminal] at hterminal
    cases hterminal
  · intro r run run' covId hrun hrun' hmutates hcov hqueued hrunning
    rw [Db.lockOwner_eq]
    exact h.locked r run.life run'.life covId (Db.life_run hrun) (Db.life_run hrun') hqueued hrunning
      (Run.life_locked.2 ⟨hmutates, hcov⟩)

theorem op_follows (op : Op) (db : Db) : op.Follows app db := by
  have hcommits : Commits (fun _ e => op.allows app db e) db (op.exec app db) := op.commits db
  exact ⟨hcommits.chain.imp fun a b h => h.rows, hcommits.last⟩

/-- In every history, runs on a coverage are serialized by its lock, and the status of each run
follows the edges of the run state machine from write to write. -/
theorem run_serialized (hdb : db.Fresh) (ops : List Op) :
    (run app db ops).Serialized ∧ EachStep (step app) (Op.Follows app) db ops :=
  ⟨(run_lawful hdb ops).serial.serialized, eachStep_of_forall fun db op => op_follows op db⟩

theorem run_serialized_small :
    (run .small .small (Op.initiateApple ++ [.tickWith []])).runs.map (·.status) = [.running] ∧
      (run .small .small (Op.initiateApple ++ [.tickWith []])).Serialized ∧
      EachStep (step .small) (Op.Follows .small) .small (Op.initiateApple ++ [.tickWith []]) :=
  ⟨by decide +kernel, run_serialized Db.small_fresh _⟩

end AiFund
