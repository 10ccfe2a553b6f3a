import AiFund.Proof.EngineErrors
import AiFund.Proof.Initiations

/-!
# Coupling of initiations and coverages

While an initiation runs its coverage is initiating, as long as no initiation is started on a
coverage that has moved on.
-/

namespace AiFund

open UnitOfWork Rows History

variable {app : App} {db : Db} {c c' c₀ : Life} {e : LifeEvent} {r covId : Nat}

/-- Every running initiation has its coverage in the state that it will move on from. -/
def Life.Coupled (c : Life) : Prop :=
  ∀ (r : Nat) (run : RunLife), c.runs[r]? = some run → run.type = .initiation →
    run.status = .running → ∃ covId, run.coverageId = some covId ∧
      c.coverages[covId]? = some .initiating

/-- An initiation that starts finds its coverage where it left it. -/
def LifeEvent.StartsFresh (c : Life) : LifeEvent → Prop
  | .start r => ∀ (run : RunLife) (covId : Nat) (state : CoverageState), c.runs[r]? = some run →
      run.initiates covId → c.coverages[covId]? = some state →
      state = .proposed ∨ state = .initiating
  | _ => True

/-! ## One step -/

/-- A run that runs after a step was left running or has just started. -/
theorem LifeStep.running_after (hstep : LifeStep e c c') {old new : RunLife}
    (hold : c.runs[r]? = some old) (hnew : c'.runs[r]? = some new)
    (hrunning : new.status = .running) :
    e = .start r ∨ (old.status = .running ∧ e.subject ≠ some r) := by
  have hmodify {k : Nat} {f : RunLife → RunLife}
      (hget : (c.runs.modify k f)[r]? = some new) (hf : ∀ run, (f run).status ≠ .running) :
      old.status = .running ∧ some k ≠ some r := by
    obtain ⟨rfl, found, -, rfl⟩ | ⟨hk, hsame⟩ := getElem?_modify_cases hget
    · exact absurd hrunning (hf found)
    · rw [hold, Option.some.injEq] at hsame
      refine ⟨hsame ▸ hrunning, ?_⟩
      rw [ne_eq, Option.some.injEq]
      exact Ne.symm hk
  have hsame (hget : c.runs[r]? = some new) : old.status = .running := by
    rw [hold, Option.some.injEq] at hget
    exact hget ▸ hrunning
  have hnone : (none : Option Nat) ≠ some r := (Option.some_ne_none r).symm
  cases hstep with
  | propose => exact .inr ⟨hsame hnew, hnone⟩
  | create =>
      rw [getElem?_append_of_some hold] at hnew
      exact .inr ⟨hsame (hold.trans hnew), hnone⟩
  | @start _ k run hrun hqueued hlock =>
      by_cases hk : k = r
      · exact .inl (hk ▸ rfl)
      · rw [Life.begin_runs, Life.setRun_runs, Life.acquireFor_runs,
          getElem?_modify_of_ne (Ne.symm hk)] at hnew
        refine .inr ⟨hsame hnew, ?_⟩
        rw [LifeEvent.subject, ne_eq, Option.some.injEq]
        exact hk
  | requeue => exact .inr (hmodify hnew (by simp [RunLife.requeued]))
  | pause => exact .inr (hmodify hnew (by simp))
  | deliver => exact .inr (hmodify hnew (by simp))
  | succeed => exact .inr (hmodify hnew (by simp))
  | fail =>
      rw [Life.finish_runs, Life.abort_runs] at hnew
      exact .inr (hmodify hnew (by simp))
  | cancel => exact .inr (hmodify hnew (by simp))
  | decide => exact .inr (hmodify hnew (by simp))
  | answer => exact .inr ⟨hsame hnew, hnone⟩
  | shift => exact .inr ⟨hsame hnew, hnone⟩

/-- An initiation that starts on a proposed coverage moves it along. -/
theorem LifeStep.start_initiating {run : RunLife} {state : CoverageState}
    (hstep : LifeStep (.start r) c c') (hrun : c.runs[r]? = some run)
    (hinitiates : run.initiates covId) (hstate : c.coverages[covId]? = some state)
    (hfresh : state = .proposed ∨ state = .initiating) :
    c'.coverages[covId]? = some .initiating := by
  obtain ⟨state', hstate', hmove⟩ := hstep.coverage_after hstate
  cases hstep with
  | start hfound hqueued hlock =>
      rw [hrun, Option.some.injEq] at hfound
      subst hfound
      have hof : Life.initiationOf ((c.acquireFor run r).setRun r RunLife.begun) run =
          some (covId, state) := by
        rw [Life.initiationOf_congr (c := c) (by simp)]
        exact Life.initiationOf_eq_some.2 ⟨hinitiates.2, hinitiates.1, hstate⟩
      obtain ⟨k, hk, hcoverages⟩ | ⟨hnot, hcoverages⟩ := Life.begin_coverages
        ((c.acquireFor run r).setRun r RunLife.begun) run
      · rw [hof, Option.some.injEq, Prod.mk.injEq] at hk
        rw [hcoverages, ← hk.1]
        exact getElem?_modify_self (by simpa using hstate)
      · rw [hcoverages, Life.setRun_coverages, Life.acquireFor_coverages, hstate]
        rcases hfresh with rfl | rfl
        · exact absurd hof (hnot covId)
        · rfl

theorem LifeStep.coupled (hstep : LifeStep e c c') (hfresh : e.StartsFresh c) (hc : c.Lawful)
    (h : c.Coupled) : c'.Coupled := by
  intro r new hnew htype hrunning
  obtain ⟨old, hold⟩ | ⟨hqueued, -⟩ := hstep.run_before hnew
  · obtain ⟨new', hnew', hbecomes⟩ := hstep.run_after hold
    obtain rfl : new = new' := Option.some.inj (hnew.symm.trans hnew')
    rw [hbecomes.type] at htype
    rw [hbecomes.coverageId]
    obtain rfl | ⟨holdRunning, hsubject⟩ := hstep.running_after hold hnew hrunning
    · cases hcov : old.coverageId with
      | none =>
          rw [hc.formed.required r old hold hcov] at htype
          cases htype
      | some covId =>
          have hlt := hc.formed.covered r old covId hold hcov
          have hstate := List.getElem?_eq_getElem hlt
          exact ⟨covId, rfl, hstep.start_initiating hold ⟨htype, hcov⟩ hstate
            (hfresh old covId _ hold ⟨htype, hcov⟩ hstate)⟩
    · obtain ⟨covId, hcov, hinitiating⟩ := h r old hold htype holdRunning
      refine ⟨covId, hcov, ?_⟩
      obtain ⟨state', hstate', hmove⟩ := hstep.coverage_after hinitiating
      -- Another run that moves the coverage would own the lock that this one owns.
      have hother {k : Nat} {run : RunLife} (hrun : c.runs[k]? = some run)
          (hlive : run.status = .running) (hinitiates : run.initiates covId) : k = r := by
        have howns := hc.serial.owns k run covId hrun (hinitiates.locked hc.formed hrun)
          (by rw [hlive]; rfl)
        rw [hc.serial.owns r old covId hold (RunLife.initiates.locked ⟨htype, hcov⟩ hc.formed hold)
          (by rw [holdRunning]; rfl), Option.some.injEq] at howns
        exact howns.symm
      cases hmove with
      | stays => exact hstate'
      | delivered hrun hlive hcoverage hinitiation =>
          exact absurd (congrArg some (hother hrun hlive ⟨hinitiation, hcoverage⟩)) hsubject
      | aborted hrun hlive hcoverage hinitiation =>
          exact absurd (congrArg some (hother hrun hlive ⟨hinitiation, hcoverage⟩)) hsubject
      | @shifted _ action _ hshift hentry => cases action <;> cases hentry <;> cases hshift
  · rw [hqueued] at hrunning
    cases hrunning

/-! ## Promotions of a tick -/

namespace Life

/-- What the promotions of `before` have made of the life `c₀`. -/
structure Promoted (c₀ : Life) (before : List Nat) (c : Life) : Prop where
  runs : ∀ r, r ∉ before → c.runs[r]? = c₀.runs[r]?
  kept : ∀ covId r, c₀.owner covId = some r → c.owner covId = some r
  taken : ∀ covId r, c.owner covId = some r → c₀.owner covId = some r ∨ r ∈ before
  asked : ∀ r ∈ before, ∀ (run : RunLife) (covId : Nat), c₀.runs[r]? = some run →
    run.locked = some covId → c.owner covId ≠ none
  coverages : ∀ covId, c.coverages[covId]? = c₀.coverages[covId]? ∨
    ∃ r ∈ before, c.owner covId = some r

theorem Promoted.refl (c : Life) : c.Promoted [] c :=
  ⟨fun _ _ => rfl, fun _ _ h => h, fun _ _ h => .inl h, nofun, fun _ => .inl rfl⟩

/-- A promotion of the run gets the lock: it has the lock, or nobody does and no run of `before`
asks for it. -/
def Startable (c : Life) (before : List Nat) (r covId : Nat) : Prop :=
  c.owner covId = some r ∨
    (c.owner covId = none ∧ ∀ r' ∈ before, ∀ run', c.runs[r']? = some run' →
      run'.locked ≠ some covId)

variable {before : List Nat} {run : RunLife} {o : Nat}

theorem owner_of_acquire (h : (c.acquire covId r).owner covId = some r) :
    c.owner covId = some r ∨ c.owner covId = none := by
  cases howner : c.owner covId with
  | none => exact .inr rfl
  | some o =>
      rw [acquire_of_owner howner, howner] at h
      exact .inl h

theorem owner_of_acquireFor (h : (c.acquireFor run r).owner covId = some o) :
    c.owner covId = some o ∨ (c.owner covId = none ∧ o = r) := by
  cases howner : c.owner covId with
  | some o' =>
      rw [owner_acquireFor howner] at h
      exact .inl h
  | none =>
      rcases mem_acquireFor (owner_eq_some h) with hold | ⟨-, hr⟩
      · exact absurd rfl (owner_eq_none.1 howner _ hold)
      · exact .inr ⟨rfl, hr⟩

/-- A run that gets its lock after the promotions of `before` would have got it at once, and its
coverage is as it was. -/
theorem Promoted.startable (h : c₀.Promoted before c) (hr : r ∉ before)
    (hlock : (c.acquire covId r).owner covId = some r) :
    c₀.Startable before r covId ∧ c.coverages[covId]? = c₀.coverages[covId]? := by
  have howner := owner_of_acquire hlock
  constructor
  · rcases howner with howns | hfree
    · exact .inl ((h.taken covId r howns).resolve_right hr)
    · refine .inr ⟨?_, fun r' hr' run' hrun' hlocked => h.asked r' hr' run' covId hrun' hlocked hfree⟩
      cases h₀ : c₀.owner covId with
      | none => rfl
      | some o =>
          rw [h.kept covId o h₀] at hfree
          cases hfree
  · refine (h.coverages covId).resolve_right ?_
    rintro ⟨r', hr', howns'⟩
    rcases howner with howns | hfree
    · rw [howns, Option.some.injEq] at howns'
      exact hr (howns' ▸ hr')
    · rw [hfree] at howns'
      cases howns'

/-- Nothing changes for a run that does not get its lock. -/
theorem Promoted.skip (h : c₀.Promoted before c)
    (hheld : ∀ run, c₀.runs[r]? = some run → ∃ covId o, run.locked = some covId ∧
      c.owner covId = some o) : c₀.Promoted (before ++ [r]) c where
  runs := fun k hk => h.runs k fun hmem => hk (List.mem_append_left _ hmem)
  kept := h.kept
  taken := fun covId k hk => (h.taken covId k hk).imp_right (List.mem_append_left _)
  asked := by
    intro k hk run covId hrun hlocked
    rcases List.mem_append.1 hk with hbefore | hlast
    · exact h.asked k hbefore run covId hrun hlocked
    · obtain rfl := List.mem_singleton.1 hlast
      obtain ⟨covId', o, hlocked', howner⟩ := hheld run hrun
      rw [hlocked, Option.some.injEq] at hlocked'
      rw [hlocked', howner]
      nofun
  coverages := fun covId => (h.coverages covId).imp_right fun ⟨k, hk, howns⟩ =>
    ⟨k, List.mem_append_left _ hk, howns⟩

end Life

/-- A run that starts takes its lock and moves no coverage but its own. -/
theorem Life.Promoted.start {before : List Nat} (h : c₀.Promoted before c) (hc : c.Formed)
    (hr : r ∉ before) (hstep : LifeStep (.start r) c c') :
    c₀.Promoted (before ++ [r]) c' := by
  cases hstep with
  | @start _ _ run hrun hqueued hlock =>
      have howner (covId : Nat) : (((c.acquireFor run r).setRun r RunLife.begun).begin run).owner
          covId = (c.acquireFor run r).owner covId := by
        rw [Life.owner, Life.begin_locks, Life.setRun_locks, Life.owner]
      have hlocked (covId : Nat) (h : run.locked = some covId) :
          (c.acquireFor run r).owner covId = some r := by
        rw [Life.acquireFor, h]
        exact hlock covId h
      constructor
      · intro k hk
        rw [List.mem_append, List.mem_singleton, not_or] at hk
        rw [Life.begin_runs, Life.setRun_runs, Life.acquireFor_runs, getElem?_modify_of_ne hk.2]
        exact h.runs k hk.1
      · intro covId k hk
        rw [howner]
        exact Life.owner_acquireFor (h.kept covId k hk)
      · intro covId k hk
        rw [howner] at hk
        rw [List.mem_append, List.mem_singleton]
        rcases Life.owner_of_acquireFor hk with hold | ⟨-, hnew⟩
        · exact (h.taken covId k hold).imp_right .inl
        · exact .inr (.inr hnew)
      · intro k hk run' covId hrun' hlocked'
        rw [howner]
        rcases List.mem_append.1 hk with hbefore | hlast
        · cases hold : c.owner covId with
          | none => exact absurd hold (h.asked k hbefore run' covId hrun' hlocked')
          | some o =>
              rw [Life.owner_acquireFor hold]
              exact Option.some_ne_none _
        · obtain rfl := List.mem_singleton.1 hlast
          rw [← h.runs k hr, hrun, Option.some.injEq] at hrun'
          rw [hlocked covId (hrun' ▸ hlocked')]
          exact Option.some_ne_none _
      · intro covId
        simp only [howner]
        have hkept : c.coverages[covId]? = c₀.coverages[covId]? ∨
            ∃ k ∈ before ++ [r], (c.acquireFor run r).owner covId = some k := by
          refine (h.coverages covId).imp_right ?_
          rintro ⟨k, hk, howns⟩
          exact ⟨k, List.mem_append_left _ hk, Life.owner_acquireFor howns⟩
        obtain ⟨k, hk, hcoverages⟩ | ⟨-, hcoverages⟩ := Life.begin_coverages
          ((c.acquireFor run r).setRun r RunLife.begun) run
        · rw [hcoverages, Life.setRun_coverages, Life.acquireFor_coverages]
          by_cases hcov : covId = k
          · subst hcov
            obtain ⟨hcoverage, htype, -⟩ := Life.initiationOf_eq_some.1 hk
            have hown : run.locked = some covId :=
              RunLife.initiates.locked ⟨htype, hcoverage⟩ hc hrun
            exact .inr ⟨r, List.mem_append_right _ List.mem_cons_self, hlocked covId hown⟩
          · rw [getElem?_modify_of_ne hcov]
            exact hkept
        · rw [hcoverages, Life.setRun_coverages, Life.acquireFor_coverages]
          exact hkept

/-- The initiations that the promotions of `runIds` would start find their coverages where they
left them. -/
def Life.PromotesFresh (c : Life) (runIds : List Nat) : Prop :=
  ∀ (before after : List Nat) (r : Nat) (run : RunLife) (covId : Nat) (state : CoverageState),
    runIds = before ++ r :: after → c.runs[r]? = some run → run.initiates covId →
    c.coverages[covId]? = some state → c.Startable before r covId →
    state = .proposed ∨ state = .initiating

theorem LifeStep.fresh_of_promoted {before after : List Nat} {runIds : List Nat}
    (hstep : LifeStep (.start r) c c') (hc : c.Formed) (h : c₀.Promoted before c)
    (hr : r ∉ before) (hids : runIds = before ++ r :: after) (hfresh : c₀.PromotesFresh runIds) :
    LifeEvent.StartsFresh c (.start r) := by
  intro run covId state hrun hinitiates hstate
  cases hstep with
  | start hfound hqueued hlock =>
      rw [hrun, Option.some.injEq] at hfound
      subst hfound
      obtain ⟨hstartable, hcoverages⟩ :=
        h.startable hr (hlock covId (hinitiates.locked hc hrun))
      exact hfresh before after r run covId state hids (h.runs r hr ▸ hrun) hinitiates
        (hcoverages ▸ hstate) hstartable

variable {env : Env} {fund : FundConfig} {s s₁ s' : Session Db} {u : Unit}

/-- By induction on the runs still to be promoted, every promotion of a tick is fresh. -/
theorem refines_promotions {before runIds : List Nat}
    (h : Returns (runIds.forM fun runId => do
      let _ ← Engine.promoteRun env runId : DbTxn PUnit) s u s')
    (hs : Synced Db.life s) (hc : s.stored.life.Lawful)
    (hpromoted : c₀.Promoted before s.stored.life) (hnodup : (before ++ runIds).Nodup)
    (hqueued : ∀ r ∈ runIds, ∀ run, c₀.runs[r]? = some run → run.status = .queued)
    (hfresh : c₀.PromotesFresh (before ++ runIds)) :
    Refines (fun a e => e.ofTick ∧ e.StartsFresh a) s s' := by
  induction runIds generalizing before s with
  | nil =>
      rw [returns_forM_nil] at h
      subst h
      exact ⟨hs, .refl _ _, .refl⟩
  | cons r runIds ih =>
      obtain ⟨s₁, hfirst, hrest⟩ := returns_forM_cons.1 h
      obtain ⟨started, s₂, hstart, hpure⟩ := returns_bind.1 hfirst
      obtain ⟨-, rfl⟩ := returns_pure.1 hpure
      have hr : r ∉ before := by
        intro hmem
        exact (List.nodup_append.1 hnodup).2.2 r hmem r List.mem_cons_self rfl
      have happend : before ++ r :: runIds = before ++ [r] ++ runIds := by
        rw [List.append_assoc, List.singleton_append]
      rw [happend] at hnodup
      have hlater : ∀ k ∈ runIds, ∀ run, c₀.runs[k]? = some run → run.status = .queued :=
        fun k hk => hqueued k (List.mem_cons_of_mem r hk)
      obtain ⟨hstill, hheld⟩ | htakes := promoteRun_cases hstart hs
      · have hsame := Still.life_eq hstill
        refine hstill.refines.trans (ih hrest hstill.synced ?_ ?_ hnodup hlater (happend ▸ hfresh))
        · rw [hsame]
          exact hc
        · rw [hsame]
          refine hpromoted.skip fun run hrun => hheld run ?_ (hqueued r List.mem_cons_self run hrun)
          rw [hpromoted.runs r hr]
          exact hrun
      · have hevent := htakes.step.fresh_of_promoted hc.formed hpromoted hr rfl hfresh
        refine (htakes.refines ⟨trivial, hevent⟩).trans (ih hrest htakes.synced ?_ ?_ hnodup hlater
          (happend ▸ hfresh))
        · exact htakes.step.lawful hc
        · exact hpromoted.start hc.formed hr htakes.step

theorem LifeEvent.StartsFresh.of_advances (h : e.advances r) : e.StartsFresh c := by
  cases e <;> trivial

theorem refines_queued
    (h : Returns (((env.rows .queuedRuns).all (fun run => run.status = .queued) s.stored.runs).forM
      fun runId => do
        let _ ← Engine.promoteRun env runId : DbTxn PUnit) s u s')
    (hs : Synced Db.life s) (hc : s.stored.life.Lawful)
    (hfresh : s.stored.life.PromotesFresh
      ((env.rows .queuedRuns).all (fun run => run.status = .queued) s.stored.runs)) :
    Refines (fun a e => e.ofTick ∧ e.StartsFresh a) s s' := by
  have hstart : s.stored.life.Promoted [] s.stored.life := .refl _
  refine refines_promotions h hs hc hstart (env.rows .queuedRuns).nodup_all
    (fun r hr life hlife => ?_) hfresh
  obtain ⟨run, hrun, hqueued⟩ := (env.rows .queuedRuns).mem_all.1 hr
  obtain ⟨run', hrun', rfl⟩ := Db.life_runs_eq_some.1 hlife
  rw [hrun, Option.some.injEq] at hrun'
  exact hrun' ▸ of_decide_eq_true hqueued

/-- The promotions of a tick, and after them its advances, are fresh. -/
theorem refines_tick_fresh {runner : Engine.Runner}
    (h : Returns (Engine.tick env fund runner) s u s') (hs : Synced Db.life s)
    (hc : s.stored.life.Lawful)
    (hfresh : s.stored.life.PromotesFresh
      ((env.rows .queuedRuns).all (fun run => run.status = .queued) s.stored.runs)) :
    Refines (fun a e => e.StartsFresh a) s s' := by
  unfold Engine.tick at h
  rw [returns_select_bind] at h
  obtain ⟨_, s₁, hpromote, h⟩ := returns_bind.1 h
  rw [returns_select_bind] at h
  have hfirst := refines_queued hpromote hs hc hfresh
  exact (hfirst.mono fun _ _ h => h.2).trans ((refines_advances h hfirst.synced).mono
    fun _ _ ⟨_, hadvances⟩ => LifeEvent.StartsFresh.of_advances hadvances)

/-! ## Operations -/

theorem Db.life_startable {before : List Nat} (h : db.life.Startable before r covId) :
    db.Startable before r covId := by
  unfold Db.Startable
  rw [Db.lockOwner_eq]
  refine h.imp_right (And.imp_right fun hothers r' hr' run' hrun' hmutates hcov => ?_)
  exact hothers r' hr' run'.life (Db.life_run hrun') (Run.life_locked.2 ⟨hmutates, hcov⟩)

theorem Op.commits_fresh {op : Op} (hfresh : op.StartsFresh db) (hdb : db.life.Lawful) :
    Commits (fun a e => e.StartsFresh a) db (op.exec app db) := by
  have hclean := Synced.clean Db.life db
  cases op with
  | promoteRun env runId =>
      refine (commits_commit fun a s h => ?_).void
      obtain ⟨hstill, -⟩ | htakes := promoteRun_cases h hclean
      · exact hstill.refines
      · refine htakes.refines fun life covId state hlife hinitiates hstate => ?_
        obtain ⟨run, hrun, rfl⟩ := Db.life_runs_eq_some.1 hlife
        obtain ⟨cov, hcov, rfl⟩ := Db.life_coverages_eq_some.1 hstate
        have hqueued := (htakes.step.started hlife).2
        have hlock := htakes.step.start_lock hlife covId
          (hinitiates.locked hdb.formed hlife)
        have hstartable := ((Life.Promoted.refl db.life).startable (by simp) hlock).1
        exact hfresh run covId cov hrun hqueued hinitiates hcov (Db.life_startable hstartable)
  | tick env runner =>
      refine commits_commit fun a s h => refines_tick_fresh h hclean hdb ?_
      intro before after r life covId state hids hlife hinitiates hstate hstartable
      obtain ⟨run, hrun, rfl⟩ := Db.life_runs_eq_some.1 hlife
      obtain ⟨cov, hcov, rfl⟩ := Db.life_coverages_eq_some.1 hstate
      exact hfresh before after r run covId cov hids hrun hinitiates hcov
        (Db.life_startable hstartable)
  | api env request call =>
      refine (Op.commits _ db).mono fun a e hallows => ?_
      cases e with
      | start r => exact (ApiCall.allows_cases hallows.2).elim
      | _ => trivial
  | advanceRun env runner runId =>
      exact (Op.commits _ db).mono fun a e hallows => LifeEvent.StartsFresh.of_advances hallows
  | queue env call => exact (Op.commits _ db).mono fun a e hallows => hallows.elim
  | _ =>
      refine (Op.commits _ db).mono fun a e hallows => ?_
      cases hallows
      trivial

theorem op_coupled (op : Op) (hfresh : op.StartsFresh db) (hdb : db.life.Lawful)
    (h : db.life.Coupled) : (step app db op).life.Coupled := by
  have hboth : (step app db op).life.Lawful ∧ (step app db op).life.Coupled :=
    (Op.commits_fresh hfresh hdb).path.preserves (P := fun c => c.Lawful ∧ c.Coupled)
      (fun a b e hfresh hstep ha => ⟨hstep.lawful ha.1, hstep.coupled hfresh ha.1 ha.2⟩) ⟨hdb, h⟩
  exact hboth.2

/-! ## Errors -/

theorem Life.Coupled.loaded {run : Run} {cov : Coverage} (h : s.stored.life.Coupled)
    (hs : Synced Db.life s) (hrun : s.loaded.runs[r]? = some run) (hrunning : run.status = .running)
    (htype : run.type = .initiation) (hcovId : run.coverageId = some covId)
    (hcov : s.loaded.coverages[covId]? = some cov) : cov.state = .initiating := by
  obtain ⟨covId', hcovId', hstate⟩ := h r run.life (life_run hs hrun) htype hrunning
  obtain rfl : covId = covId' := Option.some.inj (hcovId.symm.trans hcovId')
  rw [life_coverage hs hcov] at hstate
  exact Option.some.inj hstate

theorem legal_settleRun {run : Run} {error : PyError} (hcoupled : s.stored.life.Coupled)
    (hs : Synced Db.life s) (hrun : s.loaded.runs[r]? = some run) (hrunning : run.status = .running)
    (h : Raises (Engine.settleRun env r) s error) : error.Legal := by
  unfold Engine.settleRun at h
  rw [raises_select_bind, raises_inspect_bind] at h
  rcases raises_bind.1 h with hget | ⟨row, s₁, hget, hrest⟩
  · exact legal_getRow hget
  · obtain ⟨-, -, hs₁⟩ := returns_getRow.1 hget
    rw [hs₁] at hrest
    split_ifs at hrest
    · exact legal_failRun hrest
    · exact legal_requeueRun hrest
    · exact legal_pauseForBudget hrest
    · exact absurd hrest not_raises_pure
    · refine legal_finalizeRun (fun found covId cov hfound htype hcovId hcov => ?_) hrest
      rw [hrun, Option.some.injEq] at hfound
      subst hfound
      exact hcoupled.loaded hs hrun hrunning htype hcovId hcov

/-- While initiations and coverages are coupled, no advance is refused a transition. -/
theorem legal_advanceRun {runner : Engine.Runner} {error : PyError}
    (hcoupled : s.stored.life.Coupled) (hs : Synced Db.life s)
    (h : Raises (Engine.advanceRun env fund runner r) s error) : error.Legal := by
  unfold Engine.advanceRun at h
  rcases raises_bind.1 h with hget | ⟨run, s₁, hget, hrest⟩
  · exact legal_getRow hget
  · obtain ⟨-, hrun, hs₁⟩ := returns_getRow.1 hget
    rw [hs₁] at hrest
    split_ifs at hrest with hstatus
    · exact absurd hrest not_raises_pure
    · rw [not_not] at hstatus
      rcases raises_bind.1 hrest with hdrain | ⟨_, s₂, hdrain, hrest⟩
      · exact legal_drain _ _ hdrain
      · have hdrained := keeps_drain runner r hdrain hs
        rw [raises_select_bind] at hrest
        rcases raises_bind.1 hrest with hdigest | ⟨_, s₃, hdigest, hsettle⟩
        · exact RaisesOnly.forM (fun _ => legal_digestStage) hdigest
        · have hdigested := Keeps.forM (fun _ => keeps_digestStage) hdigest hdrained.synced
          have hstill := hdrained.trans hdigested
          obtain ⟨run', hrun', hrunning⟩ := Still.running hstill hs hrun hstatus
          have hcoupled' : s₃.stored.life.Coupled := by
            rw [Still.life_eq hstill]
            exact hcoupled
          exact legal_settleRun hcoupled' hstill.synced hrun' hrunning hsettle

theorem legal_advances {runner : Engine.Runner} {error : PyError} {runIds : List Nat}
    (hc : s.stored.life.Lawful) (hcoupled : s.stored.life.Coupled) (hs : Synced Db.life s)
    (h : Raises (runIds.forM (Engine.advanceRun env fund runner)) s error) : error.Legal := by
  induction runIds generalizing s with
  | nil => exact absurd h not_raises_forM_nil
  | cons r runIds ih =>
      rcases raises_forM_cons.1 h with hfirst | ⟨s₁, hfirst, hrest⟩
      · exact legal_advanceRun hcoupled hs hfirst
      · obtain hstill | ⟨e, hadvances, htakes⟩ := advanceRun_cases hfirst hs
        · have hsame := Still.life_eq hstill
          exact ih (hsame ▸ hc) (hsame ▸ hcoupled) hstill.synced hrest
        · exact ih (htakes.step.lawful hc) (htakes.step.coupled (.of_advances hadvances) hc hcoupled)
            htakes.synced hrest

theorem legal_tick {runner : Engine.Runner} {error : PyError} (hs : Synced Db.life s)
    (hc : s.stored.life.Lawful) (hcoupled : s.stored.life.Coupled)
    (hfresh : s.stored.life.PromotesFresh
      ((env.rows .queuedRuns).all (fun run => run.status = .queued) s.stored.runs))
    (h : Raises (Engine.tick env fund runner) s error) : error.Legal := by
  unfold Engine.tick at h
  rw [raises_select_bind] at h
  rcases raises_bind.1 h with hpromote | ⟨_, s₁, hpromote, hrest⟩
  · exact RaisesOnly.forM (fun _ => .bind legal_promoteRun fun _ => .pure _) hpromote
  · have hfirst := refines_queued hpromote hs hc hfresh
    obtain ⟨hc₁, hcoupled₁⟩ := hfirst.path.preserves (P := fun c => c.Lawful ∧ c.Coupled)
      (fun a b e h hstep ha => ⟨hstep.lawful ha.1, hstep.coupled h.2 ha.1 ha.2⟩) ⟨hc, hcoupled⟩
    rw [raises_select_bind] at hrest
    exact legal_advances hc₁ hcoupled₁ hfirst.synced hrest

/-! ## Histories -/

theorem Life.Coupled.rows (h : db.life.Coupled) : db.Coupled := by
  intro r run hrun htype hrunning
  obtain ⟨covId, hcovId, hstate⟩ := h r run.life (Db.life_run hrun) htype hrunning
  obtain ⟨cov, hcov, hinitiating⟩ := Db.life_coverages_eq_some.1 hstate
  exact ⟨covId, cov, hcovId, hcov, hinitiating⟩

theorem legal_commit {α : Type} {m : DbTxn α} {error : PyError}
    (hm : ∀ e, Raises m (Session.clean db) e → e.Legal) (h : (commit m db).result = .error error) :
    error.Legal := by
  rcases commit_error h with hraises | ⟨_, s, -, hviolation⟩
  · exact hm error hraises
  · exact legal_violation s.loaded error hviolation

theorem Outcome.void_error {α : Type} {outcome : Outcome Db PyError α} {error : PyError}
    (h : (Outcome.void outcome).result = .error error) : outcome.result = .error error := by
  unfold Outcome.void at h
  cases hresult : outcome.result with
  | ok a =>
      rw [hresult] at h
      cases h
  | error e =>
      rw [hresult] at h
      cases h
      rfl

theorem op_advancesLegally (op : Op) (hfresh : op.StartsFresh db) (hdb : db.life.Lawful)
    (h : db.life.Coupled) : op.AdvancesLegally app db := by
  intro horchestrates transition hresult
  have hclean := Synced.clean Db.life db
  suffices hlegal : (PyError.illegalTransition transition).Legal by cases hlegal
  cases op with
  | promoteRun env runId =>
      exact legal_commit (fun e he => legal_promoteRun he) (Outcome.void_error hresult)
  | advanceRun env runner runId =>
      exact legal_commit (fun e he => legal_advanceRun h hclean he) hresult
  | tick env runner =>
      refine legal_commit (fun e he => legal_tick hclean hdb h ?_ he) hresult
      intro before after r life covId state hids hlife hinitiates hstate hstartable
      obtain ⟨run, hrun, rfl⟩ := Db.life_runs_eq_some.1 hlife
      obtain ⟨cov, hcov, rfl⟩ := Db.life_coverages_eq_some.1 hstate
      exact hfresh before after r run covId cov hids hrun hinitiates hcov
        (Db.life_startable hstartable)
  | _ => cases horchestrates

/-- In every history in which each initiation that starts finds its coverage proposed or
initiating, every running initiation has its coverage initiating, and the orchestrator is refused
no transition. -/
theorem run_coupled (hdb : db.Fresh) (ops : List Op)
    (hops : EachStep (step app) (fun db op => op.StartsFresh db) db ops) :
    (run app db ops).Coupled ∧ EachStep (step app) (Op.AdvancesLegally app) db ops ∧
      ∀ env runner r, Op.AdvancesLegally app (run app db ops) (.advanceRun env runner r) := by
  have hstart : db.life.Lawful ∧ db.life.Coupled := by
    refine ⟨hdb.lawful, fun r life hlife => ?_⟩
    obtain ⟨run, hrun, -⟩ := Db.life_runs_eq_some.1 hlife
    simp [hdb.runs] at hrun
  have hstep : ∀ db op, db.life.Lawful ∧ db.life.Coupled → Op.StartsFresh db op →
      (step app db op).life.Lawful ∧ (step app db op).life.Coupled :=
    fun db op h hfresh => ⟨h.1.step op, op_coupled op hfresh h.1 h.2⟩
  have hend : (run app db ops).life.Lawful ∧ (run app db ops).life.Coupled :=
    invariant (I := fun db => db.life.Lawful ∧ db.life.Coupled) hstep hstart hops
  refine ⟨hend.2.rows, ?_, fun env runner r => op_advancesLegally _ trivial hend.1 hend.2⟩
  exact eachStep_of_invariant (I := fun db => db.life.Lawful ∧ db.life.Coupled) hstep
    (fun db op h hfresh => op_advancesLegally op hfresh h.1 h.2) hstart hops

theorem run_coupled_small :
    (run .small .small Op.deliverApple).runs.map (·.status) = [.waitingPm] ∧
      (run .small .small Op.deliverApple).Coupled ∧
      EachStep (step .small) (Op.AdvancesLegally .small) .small Op.deliverApple ∧
      ∀ env runner r, Op.AdvancesLegally .small (run .small .small Op.deliverApple)
        (.advanceRun env runner r) := by
  refine ⟨by decide +kernel, run_coupled Db.small_fresh _ ?_⟩
  refine ⟨trivial, trivial, ?_, trivial⟩
  intro before after r run covId cov _ _ _ hcov _
  have hstates : ∀ state ∈ (step .small (step .small .small
      (.ask "propose" (.propose "AAPL" "US" "Apple" "USD" none none)))
      (.ask "initiate" (.initiate "us_aapl" (some "gpt") (some 0)))).coverages.map (·.state),
      state = .proposed := by decide +kernel
  exact .inl (hstates _ (List.mem_map_of_mem (List.mem_of_getElem? hcov)))

/-- The history of an initiation that fails and is requested again. -/
def Op.reinitiateApple : List Op :=
  Op.initiateApple ++
    [.tickWith (QueueCall.givesUp 0), .ask "again" (.initiate "us_aapl" (some "gpt") (some 0)),
      .tickWith []]

/-- The second initiation runs although its coverage has failed, and once its stages have finished
its advance is refused. -/
theorem not_coupled_retried :
    ¬ (run .small .small Op.reinitiateApple).Coupled ∧
      (Op.exec .small (run .small .small Op.reinitiateApple)
        (.tickWith (QueueCall.succeeds 2 [] ++ QueueCall.succeeds 3 []))).result =
        .error (.illegalTransition ⟨some .failed, .initiationDelivered,
          "not a legal transition from this state"⟩) := by
  constructor
  · intro h
    have hrun : (run .small .small Op.reinitiateApple).runs[1]?.map
        (fun run => (run.type, run.status)) = some (.initiation, .running) := by decide +kernel
    have hstates : (run .small .small Op.reinitiateApple).coverages.map (·.state) = [.failed] := by
      decide +kernel
    obtain ⟨run, hget, heq⟩ := Option.map_eq_some_iff.1 hrun
    obtain ⟨htype, hrunning⟩ := Prod.mk.inj heq
    obtain ⟨covId, cov, -, hcov, hstate⟩ := h 1 run hget htype hrunning
    have hmem := List.mem_map_of_mem (f := fun cov => cov.state) (List.mem_of_getElem? hcov)
    rw [hstates, List.mem_singleton, hstate] at hmem
    cases hmem
  · decide +kernel

end AiFund
