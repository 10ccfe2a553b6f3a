import AiFund.Proof.Accounts
import AiFund.Proof.Claims
import AiFund.Proof.StageOrder
import Mathlib.Data.List.MinMax

/-!
# Progress

Every dependency of a run's stages points to an earlier stage of the run, in every plan and for an
appended cross-check. So the first queued stage of a run that waits for nothing can be claimed.
-/

namespace AiFund

open UnitOfWork Rows

variable {db : Db} {env : Env} {fund : FundConfig} {s s' : Session Db} {r k id : Nat} {u : Unit}

abbrev Plan := Nat × Int × StageRole × Option Int

/-- The stages of the run depend on earlier stages of the run. -/
def Grounded (r : Nat) (plans : List Plan) : Prop :=
  ∀ seq role q, (r, seq, role, some q) ∈ plans → q < seq ∧ ∃ role' dep, (r, q, role', dep) ∈ plans

theorem Grounded.concat {plans : List Plan} {seq q : Int} {role role' : StageRole}
    {dep : Option Int} (h : Grounded r plans) (hdep : (k, q, role', dep) ∈ plans) (hlt : q < seq) :
    Grounded r (plans ++ [(k, seq, role, some q)]) := by
  intro seq' role'' q' hmem
  rcases List.mem_append.1 hmem with hold | hnew
  · obtain ⟨hback, role₁, dep₁, hfound⟩ := h seq' role'' q' hold
    exact ⟨hback, role₁, dep₁, List.mem_append_left _ hfound⟩
  · obtain ⟨rfl, rfl, rfl, rfl⟩ : r = k ∧ seq' = seq ∧ role'' = role ∧ q' = q := by
      simpa using hnew
    exact ⟨hlt, role', dep, List.mem_append_left _ hdep⟩

/-- The store shows a part of the session's stages, and these are grounded. -/
structure Growing (r : Nat) (s : Session Db) : Prop where
  grounded : Grounded r s.loaded.plans
  shown : s.stored.plans <+: s.loaded.plans

theorem Growing.of_fixes {α : Type} {m : DbTxn α} (hm : Fixes Db.plans m) :
    Maintains (Growing r) m := by
  rintro s a s' h ⟨hgrounded, hleading⟩
  obtain ⟨hloaded, hstored⟩ := hm h
  refine ⟨hloaded ▸ hgrounded, ?_⟩
  rcases hstored with hkept | hflushed
  · rwa [hloaded, hkept]
  · have hshown : s'.stored.plans = s'.loaded.plans := hflushed.trans hloaded.symm
    exact hshown ▸ List.prefix_rfl

/-- The rows `ids` of the store are stages of the run `k`. -/
structure Digesting (r k : Nat) (ids : List Nat) (s : Session Db) : Prop where
  growing : Growing r s
  rows : ∀ id ∈ ids, ∃ seq role dep, s.stored.plans[id]? = some (k, seq, role, dep)

theorem Digesting.of_fixes {α : Type} {m : DbTxn α} {ids : List Nat} (hm : Fixes Db.plans m) :
    Maintains (Digesting r k ids) m := by
  rintro s a s' h ⟨hgrowing, hrows⟩
  refine ⟨Growing.of_fixes hm h hgrowing, fun id hid => ?_⟩
  obtain ⟨seq, role, dep, hrow⟩ := hrows id hid
  refine ⟨seq, role, dep, ?_⟩
  rcases (hm h).2 with hkept | hflushed
  · rw [hkept, hrow]
  · obtain ⟨rest, hrest⟩ := hgrowing.shown
    rw [hflushed, ← hrest]
    exact getElem?_append_of_some hrow

theorem returns_resolveContributors {covId : Nat} {contributors : List String}
    (h : Returns (resolveContributors covId) s contributors s') : s' = s := by
  unfold resolveContributors at h
  obtain ⟨cov, s₁, hcov, hrest⟩ := returns_bind.1 h
  obtain ⟨-, rfl⟩ := returns_lookup.1 hcov
  rw [returns_select_bind] at hrest
  split_ifs at hrest
  · exact (returns_pure.1 hrest).2
  · rw [returns_select_bind] at hrest
    split at hrest
    · exact absurd hrest not_returns_raise
    · exact (returns_pure.1 hrest).2

/-- A cross-check comes after all stored stages of its run. -/
theorem returns_maybeAppendCrossCheck {run : Run} {stage : RunStage} {result : JsonObject}
    {lastTp : Option Decimal}
    (h : Returns (Engine.maybeAppendCrossCheck env fund k run stage result lastTp) s u s') :
    s' = s ∨ ∃ row : RunStage,
      row.plan = (k, Engine.maxSeq s.stored k + 1, .crossCheck, some stage.seq) ∧
        s' = { s with loaded := { s.loaded with stages := s.loaded.stages ++ [row] } } := by
  unfold Engine.maybeAppendCrossCheck at h
  obtain ⟨fires, -, h⟩ := returns_ofExcept_bind.1 h
  split_ifs at h
  · exact .inl (returns_pure.1 h).2
  · rw [returns_select_bind] at h
    split_ifs at h
    · exact .inl (returns_pure.1 h).2
    · split at h
      · exact absurd h not_returns_raise
      · obtain ⟨contributors, s₁, hcontributors, h⟩ := returns_bind.1 h
        rw [returns_resolveContributors hcontributors, returns_select_bind] at h
        obtain ⟨policy, -, h⟩ := returns_ofExcept_bind.1 h
        rw [returns_assign] at h
        exact .inr ⟨_, rfl, h⟩

theorem le_maxSeq {stage : RunStage} (hstage : stage ∈ db.stages) (hrun : stage.runId = k) :
    stage.seq ≤ Engine.maxSeq db k := by
  have hmem : stage.seq ∈ (db.stages.filter fun stage => stage.runId = k).map (·.seq) :=
    List.mem_map_of_mem (List.mem_filter.2 ⟨hstage, by simpa using hrun⟩)
  unfold Engine.maxSeq
  cases hmax : ((db.stages.filter fun stage => stage.runId = k).map (·.seq)).max? with
  | none =>
      rw [List.max?_eq_none_iff] at hmax
      rw [hmax] at hmem
      cases hmem
  | some top => exact (List.max?_eq_some_iff.1 hmax).2 _ hmem

theorem Digesting.appendCrossCheck {run : Run} {stage : RunStage} {result : JsonObject}
    {lastTp : Option Decimal} {ids : List Nat} {stageId : Nat} (hid : stageId ∈ ids)
    (hs : Digesting r k ids s) (hstage : s.loaded.plans[stageId]? = some stage.plan)
    (h : Returns (Engine.maybeAppendCrossCheck env fund k run stage result lastTp) s u s') :
    Digesting r k ids s' := by
  obtain rfl | ⟨row, hrow, rfl⟩ := returns_maybeAppendCrossCheck h
  · exact hs
  obtain ⟨seq, role, dep, hstored⟩ := hs.rows stageId hid
  have hloaded : s.loaded.plans[stageId]? = some (k, seq, role, dep) := by
    obtain ⟨rest, hrest⟩ := hs.growing.shown
    rw [← hrest]
    exact getElem?_append_of_some hstored
  obtain rfl : stage.seq = seq := by
    rw [hstage] at hloaded
    exact congrArg (fun plan => plan.2.1) (Option.some.inj hloaded)
  have hlt : stage.seq < Engine.maxSeq s.stored k + 1 := by
    obtain ⟨old, hold, hplan⟩ := List.mem_map.1 (List.mem_of_getElem? hstored)
    simp only [RunStage.plan, Prod.mk.injEq] at hplan
    have hle := le_maxSeq hold hplan.1
    omega
  have hplans : Db.plans { s.loaded with stages := s.loaded.stages ++ [row] } =
      s.loaded.plans ++ [(k, Engine.maxSeq s.stored k + 1, .crossCheck, some stage.seq)] := by
    rw [← hrow, Db.plans, List.map_append]
    rfl
  refine ⟨⟨?_, ?_⟩, hs.rows⟩
  · rw [hplans]
    exact hs.growing.grounded.concat (List.mem_of_getElem? hloaded) hlt
  · rw [hplans]
    exact hs.growing.shown.trans (List.prefix_append _ _)

theorem Digesting.digestStage {run : Run} {stageId : Nat} {ids : List Nat}
    (hid : stageId ∈ ids) :
    Maintains (Digesting r k ids) (Engine.digestStage env fund k run stageId) := by
  intro s u s' h hs
  unfold Engine.digestStage at h
  obtain ⟨-, stage, hstage, h⟩ := returns_getRow_bind.1 h
  split at h
  · rename_i field fields hstatus hresult
    rw [returns_select_bind] at h
    obtain ⟨_, s₁, hregister, h⟩ := returns_bind.1 h
    have hfixes : Fixes Db.plans (Engine.registerPredictions env stageId (field :: fields)) :=
      Fixes.plans fixes_registerPredictions
    have hs₁ := Digesting.of_fixes hfixes hregister hs
    have hplan : s₁.loaded.plans[stageId]? = some stage.plan := by
      rw [(hfixes hregister).1, Db.plans, List.getElem?_map, hstage]
      rfl
    split at h
    · exact hs₁.appendCrossCheck hid hplan h
    · obtain ⟨-, rfl⟩ := returns_pure.1 h
      exact hs₁
  · obtain ⟨-, rfl⟩ := returns_pure.1 h
    exact hs

theorem Growing.advanceRun {runner : Engine.Runner} :
    Maintains (Growing r) (Engine.advanceRun env fund runner k) := by
  intro s u s' h hs
  unfold Engine.advanceRun at h
  obtain ⟨-, run, -, h⟩ := returns_getRow_bind.1 h
  split_ifs at h
  · obtain ⟨-, rfl⟩ := returns_pure.1 h
    exact hs
  obtain ⟨_, s₁, hdrain, h⟩ := returns_bind.1 h
  have hdrained : Growing r s₁ :=
    Growing.of_fixes (.forM fun _ => fixes_queueCall _) hdrain hs
  rw [returns_select_bind] at h
  obtain ⟨_, s₂, hdigest, hsettle⟩ := returns_bind.1 h
  have hrows : Digesting r k (Engine.stagesOfRun env k s₁.stored) s₁ := by
    refine ⟨hdrained, fun id hid => ?_⟩
    obtain ⟨row, hrow, hrun⟩ := (env.rows .runStages).mem_all.1 hid
    refine ⟨row.seq, row.role, row.dependsOnSeq, ?_⟩
    rw [Db.plans, List.getElem?_map, hrow, Option.map_some, ← of_decide_eq_true hrun]
    rfl
  have hdigested := Maintains.forM (fun id hid => Digesting.digestStage hid) hdigest hrows
  exact Growing.of_fixes (Fixes.plans fixes_settleRun) hsettle hdigested.growing

theorem Growing.tick {runner : Engine.Runner} :
    Maintains (Growing r) (Engine.tick env fund runner) := by
  intro s u s' h hs
  unfold Engine.tick at h
  rw [returns_select_bind] at h
  obtain ⟨_, s₁, hpromote, h⟩ := returns_bind.1 h
  rw [returns_select_bind] at h
  have hpromoted : Growing r s₁ :=
    Growing.of_fixes (.forM fun _ => .bind (Fixes.plans fixes_promoteRun) fun _ => .pure _)
      hpromote hs
  exact Maintains.forM (fun _ _ => Growing.advanceRun) h hpromoted

/-! ## Histories -/

theorem Grounded.append {plans more : List Plan} (h : Grounded r plans)
    (hmore : ∀ seq role q, (r, seq, role, some q) ∈ more →
      q < seq ∧ ∃ role' dep, (r, q, role', dep) ∈ more) : Grounded r (plans ++ more) := by
  intro seq role q hmem
  rcases List.mem_append.1 hmem with hold | hnew
  · obtain ⟨hback, role', dep, hfound⟩ := h seq role q hold
    exact ⟨hback, role', dep, List.mem_append_left _ hfound⟩
  · obtain ⟨hback, role', dep, hfound⟩ := hmore seq role q hnew
    exact ⟨hback, role', dep, List.mem_append_right _ hfound⟩

/-- The stages that an operation of the queue adds to the run are grounded among themselves. -/
theorem Grounded.queue {op : QueueOp} (h : Grounded r db.plans)
    (hop : (StageOp.queue op).Plans r db) : Grounded r (op.step db).plans := by
  obtain hplans | ⟨env, runId, stages, rows, rfl, hrows, hafter⟩ := op.step_plans db
  · rwa [hplans]
  have hnew : (QueueOp.step db (.addStages env runId stages)).plans =
      db.plans ++ rows.map RunStage.plan := by
    rw [Db.plans, hafter, List.map_append]
    rfl
  rw [hnew]
  refine h.append fun seq role q hmem => ?_
  obtain ⟨row, hrow, hplan⟩ := List.mem_map.1 hmem
  obtain ⟨stageIn, hin, hto⟩ := of_mem_mapM hrows hrow
  rw [(stageIn.toRow_plan hto).1, Prod.mk.injEq] at hplan
  obtain ⟨rfl, hplan⟩ := hplan
  simp only [Prod.mk.injEq] at hplan
  obtain ⟨hseq, -, hdepends⟩ := hplan
  obtain ⟨-, runType, args, hstages⟩ := hop rfl
  obtain ⟨hback, dep, hdep, hdepSeq⟩ := planStages_dependsBack hstages stageIn hin q hdepends
  obtain ⟨depRow, hdepRow, hdepTo⟩ := exists_mem_mapM hrows hdep
  refine ⟨hseq ▸ hback, dep.role, dep.dependsOnSeq, ?_⟩
  rw [← hdepSeq, ← (dep.toRow_plan hdepTo).1]
  exact List.mem_map_of_mem hdepRow

theorem Growing.commit {m : DbTxn Unit} (hm : Maintains (Growing r) m)
    (h : Grounded r db.plans) : Grounded r (commit m db).after.plans := by
  obtain ⟨error, hcommit⟩ | ⟨_, s, hs, -, hcommit⟩ := commit_cases m db
  · rwa [hcommit]
  · rw [hcommit]
    exact (hm hs ⟨h, List.prefix_rfl⟩).grounded

theorem Grounded.op {op : StageOp} (h : Grounded r db.plans) (hop : op.Plans r db) :
    Grounded r (op.step db).plans := by
  cases op with
  | queue op => exact h.queue hop
  | promote env runId =>
      refine Growing.commit (Growing.of_fixes ?_) h
      exact .bind (Fixes.plans fixes_promoteRun) fun _ => .pure _
  | advance env fund runner runId => exact Growing.commit Growing.advanceRun h
  | tick env fund runner => exact Growing.commit Growing.tick h

/-- In a run that is ready the first queued stage can be claimed. -/
theorem Grounded.claimable {now : Time} (h : Grounded r db.plans) (hready : db.Ready r now) :
    ∃ stage ∈ db.stages, stage.runId = r ∧ claimable db now [] [] stage = true := by
  let queued := db.stages.filter fun stage => stage.runId = r ∧ stage.status = .queued
  have hqueued : ∀ stage, stage ∈ queued ↔
      stage ∈ db.stages ∧ stage.runId = r ∧ stage.status = .queued := by
    intro stage
    simp [queued, List.mem_filter]
  obtain ⟨waiting, hwaiting⟩ := hready.queued
  have hne : queued ≠ [] := List.ne_nil_of_mem ((hqueued waiting).2 hwaiting)
  have hargmin : queued.argmin (·.seq) ≠ none := mt List.argmin_eq_none.1 hne
  obtain ⟨stage, hfirst⟩ := Option.ne_none_iff_exists'.1 hargmin
  obtain ⟨hstage, hrun, hstatus⟩ := (hqueued stage).1 (List.argmin_mem hfirst)
  have hsatisfied : dependencySatisfied db stage = true := by
    unfold dependencySatisfied
    cases hdepends : stage.dependsOnSeq with
    | none => rfl
    | some q =>
        have hplan : (r, stage.seq, stage.role, some q) ∈ db.plans := by
          rw [← hrun, ← hdepends]
          exact List.mem_map_of_mem hstage
        obtain ⟨hback, role, dep, hfound⟩ := h _ _ _ hplan
        obtain ⟨row, hrow, hrowPlan⟩ := List.mem_map.1 hfound
        simp only [RunStage.plan, Prod.mk.injEq] at hrowPlan
        obtain ⟨hrowRun, hrowSeq, -, -⟩ := hrowPlan
        -- The dependency comes before the first queued stage, so it is not queued itself.
        have hleft : row.status ≠ .queued := by
          intro hrowQueued
          have hle := List.le_of_mem_argmin ((hqueued row).2 ⟨hrow, hrowRun, hrowQueued⟩) hfirst
          omega
        obtain ⟨hidle, hunfailed⟩ := hready.idle row hrow hrowRun
        have hdone : row.status.satisfied = true := by
          cases hrowStatus : row.status <;> simp_all [StageStatus.satisfied]
        simp only [Option.all_some, List.any_eq_true]
        exact ⟨row, hrow, by simp [hrowRun, hrun, hrowSeq, hdone]⟩
  obtain ⟨run, hfound, hrunning⟩ := hready.run
  have havailable := hready.available stage hstage hrun hstatus
  refine ⟨stage, hstage, hrun, ?_⟩
  simp [AiFund.claimable, hstatus, havailable, hrun, hfound, hrunning, hsatisfied]

/-- The operations of a history keep the books of the attempts. -/
theorem AttemptInv.stageOp {op : StageOp} (h : AttemptInv db) : AttemptInv (op.step db) := by
  cases op with
  | queue op => exact h.step
  | promote env runId =>
      have htables := StageOp.promote_stageTables db env runId
      exact h.congr (congrArg Prod.fst htables) (congrArg Prod.snd htables)
  | advance env fund runner runId =>
      exact ((Booked.parts fund).commit Booked.advanceRun (.clean h)).kept
  | tick env fund runner =>
      exact ((Booked.parts fund).commit (Booked.parts fund).tick (.clean h)).kept

/-- A claim finds a stage whenever there is one that it may claim. -/
theorem exists_claimCandidate {substrates : List Substrate} {houses : List String}
    {stage : RunStage} (hstage : stage ∈ db.stages)
    (hclaimable : claimable db env.now substrates houses stage = true) :
    ∃ id, claimCandidate env substrates houses db = some id := by
  rw [← Option.ne_none_iff_exists']
  intro hnone
  rw [claimCandidate_eq_none hnone stage hstage] at hclaimable
  cases hclaimable

/-- A claim that finds a stage does not come back empty, and where the schema holds and the books are
kept it returns the stage. -/
theorem commit_claimStage {substrates : List Substrate} {houses : List String} (workerId : String)
    (leaseSeconds : ℚ) (hcandidate : claimCandidate env substrates houses db = some id) :
    (commit (claimStage env workerId substrates houses leaseSeconds) db).result ≠ .ok none ∧
      (Schema.violation db = none → AttemptInv db →
        (commit (claimStage env workerId substrates houses leaseSeconds) db).result =
          .ok (some id)) := by
  constructor
  · intro hresult
    obtain ⟨s, hs, -, -⟩ := commit_result hresult
    unfold claimStage at hs
    rw [returns_select_bind, show (Session.clean db).stored = db from rfl, hcandidate] at hs
    simp only [returns_bind, returns_getRow, returns_assign, returns_flush, returns_pure] at hs
    obtain ⟨_, _, -, _, _, -, _, _, -, _, _, -, hnone, -⟩ := hs
    cases hnone
  · intro hdb hattempts
    obtain ⟨stage, hstage, -⟩ := claimCandidate_eq_some hcandidate
    obtain ⟨hlegal, hreturns⟩ := claimStage_some [] hattempts hdb hstage hcandidate rfl
    rw [commit_of_returns hreturns hlegal]

/-- A run whose stages come from a plan cannot deadlock: in every state that a history reaches, if
it is ready, one of its stages can be claimed, and a claim returns a stage and not nothing. -/
theorem runStages_claimable (hnone : ∀ stage ∈ db.stages, stage.runId ≠ r) (ops : List StageOp)
    (hops : History.EachStep StageOp.step (StageOp.Plans r) db ops) (env : Env)
    (hready : (runStages db ops).Ready r env.now) (workerId : String) (leaseSeconds : ℚ) :
    (∃ stage ∈ (runStages db ops).stages, stage.runId = r ∧
        claimable (runStages db ops) env.now [] [] stage = true) ∧
      (commit (claimStage env workerId [] [] leaseSeconds) (runStages db ops)).result ≠
        .ok none ∧
      (Schema.violation db = none → AttemptInv db → ∃ id,
        (commit (claimStage env workerId [] [] leaseSeconds) (runStages db ops)).result =
          .ok (some id)) := by
  have hstart : Grounded r db.plans := by
    intro seq role q hmem
    obtain ⟨stage, hstage, hplan⟩ := List.mem_map.1 hmem
    exact absurd (congrArg Prod.fst hplan) (hnone stage hstage)
  have hgrounded : Grounded r (runStages db ops).plans :=
    History.invariant (I := fun db : Db => Grounded r db.plans) (fun _ _ h hop => h.op hop)
      hstart hops
  obtain ⟨stage, hstage, hrun, hclaimable⟩ := hgrounded.claimable hready
  obtain ⟨id, hcandidate⟩ := exists_claimCandidate hstage hclaimable
  obtain ⟨hfinds, hreturns⟩ := commit_claimStage workerId leaseSeconds hcandidate
  refine ⟨⟨stage, hstage, hrun, hclaimable⟩, hfinds, fun hdb hattempts => ⟨id, hreturns ?_ ?_⟩⟩
  · exact History.invariant_of_forall (I := fun db => Schema.violation db = none)
      (fun _ _ h => commit_violation h) hdb
  · exact History.invariant_of_forall (fun _ _ h => h.stageOp) hattempts

theorem runStages_claimable_small :
    (∃ stage ∈ (runStages .oneInitiation StageOp.authored).stages, stage.runId = 0 ∧
        claimable (runStages .oneInitiation StageOp.authored) 3 [] [] stage = true) ∧
      ∃ id, (commit (claimStage (.quiet 3) "w2" [] [] 60)
        (runStages .oneInitiation StageOp.authored)).result = .ok (some id) := by
  have hnone : ∀ stage ∈ Db.oneInitiation.stages, stage.runId ≠ 0 := by simp [Db.oneInitiation]
  have hplans : History.EachStep StageOp.step (StageOp.Plans 0) .oneInitiation
      StageOp.authored :=
    ⟨fun _ => ⟨hnone, "initiation", .gpt, planStages_gpt⟩, trivial, trivial, trivial⟩
  have hready : (runStages .oneInitiation StageOp.authored).Ready 0 3 := by
    refine ⟨?_, by decide +kernel, by decide +kernel, by decide +kernel⟩
    have hrunning : (runStages .oneInitiation StageOp.authored).runs[0]?.map (·.status) =
        some .running := by decide +kernel
    exact Option.map_eq_some_iff.1 hrunning
  obtain ⟨hclaimable, -, hreturns⟩ :=
    runStages_claimable hnone _ hplans (.quiet 3) hready "w2" 60
  exact ⟨hclaimable, hreturns (by decide +kernel) (.withoutStages .oneInitiation)⟩

end AiFund
