import AiFund.Proof.Attempts
import AiFund.Proof.Plans
import AiFund.Proof.StageTables

/-!
# Stages in order

The stages of an initiation run one at a time, in the order of the plan: whatever is not queued any
more has only succeeded stages before it.
-/

namespace AiFund

open UnitOfWork Rows

variable {db : Db} {env : Env} {r id : Nat} {stage : RunStage}

/-! ## Where a stage comes from -/

theorem StageIn.toRow_plan {stageIn : StageIn} (h : stageIn.toRow env r = .ok stage) :
    stage.plan = (r, stageIn.seq, stageIn.role, stageIn.dependsOnSeq) ∧
      stage.status = .queued := by
  obtain ⟨house, -, h⟩ := ok_bind_iff.1 h
  cases h
  exact ⟨rfl, rfl⟩

/-- An operation of the queue adds stages or leaves all plans as they are. -/
theorem QueueOp.step_plans (op : QueueOp) (db : Db) :
    (op.step db).plans = db.plans ∨ ∃ env runId stages rows,
      op = .addStages env runId stages ∧
        (stages.mapM fun stage => stage.toRow env runId) = .ok rows ∧
        (op.step db).stages = db.stages ++ rows := by
  have hcases := op.cases db
  obtain ⟨error, hcommit⟩ | ⟨u, s, hs, -, hcommit⟩ := commit_cases op.perform db
  · exact .inl (by rw [QueueOp.step, hcommit])
  have hstep : op.step db = s.loaded := by rw [QueueOp.step, hcommit]
  cases op with
  | addStages env runId stages =>
      generalize QueueOp.step db (.addStages env runId stages) = after at hcases ⊢
      cases hcases with
      | refused => exact .inl rfl
      | added hrows => exact .inr ⟨env, runId, stages, _, rfl, hrows, rfl⟩
  | startRun env runId =>
      have hfixes : Fixes Db.stageTables (QueueOp.startRun env runId).perform :=
        .bind (fixes_startRun (fun _ _ => rfl) (fun _ _ => rfl) runId) fun _ => .pure _
      rw [hstep]
      exact .inl (Fixes.plans hfixes hs).1
  | requeueRun runId reason =>
      rw [hstep]
      exact .inl (Fixes.plans (fixes_requeueRun runId reason) hs).1
  | call env call =>
      rw [hstep]
      exact .inl (fixes_queueCall call hs).1

/-- A stage of a run to which the operation adds none was there before. -/
theorem QueueOp.of_stage {op : QueueOp} {stage' : RunStage} (hop : op.SparesPlan r)
    (h : (op.step db).stages[id]? = some stage') (hr : stage'.runId = r) :
    ∃ stage : RunStage, db.stages[id]? = some stage ∧ stage'.plan = stage.plan ∧
      StageMoves db op id stage stage'.status := by
  cases hstage : db.stages[id]? with
  | some stage =>
      obtain ⟨row, hrow, hplan, hmoves⟩ := op.movesStage hstage
      rw [h] at hrow
      cases hrow
      exact ⟨stage, rfl, hplan, hmoves⟩
  | none =>
      obtain hplans | ⟨env, runId, stages, rows, rfl, hrows, hafter⟩ := op.step_plans db
      · have hplan := congrArg (·[id]?) hplans
        simp [Db.plans, h, hstage] at hplan
      · rw [hafter, List.getElem?_append_right (List.getElem?_eq_none_iff.1 hstage)] at h
        obtain ⟨stageIn, -, hto⟩ := of_getElem?_mapM hrows h
        have hrunId : stage'.runId = runId := congrArg Prod.fst (stageIn.toRow_plan hto).1
        exact absurd (hrunId.symm.trans hr) hop

/-- A claimed stage was queued, with its dependency satisfied. -/
theorem QueueOp.of_claims {op : QueueOp} (h : op.claims db id ≠ 0) :
    ∃ stage : RunStage, db.stages[id]? = some stage ∧ stage.status = .queued ∧
      dependencySatisfied db stage = true := by
  unfold QueueOp.claims at h
  split at h
  · rename_i env workerId substrates houses leaseSeconds
    split at h
    · rename_i claimed hresult
      split_ifs at h with hid
      · subst hid
        obtain ⟨s, hs, -, -⟩ := commit_result hresult
        obtain ⟨hnone, -⟩ | ⟨stageId, stage, hsome, hstage, hclaimable, -⟩ :=
          returns_claimStage hs (Synced.clean _ db)
        · cases hnone
        · cases hsome
          simp only [claimable, Bool.and_eq_true, decide_eq_true_eq] at hclaimable
          exact ⟨stage, hstage, hclaimable.1.1.1.1.1, hclaimable.1.1.2⟩
      · exact absurd rfl h
    · exact absurd rfl h
  · exact absurd rfl h

/-! ## The invariant -/

/-- The stages of the run are a chain, and a stage that is no longer queued has only succeeded ones
before it. -/
structure Ordered (r : Nat) (db : Db) : Prop where
  first : ∀ stage ∈ db.stages, stage.runId = r → stage.dependsOnSeq = none →
    ∀ other ∈ db.stages, other.runId = r → stage.seq ≤ other.seq
  back : ∀ stage ∈ db.stages, stage.runId = r → ∀ q, stage.dependsOnSeq = some q →
    q = stage.seq - 1
  unique : ∀ (i j : Nat) (a b : RunStage), db.stages[i]? = some a → db.stages[j]? = some b →
    a.runId = r → b.runId = r → a.seq = b.seq → i = j
  final : ∀ stage ∈ db.stages, stage.runId = r → stage.role = .finalizer →
    ∀ other ∈ db.stages, other.runId = r → other.role ≠ .finalizer → other.seq < stage.seq
  done : ∀ stage ∈ db.stages, stage.runId = r → stage.status ≠ .queued →
    ∀ other ∈ db.stages, other.runId = r → other.seq < stage.seq → other.status = .succeeded
  unskipped : ∀ stage ∈ db.stages, stage.runId = r → stage.status ≠ .skipped

namespace Ordered

/-- What comes before a stage whose dependency is satisfied has succeeded. -/
theorem before (h : Ordered r db) (hstage : stage ∈ db.stages) (hr : stage.runId = r)
    (hsatisfied : dependencySatisfied db stage = true) {other : RunStage}
    (hother : other ∈ db.stages) (hother' : other.runId = r) (hlt : other.seq < stage.seq) :
    other.status = .succeeded := by
  cases hdepends : stage.dependsOnSeq with
  | none => exact absurd (h.first stage hstage hr hdepends other hother hother') (not_le.2 hlt)
  | some q =>
      have hq := h.back stage hstage hr q hdepends
      simp only [dependencySatisfied, hdepends, Option.all_some, List.any_eq_true,
        Bool.and_eq_true, decide_eq_true_eq] at hsatisfied
      obtain ⟨dep, hdep, ⟨hdepRun, hseq⟩, hdone⟩ := hsatisfied
      rw [hr] at hdepRun
      have hsucceeded : dep.status = .succeeded := by
        have hunskipped := h.unskipped dep hdep hdepRun
        cases hstatus : dep.status <;> simp_all [StageStatus.satisfied]
      rcases lt_or_eq_of_le (show other.seq ≤ dep.seq by omega) with hbefore | hsame
      · exact h.done dep hdep hdepRun (by rw [hsucceeded]; nofun) other hother hother' hbefore
      · obtain ⟨i, hi⟩ := List.getElem?_of_mem hother
        obtain ⟨j, hj⟩ := List.getElem?_of_mem hdep
        obtain rfl := h.unique i j other dep hi hj hother' hdepRun hsame
        rw [hi] at hj
        cases hj
        exact hsucceeded

theorem oneRunning (h : Ordered r db) : db.OneRunning r := by
  intro i j a b ha hb har hbr harunning hbrunning
  have hmemA := List.mem_of_getElem? ha
  have hmemB := List.mem_of_getElem? hb
  rcases lt_trichotomy a.seq b.seq with hlt | heq | hgt
  · have hdone := h.done b hmemB hbr (by rw [hbrunning]; nofun) a hmemA har hlt
    rw [harunning] at hdone
    cases hdone
  · exact h.unique i j a b ha hb har hbr heq
  · have hdone := h.done a hmemA har (by rw [harunning]; nofun) b hmemB hbr hgt
    rw [hbrunning] at hdone
    cases hdone

theorem claimsInOrder (h : Ordered r db) (op : StageOp) : op.ClaimsInOrder r db := by
  intro stageId stage hclaims hstage hr other hother hother' hbefore
  cases op with
  | queue op =>
      obtain ⟨row, hrow, -, hsatisfied⟩ := QueueOp.of_claims hclaims
      rw [hstage] at hrow
      cases hrow
      have hmem := List.mem_of_getElem? hstage
      refine h.before hmem hr hsatisfied hother hother' ?_
      rcases hbefore with hlt | ⟨hfinal, hnot⟩
      · exact hlt
      · exact h.final stage hmem hr hfinal other hother hother' hnot
  | _ => exact absurd rfl hclaims

end Ordered

/-- A disciplined operation of the queue keeps a succeeded stage succeeded. -/
theorem StageMoves.of_succeeded {op : QueueOp} {status : StageStatus}
    (h : StageMoves db op id stage status) (hstage : db.stages[id]? = some stage)
    (htime : op.OnTime db) (hsucceeded : stage.status = .succeeded) : status = .succeeded := by
  cases h with
  | keep => exact hsucceeded
  | claim hqueued =>
      rw [hsucceeded] at hqueued
      cases hqueued
  | leave hrunning =>
      rw [hsucceeded] at hrunning
      cases hrunning
  | late hop _ hidle =>
      subst hop
      exact absurd (htime id _ stage rfl hstage) hidle

/-- A stage of the run after an operation, with the row that it had before. -/
theorem QueueOp.of_planned {op : QueueOp} {stage' : RunStage} (hop : op.SparesPlan r)
    (h : (op.step db).stages[id]? = some stage') (hr : stage'.runId = r) :
    ∃ stage : RunStage, db.stages[id]? = some stage ∧ stage ∈ db.stages ∧ stage.runId = r ∧
      (stage'.seq = stage.seq ∧ stage'.role = stage.role ∧
        stage'.dependsOnSeq = stage.dependsOnSeq) ∧ StageMoves db op id stage stage'.status := by
  obtain ⟨stage, hstage, hplan, hmoves⟩ := QueueOp.of_stage hop h hr
  simp only [RunStage.plan, Prod.mk.injEq] at hplan
  obtain ⟨hrun, hseq, hrole, hdepends⟩ := hplan
  exact ⟨stage, hstage, List.mem_of_getElem? hstage, hrun.symm.trans hr, ⟨hseq, hrole, hdepends⟩,
    hmoves⟩

theorem QueueOp.of_mem_planned {op : QueueOp} {stage' : RunStage} (hop : op.SparesPlan r)
    (h : stage' ∈ (op.step db).stages) (hr : stage'.runId = r) :
    ∃ (id : Nat) (stage : RunStage), db.stages[id]? = some stage ∧ stage ∈ db.stages ∧
      stage.runId = r ∧ (stage'.seq = stage.seq ∧ stage'.role = stage.role ∧
        stage'.dependsOnSeq = stage.dependsOnSeq) ∧ StageMoves db op id stage stage'.status := by
  obtain ⟨id, hid⟩ := List.getElem?_of_mem h
  exact ⟨id, QueueOp.of_planned hop hid hr⟩

theorem Ordered.queue {op : QueueOp} (h : Ordered r db) (htime : op.OnTime db)
    (hop : op.SparesPlan r) : Ordered r (op.step db) := by
  constructor
  · intro stage' hstage' hr hnone other' hother' hor
    obtain ⟨_, stage, -, hstage, hr, ⟨hseq, -, hdepends⟩, -⟩ := QueueOp.of_mem_planned hop hstage' hr
    obtain ⟨_, other, -, hother, hor, ⟨hseq', -, -⟩, -⟩ := QueueOp.of_mem_planned hop hother' hor
    rw [hseq, hseq']
    exact h.first stage hstage hr (hdepends ▸ hnone) other hother hor
  · intro stage' hstage' hr q hq
    obtain ⟨_, stage, -, hstage, hr, ⟨hseq, -, hdepends⟩, -⟩ := QueueOp.of_mem_planned hop hstage' hr
    rw [hseq]
    exact h.back stage hstage hr q (hdepends ▸ hq)
  · intro i j a' b' ha' hb' har hbr heq
    obtain ⟨a, ha, -, har, ⟨hseq, -, -⟩, -⟩ := QueueOp.of_planned hop ha' har
    obtain ⟨b, hb, -, hbr, ⟨hseq', -, -⟩, -⟩ := QueueOp.of_planned hop hb' hbr
    exact h.unique i j a b ha hb har hbr (by rw [← hseq, ← hseq', heq])
  · intro stage' hstage' hr hfinal other' hother' hor hnot
    obtain ⟨_, stage, -, hstage, hr, ⟨hseq, hrole, -⟩, -⟩ := QueueOp.of_mem_planned hop hstage' hr
    obtain ⟨_, other, -, hother, hor, ⟨hseq', hrole', -⟩, -⟩ :=
      QueueOp.of_mem_planned hop hother' hor
    rw [hseq, hseq']
    exact h.final stage hstage hr (hrole ▸ hfinal) other hother hor (hrole' ▸ hnot)
  · intro stage' hstage' hr hleft other' hother' hor hlt
    obtain ⟨id, stage, hid, hstage, hr, ⟨hseq, -, -⟩, hmoves⟩ :=
      QueueOp.of_mem_planned hop hstage' hr
    obtain ⟨_, other, hid', hother, hor, ⟨hseq', -, -⟩, hmoves'⟩ :=
      QueueOp.of_mem_planned hop hother' hor
    rw [hseq, hseq'] at hlt
    refine hmoves'.of_succeeded hid' htime ?_
    by_cases hqueued : stage.status = .queued
    · -- Of the queued stages only the claimed one leaves the queue.
      generalize stage'.status = status at hmoves hleft
      cases hmoves with
      | keep => exact absurd hqueued hleft
      | claim _ hsatisfied => exact h.before hstage hr hsatisfied hother hor hlt
      | leave hrunning =>
          rw [hqueued] at hrunning
          cases hrunning
      | late hreport _ hidle =>
          subst hreport
          exact absurd (htime id _ stage rfl hid) hidle
    · exact h.done stage hstage hr hqueued other hother hor hlt
  · intro stage' hstage' hr
    obtain ⟨_, stage, hid, hstage, hr, -, hmoves⟩ := QueueOp.of_mem_planned hop hstage' hr
    generalize stage'.status = status at hmoves
    cases hmoves with
    | keep => exact h.unskipped stage hstage hr
    | claim => nofun
    | leave hrunning hedge =>
        rintro rfl
        cases hedge.to_skipped
    | late => nofun

/-- Promotions leave the stages and their attempts as they are. -/
theorem StageOp.promote_stageTables (db : Db) (env : Env) (runId : Nat) :
    (StageOp.step db (.promote env runId)).stageTables = db.stageTables := by
  have hfixes : Fixes Db.stageTables (StageOp.promote env runId).perform :=
    .bind fixes_promoteRun fun _ => .pure _
  obtain ⟨error, hcommit⟩ | ⟨_, s, hs, -, hcommit⟩ :=
    commit_cases (StageOp.promote env runId).perform db
  · rw [StageOp.step, hcommit]
  · rw [StageOp.step, hcommit]
    exact (hfixes hs).1

theorem StageOp.promote_stages (db : Db) (env : Env) (runId : Nat) :
    (StageOp.step db (.promote env runId)).stages = db.stages :=
  congrArg Prod.fst (promote_stageTables db env runId)

theorem Ordered.congr {db' : Db} (h : Ordered r db) (hstages : db'.stages = db.stages) :
    Ordered r db' := by
  obtain ⟨first, back, unique, final, done, unskipped⟩ := h
  constructor <;> rw [hstages] <;> assumption

theorem Ordered.op {op : StageOp} (h : Ordered r db) (hop : op.Disciplined r db) :
    Ordered r (op.step db) := by
  cases op with
  | queue op => exact h.queue hop.1 hop.2
  | promote env runId => exact h.congr (StageOp.promote_stages db env runId)
  | advance => exact hop.elim
  | tick => exact hop.elim

theorem Ordered.of_none (hnone : ∀ stage ∈ db.stages, stage.runId ≠ r) : Ordered r db where
  first stage hstage hr := absurd hr (hnone stage hstage)
  back stage hstage hr := absurd hr (hnone stage hstage)
  unique _ _ a _ ha _ har := absurd har (hnone a (List.mem_of_getElem? ha))
  final stage hstage hr := absurd hr (hnone stage hstage)
  done stage hstage hr := absurd hr (hnone stage hstage)
  unskipped stage hstage hr := absurd hr (hnone stage hstage)

/-- Rows made from a chain are in order. -/
theorem Ordered.of_chain {plan : List StageIn} {rows : List RunStage} (hchain : Chain plan)
    (hrows : (plan.mapM fun stage => stage.toRow env r) = .ok rows)
    (hnone : ∀ stage ∈ db.stages, stage.runId ≠ r) :
    Ordered r { db with stages := db.stages ++ rows } := by
  have hrow : ∀ (id : Nat) (stage : RunStage), (db.stages ++ rows)[id]? = some stage →
      stage.runId = r → ∃ i stageIn, id = db.stages.length + i ∧ plan[i]? = some stageIn ∧
        stage.seq = i + 1 ∧ stage.role = stageIn.role ∧
        stage.dependsOnSeq = (if i = 0 then none else some (i : Int)) ∧
        stage.status = .queued := by
    intro id stage hstage hr
    rcases lt_or_ge id db.stages.length with hlt | hge
    · rw [List.getElem?_append_left hlt] at hstage
      exact absurd hr (hnone stage (List.mem_of_getElem? hstage))
    · rw [List.getElem?_append_right hge] at hstage
      obtain ⟨stageIn, hin, hto⟩ := of_getElem?_mapM hrows hstage
      obtain ⟨hplan, hqueued⟩ := stageIn.toRow_plan hto
      simp only [RunStage.plan, Prod.mk.injEq] at hplan
      obtain ⟨-, hseq, hrole, hdepends⟩ := hplan
      refine ⟨id - db.stages.length, stageIn, by omega, hin, ?_, hrole, ?_, hqueued⟩
      · rw [hseq, hchain.seq _ stageIn hin]
      · rw [hdepends, hchain.depends _ stageIn hin]
  have hmem : ∀ stage ∈ db.stages ++ rows, stage.runId = r → ∃ (i : Nat) (stageIn : StageIn),
      plan[i]? = some stageIn ∧ stage.seq = i + 1 ∧ stage.role = stageIn.role ∧
        stage.dependsOnSeq = (if i = 0 then none else some (i : Int)) ∧
        stage.status = .queued := by
    intro stage hstage hr
    obtain ⟨id, hid⟩ := List.getElem?_of_mem hstage
    obtain ⟨i, stageIn, -, h⟩ := hrow id stage hid hr
    exact ⟨i, stageIn, h⟩
  constructor
  · intro stage hstage hr hfree other hother hor
    obtain ⟨i, -, -, hseq, -, hdepends, -⟩ := hmem stage hstage hr
    obtain ⟨j, -, -, hseq', -⟩ := hmem other hother hor
    have hi : i = 0 := by
      by_contra hi
      rw [hfree, if_neg hi] at hdepends
      cases hdepends
    omega
  · intro stage hstage hr q hq
    obtain ⟨i, -, -, hseq, -, hdepends, -⟩ := hmem stage hstage hr
    rw [hq] at hdepends
    split at hdepends
    · cases hdepends
    · cases hdepends
      omega
  · intro i j a b ha hb har hbr heq
    obtain ⟨i', -, rfl, -, hseq, -⟩ := hrow i a ha har
    obtain ⟨j', -, rfl, -, hseq', -⟩ := hrow j b hb hbr
    omega
  · intro stage hstage hr hfinal other hother hor hnot
    obtain ⟨i, stageIn, hin, hseq, hrole, -, -⟩ := hmem stage hstage hr
    obtain ⟨j, otherIn, hin', hseq', hrole', -, -⟩ := hmem other hother hor
    have hlength := hchain.finalizer i stageIn hin (hrole ▸ hfinal)
    have hlt := (List.getElem?_eq_some_iff.1 hin').1
    have hne : i ≠ j := by
      rintro rfl
      rw [hin] at hin'
      cases hin'
      exact hnot (hrole' ▸ hrole ▸ hfinal)
    omega
  · intro stage hstage hr hleft
    obtain ⟨_, -, -, -, -, -, hqueued⟩ := hmem stage hstage hr
    exact absurd hqueued hleft
  · intro stage hstage hr
    obtain ⟨_, -, -, -, -, -, hqueued⟩ := hmem stage hstage hr
    rw [hqueued]
    nofun

/-- A new plan is in order. -/
theorem Ordered.planned {args : PlanArgs} {plan : List StageIn}
    (hplan : planStages "initiation" args = .ok plan)
    (hnone : ∀ stage ∈ db.stages, stage.runId ≠ r) :
    Ordered r (QueueOp.step db (.addStages env r plan)) := by
  obtain ⟨-, verifiers, -, -, rfl⟩ := planInitiation_iff.1 hplan
  have hchain := Chain.initiationStages args verifiers
  have hcases := QueueOp.cases (.addStages env r (args.initiationStages verifiers)) db
  generalize QueueOp.step db _ = after at hcases ⊢
  cases hcases with
  | refused => exact .of_none hnone
  | added hrows => exact .of_chain hchain hrows hnone

/-! ## Histories -/

theorem stageClaims_of_succeeded {ops : List StageOp} (h : Ordered r db)
    (hops : History.EachStep StageOp.step (StageOp.Disciplined r) db ops)
    (hstage : db.stages[id]? = some stage) (hsucceeded : stage.status = .succeeded) :
    stageClaims id db ops = 0 := by
  induction ops generalizing db stage with
  | nil => rfl
  | cons op ops ih =>
      have hclaims : op.claims db id = 0 := by
        by_contra hclaims
        cases op with
        | queue op =>
            obtain ⟨row, hrow, hqueued, -⟩ := QueueOp.of_claims hclaims
            rw [hstage] at hrow
            cases hrow
            rw [hsucceeded] at hqueued
            cases hqueued
        | _ => exact hclaims rfl
      have hafter : ∃ stage' : RunStage, (op.step db).stages[id]? = some stage' ∧
          stage'.status = .succeeded := by
        cases op with
        | queue op =>
            obtain ⟨stage', hstage', -, hmoves⟩ := op.movesStage hstage
            exact ⟨stage', hstage', hmoves.of_succeeded hstage hops.1.1 hsucceeded⟩
        | promote env runId =>
            exact ⟨stage, by rw [StageOp.promote_stages, hstage], hsucceeded⟩
        | advance => exact hops.1.elim
        | tick => exact hops.1.elim
      obtain ⟨stage', hstage', hsucceeded'⟩ := hafter
      rw [stageClaims, hclaims, ih (h.op hops.1) hops.2 hstage' hsucceeded']

/-- The stages of an initiation run one at a time and in the order of the plan, and what has
succeeded is not claimed again. -/
theorem runStages_inOrder {args : PlanArgs} {plan : List StageIn}
    (hplan : planStages "initiation" args = .ok plan)
    (hnone : ∀ stage ∈ db.stages, stage.runId ≠ r) (ops : List StageOp)
    (hops : History.EachStep StageOp.step (StageOp.Disciplined r)
      (QueueOp.step db (.addStages env r plan)) ops) :
    (runStages (QueueOp.step db (.addStages env r plan)) ops).OneRunning r ∧
      History.EachStep StageOp.step (StageOp.ClaimsInOrder r)
        (QueueOp.step db (.addStages env r plan)) ops ∧
      ∀ before after, ops = before ++ after → ∀ (stageId : Nat) (stage : RunStage),
        (runStages (QueueOp.step db (.addStages env r plan)) before).stages[stageId]? =
          some stage → stage.runId = r → stage.status = .succeeded →
        stageClaims stageId (runStages (QueueOp.step db (.addStages env r plan)) before) after = 0 := by
  have hstart : Ordered r (QueueOp.step db (.addStages env r plan)) := .planned hplan hnone
  have hstep : ∀ db op, Ordered r db → StageOp.Disciplined r db op → Ordered r (op.step db) :=
    fun _ _ h hop => h.op hop
  refine ⟨(History.invariant hstep hstart hops).oneRunning, ?_, ?_⟩
  · exact History.eachStep_of_invariant hstep (fun _ op h _ => h.claimsInOrder op) hstart hops
  · rintro before after rfl stageId stage hstage - hsucceeded
    obtain ⟨hbefore, hafter⟩ := History.eachStep_append.1 hops
    exact stageClaims_of_succeeded (History.invariant hstep hstart hbefore) hafter hstage hsucceeded

theorem QueueOp.OnTime.of_none {op : QueueOp} (h : op.reports = none) : op.OnTime db := by
  intro stageId workerId stage hreports
  rw [h] at hreports
  cases hreports

theorem runStages_inOrder_small :
    let planned := QueueOp.step .oneInitiation (.addStages (.quiet 0) 0 StageIn.initiationPlan)
    (runStages planned StageOp.verifierClaimed).OneRunning 0 ∧
      History.EachStep StageOp.step (StageOp.ClaimsInOrder 0) planned StageOp.verifierClaimed ∧
      ∀ before after, StageOp.verifierClaimed = before ++ after →
        ∀ (stageId : Nat) (stage : RunStage),
          (runStages planned before).stages[stageId]? = some stage → stage.runId = 0 →
          stage.status = .succeeded →
          stageClaims stageId (runStages planned before) after = 0 := by
  have hnone : ∀ stage ∈ Db.oneInitiation.stages, stage.runId ≠ 0 := by simp [Db.oneInitiation]
  refine runStages_inOrder planStages_gpt hnone _ ?_
  refine ⟨⟨.of_none rfl, trivial⟩, ⟨?_, trivial⟩, trivial, ⟨.of_none rfl, trivial⟩, trivial⟩
  intro stageId workerId stage hreports hstage
  cases hreports
  have hrunning : (StageOp.step (QueueOp.step .oneInitiation
      (.addStages (.quiet 0) 0 StageIn.initiationPlan)) (.queue (.call (.quiet 1)
        (.claim "w1" [] [] 60)))).stages[0]?.map (·.status) = some .running := by
    decide +kernel
  rw [hstage] at hrunning
  exact Option.some.inj hrunning

end AiFund
