import AiFund.Proof.Accounts
import AiFund.Proof.StageProgress

/-!
# What the store can be relied on for

Along every history of the whole system the schema holds, the books of all stages agree, and every
stage depends on an earlier stage of its run at most.
-/

namespace AiFund

open UnitOfWork Rows

variable {env : Env} {app : App} {fund : FundConfig} {db : Db} {s s' : Session Db} {r k : Nat}

/-- What all that the system does relies on and keeps. -/
structure Db.Reliable (db : Db) : Prop where
  legal : Schema.violation db = none
  accounted : AttemptInv db
  grounded : ∀ r, Grounded r db.plans

/-! ## Plans -/

theorem planFor_plans {type : RunType} {policy : RunPolicy} {params : JsonObject} {lead : Json}
    {contributors metaHouses : List String} {stages : List StageIn}
    (h : Engine.planFor type policy fund params lead contributors metaHouses = .ok stages) :
    ∃ runType args, planStages runType args = .ok stages := by
  unfold Engine.planFor at h
  cases type with
  | leadReview | distillation => cases h
  | _ => exact ⟨_, _, h⟩

/-- The stages of a plan depend on each other only, and backwards. -/
theorem Grounded.addPlan {stages : List StageIn} {rows : List RunStage} {runType : String}
    {args : PlanArgs} (h : Grounded r db.plans) (hstages : planStages runType args = .ok stages)
    (hrows : stages.mapM (fun stage => stage.toRow env k) = .ok rows) :
    Grounded r (db.plans ++ rows.map RunStage.plan) := by
  refine h.append fun seq role q hmem => ?_
  obtain ⟨row, hrow, hplan⟩ := List.mem_map.1 hmem
  obtain ⟨stageIn, hin, hto⟩ := of_mem_mapM hrows hrow
  rw [(stageIn.toRow_plan hto).1, Prod.mk.injEq] at hplan
  obtain ⟨rfl, hplan⟩ := hplan
  simp only [Prod.mk.injEq] at hplan
  obtain ⟨hseq, -, hdepends⟩ := hplan
  obtain ⟨hback, dep, hdep, hdepSeq⟩ := planStages_dependsBack hstages stageIn hin q hdepends
  obtain ⟨depRow, hdepRow, hdepTo⟩ := exists_mem_mapM hrows hdep
  refine ⟨hseq ▸ hback, dep.role, dep.dependsOnSeq, ?_⟩
  rw [← hdepSeq, ← (dep.toRow_plan hdepTo).1]
  exact List.mem_map_of_mem hdepRow

namespace Growing

theorem addStages {stages : List StageIn} {runType : String} {args : PlanArgs}
    (hstages : planStages runType args = .ok stages) :
    Maintains (Growing r) (AiFund.addStages env k stages) := by
  intro s u s' h hs
  unfold AiFund.addStages at h
  obtain ⟨rows, hrows, h⟩ := returns_ofExcept_bind.1 h
  rw [returns_assign_bind, returns_flush] at h
  obtain ⟨-, rfl⟩ := h
  have hplans : Db.plans { s.loaded with stages := s.loaded.stages ++ rows } =
      s.loaded.plans ++ rows.map RunStage.plan := List.map_append
  refine ⟨?_, List.prefix_rfl⟩
  change Grounded r (Db.plans { s.loaded with stages := s.loaded.stages ++ rows })
  rw [hplans]
  exact hs.grounded.addPlan hstages hrows

theorem createRun {metaHouses : List String} {runType trigger : String} {coverageId : Option Nat}
    {params : JsonObject} {requestedBy triggerRef : Option String} :
    Maintains (Growing r) (Engine.createRun env fund metaHouses runType coverageId trigger params
      requestedBy triggerRef) := by
  have htold {α : Type} {m : DbTxn α} (hm : Within Db.Told m) : Maintains (Growing r) m :=
    of_fixes (Fixes.plans (fixes_told hm))
  refine .bind (htold (within_ofExcept _ _)) fun policy =>
    .bind (.of_reads reads_findCoverage) fun cov =>
      .bind (.of_reads reads_contributorsFor) fun contributors => ?_
  split
  · exact htold (.throw _)
  · intro s runId s' h hs
    obtain ⟨stages, hplan, h⟩ := returns_ofExcept_bind.1 h
    obtain ⟨runType, args, hstages⟩ := planFor_plans hplan
    exact Maintains.bind (htold within_addRun) (fun _ => (addStages hstages).bind fun _ => .pure _)
      h hs

theorem parts (fund : FundConfig) : SessionParts (Growing r) fund where
  clean _ hs := ⟨hs.grounded, List.prefix_rfl⟩
  aside hm := of_fixes (Fixes.plans hm)
  createRun _ _ _ _ _ _ _ _ := createRun
  queueCall _ _ := of_fixes (fixes_queueCall _)
  advanceRun _ _ _ := advanceRun

end Growing

/-! ## Histories -/

theorem anyStep_violation (hdb : Schema.violation db = none) (op : AnyOp) :
    Schema.violation (op.step app db) = none := by
  cases op with
  | desk op =>
      cases op with
      | system op => exact step_violation hdb op
      | coverage env call => exact commit_violation hdb
  | driven op =>
      obtain ⟨calls, -, heq⟩ := op.becomes app db
      rw [AnyOp.step, heq]
      exact run_violation hdb calls
  | outbox op => exact commit_violation hdb

/-- Every operation keeps the store reliable. -/
theorem Db.Reliable.anyStep (hdb : db.Reliable) (op : AnyOp) : (op.step app db).Reliable where
  legal := anyStep_violation hdb.legal op
  accounted := ((Booked.parts app.fund).anyStep (.clean hdb.accounted) op).kept
  grounded r := ((Growing.parts app.fund).anyStep ⟨hdb.grounded r, List.prefix_rfl⟩ op).grounded

/-- A store without stages is reliable if the schema holds. -/
theorem Db.Reliable.of_empty (hlegal : Schema.violation db = none) (hstages : db.stages = [])
    (hattempts : db.attempts = []) : db.Reliable where
  legal := hlegal
  accounted :=
    ⟨fun id stage hstage => by simp [hstages] at hstage,
      fun id stage hstage => by simp [hstages] at hstage, fun a ha => by simp [hattempts] at ha⟩
  grounded r seq role q hmem := by simp [Db.plans, hstages] at hmem

/-- Whatever happens, in whatever order, the store stays reliable. -/
theorem runAny_reliable (hdb : db.Reliable) (ops : List AnyOp) : (runAny app db ops).Reliable :=
  History.invariant_of_forall (fun _ op h => h.anyStep op) hdb

/-- Apple's initiation is requested, and a tick lets the runner work on it. -/
theorem runAny_reliable_small :
    (runAny App.small Db.small
      (Op.initiateApple.map (fun op => .desk (.system op)) ++
        [.driven (.tick (.quiet 1) ⟨{}, "fake-runner", 300, {}⟩ fun _ n => .quiet (n + 1))])).Reliable :=
  runAny_reliable (.of_empty (by decide +kernel) rfl rfl) _

end AiFund
