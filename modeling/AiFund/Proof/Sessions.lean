import AiFund.Proof.StageTables
import AiFund.Proof.Writes

/-!
# Invariants of sessions

An invariant may relate what a session has pending to what it has stored. If creating a run, a queue
call and the advance of a run keep it, and so does whatever leaves the stages and their attempts
alone, then every operation keeps it.
-/

namespace AiFund

open UnitOfWork

variable {I : Session Db → Prop} {env : Env} {app : App} {fund : FundConfig} {db : Db} {α : Type}
  {pm key : String} {leader : Bool}

theorem fixes_told {m : DbTxn α} (hm : Within Db.Told m) : Fixes Db.stageTables m := by
  refine hm.fixes fun db db' hwrite => ?_
  cases hwrite <;> rfl

theorem maintains_countM {f : Nat → DbTxn Bool} (hf : ∀ key, Maintains I (f key))
    (keys : List Nat) : Maintains I (countM f keys) := by
  induction keys with
  | nil => exact .pure _
  | cons key keys ih => exact .bind (hf key) fun _ => .bind ih fun _ => .pure _

/-- What the operations are made of, as far as the invariant can see. -/
structure SessionParts (I : Session Db → Prop) (fund : FundConfig) : Prop where
  clean : ∀ s, I s → I (Session.clean s.loaded)
  aside : ∀ {α : Type} {m : DbTxn α}, Fixes Db.stageTables m → Maintains I m
  createRun : ∀ (env : Env) (metaHouses : List String) (runType : String) (coverageId : Option Nat)
    (trigger : String) (params : JsonObject) (requestedBy triggerRef : Option String),
    Maintains I (Engine.createRun env fund metaHouses runType coverageId trigger params requestedBy
      triggerRef)
  queueCall : ∀ (env : Env) (call : QueueCall), Maintains I (call.perform env)
  advanceRun : ∀ (env : Env) (runner : Engine.Runner) (r : Nat),
    Maintains I (Engine.advanceRun env fund runner r)

namespace SessionParts

variable (h : SessionParts I fund)
include h

theorem told {m : DbTxn α} (hm : Within Db.Told m) : Maintains I m := h.aside (fixes_told hm)

/-! ## Requests -/

theorem store {idem : Idempotency} {response : JsonObject} {statusCode : Nat}
    {route actorId : String} :
    Maintains I (idem.store env response statusCode route actorId) :=
  h.aside (.bind (.assign fun _ => rfl) fun _ => .flush)

theorem mutation {request : Request} {route : String} {statusCode : Nat}
    {handler : String → String → DbTxn Handled} (hhandler : ∀ pm key, Maintains I (handler pm key)) :
    Maintains I (AiFund.mutation env app request route statusCode handler) := by
  refine .bind (h.told (within_ofExcept _ _)) fun pm => .bind (h.told ?_) fun idem => ?_
  · refine .ite (.throw _) (.bind (.select _) fun found => ?_)
    cases found with
    | none => exact .pure _
    | some row => exact .ite (.throw _) (.pure _)
  · split
    · exact .pure _
    · exact .bind (hhandler pm _) fun _ => .bind (h.told within_writeAudit) fun _ =>
        .bind h.store fun _ => .pure _

/-! ## Jobs -/

theorem createOnce {type : RunType} {params : JsonObject} {triggerRef : String} (covId : Nat) :
    Maintains I (AiFund.createOnce env fund type params triggerRef covId) :=
  .bind (.of_reads (.select _)) fun _ => .ite (.pure _) (.bind (h.createRun ..) fun _ => .pure _)

theorem sessionTick {exchange tradingDate sessionName : String} :
    Maintains I (AiFund.sessionTick env fund leader exchange tradingDate sessionName) :=
  .ite (.pure _) (.bind (h.told within_logJob) fun _ => .bind (.of_reads (.select _)) fun keys =>
    .bind (maintains_countM h.createOnce keys) fun _ => .bind (h.told within_logJob) fun _ => .pure _)

theorem watchTick {tradingDate : String} :
    Maintains I (AiFund.watchTick env fund leader tradingDate) :=
  .ite (.pure _) (.bind (.of_reads (.select _)) fun keys =>
    .bind (maintains_countM h.createOnce keys) fun _ => .bind (h.told within_logJob) fun _ => .pure _)

theorem retention : Maintains I (AiFund.retention env fund leader) :=
  .ite (.pure _) (.bind (h.told (within_ofExcept _ _)) fun _ => .bind (.of_reads (.select _)) fun _ =>
    .bind (h.aside (.execute fun _ => rfl)) fun _ => .bind (h.told (within_ofExcept _ _)) fun _ =>
      .bind (.of_reads (.select _)) fun _ => .bind (h.aside (.execute fun _ => rfl)) fun _ =>
        .bind (h.told within_logJob) fun _ => .pure _)

theorem job (job : Job) : Maintains I (job.perform env fund leader) := by
  cases job with
  | quarterlySweep =>
      refine .ite (.pure _) (.bind (h.told (within_ofExcept _ _)) fun _ =>
        .bind (.of_reads (.select _)) fun keys => .bind (maintains_countM (fun covId => ?_) keys) fun _ =>
          .bind (h.told within_logJob) fun _ => .pure _)
      exact .bind (.of_reads (.select _)) fun _ => .ite (.pure _)
        (.bind (h.told (within_getRow _ _)) fun _ => h.createOnce covId)
  | retention => exact h.retention
  | _ => exact h.told (.throw _)

/-! ## Operations -/

theorem commit {m : DbTxn α} (hm : Maintains I m) (hdb : I (.clean db)) :
    I (.clean (UnitOfWork.commit m db).after) := by
  obtain ⟨error, hcommit⟩ | ⟨a, s, hs, -, hcommit⟩ := commit_cases m db
  · rwa [hcommit]
  · rw [hcommit]
    exact h.clean s (hm hs hdb)

theorem runJob {job : Job} (hdb : I (.clean db)) :
    I (.clean (AiFund.runJob env fund leader job db).after) := by
  have hlog (status : String) (detail : Option String) : Maintains I
      (do logJob env job.name status 0 detail; return 0 : DbTxn Nat) :=
    .bind (h.told within_logJob) fun _ => .pure _
  unfold AiFund.runJob
  dsimp only
  split
  · exact h.commit (h.job job) hdb
  · exact h.commit (hlog _ _) hdb
  · exact h.commit (hlog _ _) hdb

theorem tick {runner : Engine.Runner} : Maintains I (Engine.tick env fund runner) :=
  .bind (.of_reads (.select _)) fun _ =>
    .bind (.forM fun _ _ => .bind (h.told within_promoteRun) fun _ => .pure _) fun _ =>
      .bind (.of_reads (.select _)) fun _ => .forM fun _ _ => h.advanceRun ..

end SessionParts

variable (h : SessionParts I app.fund)
include h

namespace SessionParts

/-- The handlers that create a run read what they need for it, and read it back. -/
theorem creates (call : ApiCall) (hcall : call.creates = true) :
    Maintains I ((call.route env app).2.2 pm key) := by
  have hcreate (runType : String) (coverageId : Option Nat) (params : JsonObject) :
      Maintains I (createRunFor env app runType coverageId params pm) := h.createRun ..
  cases call with
  | initiate slug lead verifyCount =>
      exact .bind (.of_reads reads_requireCoverage) fun _ => .bind (hcreate ..) fun _ =>
        .of_reads reads_handledRun
  | newRun type coverage params =>
      refine .bind ?_ fun _ => .bind (hcreate ..) fun _ => .of_reads reads_handledRun
      cases coverage with
      | none => exact .pure _
      | some slug =>
          exact .ite (.pure _) (.bind (.of_reads reads_requireCoverage) fun _ => .pure _)
  | retryRun runId =>
      refine .bind (.of_reads (.lookup _ _)) fun found => ?_
      cases found with
      | none => exact h.told (.throw _)
      | some old =>
          exact .ite (h.told (.throw _)) (.bind (hcreate ..) fun _ => .of_reads reads_handledRun)
  | newQuery coverage question =>
      exact .bind (.of_reads reads_requireCoverage) fun _ => .bind (hcreate ..) fun _ =>
        .of_reads reads_handledRun
  | _ => cases hcall

theorem apiCall {request : Request} (call : ApiCall) :
    Maintains I (call.perform env app request) := by
  refine h.mutation fun pm key => ?_
  cases hcreates : call.creates with
  | false => exact h.told (call.within_told hcreates)
  | true => exact h.creates call hcreates

theorem step (hdb : I (.clean db)) (op : Op) : I (.clean (AiFund.step app db op)) := by
  cases op with
  | api env request call => exact h.commit (h.apiCall call) hdb
  | createRun => exact h.commit (h.createRun ..) hdb
  | promoteRun => exact h.commit (h.told within_promoteRun) hdb
  | advanceRun env runner r => exact h.commit (h.advanceRun env runner r) hdb
  | tick env runner => exact h.commit h.tick hdb
  | queue env call => exact h.commit (h.queueCall env call) hdb
  | sessionTick => exact h.commit h.sessionTick hdb
  | watchTick => exact h.commit h.watchTick hdb
  | job => exact h.runJob hdb

theorem anyStep (hdb : I (.clean db)) (op : AnyOp) : I (.clean (op.step app db)) := by
  cases op with
  | desk op =>
      cases op with
      | system op => exact h.step hdb op
      | coverage env call => exact h.commit (h.told (within_coverageCall ⟨env, id, call⟩)) hdb
  | driven op =>
      obtain ⟨calls, -, heq⟩ := op.becomes app db
      rw [AnyOp.step, heq]
      exact History.invariant_of_forall (I := fun db => I (.clean db))
        (fun db op hdb => h.step hdb op) hdb
  | outbox op => exact h.commit (h.told (within_outboxCall op)) hdb

end SessionParts

end AiFund
