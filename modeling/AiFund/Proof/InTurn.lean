import AiFund.Proof.Recorded

/-!
# Transactions in turn

The statements of the engine, the workers, the reaper and the PM do what their sessions do, so that
transactions run one after another are the operations of the system.
-/

namespace AiFund

open ReadCommitted UnitOfWork Rows

variable {α β γ ε ρ : Type} {db : Db} {env : Env} {uuidHex : Nat → String} {r covId : Nat}
  {slug pm : String}

namespace Db.Sound

variable (h : db.Sound)
include h

theorem addLead {row : CoverageLeadHistory} (hhouse : db.isHouse row.toHouse = true) :
    Sound { db with leadHistory := db.leadHistory ++ [row] } := by
  refine ⟨legal_of_rules h.legal ?_, h.numbered⟩
  have hruns : Db.isRun { db with leadHistory := db.leadHistory ++ [row] } = db.isRun := rfl
  have hhouses : Db.isHouse { db with leadHistory := db.leadHistory ++ [row] } = db.isHouse := rfl
  have hcoverages : Db.isCoverage { db with leadHistory := db.leadHistory ++ [row] } =
      db.isCoverage := rfl
  simp only [constraints, List.forall_mem_cons, hruns, hhouses, hcoverages, imp_self, true_and,
    List.all_append, List.all_cons, List.all_nil, hhouse, Bool.and_true]
  exact fun _ hrule => absurd hrule List.not_mem_nil

end Db.Sound

/-- Two requests cannot be stored under one key. -/
theorem Db.violation_secondKey {row : IdempotencyKey}
    (hstored : ∃ other ∈ db.idempotencyKeys, other.key = row.key) {db' : Db}
    (hkeys : db'.idempotencyKeys = db.idempotencyKeys ++ [row]) : db'.violation ≠ none := by
  intro hlegal
  obtain ⟨other, hother, hkey⟩ := hstored
  have hnodup : ((db.idempotencyKeys ++ [row]).map fun row => row.key).Nodup := by
    have hrule := Db.violation_eq_none.1 hlegal
      ("pk_idempotency_keys", fun db : Db => (db.idempotencyKeys.map fun row => row.key).Nodup)
      (by simp only [constraints, List.mem_cons]; tauto)
    rw [← hkeys]
    exact of_decide_eq_true hrule
  rw [List.map_append, List.nodup_append] at hnodup
  exact hnodup.2.2 _ (List.mem_map_of_mem hother) row.key (by simp) hkey

namespace Concurrent

/-! ## Rules -/

@[simp] theorem returned_raise {error : PyError} {s : Session Db} :
    returned (raise error : DbTxn α) s = none := rfl

/-- Both accounts only read, each in its own way. -/
theorem doesAt_reads_bind {m : DbScript α} {m' : DbTxn γ} {a : α} {c : γ} {k : α → DbScript β}
    {k' : γ → DbTxn β} (heval : m.eval db = some (a, db))
    (hreturned : ∀ written, returned m' ⟨db, db, written⟩ = some (c, ⟨db, db, written⟩))
    (h : DoesAt db (k a) (k' c)) : DoesAt db (m >>= k) (m' >>= k') := by
  constructor
  · intro written
    rw [returned_bind, hreturned, Script.eval_bind, heval]
    exact h.same written
  · intro b db' hb
    rw [Script.eval_bind, heval] at hb
    exact h.keeps b db' hb

theorem doesAt_orConflict_bind {script : DbScript β} {m : DbTxn α} {k : α → DbTxn β}
    (h : DoesAt db script (m >>= k)) : DoesAt db script (orConflict m >>= k) := by
  refine ⟨fun written => ?_, h.keeps⟩
  have hsame := h.same written
  rw [returned_bind] at hsame ⊢
  rwa [orConflict, returned_adaptExcept]

theorem doesAt_requireCoverage_bind {k : Nat × Coverage → DbScript β} {k' : Nat → DbTxn β}
    (h : ∀ covId cov, db.coverages[covId]? = some cov → DoesAt db (k (covId, cov)) (k' covId)) :
    DoesAt db (requireCoverage slug >>= k) (AiFund.requireCoverage slug >>= k') := by
  cases hfind : db.coverages.findIdx? fun cov => cov.dossierSlug = slug with
  | none =>
      refine doesAt_of_none ?_ fun written => ?_
      · simp [requireCoverage, hfind]
      · simp [AiFund.requireCoverage, getBySlug, hfind]
  | some covId =>
      obtain ⟨hlt, -⟩ := List.findIdx?_eq_some_iff_getElem.1 hfind
      have hcov : db.coverages[covId]? = some db.coverages[covId] := List.getElem?_eq_getElem hlt
      refine doesAt_reads_bind ?_ (fun written => ?_) (h covId _ hcov)
      · simp [requireCoverage, hfind, hcov]
      · simp [AiFund.requireCoverage, getBySlug, hfind]

theorem does_idempotency {request : Request} :
    Does (idempotency env request) (AiFund.idempotency (env.drawing uuidHex) request) := by
  intro db hdb
  refine .ite (fun _ => .raise _) fun _ => .select_bind ?_
  cases db.idempotencyKeys.find? fun row => row.key = request.idempotencyKey.getD "" with
  | none => exact .pure hdb _
  | some row => exact .ite (fun _ => .raise _) fun _ => .pure hdb _

theorem does_storeKey {idem : Idempotency} {response : JsonObject} {statusCode : Nat}
    {route actorId : String} :
    Does (storeKey env idem response statusCode route actorId)
      (idem.store (env.drawing uuidHex) response statusCode route actorId) := by
  intro db hdb
  by_cases hnew : (db.idempotencyKeys.all fun row => row.key ≠ idem.key) = true
  · have hfree : ∀ other ∈ db.idempotencyKeys, other.key ≠ idem.key := by
      intro other hother
      simpa using List.all_eq_true.1 hnew other hother
    have hsound : Db.Sound { db with idempotencyKeys := db.idempotencyKeys ++
        [{ key := idem.key, route, actorId, response := ⟨response, statusCode, idem.bodyHash⟩,
           statusCode, expiresAt := datetimeMax, createdAt := env.now }] } := hdb.storeKey hfree
    refine doesAt_of_eq (a := ()) hsound ?_ fun written => ?_
    · rw [storeKey, eval_sendChecked, if_pos hnew]
      rfl
    · rw [Idempotency.store, returned_bind, returned_assign, Option.bind_some,
        returned_flush_of_legal hsound.legal]
      rfl
  · have hstored : ∃ other ∈ db.idempotencyKeys, other.key = idem.key := by
      simpa using hnew
    refine doesAt_of_none ?_ fun written => ?_
    · rw [storeKey, eval_sendChecked, if_neg hnew]
    · rw [Idempotency.store, returned_bind, returned_assign, Option.bind_some]
      exact returned_flush_of_violation (Db.violation_secondKey hstored rfl)

/-! ## The shared part of the routes -/

theorem doesAt_audited {row : AuditLog} {a : α} (hdb : db.Sound) :
    DoesAt db (do send (.addAudit row); return a) (do addAudit row; flush; return a) := by
  have hsound : Db.Sound { db with auditLog := db.auditLog ++ [row] } := hdb.addAudit
  refine doesAt_of_eq (a := a) hsound ?_ fun written => ?_
  · rw [Script.eval_bind, eval_send, Option.bind_some]
    rfl
  · rw [returned_bind, addAudit, returned_assign, Option.bind_some, returned_bind,
      returned_flush_of_legal hsound.legal]
    rfl

/-- A handler and the flush of the audit row behind it do what they do in the session. -/
def Handles (handler : DbScript Handling) (handler' : DbTxn Handled) : Prop :=
  ∀ row : Handled → AuditLog, Does
    (do
      let handling ← handler
      send (.addAudit (row handling.toHandled))
      handling.flush
      return handling.toHandled)
    (do
      let handled ← handler'
      addAudit (row handled)
      flush
      return handled)

theorem does_mutation_bind {app : App} {request : Request} {route : String} {statusCode : Nat}
    {handler : String → DbScript Handling} {handler' : String → String → DbTxn Handled}
    {k : Reply → DbScript β} {k' : JsonObject → DbTxn β}
    (hhandler : ∀ pm key, Handles (handler pm) (handler' pm key))
    (hk : ∀ reply, Does (k reply) (k' reply.body)) :
    Does (mutation env app request route statusCode handler >>= k)
      (AiFund.mutation (env.drawing uuidHex) app request route statusCode handler' >>= k') := by
  intro db hdb
  unfold mutation AiFund.mutation
  rw [bind_assoc, bind_assoc]
  refine doesAt_ofExcept_bind fun pm _ => ?_
  rw [bind_assoc, bind_assoc]
  refine (does_idempotency db hdb).bind fun idem db _ hdb => ?_
  cases hreplay : idem.replay with
  | some body =>
      simp only [pure_bind]
      exact hk _ db hdb
  | none =>
      let row (handled : Handled) : AuditLog :=
        { action := route, actorType := .pm, actorId := pm, target := some handled.target,
          afterState := handled.after, requestId := some request.requestId }
      have hstored (handled : Handled) :
          Does (storeKey env idem handled.response statusCode route pm >>= fun _ =>
              k (.performed handled.response))
            (idem.store (env.drawing uuidHex) handled.response statusCode route pm >>= fun _ =>
              k' handled.response) := fun db hdb =>
        (does_storeKey db hdb).bind fun _ db _ hdb => hk (.performed handled.response) db hdb
      have hrest := (hhandler pm idem.key row db hdb).bind fun handled db _ hdb =>
        hstored handled db hdb
      simp only [bind_assoc, pure_bind] at hrest
      simp only [bind_assoc, pure_bind, writeAudit]
      exact hrest

/-! ## The handlers -/

variable {action : Action} {force : Bool} {notes : Option String}

theorem handles_cancelRun :
    Handles (handleCancelRun env r notes pm)
      (AiFund.handleCancelRun (env.drawing uuidHex) r notes pm) := by
  intro row db hdb
  unfold handleCancelRun AiFund.handleCancelRun
  simp only [bind_assoc, pure_bind]
  refine (does_finishRun db hdb).bind fun _ db _ hdb => ?_
  exact doesAt_audited hdb

theorem coverage_setStateAndLead {cov : Coverage} {state : CoverageState} {lead : Option String}
    (hcov : db.coverages[covId]? = some cov) :
    (setStateAndLead covId state lead db).coverages[covId]? =
      some { cov with state, leadHouse := lead } :=
  getElem?_modify_self hcov

theorem handles_transition (haction : action ∈ [.promote, .demote, .exit, .rePropose]) :
    Handles (handleTransition env slug action force notes pm)
      (AiFund.handleTransition (env.drawing fun _ => env.uuidHex 0) slug action force notes pm) := by
  intro row db hdb
  unfold handleTransition AiFund.handleTransition pmTransition
  simp only [bind_assoc, pure_bind]
  have hdecide : action ∉ decideActions := by
    intro h
    revert haction h
    cases action <;> decide
  refine doesAt_requireCoverage_bind fun covId cov hcov => doesAt_orConflict_bind ?_
  refine doesAt_transition_bind hdb hcov rfl rfl (eval_buildCtx hdecide)
    (fun _ => returned_buildCtx hdecide) fun sm hsm => ?_
  have hidle := idle_of_entries (List.mem_append_left [.setLead] haction) (transition_eq_ok.1 hsm).1
  refine ⟨id, effects_idle hdb hcov hidle, fun base hbase _ hcoverages => ?_⟩
  have hrow : base.coverages[covId]? = _ :=
    (congrArg (fun rows => rows[covId]?) hcoverages).trans (coverage_setStateAndLead hcov)
  exact doesAt_getRow_again hrow (doesAt_audited hbase)

theorem coverages_finishRun {status : RunStatus} {summary error : Option String} {u : Unit}
    {db' : Db} (h : (finishRun env r status summary error).eval db = some (u, db')) :
    db'.coverages = db.coverages := by
  refine writes_finishRun.eval (f := Db.coverages) (fun w hw s => ?_) h
  cases hw <;> rfl

theorem isRun_of_gate {g : LoadedGate} (hdb : db.Sound) (hgate : db.gates[g.1]? = some g.2) :
    db.isRun g.2.runId = true := by
  have hrule := Db.violation_eq_none.1 hdb.legal
    ("fk_pm_gates_run_id_runs", fun db => db.gates.all fun gate => db.isRun gate.runId)
    (by simp only [constraints, List.mem_cons]; tauto)
  exact List.all_eq_true.1 hrule g.2 (List.mem_of_getElem? hgate)

theorem decisionAction_cases {decision : String} (h : decisionAction decision = some action) :
    action ∈ decideActions ∧ ∃ answer, decisionAnswer action = some answer := by
  unfold decisionAction at h
  split at h <;> cases h <;> exact ⟨by decide, _, rfl⟩

theorem doesAt_finishDecided_bind {gate : Option LoadedGate} {k : Unit → DbScript β}
    {k' : Unit → DbTxn β} (hdb : db.Sound)
    (hk : ∀ db' : Db, db'.Sound → db'.coverages = db.coverages → DoesAt db' (k ()) (k' ())) :
    DoesAt db (finishDecided env gate >>= k)
      (AiFund.finishDecided (env.drawing uuidHex) (gate.map fun gate => gate.2.runId) >>= k') := by
  cases gate with
  | none => exact hk db hdb rfl
  | some g =>
      exact (does_finishRun db hdb).bind fun _ db' heval hdb' =>
        hk db' hdb' (coverages_finishRun heval)

theorem handles_decide {decision : String} :
    Handles (handleDecide env slug decision notes pm)
      (AiFund.handleDecide (env.drawing fun _ => env.uuidHex 0) slug decision notes pm) := by
  intro row db hdb
  unfold handleDecide AiFund.handleDecide pmTransition
  simp only [bind_assoc]
  refine doesAt_requireCoverage_bind fun covId cov hcov => ?_
  cases hdecision : decisionAction decision with
  | none => exact .raise _
  | some action =>
      obtain ⟨haction, answer, hanswer⟩ := decisionAction_cases hdecision
      simp only [bind_assoc, pure_bind]
      generalize hgate : gateRow (openGateOfCoverage env covId) db = gate
      have hrow : ∀ g, gate = some g → db.gates[g.1]? = some g.2 := by
        rintro g rfl
        exact (gateRow_eq_some.1 hgate).2
      have hloaded : Loaded db gate.toList := fun g hg => hrow g (by simpa using hg)
      refine doesAt_reads_bind (a := gate) (c := gate.map fun gate => gate.2.runId) ?_ ?_ ?_
      · rw [Script.eval_select, hgate]
      · intro written
        have hrun : (do
            let gate ← db.gates[← openGateOfCoverage env covId db]?
            return gate.runId) = (gateRow (openGateOfCoverage env covId) db).map fun gate =>
              gate.2.runId := by
          rw [gateRow_eq]
          cases openGateOfCoverage env covId db with
          | none => rfl
          | some id =>
              change (db.gates[id]?.bind fun gate => some gate.runId) =
                (db.gates[id]?.map fun row => (id, row)).map fun gate => gate.2.runId
              cases db.gates[id]? <;> rfl
        rw [← hgate, ← hrun]
        rfl
      refine doesAt_orConflict_bind ?_
      refine doesAt_transition_bind hdb hcov rfl ?_ (eval_buildCtx_decide haction hloaded)
        (fun _ => returned_buildCtx_decide haction) fun sm hsm => ?_
      · cases gate with
        | none => rfl
        | some g => exact isRun_of_gate hdb (hrow g rfl)
      refine ⟨_, effects_decide hdb hcov (transition_eq_ok.1 hsm).1 hanswer ?_, ?_⟩
      · intro g hg
        obtain hold | hfound := List.mem_append.1 hg
        · exact hloaded g hold
        · exact (gate_of_foundGate (Option.mem_toList.1 hfound)).2
      · intro base hbase _ hcoverages
        refine doesAt_finishDecided_bind hbase fun db' hdb' hkept => ?_
        have hcovered : db'.coverages[covId]? = _ :=
          (congrArg (fun rows => rows[covId]?) ((hkept.trans (coverages_answered base)).trans
            hcoverages)).trans (coverage_setStateAndLead hcov)
        exact doesAt_getRow_again hcovered (doesAt_audited hdb')

/-! ## The change of a lead -/

theorem doesAt_getCoverage {cov : Coverage} {script : DbScript β} {k : Coverage → DbTxn β}
    (hcov : db.coverages[covId]? = some cov) (h : DoesAt db script (k cov)) :
    DoesAt db script (AiFund.getCoverage action covId >>= k) := by
  refine ⟨fun written => ?_, h.keeps⟩
  rw [returned_bind, returned_getCoverage hcov]
  exact h.same written

theorem toState_of_setLead {state : CoverageState} {sm : Transition}
    (hentry : entries (some state) .setLead = some sm) : sm.toState = state := by
  cases state <;> cases hentry <;> rfl

theorem isHouse_of_lead {house : String} {sm : Transition} {state : CoverageState}
    (hsm : transition (some state) .setLead
      { newHouseEnabled := (db.houses.find? fun h => h.key = house).any (·.enabled)
        newHouseAssignable := (db.houses.find? fun h => h.key = house).any (·.assignable)
        newHouseMeta := (db.houses.find? fun h => h.key = house).any (·.isMeta) } = .ok sm) :
    db.isHouse house = true := by
  have hguards := (transition_eq_ok.1 hsm).2
  cases hfound : db.houses.find? fun h => h.key = house with
  | none =>
      rw [hfound] at hguards
      cases hguards
  | some h =>
      have hkey := List.find?_some hfound
      exact List.any_eq_true.2 ⟨h, List.mem_of_find?_eq_some hfound, hkey⟩

/-- The row of the lead's history goes out with the audit row of the request. -/
theorem doesAt_leadHistory {history : CoverageLeadHistory} {row : AuditLog} {a : α}
    (hdb : db.Sound) (hhouse : db.isHouse history.toHouse = true) :
    DoesAt db
      (do
        send (.addAudit row)
        send (.addLeadHistory history)
        return a)
      (do
        assign fun db => { db with leadHistory := db.leadHistory ++ [history] }
        addAudit row
        flush
        return a) := by
  have hsound : Db.Sound { db with
      leadHistory := db.leadHistory ++ [history], auditLog := db.auditLog ++ [row] } :=
    (hdb.addLead hhouse).addAudit
  refine doesAt_of_eq (a := a) hsound ?_ fun written => ?_
  · simp only [Script.eval_bind, eval_send, Option.bind_some]
    rfl
  · simp only [addAudit, returned_bind, returned_assign, Option.bind_some]
    rw [returned_flush_of_legal hsound.legal]
    rfl

theorem handles_setLead {house : String} {rationale : Option String} :
    Handles (handleSetLead env slug house rationale pm)
      (AiFund.handleSetLead (env.drawing fun _ => env.uuidHex 0) slug house rationale pm) := by
  intro row db hdb
  unfold handleSetLead AiFund.handleSetLead
  simp only [bind_assoc, pure_bind]
  refine doesAt_requireCoverage_bind fun covId cov hcov => doesAt_orConflict_bind ?_
  unfold setLead AiFund.setLead
  simp only [bind_assoc, pure_bind]
  refine doesAt_getCoverage hcov (.select_bind (doesAt_ofExcept_bind fun sm hsm => ?_))
  have hentry := (transition_eq_ok.1 hsm).1
  have hstate := toState_of_setLead hentry
  have hhouse := isHouse_of_lead hsm
  have hidle := idle_of_entries (by simp) hentry
  let made := recordedFor env .setLead pm none rationale
  let moved := setStateAndLead covId sm.toState (some house) db
  rw [← bind_assoc (f := fun _ => AiFund.record _ _ _ _ _ _ _ _ _ _)]
  refine doesAt_flushed_bind () (recordedRows env covId cov.state sm made moved)
    (legalCoverage db { cov with state := sm.toState, leadHouse := some house }) ?_ ?_ ?_ ?_ ?_
  · exact eval_record_idle hdb hcov hidle
  · intro written
    have hrow : db.updateCoverage covId (fun cov => { cov with leadHouse := some house }) = moved :=
      updateCoverage_congr hcov (by rw [hstate])
    rw [returned_bind, returned_assign, Option.bind_some]
    dsimp only
    rw [hrow]
    have hrecord : returned (AiFund.record (env.drawing fun _ => env.uuidHex 0) covId
        (some cov.state) sm made.action made.actorType made.actorId made.runId made.notes none)
          ⟨db, moved, written⟩ =
        returned flush ⟨db, recordedRows env covId cov.state sm made moved, written⟩ :=
      returned_record rfl (returned_forM_idle hidle)
    exact hrecord
  · intro hlegal
    have hmoved : moved.Sound := sound_setCoverage hdb hcov (fun _ => rfl) hlegal
    refine sound_recordedRows hmoved ?_ rfl
    simp [moved, Db.isCoverage, Db.updateCoverage, (List.getElem?_eq_some_iff.1 hcov).1]
  · exact fun hillegal => violation_setCoverage hcov hillegal rfl rfl
  · exact fun hsound => doesAt_leadHistory hsound hhouse

/-! ## Every transaction -/

theorem does_return {m : DbScript α} {m' : DbTxn α} (f : α → β) (h : Does m m') :
    Does (do return f (← m)) (do return f (← m')) :=
  fun db hdb => (h db hdb).bind fun _ _ _ hdb' => .pure hdb' _

theorem does_lockCall (call : LockCall) : Does call.script call.perform := by
  cases call with
  | start env r => exact does_return LockReply.started does_startRun
  | finish env r status summary error =>
      exact fun db hdb => (does_finishRun db hdb).bind fun _ _ _ hdb' => .pure hdb' _

theorem does_workerCall {stageId : Nat} (call : WorkerCall) :
    Does (call.script stageId) (call.perform stageId) := by
  cases call with
  | complete env attempt result =>
      exact fun db hdb => (does_completeStage db hdb).bind fun _ _ _ hdb' => .pure hdb' _
  | heartbeat env workerId leaseSeconds => exact does_return QueueReply.beat does_heartbeat

theorem does_response {app : App} {request : Request} {route : String} {statusCode : Nat}
    {handler : String → DbScript Handling} {handler' : String → String → DbTxn Handled}
    (hhandler : ∀ pm key, Handles (handler pm) (handler' pm key)) :
    Does (do return Answer.response (← mutation env app request route statusCode handler).body)
      (do
        let body ← AiFund.mutation (env.drawing uuidHex) app request route statusCode handler'
        return .response body) :=
  does_mutation_bind hhandler fun _ _ hdb => .pure hdb _

theorem does_call (app : App) (call : Call) : Does (call.script app) (call.perform app) := by
  cases call with
  | lock call => exact does_return Answer.lock (does_lockCall call)
  | worker stageId call => exact does_return Answer.queue (does_workerCall call)
  | reap env now backoff =>
      intro db hdb
      simp only [Call.script, Call.perform, reaper, bind_assoc, pure_bind]
      exact (does_reapExpired db hdb).bind fun _ _ _ hdb => .pure hdb _
  | move slug asked =>
      obtain ⟨env, request, call⟩ := asked
      cases call with
      | promote notes => exact does_response fun pm key => handles_transition (by decide)
      | demote notes => exact does_response fun pm key => handles_transition (by decide)
      | exit force notes => exact does_response fun pm key => handles_transition (by decide)
      | rePropose notes => exact does_response fun pm key => handles_transition (by decide)
      | setLead house rationale => exact does_response fun pm key => handles_setLead
  | decide slug asked => exact does_response fun pm key => handles_decide
  | cancel env request r notes => exact does_response fun pm key => handles_cancelRun

/-- Transactions whose statements are scheduled one transaction after another answer, and leave,
what their sessions do when they are committed in that order. -/
theorem calls_inTurn (app : App) (db : Db) (hdb : db.Sound) (calls : List Call) :
    ∃ steps : Nat → Nat,
      (World.start db (calls.map (Call.script app))).run
          ((List.range calls.length).flatMap fun i => List.replicate (steps i) i) =
        ⟨(inTurn (calls.map (Call.perform app)) db).2,
          (inTurn (calls.map (Call.perform app)) db).1.map Party.of⟩ := by
  let pairs := calls.map fun call => (call.script app, call.perform app)
  have hdoes : ∀ pair ∈ pairs, Does pair.1 pair.2 := by
    intro pair hpair
    obtain ⟨call, -, rfl⟩ := List.mem_map.1 hpair
    exact does_call app call
  have hrun := exists_run_inTurn (fun _ hdb => hdb.legal) hdoes hdb
  simpa [pairs, Function.comp_def] using hrun

/-- The engine starts a run that the PM then cancels. -/
def Call.startAndCancel : List Call :=
  [.lock (.start (.quiet 1) 0), .cancel (.quiet 2) (.fromPm "cancel") 0 (some "stale")]

theorem calls_inTurn_small :
    (inTurn (Call.startAndCancel.map (Call.perform .small))
        (run .small .small Op.initiateApple)).1.map Option.isSome = [true, true] ∧
      ∃ steps : Nat → Nat,
        (World.start (run .small .small Op.initiateApple)
            (Call.startAndCancel.map (Call.script .small))).run
            ((List.range 2).flatMap fun i => List.replicate (steps i) i) =
          ⟨(inTurn (Call.startAndCancel.map (Call.perform .small))
              (run .small .small Op.initiateApple)).2,
            (inTurn (Call.startAndCancel.map (Call.perform .small))
              (run .small .small Op.initiateApple)).1.map Party.of⟩ :=
  ⟨by decide +kernel, calls_inTurn .small _ (run_sound (by decide +kernel) rfl _) _⟩

end Concurrent

end AiFund
