import AiFund.Proof.Gates
import AiFund.Proof.Legal

/-!
# Pending decisions

A coverage that awaits its decision can be decided exactly if the gate of its waiting initiation is
the open gate of the coverage that the store returns first.
-/

namespace AiFund

open UnitOfWork Rows History

variable {app : App} {env : Env} {request : Request} {db : Db} {covId r g : Nat} {action : Action}
  {pm key answer slug decision : String} {notes : Option String} {sm : Transition} {s : Session Db}
  {c c' : Life} {e : LifeEvent}

/-! ## What a decision gate offers -/

/-- Every decision gate offers the three decisions. -/
def Life.Asking (c : Life) : Prop :=
  ∀ gate ∈ c.gates, gate.kind = .initiationDecision → gate.allowed = ["active", "watch", "reject"]

theorem Life.Asking.addGate {new : GateLife} (h : c.Asking)
    (hnew : new.kind = .initiationDecision → new.allowed = ["active", "watch", "reject"])
    (hgates : c'.gates = c.gates ++ [new]) : c'.Asking := by
  intro gate hgate
  rw [hgates] at hgate
  rcases List.mem_append.1 hgate with hold | hmem
  · exact h gate hold
  · rw [List.mem_singleton.1 hmem]
    exact hnew

theorem Life.Asking.answered (h : c.Asking) (hgates : c'.gates = (c.answer g answer).gates) :
    c'.Asking := by
  intro gate hgate
  rw [hgates] at hgate
  obtain ⟨i, hi⟩ := List.getElem?_of_mem hgate
  obtain ⟨-, old, hold, rfl⟩ | ⟨-, hold⟩ := getElem?_modify_cases hi
  · exact h old (List.mem_of_getElem? hold)
  · exact h gate (List.mem_of_getElem? hold)

theorem LifeStep.asking (hstep : LifeStep e c c') (h : c.Asking) : c'.Asking := by
  have hsame (hgates : c'.gates = c.gates) : c'.Asking := by
    rw [Life.Asking, hgates]
    exact h
  cases hstep with
  | pause => exact h.addGate (fun hkind => by cases hkind) rfl
  | deliver => exact h.addGate (fun _ => rfl) rfl
  | decide => exact h.answered rfl
  | answer => exact h.answered rfl
  | _ => exact hsame (by simp)

theorem run_asking (hdb : db.Fresh) (ops : List Op) : (run app db ops).life.Asking := by
  have hstart : db.life.Lawful ∧ db.life.Asking := by
    refine ⟨hdb.lawful, fun gate hgate => ?_⟩
    simp [Db.life, hdb.gates] at hgate
  refine (invariant_of_forall (I := fun db : Db => db.life.Lawful ∧ db.life.Asking)
    (fun _ op h => ⟨h.1.step op, ?_⟩) hstart).2
  exact op_preserves h.1 (fun _ _ _ hstep hc => hstep.asking hc)
    (fun _ _ _ _ _ hstep _ hc => hstep.asking hc) h.2

/-! ## Decisions that return -/

/-- What a decision relies on from its first write to its last. -/
structure Db.Prepared (covId r : Nat) (key : String) (db : Db) : Prop where
  sound : db.Sound
  coverage : covId < db.coverages.length
  run : r < db.runs.length
  unused : ∀ row ∈ db.idempotencyKeys, row.key ≠ key

namespace Db.Prepared

variable (h : db.Prepared covId r key)
include h

theorem isCoverage : (some covId).all db.isCoverage = true := by
  simpa [Db.isCoverage] using h.coverage

theorem isRun : (some r).all db.isRun = true := by
  simpa [Db.isRun] using h.run

theorem addOutbox {event : OutboxEvent} {kind : String} {subject : Nat}
    (hcoverage : event.coverageId.all db.isCoverage = true)
    (hrun : event.runId.all db.isRun = true)
    (hkey : event.dedupeKey = .fresh kind subject db.outbox.length) :
    Prepared covId r key { db with outbox := db.outbox ++ [event] } :=
  ⟨h.sound.addOutbox hcoverage hrun hkey, h.coverage, h.run, h.unused⟩

omit h in
theorem finishing : Finishing r (some covId) (Db.Prepared covId r key) where
  legal _ h := h.sound.legal
  locks _ h := ⟨h.sound.releaseLock, h.coverage, h.run, h.unused⟩
  run _ _ hf h := ⟨h.sound.updateRun hf, h.coverage, by simpa [Db.updateRun] using h.run, h.unused⟩
  outbox _ _ hcoverage hrun hkey h :=
    h.addOutbox (hcoverage ▸ h.isCoverage) (by rw [hrun]; exact h.isRun) hkey

end Db.Prepared

theorem completes_flush : Completes (Db.Prepared covId r key) flush :=
  .flush fun _ h => h.sound.legal

/-- The side effects that need no more than an answer. -/
def SideEffect.answering : SideEffect → Bool
  | .cancelOpenGate | .openGateInitiationDecision | .setLeadHouse => false
  | _ => true

theorem entries_answering {state : CoverageState} (hentry : entries (some state) action = some sm)
    (hanswer : decisionAnswer action = some answer) :
    ∀ effect ∈ sm.sideEffects, effect.answering = true := by
  cases action <;> cases hanswer <;> cases state <;> cases hentry <;> decide

theorem completes_sideEffect {effect : SideEffect} {actorId requestId : String}
    (hanswer : decisionAnswer action = some answer) (heffect : effect.answering = true) :
    Completes (Db.Prepared covId r key)
      (applySideEffect env covId action actorId (some r) requestId effect) := by
  cases effect with
  | outbox kind => exact .ite (.pure _) (.assign fun _ h => h.addOutbox h.isCoverage h.isRun rfl)
  | answerGate =>
      refine .bind (.select _) fun found => ?_
      cases found with
      | none => exact .pure _
      | some gateId =>
          rw [hanswer]
          refine .bind (.pure answer) fun _ => .assign fun db h => ?_
          exact ⟨h.sound.updateGate (fun _ => rfl) fun _ => rfl, h.coverage, h.run, h.unused⟩
  | cancelOpenGate => cases heffect
  | openGateInitiationDecision => cases heffect
  | setLeadHouse => cases heffect
  | _ => exact .pure _

theorem completes_record {fromState : Option CoverageState} {actorId : String}
    {requestId : Option String} (hanswer : decisionAnswer action = some answer)
    (heffects : ∀ effect ∈ sm.sideEffects, effect.answering = true) :
    Completes (Db.Prepared covId r key)
      (record env covId fromState sm action .pm actorId (some r) notes requestId) := by
  refine .bind (.inspect _) fun _ => .bind (.assign fun db h => ?_) fun _ =>
    .bind (.assign fun db h => ?_) fun _ => .bind (.assign fun db h => ?_) fun _ =>
      .bind (.forM fun effect heffect => completes_sideEffect hanswer (heffects effect heffect))
        fun _ => completes_flush
  · exact ⟨h.sound.addTransition h.isRun, h.coverage, h.run, h.unused⟩
  · exact ⟨h.sound.addAudit, h.coverage, h.run, h.unused⟩
  · exact h.addOutbox h.isCoverage h.isRun rfl

theorem checkGuards_decision {ctx : TransitionContext} (hanswer : decisionAnswer action = some answer)
    (hopen : ctx.gateOpen = true) (hallowed : ctx.answerInAllowed = true) :
    checkGuards action ctx = none := by
  cases action <;> cases hanswer <;> simp [checkGuards, hopen, hallowed]

theorem entries_pending (hanswer : decisionAnswer action = some answer) :
    ∃ sm, entries (some .decisionPending) action = some sm := by
  cases action <;> cases hanswer <;> exact ⟨_, rfl⟩

/-- A pending coverage, an open gate of the run and an answer it offers: the transition returns. -/
theorem returns_decision_of_gate (env : Env) (pm : String) (notes : Option String) {cov : Coverage}
    {gate : PmGate}
    (hdb : db.Prepared covId r key) (hcov : db.coverages[covId]? = some cov)
    (hpending : cov.state = .decisionPending) (hanswer : decisionAnswer action = some answer)
    (hg : openGateOfRun env r db = some g) (hgate : db.gates[g]? = some gate)
    (hallowed : answer ∈ gate.allowedAnswers) :
    ∃ s, Returns (transitionCoverage env covId action .pm pm (some r) false notes none)
      (Session.clean db) () s ∧ s.stored.Prepared covId r key ∧ s.loaded.Prepared covId r key := by
  obtain ⟨sm, hentry⟩ := entries_pending hanswer
  have hlead : cov.leadHouse.isSome = true := by
    have hrule := Db.violation_eq_none.1 hdb.sound.legal ("ck_coverage_lead_required_when_live",
      fun db => db.coverages.all fun cov => !cov.state.live || cov.leadHouse.isSome)
      (by simp [constraints])
    have hlive := List.all_eq_true.1 hrule cov (List.mem_of_getElem? hcov)
    simpa [hpending, CoverageState.live] using hlive
  have hmoved : Db.Prepared covId r key
      (db.updateCoverage covId fun cov => { cov with state := sm.toState }) := by
    refine ⟨hdb.sound.setState hcov fun _ => hlead, ?_, hdb.run, hdb.unused⟩
    simpa [Db.updateCoverage] using hdb.coverage
  let s₁ : Session Db :=
    { Session.clean db with
      loaded := db.updateCoverage covId fun cov => { cov with state := sm.toState } }
  have hrecords : Completes (Db.Prepared covId r key)
      (record env covId (some cov.state) sm action .pm pm (some r) notes none) :=
    completes_record hanswer (entries_answering hentry hanswer)
  obtain ⟨_, s, hrecord, hafter⟩ := hrecords s₁ hdb hmoved
  let ctx : TransitionContext := {
    force := false
    noteProvided := noteGiven notes
    hasOpenPosition := hasOpenPosition cov.ticker db
    gateOpen := action ∉ decideActions || (some gate).isSome
    answerInAllowed := action ∉ decideActions || (some gate).any fun gate =>
      (decisionAnswer action).any fun answer => answer ∈ gate.allowedAnswers }
  have hctx : Returns (buildCtx env cov action (some r) false notes) (Session.clean db) ctx
      (Session.clean db) := by
    have hread : (do
        let gateId ← openGateOfRun env (← some r) db
        db.gates[gateId]? : Option PmGate) = some gate := by
      simp [hg, hgate]
    unfold buildCtx
    rw [returns_select_bind, returns_select_bind]
    change Returns (pure _) _ _ _
    rw [show (Session.clean db).stored = db from rfl, hread]
    exact returns_pure.2 ⟨rfl, rfl⟩
  have hguards : checkGuards action ctx = none :=
    checkGuards_decision hanswer (by simp [ctx]) (by simp [ctx, hanswer, hallowed])
  refine ⟨s, ?_, hafter⟩
  unfold transitionCoverage
  refine returns_bind.2 ⟨cov, Session.clean db, ?_, returns_bind.2 ⟨ctx, _, hctx, ?_⟩⟩
  · unfold getCoverage
    rw [returns_lookup_bind]
    have hfound : (if covId < (Session.clean db).stored.coverages.length then
        (Session.clean db).loaded.coverages[covId]? else none) = some cov := by
      change (if covId < db.coverages.length then db.coverages[covId]? else none) = some cov
      rw [if_pos hdb.coverage, hcov]
    rw [hfound]
    exact returns_pure.2 ⟨rfl, rfl⟩
  · refine returns_ofExcept_bind.2 ⟨sm, transition_eq_ok.2 ⟨by rw [hpending, hentry], hguards⟩, ?_⟩
    rw [returns_assign_bind]
    exact hrecord

/-! ## The request -/

theorem decisionAction_of_mem (hdecision : decision ∈ ["active", "watch", "reject"]) :
    ∃ action, decisionAction decision = some action := by
  simp only [List.mem_cons, List.not_mem_nil, or_false] at hdecision
  rcases hdecision with rfl | rfl | rfl <;> exact ⟨_, rfl⟩

theorem openGateOfRun_of_once (hdb : db.life.Gated) {gate : PmGate} (hgate : db.gates[g]? = some gate)
    (hrun : gate.runId = r) (hopen : gate.state = .opened) : openGateOfRun env r db = some g := by
  cases hfound : openGateOfRun env r db with
  | none =>
      have hclosed := (RowOrder.first_eq_none _).1 hfound gate (List.mem_of_getElem? hgate)
      simp [hrun, hopen] at hclosed
  | some k =>
      obtain ⟨other, hother, hotherRun, -⟩ := openGateOfRun_eq_some hfound
      rw [hdb.same (Db.life_gates_eq_some.2 ⟨other, hother, rfl⟩)
        (Db.life_gates_eq_some.2 ⟨gate, hgate, rfl⟩) (hotherRun.trans hrun.symm)]

/-- The handler of a decision returns if the gate of the waiting run is found first. -/
theorem returns_handleDecide_of_first (env : Env) (pm : String) (notes : Option String)
    (hdb : db.Prepared covId r key) (hgated : db.life.Gated)
    (hasking : db.life.Asking) (hawaits : db.Awaits covId r g)
    (hslug : db.coverages.findIdx? (fun cov => cov.dossierSlug = slug) = some covId)
    (hdecision : decision ∈ ["active", "watch", "reject"])
    (hfirst : openGateOfCoverage env covId db = some g) :
    ∃ handled s, Returns (handleDecide env slug decision notes pm) (Session.clean db) handled s ∧
      s.stored.Prepared covId r key ∧ s.loaded.Prepared covId r key := by
  obtain ⟨cov, hcov, hpending⟩ := hawaits.pending
  obtain ⟨run, hrun, hinitiates, hwaiting⟩ := hawaits.waiting
  obtain ⟨gate, hgate, hgateRun, hkind, hopen⟩ := hawaits.asked
  obtain ⟨action, haction⟩ := decisionAction_of_mem hdecision
  have hanswer := decisionAction_answer haction
  have hallowed : decision ∈ gate.allowedAnswers := by
    have hmem := List.mem_of_getElem? (Db.life_gates_eq_some.2 ⟨gate, hgate, rfl⟩)
    have hoffer : gate.allowedAnswers = ["active", "watch", "reject"] := hasking _ hmem hkind
    rw [hoffer]
    exact hdecision
  obtain ⟨s₁, htransition, hstored₁, hloaded₁⟩ := returns_decision_of_gate env pm notes
    hdb hcov hpending hanswer (openGateOfRun_of_once hgated hgate hgateRun hopen)
    hgate hallowed
  -- the transition has not touched the run
  obtain ⟨k, i, asked, sm, -, -, -, -, -, -, -, -, hlands⟩ :=
    returns_decision hanswer htransition (Synced.clean _ db)
  have hrun₁ : s₁.loaded.life.runs[r]? = some run.life := by
    rw [hlands.synced, hlands.stored]
    exact Db.life_run hrun
  obtain ⟨run₁, hget₁, hlife₁⟩ := Db.life_runs_eq_some.1 hrun₁
  have hcoverage₁ : run₁.coverageId = some covId :=
    (congrArg RunLife.coverageId hlife₁).trans hinitiates.2
  have hsucceeds : runTransition run₁.status .succeed {} =
      .ok ⟨.succeeded, "succeeded", [.releaseLock, .outboxRunFinished]⟩ := by
    rw [show run₁.status = .waitingPm from (congrArg RunLife.status hlife₁).trans hwaiting]
    rfl
  obtain ⟨s₂, hfinish, hstored₂, hloaded₂⟩ := exists_finishRun env none none
    (hcoverage₁ ▸ Db.Prepared.finishing) hstored₁ hloaded₁ hstored₁.run hget₁
    (show finishAction .succeeded = .ok .succeed from rfl) hsucceeds
  obtain ⟨decided, hdecided⟩ : ∃ decided, s₂.loaded.coverages[covId]? = some decided :=
    ⟨_, List.getElem?_eq_getElem hloaded₂.coverage⟩
  let handled : Handled :=
    { response := slugState slug decided, target := covTarget covId
      after := .obj [("decision", .str decision)] }
  refine ⟨handled, s₂, ?_, hstored₂, hloaded₂⟩
  unfold handleDecide requireCoverage getBySlug
  rw [returns_bind]
  refine ⟨covId, Session.clean db, ?_, ?_⟩
  · rw [returns_select_bind, show (Session.clean db).stored = db from rfl, hslug]
    exact returns_pure.2 ⟨rfl, rfl⟩
  · rw [haction]
    dsimp only
    rw [returns_select_bind]
    have hrunId : (do
        let gate ← (Session.clean db).stored.gates[← openGateOfCoverage env covId
          (Session.clean db).stored]?
        return gate.runId : Option Nat) = some r := by
      change (do
        let gate ← db.gates[← openGateOfCoverage env covId db]?
        return gate.runId : Option Nat) = some r
      simp [hfirst, hgate, hgateRun]
    rw [hrunId]
    refine returns_bind.2 ⟨(), s₁, returns_adaptExcept.2 htransition, ?_⟩
    refine returns_bind.2 ⟨(), s₂, hfinish, ?_⟩
    exact returns_getRow_bind.2
      ⟨hstored₂.coverage, decided, hdecided, returns_pure.2 ⟨rfl, rfl⟩⟩

/-- A request that is accepted and whose handler returns, having kept the database legal and the
key unused, succeeds. -/
theorem exec_of_handled {call : ApiCall} {handled : Handled}
    (haccepts : app.Accepts env db request pm)
    (hhandler : Returns ((call.route env app).2.2 pm (request.idempotencyKey.getD ""))
      (Session.clean db) handled s)
    (hstored : s.stored.Prepared covId r (request.idempotencyKey.getD ""))
    (hloaded : s.loaded.Prepared covId r (request.idempotencyKey.getD "")) :
    ((Op.api env request call).exec app db).result = .ok () := by
  let key := request.idempotencyKey.getD ""
  let idem : Idempotency := ⟨key, env.runtime.sha256 request.rawBody, none⟩
  have hidem : Returns (idempotency env request) (Session.clean db) idem (Session.clean db) := by
    dsimp only [idempotency]
    rw [if_neg haccepts.keyed, returns_select_bind,
      show (Session.clean db).stored = db from rfl, haccepts.new]
    exact returns_pure.2 ⟨rfl, rfl⟩
  have haudit : Completes (Db.Prepared covId r key) (writeAudit (call.route env app).1 pm
      (some handled.target) handled.after request.requestId) :=
    .bind (.assign fun db h => ⟨h.sound.addAudit, h.coverage, h.run, h.unused⟩) fun _ =>
      completes_flush
  obtain ⟨_, s₁, haudited, hstored₁, hloaded₁⟩ := haudit s hstored hloaded
  let row : IdempotencyKey :=
    { key, route := (call.route env app).1, actorId := pm
      response := ⟨handled.response, (call.route env app).2.1, idem.bodyHash⟩
      statusCode := (call.route env app).2.1, expiresAt := datetimeMax,
      createdAt := env.now }
  let after : Db := { s₁.loaded with idempotencyKeys := s₁.loaded.idempotencyKeys ++ [row] }
  have hsound : after.Sound := hloaded₁.sound.storeKey hloaded₁.unused
  have hstore : Returns (idem.store env handled.response (call.route env app).2.1
      (call.route env app).1 pm) s₁ () (s₁.write after after) := by
    unfold Idempotency.store
    rw [returns_assign_bind]
    exact returns_flush.2 ⟨hsound.legal, rfl⟩
  have hperform : Returns (call.perform env app request) (Session.clean db) handled.response
      (s₁.write after after) := by
    unfold ApiCall.perform
    refine returns_ofExcept_bind.2 ⟨pm, haccepts.authorized, returns_bind.2 ⟨idem, _, hidem, ?_⟩⟩
    refine returns_bind.2 ⟨handled, s, hhandler, returns_bind.2 ⟨(), s₁, haudited, ?_⟩⟩
    exact returns_bind.2 ⟨(), _, hstore, returns_pure.2 ⟨rfl, rfl⟩⟩
  have hcommit := commit_of_returns hperform hsound.legal
  change ((commit (call.perform env app request) db).result.map fun _ => ()) = .ok ()
  rw [hcommit]
  rfl

/-! ## Reachable databases -/

theorem findIdx?_slug {cov : Coverage} (hlegal : Schema.violation db = none)
    (hcov : db.coverages[covId]? = some cov) (hslug : cov.dossierSlug = slug) :
    db.coverages.findIdx? (fun cov => cov.dossierSlug = slug) = some covId := by
  have hrule := Db.violation_eq_none.1 hlegal ("uq_coverage_dossier_slug", fun db =>
    (db.coverages.map (·.dossierSlug)).Nodup) (by simp [constraints])
  have hnodup : (db.coverages.map (·.dossierSlug)).Nodup := of_decide_eq_true hrule
  obtain ⟨hlength, hget⟩ := List.getElem?_eq_some_iff.1 hcov
  refine List.findIdx?_eq_some_iff_getElem.2 ⟨hlength, by simp [hget, hslug], fun j hj => ?_⟩
  rw [decide_eq_true_eq]
  intro hsame
  have hbound : covId < (db.coverages.map (·.dossierSlug)).length := by simpa using hlength
  have hequal : (db.coverages.map (·.dossierSlug))[j] =
      (db.coverages.map (·.dossierSlug))[covId] := by simp [hsame, hget, hslug]
  have hindex := hnodup.getElem_inj_iff.1 hequal
  omega

/-- A decision that succeeds is the one its handler made. -/
theorem decides_of_succeeds (haccepts : app.Accepts env db request pm)
    (hslug : db.coverages.findIdx? (fun cov => cov.dossierSlug = slug) = some covId)
    (h : ((Op.api env request (.decide slug decision notes)).exec app db).result = .ok ()) :
    ∃ r g action sm s, Decides env (Session.clean db) s decision covId r g action sm ∧
      (step app db (.api env request (.decide slug decision notes))).life = s.stored.life := by
  have hresult : ∃ body, (commit ((ApiCall.decide slug decision notes).perform env app request)
      db).result = .ok body := by
    change ((commit ((ApiCall.decide slug decision notes).perform env app request) db).result.map
      fun _ => ()) = .ok () at h
    cases hbody : (commit ((ApiCall.decide slug decision notes).perform env app request) db).result with
    | ok body => exact ⟨body, rfl⟩
    | error error =>
        rw [hbody] at h
        cases h
  obtain ⟨body, hbody⟩ := hresult
  obtain ⟨s, hs, -, hafter⟩ := commit_result hbody
  change Returns (mutation env app request "coverage.decide" 200 fun pm _ =>
    handleDecide env slug decision notes pm) _ _ _ at hs
  obtain ⟨-, row, hrow, hkey, -⟩ | ⟨pm, handled, s₁, -, hhandler, hrest⟩ := mutation_cases hs
  · have hunused := List.find?_eq_none.1 haccepts.new row hrow
    simp [hkey] at hunused
  · obtain ⟨k, r, g, action, sm, hk, hdecides⟩ := returns_handleDecide hhandler (Synced.clean _ db)
    obtain rfl : covId = k := Option.some.inj (hslug.symm.trans hk)
    have hstill := hrest hdecides.synced
    refine ⟨r, g, action, sm, s₁, hdecides, ?_⟩
    rw [← Still.life_eq hstill, ← hstill.synced]
    exact congrArg Db.life hafter

theorem decidedState_of_entry (haction : decisionAction decision = some action)
    (hentry : entries (some .decisionPending) action = some sm) :
    decidedState decision = some sm.toState := by
  unfold decisionAction at haction
  split at haction <;> cases haction <;> cases hentry <;> rfl

/-- Where a coverage awaits its decision, any of the three decisions succeeds and takes effect
exactly if the gate of the waiting initiation is the open gate of the coverage found first. -/
theorem decide_settles_iff (hdb : db.Fresh) (hlegal : Schema.violation db = none)
    (houtbox : db.outbox = []) (ops : List Op) {cov : Coverage}
    (hawaits : (run app db ops).Awaits covId r g)
    (hcov : (run app db ops).coverages[covId]? = some cov)
    (haccepts : app.Accepts env (run app db ops) request pm)
    (hdecision : decision ∈ ["active", "watch", "reject"]) :
    Op.Settles app (run app db ops) (.api env request (.decide cov.dossierSlug decision notes))
        decision covId r g ↔
      openGateOfCoverage env covId (run app db ops) = some g := by
  have hlawful : (run app db ops).life.Lawful := run_lawful hdb ops
  have hsound : (run app db ops).Sound := run_sound hlegal houtbox ops
  have hasking : (run app db ops).life.Asking := run_asking hdb ops
  generalize run app db ops = db at *
  have hslug := findIdx?_slug hsound.legal hcov rfl
  obtain ⟨run, hrun, hinitiates, hwaiting⟩ := hawaits.waiting
  obtain ⟨gate, hgate, hgateRun, hkind, hopen⟩ := hawaits.asked
  have hlifeGate : db.life.gates[g]? = some gate.life := Db.life_gates_eq_some.2 ⟨gate, hgate, rfl⟩
  have hfound {r' : Nat} (h : (do
      let gate ← db.gates[← openGateOfCoverage env covId db]?
      return gate.runId : Option Nat) = some r') : ∃ k gate', openGateOfCoverage env covId db = some k ∧
        db.life.gates[k]? = some gate' ∧ gate'.runId = r' := by
    obtain ⟨k, hk, h⟩ := Option.bind_eq_some_iff.1 h
    obtain ⟨gate', hgate', hr'⟩ := Option.bind_eq_some_iff.1 h
    exact ⟨k, gate'.life, hk, Db.life_gates_eq_some.2 ⟨gate', hgate', rfl⟩, Option.some.inj hr'⟩
  constructor
  · intro hsettles
    obtain ⟨r', g', action, sm, s, hdecides, hlife⟩ :=
      decides_of_succeeds haccepts hslug hsettles.succeeds
    obtain ⟨k, first, hk, hfirst, hfirstRun⟩ := hfound hdecides.found
    obtain ⟨asked, hasked, haskedRun, -⟩ := hdecides.gate
    -- the gate was open and is answered now, so it is the one that the decision answered
    have hsame : g = g' := by
      by_contra hne
      obtain ⟨answered, hanswered, hstate, -⟩ := hsettles.answered
      have hafter := Db.life_gates_eq_some.2 ⟨answered, hanswered, rfl⟩
      rw [hlife, hdecides.life, Life.finish_gates] at hafter
      have hkept : some gate.life = some answered.life :=
        ((getElem?_modify_of_ne hne).trans hlifeGate).symm.trans hafter
      have hclosed : gate.state = .answered :=
        (congrArg GateLife.state (Option.some.inj hkept)).trans hstate
      rw [hopen] at hclosed
      cases hclosed
    subst hsame
    obtain rfl : gate = asked := Option.some.inj (hgate.symm.trans hasked)
    rw [hk, hlawful.gated.same hfirst hlifeGate (hfirstRun.trans haskedRun.symm)]
  · intro hfirst
    have hprepared : db.Prepared covId r (request.idempotencyKey.getD "") := by
      refine ⟨hsound, (List.getElem?_eq_some_iff.1 hcov).1, (List.getElem?_eq_some_iff.1 hrun).1,
        fun row hrow => ?_⟩
      simpa using List.find?_eq_none.1 haccepts.new row hrow
    obtain ⟨handled, s, hhandler, hstored, hloaded⟩ := returns_handleDecide_of_first env pm
      notes hprepared hlawful.gated hasking hawaits hslug hdecision hfirst
    have hsucceeds : ((Op.api env request (.decide cov.dossierSlug decision notes)).exec app
        db).result = .ok () := exec_of_handled haccepts
      hhandler hstored hloaded
    obtain ⟨r', g', action, sm, s', hdecides, hlife⟩ :=
      decides_of_succeeds haccepts hslug hsucceeds
    obtain ⟨k, first, hk, hfirst', hfirstRun⟩ := hfound hdecides.found
    obtain rfl : g = k := Option.some.inj (hfirst.symm.trans hk)
    obtain rfl : gate.life = first := Option.some.inj (hlifeGate.symm.trans hfirst')
    obtain rfl : r = r' := hgateRun.symm.trans hfirstRun
    obtain ⟨asked, hasked, haskedRun, -⟩ := hdecides.gate
    obtain rfl : g' = g := hlawful.gated.same (Db.life_gates_eq_some.2 ⟨asked, hasked, rfl⟩)
      hlifeGate (haskedRun.trans hgateRun.symm)
    have hafter := hlife.trans hdecides.life
    refine ⟨hsucceeds, ?_, ?_, ?_, ?_⟩
    · have hmoved : (step app db (.api env request
          (.decide cov.dossierSlug decision notes))).life.coverages[covId]? = some sm.toState := by
        rw [hafter]
        exact getElem?_modify_self hdecides.pending
      obtain ⟨cov', hcov', hstate⟩ := Db.life_coverages_eq_some.1 hmoved
      exact ⟨cov', hcov', by rw [hstate, decidedState_of_entry hdecides.named hdecides.entry]⟩
    · have hanswered : (step app db (.api env request
          (.decide cov.dossierSlug decision notes))).life.gates[g']? =
            some { gate.life with state := .answered, answer := some decision } := by
        rw [hafter]
        exact getElem?_modify_self hlifeGate
      obtain ⟨gate', hgate', hrow⟩ := Db.life_gates_eq_some.1 hanswered
      exact ⟨gate', hgate', congrArg GateLife.state hrow, congrArg GateLife.answer hrow⟩
    · have hended : (step app db (.api env request
          (.decide cov.dossierSlug decision notes))).life.runs[r]? =
            some (run.life.ended .succeeded none) := by
        rw [hafter]
        exact getElem?_modify_self (Db.life_run hrun)
      obtain ⟨run', hrun', hrow⟩ := Db.life_runs_eq_some.1 hended
      exact ⟨run', hrun', congrArg RunLife.status hrow⟩
    · intro lock hlock
      have hmem := List.mem_map_of_mem (f := fun lock : CoverageRunLock =>
        (⟨lock.coverageId, lock.runId⟩ : LockLife)) hlock
      change _ ∈ (step app db (.api env request
        (.decide cov.dossierSlug decision notes))).life.locks at hmem
      rw [hafter, Life.finish_locks, List.mem_filter] at hmem
      exact of_decide_eq_true hmem.2

theorem Db.Awaits.of_rows (hcov : db.coverages[covId]?.map (·.state) = some .decisionPending)
    (hrun : db.runs[r]?.map (fun run => (run.type, run.coverageId, run.status)) =
      some (.initiation, some covId, .waitingPm))
    (hgate : db.gates[g]?.map (fun gate => (gate.runId, gate.kind, gate.state)) =
      some (r, .initiationDecision, .opened)) : db.Awaits covId r g := by
  obtain ⟨cov, hcov, hpending⟩ := Option.map_eq_some_iff.1 hcov
  obtain ⟨found, hfound, hrow⟩ := Option.map_eq_some_iff.1 hrun
  obtain ⟨gate, hgate, hasked⟩ := Option.map_eq_some_iff.1 hgate
  simp only [Prod.mk.injEq] at hrow hasked
  exact ⟨⟨cov, hcov, hpending⟩, ⟨found, hfound, ⟨hrow.1, hrow.2.1⟩, hrow.2.2⟩,
    ⟨gate, hgate, hasked⟩⟩

theorem decide_settles_iff_small :
    Op.Settles .small (run .small .small Op.deliverApple)
      (.ask "decide" (.decide "us_aapl" "active" none)) "active" 0 0 0 := by
  have hslug : (run .small .small Op.deliverApple).coverages[0]?.map (·.dossierSlug) =
      some "us_aapl" := by
    decide +kernel
  obtain ⟨cov, hcov, hslug⟩ := Option.map_eq_some_iff.1 hslug
  have haccepts : App.small.Accepts (.quiet 0) (run .small .small Op.deliverApple)
      (.fromPm "decide") "pm" := by
    constructor <;> decide +kernel
  have hawaits : (run .small .small Op.deliverApple).Awaits 0 0 0 :=
    .of_rows (by decide +kernel) (by decide +kernel) (by decide +kernel)
  have hiff : Op.Settles .small (run .small .small Op.deliverApple)
      (.ask "decide" (.decide cov.dossierSlug "active" none)) "active" 0 0 0 ↔ _ :=
    decide_settles_iff Db.small_fresh (by decide +kernel) rfl Op.deliverApple hawaits hcov haccepts
      (by simp)
  rw [hslug] at hiff
  exact hiff.2 (by decide +kernel)

/-- A small fund that also answers queries, each for a dollar at most. -/
def App.querying : App :=
  { App.small with
    fund :=
      { runs := App.small.fund.runs ++ [("pm_query", { maxAttempts := 2, budgetCapUsd := 1 })] } }

/-- The calls of a worker that spends more than the cap on the query, in two attempts. -/
def QueueCall.overspends : List QueueCall :=
  [.claim "worker" [.api] [] 60, .fail 2 { workerId := "worker", costUsd := 2 } true ⟨0, 0, 0⟩,
    .claim "worker" [.api] [] 60, .complete 2 { workerId := "worker" } []]

/-- A query about Apple stops at its cap before Apple's initiation is delivered. -/
def Op.pauseQuery : List Op :=
  Op.initiateApple ++
    [.tickWith [], .ask "query" (.newQuery "us_aapl" "why"),
      .tick (.quiet 0) ⟨fun r =>
        if r = 1 then QueueCall.overspends.map fun call => (.quiet 0, call) else []⟩,
      .tickWith (QueueCall.succeeds 0 [] ++ QueueCall.succeeds 1 [])]

/-- The decision is refused because the gate of the query is found first. -/
theorem not_settles_paused :
    (run .querying .small Op.pauseQuery).Awaits 0 0 1 ∧
      App.querying.Accepts (.quiet 0) (run .querying .small Op.pauseQuery) (.fromPm "decide") "pm" ∧
      (run .querying .small Op.pauseQuery).coverages[0]?.map (·.dossierSlug) = some "us_aapl" ∧
      ¬ Op.Settles .querying (run .querying .small Op.pauseQuery)
        (.ask "decide" (.decide "us_aapl" "active" none)) "active" 0 0 1 := by
  refine ⟨.of_rows (by decide +kernel) (by decide +kernel) (by decide +kernel),
    by constructor <;> decide +kernel, by decide +kernel, fun h => ?_⟩
  have hstate : (step .querying (run .querying .small Op.pauseQuery)
      (.ask "decide" (.decide "us_aapl" "active" none))).coverages[0]?.map (·.state) =
        some .decisionPending := by
    decide +kernel
  obtain ⟨after, hafter, hmoved⟩ := h.moved
  rw [hafter] at hstate
  cases hmoved.symm.trans hstate

end AiFund
