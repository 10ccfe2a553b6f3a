import AiFund.Proof.EngineSteps
import AiFund.System

/-!
# Steps of the system

Every operation takes the lifecycle along a path of steps that only it may take. A request takes
at most one.
-/

namespace AiFund

open UnitOfWork Rows

variable {env : Env} {app : App} {fund : FundConfig} {request : Request} {s s₁ s' : Session Db}
  {r : Nat} {u : Unit} {pm : String} {handled : Handled} {e : LifeEvent}

/-! ## Creating runs -/

theorem keeps_contributorsFor {coverageId : Option Nat} {cov : Option Coverage} :
    Keeps Db.life (Engine.contributorsFor coverageId cov) := by
  unfold Engine.contributorsFor
  split
  · exact keeps_resolveContributors
  · exact .pure _

theorem takes_engineCreateRun {metaHouses : List String} {runType trigger : String}
    {coverageId : Option Nat} {params : JsonObject} {requestedBy triggerRef : Option String}
    {runId : Nat}
    (h : Returns (Engine.createRun env fund metaHouses runType coverageId trigger params requestedBy
      triggerRef) s runId s') (hs : Synced Db.life s) : Takes .create s s' := by
  unfold Engine.createRun at h
  obtain ⟨policy, -, h⟩ := returns_ofExcept_bind.1 h
  obtain ⟨cov, s₁, hfind, h⟩ := returns_bind.1 h
  rw [(returns_findCoverage hfind hs).1] at h
  obtain ⟨contributors, s₂, hcontributors, h⟩ := returns_bind.1 h
  have hstill := keeps_contributorsFor hcontributors hs
  split at h
  · exact absurd h not_returns_raise
  · obtain ⟨stages, -, h⟩ := returns_ofExcept_bind.1 h
    obtain ⟨id, s₃, hcreate, h⟩ := returns_bind.1 h
    obtain ⟨_, s₄, hstages, h⟩ := returns_bind.1 h
    obtain ⟨-, rfl⟩ := returns_pure.1 h
    have hcreated := takes_createRun hcreate hstill.synced
    exact (hcreated.after hstill).before (keeps_addStages hstages hcreated.synced)

/-! ## Requests -/

theorem keeps_requireCoverage {slug : String} : Keeps Db.life (requireCoverage slug) := by
  refine .bind (.select _) fun found => ?_
  cases found with
  | none => exact .throw _
  | some covId => exact .pure _

theorem of_returns_requireCoverage_bind {α : Type} {b : α} {slug : String} {f : Nat → DbTxn α}
    (h : Returns (requireCoverage slug >>= f) s b s') :
    ∃ covId, s.stored.coverages.findIdx? (fun cov => cov.dossierSlug = slug) = some covId ∧
      Returns (f covId) s b s' := by
  obtain ⟨covId, s₁, hcov, h'⟩ := returns_bind.1 h
  unfold requireCoverage getBySlug at hcov
  rw [returns_select_bind] at hcov
  split at hcov
  · rename_i found hfound
    obtain ⟨rfl, hs₁⟩ := returns_pure.1 hcov
    rw [hs₁] at h'
    exact ⟨covId, hfound, h'⟩
  · exact absurd hcov not_returns_raise

theorem returns_idempotency {idem : Idempotency}
    (h : Returns (idempotency env request) s idem s') :
    s' = s ∧ idem.key = request.idempotencyKey.getD "" ∧ request.idempotencyKey.getD "" ≠ "" ∧
      idem.replay = (s.stored.idempotencyKeys.find?
        (fun row => row.key = request.idempotencyKey.getD "")).map (·.response.body) := by
  dsimp only [idempotency] at h
  split_ifs at h with hkey
  · exact absurd h not_returns_raise
  · rw [returns_select_bind] at h
    split at h
    · rename_i hnone
      obtain ⟨rfl, rfl⟩ := returns_pure.1 h
      exact ⟨rfl, rfl, hkey, by rw [hnone]; rfl⟩
    · rename_i row hrow
      split_ifs at h
      · exact absurd h not_returns_raise
      · obtain ⟨rfl, rfl⟩ := returns_pure.1 h
        exact ⟨rfl, rfl, hkey, by rw [hrow]; rfl⟩

theorem keeps_writeAudit {action actorId requestId : String} {target : Option String}
    {after : Json} : Keeps Db.life (writeAudit action actorId target after requestId) :=
  .bind (.assign fun _ => rfl) fun _ => .flush

theorem keeps_store {idem : Idempotency} {response : JsonObject} {statusCode : Nat}
    {route actorId : String} : Keeps Db.life (idem.store env response statusCode route actorId) :=
  .bind (.assign fun _ => rfl) fun _ => .flush

/-- A mutating route replays, or hands an accepted request to its handler and then writes the audit
row and the key. -/
theorem returns_mutation {route : String} {statusCode : Nat}
    {handler : String → String → DbTxn Handled} {body : JsonObject}
    (h : Returns (mutation env app request route statusCode handler) s body s') :
    (s' = s ∧ ∃ row ∈ s.stored.idempotencyKeys, row.key = request.idempotencyKey.getD "" ∧
        body = row.response.body) ∨
      ∃ pm idem handled s₁, app.Accepts env s.stored request pm ∧
        Returns (handler pm (request.idempotencyKey.getD "")) s handled s₁ ∧
        Returns (do
          writeAudit route pm (some handled.target) handled.after request.requestId
          Idempotency.store env idem handled.response statusCode route pm
          return handled.response) s₁ body s' := by
  unfold mutation at h
  obtain ⟨pm, hpm, h⟩ := returns_ofExcept_bind.1 h
  obtain ⟨idem, s₁, hidem, h⟩ := returns_bind.1 h
  obtain ⟨hs₁, hkey, hkeyed, hnew⟩ := returns_idempotency hidem
  rw [hs₁] at h
  split at h
  · rename_i hreplay
    obtain ⟨rfl, rfl⟩ := returns_pure.1 h
    obtain ⟨row, hrow, hbody⟩ := Option.map_eq_some_iff.1 (hnew.symm.trans hreplay)
    exact .inl ⟨rfl, row, List.mem_of_find?_eq_some hrow, by simpa using List.find?_some hrow,
      hbody.symm⟩
  · rename_i hreplay
    replace hnew := Option.map_eq_none_iff.1 (hnew.symm.trans hreplay)
    rw [hkey] at h
    obtain ⟨handled, s₂, hhandler, h⟩ := returns_bind.1 h
    exact .inr ⟨pm, idem, handled, s₂, ⟨hpm, hkeyed, hnew⟩, hhandler, h⟩

/-- What a mutating route does after its handler leaves the lifecycle alone. -/
theorem keeps_response {idem : Idempotency} {after : Json} {body : JsonObject} {statusCode : Nat}
    {route requestId : String} {target : Option String} :
    Keeps Db.life (do
      writeAudit route pm target after requestId
      idem.store env body statusCode route pm
      return body : DbTxn JsonObject) :=
  .bind keeps_writeAudit fun _ => .bind keeps_store fun _ => .pure _

theorem mutation_cases {route : String} {statusCode : Nat}
    {handler : String → String → DbTxn Handled} {body : JsonObject}
    (h : Returns (mutation env app request route statusCode handler) s body s') :
    (s' = s ∧ ∃ row ∈ s.stored.idempotencyKeys, row.key = request.idempotencyKey.getD "" ∧
        body = row.response.body) ∨
      ∃ pm handled s₁, app.Accepts env s.stored request pm ∧
        Returns (handler pm (request.idempotencyKey.getD "")) s handled s₁ ∧
        (Synced Db.life s₁ → Still s₁ s') := by
  obtain hreplay | ⟨pm, idem, handled, s₁, haccepts, hhandler, hrest⟩ := returns_mutation h
  · exact .inl hreplay
  · exact .inr ⟨pm, handled, s₁, haccepts, hhandler, keeps_response hrest⟩

theorem still_handledRun {runId : Nat} {extra : JsonObject}
    (h : Returns (handledRun runId extra) s handled s') (hs : Synced Db.life s) : Still s s' :=
  (Keeps.bind (keeps_getRow _ _) fun _ => .pure _) h hs

/-- What a handler does once its request is accepted. -/
def ApiCall.allows (db : Db) : ApiCall → LifeEvent → Prop
  | .propose .., e => e = .propose
  | .initiate .., e | .newRun .., e | .retryRun .., e | .newQuery .., e => e = .create
  | .decide slug decision _, e => ∃ covId r g action,
      db.coverages.findIdx? (fun cov => cov.dossierSlug = slug) = some covId ∧
        decisionAction decision = some action ∧ e = .decide covId r g action
  | .promote .., e => ∃ covId, e = .shift covId .promote
  | .demote .., e => ∃ covId, e = .shift covId .demote
  | .exit .., e => ∃ covId, e = .shift covId .exit
  | .rePropose .., e => ∃ covId, e = .shift covId .rePropose
  | .cancelRun r _, e => e = .cancel r
  | .answerGate g _ _, e => e = .answer g
  | .setLead .., _ | .setLevels .., _ | .rateEvent .., _ => False

/-- What is left to prove of a handler: unchanged, or one step that its call may take. -/
abbrev Handles (call : ApiCall) (s s' : Session Db) : Prop :=
  Still s s' ∨ ∃ e, call.allows s.stored e ∧ Takes e s s'

theorem handles_create {call : ApiCall} {runType : String} {coverageId : Option Nat}
    {params : JsonObject} {extra : Nat → JsonObject}
    (hcall : ∀ db, call.allows db .create)
    (h : Returns (do
      let runId ← createRunFor env app runType coverageId params pm
      handledRun runId (extra runId) : DbTxn Handled) s handled s')
    (hs : Synced Db.life s) : Handles call s s' := by
  obtain ⟨runId, s₁, hcreate, h⟩ := returns_bind.1 h
  have hcreated := takes_engineCreateRun hcreate hs
  exact .inr ⟨.create, hcall _, hcreated.before (still_handledRun h hcreated.synced)⟩

theorem handles_transition {call : ApiCall} {slug : String} {action : Action} {force : Bool}
    {notes : Option String} (hshift : action.shifts = true)
    (hcall : ∀ db covId, call.allows db (.shift covId action))
    (h : Returns (handleTransition env slug action force notes pm) s handled s')
    (hs : Synced Db.life s) : Handles call s s' := by
  unfold handleTransition at h
  obtain ⟨covId, -, h⟩ := of_returns_requireCoverage_bind h
  obtain ⟨_, s₁, htransition, h⟩ := returns_bind.1 h
  have htakes := takes_shift hshift (returns_adaptExcept.1 htransition) hs
  have hstill := (Keeps.bind (keeps_getRow _ _) fun _ => .pure _) h htakes.synced
  exact .inr ⟨_, hcall _ covId, htakes.before hstill⟩

theorem RunEdge.live {a : RunStatus} (h : RunEdge a .succeeded) : a.live = true := by
  obtain ⟨action, cause, hentry⟩ := h.entry
  cases a with
  | running => rfl
  | waitingPm => rfl
  | _ => cases action <;> cases hentry

theorem decisionAction_answer {decision : String} {action : Action}
    (h : decisionAction decision = some action) : decisionAnswer action = some decision := by
  unfold decisionAction at h
  split at h <;> cases h <;> rfl

theorem openGateOfCoverage_run {covId : Nat} {db : Db}
    (h : (do
      let gate ← db.gates[← openGateOfCoverage env covId db]?
      return gate.runId : Option Nat) = some r) :
    ∃ gate ∈ db.life.gates, gate.coverageId = some covId ∧ gate.runId = r ∧
      gate.state = .opened := by
  obtain ⟨g, hg, h⟩ := Option.bind_eq_some_iff.1 h
  obtain ⟨gate, hgate, hr⟩ := Option.bind_eq_some_iff.1 h
  obtain ⟨found, hfound, hopen⟩ := (env.rows .gateOfCoverage).of_first hg
  obtain rfl : gate = found := Option.some.inj (hgate.symm.trans hfound)
  simp only [Bool.and_eq_true, decide_eq_true_eq] at hopen
  refine ⟨gate.life, List.mem_map_of_mem (List.mem_of_getElem? hgate), hopen.1, ?_, hopen.2⟩
  exact Option.some.inj hr

/-- What a decision does: it moves the coverage, answers an open gate of the run whose open gate
was found first, and ends that run. -/
structure Decides (env : Env) (s s' : Session Db) (decision : String) (covId r g : Nat)
    (action : Action) (sm : Transition) : Prop where
  named : decisionAction decision = some action
  found : (do
    let gate ← s.stored.gates[← openGateOfCoverage env covId s.stored]?
    return gate.runId : Option Nat) = some r
  chosen : openGateOfRun env r s.stored = some g
  gate : ∃ gate, s.stored.gates[g]? = some gate ∧ gate.runId = r ∧ gate.state = .opened ∧
    decision ∈ gate.allowedAnswers
  pending : s.stored.life.coverages[covId]? = some .decisionPending
  entry : entries (some .decisionPending) action = some sm
  run : ∃ run, s.stored.life.runs[r]? = some run ∧ run.status.live = true
  synced : Synced Db.life s'
  trail : LifeTrail s s'
  life : s'.stored.life =
    ((s.stored.life.setCoverage covId sm.toState).answer g decision).finish r .succeeded none

theorem returns_handleDecide {slug decision : String} {notes : Option String}
    (h : Returns (handleDecide env slug decision notes pm) s handled s') (hs : Synced Db.life s) :
    ∃ covId r g action sm,
      s.stored.coverages.findIdx? (fun cov => cov.dossierSlug = slug) = some covId ∧
        Decides env s s' decision covId r g action sm := by
  unfold handleDecide at h
  obtain ⟨covId, hslug, h⟩ := of_returns_requireCoverage_bind h
  split at h
  · exact absurd h not_returns_raise
  · rename_i action haction
    rw [returns_select_bind] at h
    obtain ⟨_, s₁, htransition, h⟩ := returns_bind.1 h
    obtain ⟨r, g, gate, sm, hrunId, hchosen, hgate, hgateRun, hgateOpen, hallowed, hpending, hentry,
      hlands⟩ :=
      returns_decision (decisionAction_answer haction) (returns_adaptExcept.1 htransition) hs
    obtain ⟨_, s₂, hfinish, h⟩ := returns_bind.1 h
    rw [hrunId] at hfinish
    obtain ⟨run, hrun, hedge, -, htrail, hs₂, hlife⟩ := returns_finishRun hfinish hlands.synced
    have hstart : s.stored.life.runs[r]? = some run.life := by
      have hstart := life_run hlands.synced hrun
      rwa [hlands.stored] at hstart
    have hstill := (Keeps.bind (keeps_getRow _ _) fun _ => .pure _) h hs₂
    refine ⟨covId, r, g, action, sm, hslug, haction, hrunId, hchosen,
      ⟨gate, hgate, hgateRun, hgateOpen, hallowed⟩, hpending, hentry,
      ⟨run.life, hstart, hedge.live⟩, hstill.synced, ?_, ?_⟩
    · exact ((hlands.trail (.of_runs rfl)).trans htrail).trans (Still.lifeTrail hstill)
    · rw [Still.life_eq hstill, hlife, hlands.stored]

theorem handles_decide {slug decision : String} {notes notes' : Option String}
    (h : Returns (handleDecide env slug decision notes pm) s handled s')
    (hs : Synced Db.life s) : Handles (.decide slug decision notes') s s' := by
  obtain ⟨covId, r, g, action, sm, hslug, hdecides⟩ := returns_handleDecide h hs
  obtain ⟨found, hfound, hfoundCov, hfoundRun, hfoundOpen⟩ := openGateOfCoverage_run hdecides.found
  obtain ⟨gate, hgate, hgateRun, hgateOpen, hallowed⟩ := hdecides.gate
  obtain ⟨run, hrun, hlive⟩ := hdecides.run
  have hgates : s.stored.life.gates[g]? = some gate.life := by simp [Db.life, hgate]
  refine .inr ⟨_, ⟨covId, r, g, action, hslug, hdecides.named, rfl⟩, hdecides.synced,
    hdecides.trail, ?_⟩
  rw [hdecides.life]
  exact .decide hrun hlive hdecides.pending hdecides.entry (decisionAction_answer hdecides.named)
    ⟨hfound, hfoundCov, hfoundRun, hfoundOpen⟩
    ⟨List.mem_of_getElem? hgates, hgateRun, hgateOpen, hallowed⟩
    ⟨hgates, hgateRun, hgateOpen⟩

theorem keeps_setLevel {covId : Nat} {setBy : String} {runId : Option Nat} {level : LevelIn} :
    Keeps Db.life (setLevel env covId setBy runId level) :=
  .bind (.select _) fun _ => .bind (.forM fun _ => .assign fun _ => rfl) fun _ =>
    .assign fun _ => rfl

theorem keeps_coverageForRun {slug : Option String} : Keeps Db.life (coverageForRun slug) := by
  cases slug with
  | none => exact .pure _
  | some slug => exact .ite (.pure _) (.bind keeps_requireCoverage fun _ => .pure _)

theorem ApiCall.handles {call : ApiCall} {key : String}
    (h : Returns ((call.route env app).2.2 pm key) s handled s') (hs : Synced Db.life s) :
    Handles call s s' := by
  cases call with
  | propose ticker exchange name currency isin notes =>
      change Returns (handlePropose env ticker exchange name currency isin notes pm) _ _ _ at h
      unfold handlePropose at h
      obtain ⟨covId, s₁, hpropose, h⟩ := returns_bind.1 h
      have hproposed := takes_propose hpropose hs
      have hstill := (Keeps.bind (keeps_getRow _ _) fun _ => .pure _) h hproposed.synced
      exact .inr ⟨.propose, rfl, hproposed.before hstill⟩
  | initiate slug lead verifyCount =>
      change Returns (handleInitiate env app slug lead verifyCount pm) _ _ _ at h
      unfold handleInitiate at h
      obtain ⟨covId, -, h⟩ := of_returns_requireCoverage_bind h
      exact handles_create (fun _ => rfl) h hs
  | decide slug decision notes => exact handles_decide h hs
  | promote slug notes => exact handles_transition rfl (fun _ covId => ⟨covId, rfl⟩) h hs
  | demote slug notes => exact handles_transition rfl (fun _ covId => ⟨covId, rfl⟩) h hs
  | exit slug force notes => exact handles_transition rfl (fun _ covId => ⟨covId, rfl⟩) h hs
  | rePropose slug notes => exact handles_transition rfl (fun _ covId => ⟨covId, rfl⟩) h hs
  | setLead slug house rationale =>
      refine .inl (Keeps.bind (m := requireCoverage slug) keeps_requireCoverage (fun covId => ?_) h hs)
      refine .bind (fun s u s' h => ?_) fun _ => .pure _
      exact keeps_setLead (returns_adaptExcept.1 h)
  | setLevels slug levels =>
      refine .inl (Keeps.bind (m := requireCoverage slug) keeps_requireCoverage (fun covId => ?_) h hs)
      refine .bind (keeps_ofExcept _ _) fun levelsIn => .bind (.forM fun level => ?_) fun _ => .pure _
      exact keeps_setLevel
  | newRun type coverage params =>
      change Returns (handleNewRun env app type coverage params pm) _ _ _ at h
      unfold handleNewRun at h
      obtain ⟨coverageId, s₁, hcoverage, h⟩ := returns_bind.1 h
      have hstill := keeps_coverageForRun hcoverage hs
      obtain ⟨runId, s₂, hcreate, h⟩ := returns_bind.1 h
      have hcreated := (takes_engineCreateRun hcreate hstill.synced).after hstill
      exact .inr ⟨.create, rfl, hcreated.before (still_handledRun h hcreated.synced)⟩
  | cancelRun runId notes =>
      change Returns (handleCancelRun env runId notes pm) _ _ _ at h
      unfold handleCancelRun at h
      obtain ⟨_, s₁, hfinish, h⟩ := returns_bind.1 h
      obtain ⟨-, rfl⟩ := returns_pure.1 h
      obtain ⟨run, hrun, hedge, -, htrail, hs', hlife⟩ := returns_finishRun hfinish hs
      refine .inr ⟨.cancel runId, rfl, hs', htrail, ?_⟩
      rw [hlife]
      exact .cancel (life_run hs hrun) hedge.not_terminal
  | answerGate gateId answer notes =>
      change Returns (handleAnswerGate env gateId answer notes pm key) _ _ _ at h
      unfold handleAnswerGate at h
      obtain ⟨gate, s₁, hanswer, h⟩ := returns_bind.1 h
      obtain ⟨-, rfl⟩ := returns_pure.1 h
      exact (returns_answerGate hanswer hs).imp_right fun htakes => ⟨_, rfl, htakes⟩
  | retryRun runId =>
      change Returns (handleRetryRun env app runId pm) _ _ _ at h
      unfold handleRetryRun at h
      rw [returns_lookup_bind] at h
      split at h
      · exact absurd h not_returns_raise
      · split_ifs at h
        · exact absurd h not_returns_raise
        · exact handles_create (fun _ => rfl) h hs
  | rateEvent eventId rating =>
      change Returns (handleRateEvent env eventId rating pm) _ _ _ at h
      unfold handleRateEvent at h
      rw [returns_lookup_bind] at h
      split at h
      · exact absurd h not_returns_raise
      · refine .inl (Keeps.bind (Keeps.assign ?_) (fun _ => .pure _) h hs)
        exact fun _ => rfl
  | newQuery coverage question =>
      change Returns (handleNewQuery env app coverage question pm) _ _ _ at h
      unfold handleNewQuery at h
      obtain ⟨covId, -, h⟩ := of_returns_requireCoverage_bind h
      exact handles_create (fun _ => rfl) h hs

/-! ## Jobs -/

theorem keeps_logJob {jobName status : String} {runsCreated : Nat} {detail : Option String} :
    Keeps Db.life (logJob env jobName status runsCreated detail) :=
  .bind (.assign fun _ => rfl) fun _ => .flush

/-- The transactions of the scheduler create runs and do nothing else to the lifecycle. -/
def Creates {α : Type} (m : DbTxn α) : Prop :=
  ∀ ⦃s a s'⦄, Returns m s a s' → Synced Db.life s → Refines (fun _ e => e = .create) s s'

theorem Creates.of_keeps {α : Type} {m : DbTxn α} (h : Keeps Db.life m) : Creates m :=
  fun _ _ _ hm hs => Still.refines (h hm hs)

theorem Creates.bind {α β : Type} {m : DbTxn α} {f : α → DbTxn β} (hm : Creates m)
    (hf : ∀ a, Creates (f a)) : Creates (m >>= f) := by
  intro s b s' h hs
  obtain ⟨a, s₁, h₁, h₂⟩ := returns_bind.1 h
  have hfirst := hm h₁ hs
  exact hfirst.trans (hf a h₂ hfirst.synced)

theorem creates_createOnce {type : RunType} {params : JsonObject} {triggerRef : String}
    {covId : Nat} : Creates (createOnce env fund type params triggerRef covId) := by
  refine .bind (.of_keeps (.select _)) fun found => ?_
  split
  · exact .of_keeps (.pure _)
  · refine .bind (fun s a s' h hs => ?_) fun _ => .of_keeps (.pure _)
    exact (takes_engineCreateRun h hs).refines rfl

theorem creates_countM {f : Nat → DbTxn Bool} (hf : ∀ key, Creates (f key)) (keys : List Nat) :
    Creates (countM f keys) := by
  induction keys with
  | nil => exact .of_keeps (.pure _)
  | cons key keys ih => exact .bind (hf key) fun _ => .bind ih fun _ => .of_keeps (.pure _)

theorem Creates.ite {α : Type} {c : Prop} [Decidable c] {m m' : DbTxn α} (h : Creates m)
    (h' : Creates m') : Creates (if c then m else m') := by
  split
  · exact h
  · exact h'

theorem creates_sessionTick {leader : Bool} {exchange tradingDate sessionName : String} :
    Creates (sessionTick env fund leader exchange tradingDate sessionName) := by
  refine .ite (.of_keeps (.pure _)) ?_
  exact .bind (.of_keeps keeps_logJob) fun _ => .bind (.of_keeps (.select _)) fun keys =>
    .bind (creates_countM (fun _ => creates_createOnce) keys) fun _ =>
      .bind (.of_keeps keeps_logJob) fun _ => .of_keeps (.pure _)

theorem creates_watchTick {leader : Bool} {tradingDate : String} :
    Creates (watchTick env fund leader tradingDate) := by
  refine .ite (.of_keeps (.pure _)) ?_
  exact .bind (.of_keeps (.select _)) fun keys =>
    .bind (creates_countM (fun _ => creates_createOnce) keys) fun _ =>
      .bind (.of_keeps keeps_logJob) fun _ => .of_keeps (.pure _)

theorem keeps_retention {leader : Bool} : Keeps Db.life (retention env fund leader) := by
  refine .ite (.pure _) ?_
  refine .bind (keeps_ofExcept _ _) fun _ => .bind (.select _) fun _ =>
    .bind (.execute fun _ => rfl) fun _ => .bind (keeps_ofExcept _ _) fun _ => ?_
  exact .bind (.select _) fun _ => .bind (.execute fun _ => rfl) fun _ =>
    .bind keeps_logJob fun _ => .pure _

theorem creates_quarterlySweep {leader : Bool} {staleDays : Int} :
    Creates (quarterlySweep env fund leader staleDays) := by
  refine .ite (.of_keeps (.pure _)) ?_
  refine .bind (.of_keeps (keeps_ofExcept _ _)) fun _ => .bind (.of_keeps (.select _)) fun keys =>
    .bind (creates_countM (fun covId => ?_) keys) fun _ => .bind (.of_keeps keeps_logJob) fun _ =>
      .of_keeps (.pure _)
  refine .bind (.of_keeps (.select _)) fun _ => .ite (.of_keeps (.pure _)) ?_
  exact .bind (.of_keeps (keeps_getRow _ _)) fun _ => creates_createOnce

theorem Job.creates (leader : Bool) (job : Job) : Creates (job.perform env fund leader) := by
  cases job with
  | quarterlySweep => exact creates_quarterlySweep
  | retention => exact .of_keeps keeps_retention
  | _ => exact .of_keeps (.throw _)

/-! ## Operations -/

/-- What a committed operation did to the lifecycle, write by write and as a whole. -/
structure Commits {α : Type} (ok : Life → LifeEvent → Prop) (db : Db)
    (outcome : Outcome Db PyError α) : Prop where
  path : Life.Path ok db.life outcome.after.life
  chain : (db :: outcome.written).IsChain fun a b => a.life.Follows b.life
  last : (db :: outcome.written).getLast? = some outcome.after

theorem commits_commit {α : Type} {ok : Life → LifeEvent → Prop} {m : DbTxn α} {db : Db}
    (hm : ∀ a s, Returns m (Session.clean db) a s → Refines ok (Session.clean db) s) :
    Commits ok db (commit m db) := by
  obtain ⟨error, hcommit⟩ | ⟨a, s, hs, -, hcommit⟩ := commit_cases m db
  · rw [hcommit]
    exact ⟨.refl, .singleton _, rfl⟩
  · have hrefines := hm a s hs
    have hwrite : LifeTrail (Session.clean db) (s.write s.loaded s.loaded) :=
      hrefines.trail.trans (.write (.of_runs (congrArg Life.runs hrefines.synced)))
    obtain ⟨states, hstates, hchain, hlast⟩ := hwrite
    have hwritten : s.written ++ [s.loaded] = states := hstates
    rw [hcommit]
    refine ⟨?_, hwritten ▸ hchain, hwritten ▸ hlast⟩
    rw [hrefines.synced]
    exact hrefines.path

theorem Commits.mono {α : Type} {ok ok' : Life → LifeEvent → Prop} {db : Db}
    {outcome : Outcome Db PyError α} (h : Commits ok db outcome)
    (hok : ∀ a e, ok a e → ok' a e) : Commits ok' db outcome :=
  ⟨h.path.mono hok, h.chain, h.last⟩

theorem Commits.void {α : Type} {ok : Life → LifeEvent → Prop} {db : Db}
    {outcome : Outcome Db PyError α} (h : Commits ok db outcome) :
    Commits ok db (Outcome.void outcome) :=
  ⟨h.path, h.chain, h.last⟩

theorem commits_runJob {leader : Bool} {job : Job} {db : Db} :
    Commits (fun _ e => e = .create) db (runJob env fund leader job db) := by
  have hlog (status : String) (detail : Option String) :
      Commits (fun _ e => e = .create) db
        (commit (do logJob env job.name status 0 detail; return 0 : DbTxn Nat) db) :=
    commits_commit fun a s h =>
      Creates.bind (.of_keeps keeps_logJob) (fun _ => .of_keeps (.pure _)) h (Synced.clean _ db)
  unfold runJob
  dsimp only
  split
  · exact commits_commit fun a s h => job.creates leader h (Synced.clean _ db)
  · exact hlog _ _
  · obtain ⟨hpath, hchain, hlast⟩ := hlog "failed" none
    exact ⟨hpath, hchain, hlast⟩

/-- The steps that an operation may take. -/
def Op.allows (app : App) (db : Db) : Op → LifeEvent → Prop
  | .api env request call, e => (∃ pm, app.Accepts env db request pm) ∧ call.allows db e
  | .createRun .., e | .sessionTick .., e | .watchTick .., e | .job .., e => e = .create
  | .promoteRun _ r, e => e = .start r
  | .advanceRun _ _ r, e => e.advances r
  | .tick .., e => e.ofTick
  | .queue .., _ => False

theorem ApiCall.perform_cases {call : ApiCall} {body : JsonObject}
    (h : Returns (call.perform env app request) s body s') (hs : Synced Db.life s) :
    Still s s' ∨ ∃ e, Op.allows app s.stored (.api env request call) e ∧ Takes e s s' := by
  obtain ⟨rfl, -⟩ | ⟨pm, handled, s₁, haccepts, hhandler, hrest⟩ := mutation_cases h
  · exact .inl ⟨hs, .refl _ _⟩
  · obtain hstill | ⟨e, hallows, htakes⟩ := ApiCall.handles hhandler hs
    · exact .inl (hstill.trans (hrest hstill.synced))
    · exact .inr ⟨e, ⟨⟨pm, haccepts⟩, hallows⟩, htakes.before (hrest htakes.synced)⟩

/-- Every operation takes the lifecycle along steps that it may take. -/
theorem Op.commits (op : Op) (db : Db) :
    Commits (fun _ e => op.allows app db e) db (op.exec app db) := by
  have hclean := Synced.clean Db.life db
  cases op with
  | api env request call =>
      refine (commits_commit fun a s h => ?_).void
      obtain hstill | ⟨e, hallows, htakes⟩ := ApiCall.perform_cases h hclean
      · exact hstill.refines
      · exact htakes.refines hallows
  | createRun env runType coverageId trigger params requestedBy triggerRef =>
      exact (commits_commit fun a s h => (takes_engineCreateRun h hclean).refines rfl).void
  | promoteRun env runId =>
      refine (commits_commit fun a s h => ?_).void
      obtain ⟨hstill, -⟩ | htakes := promoteRun_cases h hclean
      · exact hstill.refines
      · exact htakes.refines rfl
  | advanceRun env runner runId =>
      refine commits_commit fun a s h => ?_
      obtain hstill | ⟨e, hadvances, htakes⟩ := advanceRun_cases h hclean
      · exact hstill.refines
      · exact htakes.refines hadvances
  | tick env runner => exact commits_commit fun a s h => refines_tick h hclean
  | queue env call => exact commits_commit fun a s h => Still.refines (keeps_queueCall call h hclean)
  | sessionTick env leader exchange tradingDate sessionName =>
      exact (commits_commit fun a s h => creates_sessionTick h hclean).void
  | watchTick env leader tradingDate =>
      exact (commits_commit fun a s h => creates_watchTick h hclean).void
  | job env leader cron => exact commits_runJob.void

/-- A request takes at most one step. -/
theorem api_cases (call : ApiCall) (db : Db) :
    (step app db (.api env request call)).life = db.life ∨
      ∃ e, Op.allows app db (.api env request call) e ∧
        LifeStep e db.life (step app db (.api env request call)).life := by
  have hstep : step app db (.api env request call) =
      (commit (call.perform env app request) db).after := rfl
  rw [hstep]
  obtain ⟨error, hcommit⟩ | ⟨body, s, hs, -, hcommit⟩ :=
    commit_cases (call.perform env app request) db
  · rw [hcommit]
    exact .inl rfl
  · rw [hcommit]
    obtain hstill | ⟨e, hallows, htakes⟩ := ApiCall.perform_cases hs (Synced.clean Db.life db)
    · exact .inl (hstill.synced.trans (Still.life_eq hstill))
    · refine .inr ⟨e, hallows, ?_⟩
      change LifeStep e db.life s.loaded.life
      rw [htakes.synced]
      exact htakes.step

/-- A step that no request takes. -/
def LifeEvent.background : LifeEvent → Prop
  | .create | .start _ | .requeue _ | .pause _ | .deliver _ | .succeed _ | .fail _ => True
  | _ => False

def Op.isRequest : Op → Bool
  | .api .. => true
  | _ => false

theorem Op.background_of_allows {op : Op} {db : Db} (hop : op.isRequest = false)
    (h : op.allows app db e) : e.background := by
  cases op with
  | api => cases hop
  | promoteRun =>
      cases h
      trivial
  | advanceRun => cases e <;> trivial
  | tick => cases e <;> trivial
  | queue => exact h.elim
  | _ =>
      cases h
      trivial

/-- The request behind a step. -/
theorem ApiCall.allows_cases {call : ApiCall} {db : Db} (h : call.allows db e) :
    match e with
    | .propose | .create => True
    | .decide covId _ _ action => ∃ slug decision notes, call = .decide slug decision notes ∧
        db.coverages.findIdx? (fun cov => cov.dossierSlug = slug) = some covId ∧
        decisionAction decision = some action
    | .shift _ action => action.shifts = true
    | .cancel r => ∃ notes, call = .cancelRun r notes
    | .answer g => ∃ answer notes, call = .answerGate g answer notes
    | _ => False := by
  cases call with
  | decide slug decision notes =>
      obtain ⟨covId, r, g, action, hslug, haction, rfl⟩ := h
      exact ⟨slug, decision, notes, rfl, hslug, haction⟩
  | promote =>
      obtain ⟨covId, rfl⟩ := h
      rfl
  | demote =>
      obtain ⟨covId, rfl⟩ := h
      rfl
  | exit =>
      obtain ⟨covId, rfl⟩ := h
      rfl
  | rePropose =>
      obtain ⟨covId, rfl⟩ := h
      rfl
  | cancelRun r notes =>
      obtain rfl := h
      exact ⟨notes, rfl⟩
  | answerGate g answer notes =>
      obtain rfl := h
      exact ⟨answer, notes, rfl⟩
  | setLead => exact h.elim
  | setLevels => exact h.elim
  | rateEvent => exact h.elim
  | _ =>
      obtain rfl := h
      trivial

theorem Op.cancels_of_allows {op : Op} {db : Db} (h : op.allows app db (.cancel r)) :
    op.Cancels app db r := by
  cases op with
  | api env request call =>
      obtain ⟨⟨pm, haccepts⟩, hcall⟩ := h
      obtain ⟨notes, rfl⟩ := ApiCall.allows_cases hcall
      exact ⟨env, request, notes, pm, rfl, haccepts⟩
  | _ => exact (Op.background_of_allows rfl h).elim

theorem Op.answers_of_allows {op : Op} {db : Db} {g : Nat} (h : op.allows app db (.answer g)) :
    op.Answers app db g := by
  cases op with
  | api env request call =>
      obtain ⟨⟨pm, haccepts⟩, hcall⟩ := h
      obtain ⟨answer, notes, rfl⟩ := ApiCall.allows_cases hcall
      exact ⟨env, request, answer, notes, pm, rfl, haccepts⟩
  | _ => exact (Op.background_of_allows rfl h).elim

/-! ## Every reachable database -/

/-- The invariants that every step keeps. -/
structure Life.Lawful (c : Life) : Prop where
  serial : c.Serial
  formed : c.Formed
  gated : c.Gated

theorem LifeStep.lawful {c c' : Life} (hstep : LifeStep e c c') (h : c.Lawful) : c'.Lawful :=
  ⟨hstep.serial h.serial, hstep.formed h.formed, hstep.gated h.gated⟩

/-- What the one step of a request and every step of the background preserve, an operation
preserves. -/
theorem op_preserves {P : Life → Prop} {op : Op} {db : Db} (hdb : db.life.Lawful)
    (hrequest : ∀ e c', op.allows app db e → LifeStep e db.life c' → P db.life → P c')
    (hbackground : ∀ e a b, op.isRequest = false → op.allows app db e → LifeStep e a b →
      a.Lawful → P a → P b)
    (h : P db.life) : P (step app db op).life := by
  cases hop : op.isRequest with
  | true =>
      cases op with
      | api env request call =>
          obtain hsame | ⟨e, hallows, hstep⟩ := api_cases call db
          · rw [hsame]
            exact h
          · exact hrequest e _ hallows hstep h
      | _ => cases hop
  | false =>
      have hboth : (step app db op).life.Lawful ∧ P (step app db op).life :=
        (op.commits db).path.preserves (P := fun c => c.Lawful ∧ P c)
          (fun a b e hallows hstep ha =>
            ⟨hstep.lawful ha.1, hbackground e a b hop hallows hstep ha.1 ha.2⟩) ⟨hdb, h⟩
      exact hboth.2

theorem Life.Lawful.step {db : Db} (h : db.life.Lawful) (op : Op) :
    (step app db op).life.Lawful :=
  op_preserves h (fun _ _ _ hstep ha => hstep.lawful ha) (fun _ _ _ _ _ hstep _ ha => hstep.lawful ha)
    h

theorem Db.Fresh.lawful {db : Db} (h : db.Fresh) : db.life.Lawful where
  serial := by constructor <;> simp [Db.life, h.runs, h.locks]
  formed := by constructor <;> simp [Db.life, h.runs]
  gated := by constructor <;> simp [Db.life, h.gates]

theorem run_lawful {db : Db} (h : db.Fresh) (ops : List Op) : (run app db ops).life.Lawful := by
  have hall : History.EachStep (step app) (fun _ _ => True) db ops :=
    History.eachStep_of_forall fun _ _ => trivial
  exact History.invariant (I := fun db => db.life.Lawful) (fun _ op h _ => h.step op) h.lawful hall

end AiFund
