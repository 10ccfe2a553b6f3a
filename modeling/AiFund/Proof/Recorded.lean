import AiFund.Concurrent.Calls
import AiFund.Proof.Alone
import AiFund.Proof.Requests

/-!
# Statements of the coverage repository

Run alone, the statements of a transition do to a sound database what the session that sends them
does.
-/

namespace AiFund

open ReadCommitted UnitOfWork Rows

/-- A side effect that concerns no modelled table. -/
def SideEffect.idle : SideEffect → Bool
  | .outbox kind => kind = "coverage.state_changed"
  | .cancelOpenGate | .openGateInitiationDecision | .answerGate | .setLeadHouse => false
  | _ => true

namespace Concurrent

variable {α β ε ρ : Type} {db : Db} {env : Env} {uuidHex : Nat → String} {r covId : Nat}
  {cov : Coverage} {sm : Transition} {made : Recorded} {gates : List LoadedGate} {s : Session Db}

/-! ## The coverage row -/

theorem updateCoverage_congr {f g : Coverage → Coverage} (hcov : db.coverages[covId]? = some cov)
    (h : f cov = g cov) : db.updateCoverage covId f = db.updateCoverage covId g :=
  congrArg (fun coverages => { db with coverages }) (modify_congr hcov h)

/-- What holds of every row but one, and of what that one becomes, holds of every row. -/
theorem all_modify {rows : List ρ} {id : Nat} {row : ρ} {f : ρ → ρ} {p : ρ → Bool}
    (hrow : rows[id]? = some row) (hall : rows.all p = true) (hp : p (f row) = true) :
    (rows.modify id f).all p = true := by
  rw [List.all_eq_true] at hall ⊢
  intro other hother
  obtain ⟨i, hi⟩ := List.getElem?_of_mem hother
  obtain ⟨rfl, old, hold, rfl⟩ | ⟨-, hold⟩ := getElem?_modify_cases hi
  · obtain rfl : row = old := Option.some.inj (hrow.symm.trans hold)
    exact hp
  · exact hall other (List.mem_of_getElem? hold)

/-- The lead of a coverage may change to a house, if it is not left out where it is required. -/
theorem sound_setCoverage {f : Coverage → Coverage} (hdb : db.Sound)
    (hcov : db.coverages[covId]? = some cov)
    (hf : ∀ cov, ((f cov).exchange, (f cov).ticker, (f cov).dossierSlug) =
      (cov.exchange, cov.ticker, cov.dossierSlug))
    (hlegal : legalCoverage db (f cov) = true) : (db.updateCoverage covId f).Sound := by
  rw [legalCoverage, Bool.and_eq_true] at hlegal
  refine ⟨Db.legal_of_rules hdb.legal ?_, hdb.numbered⟩
  have hkept : (db.coverages.modify covId f).map
      (fun cov => (cov.exchange, cov.ticker, cov.dossierSlug)) =
        db.coverages.map fun cov => (cov.exchange, cov.ticker, cov.dossierSlug) :=
    map_modify_of_eq hf
  have hcoverages : Db.isCoverage { db with coverages := db.coverages.modify covId f } =
      db.isCoverage := by
    funext id
    simp [Db.isCoverage]
  have hruns : Db.isRun { db with coverages := db.coverages.modify covId f } = db.isRun := rfl
  have hhouses : Db.isHouse { db with coverages := db.coverages.modify covId f } =
      db.isHouse := rfl
  unfold Db.updateCoverage
  simp only [constraints, List.forall_mem_cons, hruns, hhouses, hcoverages, imp_self, true_and,
    decide_eq_true_eq]
  refine ⟨fun hnodup => ?_, fun hnodup => ?_, fun hall => all_modify hcov hall hlegal.1,
    fun hall => all_modify hcov hall hlegal.2, fun _ hrule => absurd hrule List.not_mem_nil⟩
  · rwa [map_congr_of_map hkept fun key => (key.1, key.2.1)]
  · rwa [map_congr_of_map hkept fun key => key.2.2]

theorem violation_setCoverage {f : Coverage → Coverage} {db' : Db}
    (hcov : db.coverages[covId]? = some cov) (hlegal : legalCoverage db (f cov) = false)
    (hcoverages : db'.coverages = db.coverages.modify covId f) (hhouses : db'.houses = db.houses) :
    db'.violation ≠ none := by
  intro hviolation
  have hrules := Db.violation_eq_none.1 hviolation
  have hlead := hrules ("ck_coverage_lead_required_when_live", fun db =>
    db.coverages.all fun cov => !cov.state.live || cov.leadHouse.isSome) (by simp [constraints])
  have hhouse := hrules ("fk_coverage_lead_house_houses", fun db =>
    db.coverages.all fun cov => cov.leadHouse.all db.isHouse) (by simp [constraints])
  have hmem : f cov ∈ db'.coverages := by
    rw [hcoverages]
    exact List.mem_of_getElem? (getElem?_modify_self hcov)
  have hsame : db'.isHouse = db.isHouse := by
    unfold Db.isHouse
    rw [hhouses]
  have hgiven := List.all_eq_true.1 hlead _ hmem
  have hnamed := List.all_eq_true.1 hhouse _ hmem
  rw [hsame] at hnamed
  rw [legalCoverage, hgiven, hnamed] at hlegal
  cases hlegal

/-- The coverage `covId` with a new state and a new lead. -/
abbrev setStateAndLead (covId : Nat) (state : CoverageState) (lead : Option String) (db : Db) : Db :=
  db.updateCoverage covId fun row => { row with state, leadHouse := lead }

theorem eval_sendCoverage {state : CoverageState} {lead : Option String} (hdb : db.Sound)
    (hcov : db.coverages[covId]? = some cov) :
    (sendCoverage covId cov state lead).eval db =
      if legalCoverage db { cov with state, leadHouse := lead } then
        some ((), setStateAndLead covId state lead db)
      else none := by
  have hwrite : cov.writeState state lead cov = { cov with state, leadHouse := lead } := by
    simp [Coverage.writeState]
  unfold sendCoverage
  split
  · rename_i hsame
    obtain ⟨rfl, rfl⟩ := hsame
    have hlegal : legalCoverage db cov = true := by
      have hrules := Db.violation_eq_none.1 hdb.legal
      have hlead := hrules ("ck_coverage_lead_required_when_live", fun db =>
        db.coverages.all fun cov => !cov.state.live || cov.leadHouse.isSome) (by simp [constraints])
      have hhouse := hrules ("fk_coverage_lead_house_houses", fun db =>
        db.coverages.all fun cov => cov.leadHouse.all db.isHouse) (by simp [constraints])
      have hmem := List.mem_of_getElem? hcov
      exact Bool.and_eq_true_iff.2 ⟨List.all_eq_true.1 hlead cov hmem,
        List.all_eq_true.1 hhouse cov hmem⟩
    rw [if_pos hlegal, setStateAndLead, Db.updateCoverage, modify_eq_self hcov rfl]
    rfl
  · rw [eval_sendChecked, hcov, Option.map_some, Option.all_some, hwrite]
    split
    · refine congrArg (fun coverages => some ((), { db with coverages })) ?_
      exact modify_congr hcov hwrite
    · rfl

/-! ## Recording a transition -/

/-- The rows that a transition is recorded with. -/
def recordedRows (env : Env) (covId : Nat) (fromState : CoverageState) (sm : Transition)
    (made : Recorded) (base : Db) : Db :=
  { base with
    transitions := base.transitions ++ [made.transitionRow covId fromState sm]
    auditLog := base.auditLog ++ [made.auditRow covId fromState sm]
    outbox := base.outbox ++ [outboxRow env "coverage.state_changed" (some covId) made.runId covId
      [("request_id", .str made.requestId), ("to_state", .str sm.toState.value),
        ("cause", .str sm.cause)] base.outbox.length] }

theorem sound_recordedRows {fromState : CoverageState} {base : Db} (hbase : base.Sound)
    (hcov : base.isCoverage covId = true) (hrun : made.runId.all base.isRun = true) :
    (recordedRows env covId fromState sm made base).Sound :=
  ((hbase.addTransition hrun).addAudit).addOutbox hcov hrun rfl

/-- A recorded transition, once its side effects are there. -/
theorem returned_record {fromState : CoverageState} {base final : Db} {written : List Db}
    (hrequest : made.requestId = uuidHex base.auditLog.length)
    (heffects : returned (sm.sideEffects.forM (applySideEffect (env.drawing uuidHex) covId
      made.action made.actorId made.runId made.requestId))
        ⟨db, recordedRows env covId fromState sm made base, written⟩ =
          some ((), ⟨db, final, written⟩)) :
    returned (AiFund.record (env.drawing uuidHex) covId (some fromState) sm made.action
      made.actorType made.actorId made.runId made.notes none) ⟨db, base, written⟩ =
        returned flush ⟨db, final, written⟩ := by
  unfold AiFund.record
  rw [returned_bind, returned_inspect, Option.bind_some]
  simp only [Option.filter_none, Option.getD_none, ← hrequest]
  rw [returned_bind, returned_assign, Option.bind_some, returned_bind, addAudit, returned_assign,
    Option.bind_some, returned_bind, addOutbox, returned_assign, Option.bind_some, returned_bind]
  exact congrArg (fun found => Option.bind found fun r => returned flush r.2) heffects

theorem returned_forM_idle {action : Action} {actorId requestId : String} {runId : Option Nat}
    {effects : List SideEffect} (hidle : ∀ effect ∈ effects, effect.idle = true) :
    returned (effects.forM (applySideEffect env covId action actorId runId requestId)) s =
      some ((), s) := by
  induction effects with
  | nil => rfl
  | cons effect effects ih =>
      have hfirst : applySideEffect env covId action actorId runId requestId effect = pure () := by
        have heffect := hidle effect List.mem_cons_self
        cases effect <;> first | rfl | cases heffect | exact if_pos (of_decide_eq_true heffect)
      rw [returned_forM_cons, hfirst]
      exact ih fun effect heffect => hidle effect (List.mem_cons_of_mem _ heffect)

theorem effectNow_idle {effect : SideEffect} {runId : Option Nat} (hidle : effect.idle = true) :
    effectNow env runId gates effect = pure {} := by
  cases effect <;> first | rfl | cases hidle

theorem eval_forM_pure {f : ρ → DbScript PUnit} {l : List ρ} (h : ∀ x ∈ l, f x = pure ⟨⟩) :
    (l.forM f).eval db = some (⟨⟩, db) := by
  induction l with
  | nil => rfl
  | cons x l ih =>
      rw [eval_forM_cons, h x List.mem_cons_self]
      exact ih fun y hy => h y (List.mem_cons_of_mem x hy)

theorem effectOutbox_idle {effect : SideEffect} {runId : Option Nat} {requestId : String}
    (hidle : effect.idle = true) : effectOutbox env covId runId requestId effect = pure () := by
  cases effect <;> first | rfl | cases hidle | exact if_pos (of_decide_eq_true hidle)

theorem effectGate_idle {effect : SideEffect} {runId : Option Nat} (hidle : effect.idle = true) :
    effectGate covId runId effect = pure () := by
  cases effect <;> first | rfl | cases hidle

/-- What a transition answers of the gates, after its rows. -/
theorem eval_record {lead : Option String} {flushed : List Flushed} (hdb : db.Sound)
    (hcov : db.coverages[covId]? = some cov)
    (hnow : (sm.sideEffects.mapM (effectNow env made.runId gates)).eval db = some (flushed, db))
    (hlead : flushed.findSome? (·.lead) = none)
    (houtbox : ∀ effect ∈ sm.sideEffects,
      effectOutbox env covId made.runId made.requestId effect = pure ())
    (hgate : ∀ effect ∈ sm.sideEffects, effectGate covId made.runId effect = pure ()) :
    (record env covId cov lead sm made gates).eval db =
      if legalCoverage db { cov with state := sm.toState, leadHouse := lead } then
        (sendAnswer env made.action made.actorId (flushed.findSome? (·.answered))).eval
          (recordedRows env covId cov.state sm made (setStateAndLead covId sm.toState lead db))
      else none := by
  have haudited : Db.Sound { db with
      auditLog := db.auditLog ++ [made.auditRow covId cov.state sm] } := hdb.addAudit
  rw [record, Script.eval_bind, hnow, Option.bind_some, Script.eval_bind, eval_send,
    Option.bind_some, Script.eval_bind, hlead, Option.getD_none]
  have hsent : (sendCoverage covId cov sm.toState lead).eval
      { db with auditLog := db.auditLog ++ [made.auditRow covId cov.state sm] } =
        if legalCoverage db { cov with state := sm.toState, leadHouse := lead } then
          some ((), setStateAndLead covId sm.toState lead
            { db with auditLog := db.auditLog ++ [made.auditRow covId cov.state sm] })
        else none := eval_sendCoverage haudited hcov
  refine (congrArg (fun found => Option.bind found fun result => Script.eval _ result.2)
    hsent).trans ?_
  split
  · rw [Option.bind_some, Script.eval_bind, eval_send, Option.bind_some, Script.eval_bind, eval_send,
      Option.bind_some, Script.eval_bind, eval_forM_pure houtbox, Option.bind_some, Script.eval_bind,
      eval_forM_pure hgate, Option.bind_some]
    rfl
  · rfl

/-- A transition whose side effects concern no modelled table. -/
theorem eval_record_idle {lead : Option String} (hdb : db.Sound)
    (hcov : db.coverages[covId]? = some cov)
    (hidle : ∀ effect ∈ sm.sideEffects, effect.idle = true) :
    (record env covId cov lead sm made gates).eval db =
      if legalCoverage db { cov with state := sm.toState, leadHouse := lead } then
        some ((), recordedRows env covId cov.state sm made
          (setStateAndLead covId sm.toState lead db))
      else none := by
  have hnone {γ : Type} {f : Flushed → Option γ} (h : f {} = none) :
      (sm.sideEffects.map fun _ => ({} : Flushed)).findSome? f = none := by simp [h]
  rw [eval_record hdb hcov ?_ (hnone rfl) (fun effect heffect => effectOutbox_idle (hidle effect heffect))
    fun effect heffect => effectGate_idle (hidle effect heffect)]
  · rw [hnone rfl]
    rfl
  · rw [mapM_pure fun effect heffect => effectNow_idle (hidle effect heffect)]
    rfl

/-- A script that leaves at once what a session flushes, where the schema accepts it. -/
theorem doesAt_flushed_bind {m : DbScript α} {m' : DbTxn Unit} {k : α → DbScript β}
    {k' : Unit → DbTxn β} (a : α) (final : Db) (legal : Bool)
    (heval : m.eval db = if legal then some (a, final) else none)
    (hreturned : ∀ written : List Db,
      returned m' ⟨db, db, written⟩ = returned flush ⟨db, final, written⟩)
    (hlegal : legal = true → final.Sound) (hillegal : legal = false → final.violation ≠ none)
    (hk : final.Sound → DoesAt final (k a) (k' ())) : DoesAt db (m >>= k) (m' >>= k') := by
  cases legal with
  | false =>
      refine doesAt_of_none ?_ fun written => ?_
      · rw [Script.eval_bind, heval]
        rfl
      · rw [returned_bind, hreturned, returned_flush_of_violation (hillegal rfl)]
        rfl
  | true =>
      have hsound := hlegal rfl
      have hrest := hk hsound
      constructor
      · intro written
        rw [returned_bind, hreturned, returned_flush_of_legal hsound.legal, Script.eval_bind, heval]
        exact hrest.same _
      · intro b db' h
        rw [Script.eval_bind, heval] at h
        exact hrest.keeps b db' h

theorem eval_buildCtx {action : Action} {runId : Option Nat} {force : Bool} {notes : Option String}
    (haction : action ∉ decideActions) :
    (buildCtx env cov action runId force notes gates).eval db =
      some (({ force, noteProvided := noteGiven notes,
               hasOpenPosition := hasOpenPosition cov.ticker db }, none), db) := by
  rw [buildCtx, Script.eval_bind, Script.eval_select, Option.bind_some, if_neg haction]
  simp [haction]

theorem returned_buildCtx {action : Action} {runId : Option Nat} {force : Bool}
    {notes : Option String} (haction : action ∉ decideActions) :
    returned (AiFund.buildCtx env cov action runId force notes) s =
      some ({ force, noteProvided := noteGiven notes,
              hasOpenPosition := hasOpenPosition cov.ticker s.stored }, s) := by
  simp [AiFund.buildCtx, haction]

theorem returned_getCoverage {action : Action} {written : List Db}
    (hcov : db.coverages[covId]? = some cov) :
    returned (AiFund.getCoverage action covId) ⟨db, db, written⟩ =
      some (cov, ⟨db, db, written⟩) := by
  rw [AiFund.getCoverage, returned_bind, returned_lookup, Option.bind_some]
  dsimp only
  rw [if_pos (List.getElem?_eq_some_iff.1 hcov).1, hcov]
  rfl

theorem eval_transitionCoverage {ctx : TransitionContext} {gate : Option LoadedGate} {force : Bool}
    (hctx : (buildCtx env cov made.action made.runId force made.notes gates).eval db =
      some ((ctx, gate), db)) :
    (transitionCoverage env covId cov made force gates).eval db =
      match transition (some cov.state) made.action ctx with
      | .error _ => none
      | .ok sm => ((record env covId cov cov.leadHouse sm made (gates ++ gate.toList)).eval db).map
          fun r => (sm.toState, r.2) := by
  rw [transitionCoverage, Script.eval_bind, hctx, Option.bind_some]
  dsimp only
  cases transition (some cov.state) made.action ctx with
  | error error => rfl
  | ok sm =>
      dsimp only
      refine (Script.eval_bind (record env covId cov cov.leadHouse sm made (gates ++ gate.toList))
        (fun _ => pure sm.toState) db).trans ?_
      cases (record env covId cov cov.leadHouse sm made (gates ++ gate.toList)).eval db <;> rfl

theorem returned_transitionCoverage {ctx : TransitionContext} {force : Bool} {written : List Db}
    (hcov : db.coverages[covId]? = some cov)
    (hctx : returned (AiFund.buildCtx env cov made.action made.runId force made.notes)
      ⟨db, db, written⟩ = some (ctx, ⟨db, db, written⟩)) :
    returned (AiFund.transitionCoverage env covId made.action made.actorType made.actorId made.runId
      force made.notes none) ⟨db, db, written⟩ =
      match transition (some cov.state) made.action ctx with
      | .error _ => none
      | .ok sm => returned (AiFund.record env covId (some cov.state) sm made.action made.actorType
          made.actorId made.runId made.notes none)
            ⟨db, setStateAndLead covId sm.toState cov.leadHouse db, written⟩ := by
  rw [AiFund.transitionCoverage, returned_bind, returned_getCoverage hcov, Option.bind_some,
    returned_bind, hctx, Option.bind_some]
  dsimp only
  cases transition (some cov.state) made.action ctx with
  | error error => rfl
  | ok sm =>
      have hrow : db.updateCoverage covId (fun cov => { cov with state := sm.toState }) =
          setStateAndLead covId sm.toState cov.leadHouse db := updateCoverage_congr hcov rfl
      dsimp only
      rw [← hrow]
      rfl

/-- What the side effects of a transition make of its recorded rows, the same in both accounts. -/
structure Effects (env : Env) (uuidHex : Nat → String) (covId : Nat) (cov : Coverage)
    (sm : Transition) (made : Recorded) (gates : List LoadedGate) (db : Db) (final : Db → Db) :
    Prop where
  script : (record env covId cov cov.leadHouse sm made gates).eval db =
    if legalCoverage db { cov with state := sm.toState } then
      some ((), final (recordedRows env covId cov.state sm made
        (setStateAndLead covId sm.toState cov.leadHouse db)))
    else none
  session : ∀ (base : Db) (written : List Db), base.outbox.length = db.outbox.length + 1 →
    returned (sm.sideEffects.forM (applySideEffect (env.drawing uuidHex) covId made.action
      made.actorId made.runId made.requestId)) ⟨db, base, written⟩ =
        some ((), ⟨db, final base, written⟩)
  sound : ∀ base : Db, base.Sound → base.runs = db.runs →
    base.coverages.length = db.coverages.length → (final base).Sound
  coverages : ∀ base : Db, (final base).coverages = base.coverages
  houses : ∀ base : Db, (final base).houses = base.houses

theorem doesAt_transition_bind {ctx : TransitionContext} {gate : Option LoadedGate} {force : Bool}
    {k : CoverageState → DbScript β} {k' : Unit → DbTxn β} (hdb : db.Sound)
    (hcov : db.coverages[covId]? = some cov) (hrequest : made.requestId = uuidHex db.auditLog.length)
    (hrun : made.runId.all db.isRun = true)
    (hctx : (buildCtx env cov made.action made.runId force made.notes gates).eval db =
      some ((ctx, gate), db))
    (hctx' : ∀ written : List Db, returned (AiFund.buildCtx (env.drawing uuidHex) cov made.action
      made.runId force made.notes) ⟨db, db, written⟩ = some (ctx, ⟨db, db, written⟩))
    (heffects : ∀ sm, transition (some cov.state) made.action ctx = .ok sm → ∃ final,
      Effects env uuidHex covId cov sm made (gates ++ gate.toList) db final ∧
        (∀ base, (final base).Sound → base.runs = db.runs →
          base.coverages = (setStateAndLead covId sm.toState cov.leadHouse db).coverages →
          DoesAt (final base) (k sm.toState) (k' ()))) :
    DoesAt db (transitionCoverage env covId cov made force gates >>= k)
      (AiFund.transitionCoverage (env.drawing uuidHex) covId made.action made.actorType made.actorId
        made.runId force made.notes none >>= k') := by
  cases hsm : transition (some cov.state) made.action ctx with
  | error error =>
      refine doesAt_of_none ?_ fun written => ?_
      · rw [Script.eval_bind, eval_transitionCoverage hctx, hsm]
        rfl
      · rw [returned_bind, returned_transitionCoverage hcov (hctx' written), hsm]
        rfl
  | ok sm =>
      obtain ⟨final, hfinal, hk⟩ := heffects sm hsm
      let moved := setStateAndLead covId sm.toState cov.leadHouse db
      have hcovered : moved.isCoverage covId = true := by
        simp [moved, Db.isCoverage, Db.updateCoverage, (List.getElem?_eq_some_iff.1 hcov).1]
      have hfinished := hfinal.session (recordedRows env covId cov.state sm made moved)
      refine doesAt_flushed_bind sm.toState (final (recordedRows env covId cov.state sm made moved))
        (legalCoverage db { cov with state := sm.toState }) ?_ (fun written => ?_) ?_ ?_ ?_
      · rw [eval_transitionCoverage hctx, hsm]
        dsimp only
        rw [hfinal.script]
        split <;> rfl
      · rw [returned_transitionCoverage hcov (hctx' written), hsm]
        dsimp only
        have hlength : (recordedRows env covId cov.state sm made moved).outbox.length =
            db.outbox.length + 1 := by simp [recordedRows, moved, Db.updateCoverage]
        exact returned_record hrequest (hfinished written hlength)
      · intro hlegal
        have hmoved : moved.Sound := sound_setCoverage hdb hcov (fun _ => rfl) hlegal
        refine hfinal.sound _ (sound_recordedRows hmoved hcovered hrun) rfl ?_
        simp [recordedRows, moved, Db.updateCoverage]
      · intro hillegal
        exact violation_setCoverage hcov hillegal (hfinal.coverages _) (hfinal.houses _)
      · exact fun hsound => hk _ hsound rfl rfl

/-! ## Transitions without a gate -/

theorem effects_idle (hdb : db.Sound) (hcov : db.coverages[covId]? = some cov)
    (hidle : ∀ effect ∈ sm.sideEffects, effect.idle = true) :
    Effects env uuidHex covId cov sm made gates db id where
  script := eval_record_idle hdb hcov hidle
  session _ _ _ := returned_forM_idle hidle
  sound _ hbase _ _ := hbase
  coverages _ := rfl
  houses _ := rfl

theorem idle_of_entries {state : CoverageState} {action : Action}
    (haction : action ∈ [.promote, .demote, .exit, .rePropose, .setLead])
    (hentry : entries (some state) action = some sm) :
    ∀ effect ∈ sm.sideEffects, effect.idle = true := by
  simp only [List.mem_cons, List.not_mem_nil, or_false] at haction
  rcases haction with rfl | rfl | rfl | rfl | rfl <;> cases state <;> cases hentry <;> decide

/-! ## Decisions -/

/-- The gates that a script has loaded are rows of the database. -/
def Loaded (db : Db) (gates : List LoadedGate) : Prop := ∀ g ∈ gates, db.gates[g.1]? = some g.2

/-- The open gate of a run, with its row. -/
def foundGate (env : Env) (runId : Option Nat) (db : Db) : Option LoadedGate :=
  runId.bind fun r => gateRow (openGateOfRun env r) db

theorem gateRow_eq (find : Db → Option Nat) (db : Db) :
    gateRow find db = (find db).bind fun id => db.gates[id]?.map fun row => (id, row) := by
  change ((find db).bind fun id => db.gates[id]?.bind fun row => some (id, row)) = _
  simp only [Option.map_eq_bind]
  rfl

theorem gateRow_eq_some {find : Db → Option Nat} {g : LoadedGate} :
    gateRow find db = some g ↔ find db = some g.1 ∧ db.gates[g.1]? = some g.2 := by
  rw [gateRow_eq, Option.bind_eq_some_iff]
  constructor
  · rintro ⟨id, hfind, hmap⟩
    obtain ⟨row, hrow, rfl⟩ := Option.map_eq_some_iff.1 hmap
    exact ⟨hfind, hrow⟩
  · rintro ⟨hfind, hrow⟩
    exact ⟨g.1, hfind, Option.map_eq_some_iff.2 ⟨g.2, hrow, rfl⟩⟩

theorem gate_of_foundGate {runId : Option Nat} {g : LoadedGate}
    (h : foundGate env runId db = some g) :
    (∃ r, runId = some r ∧ openGateOfRun env r db = some g.1) ∧ db.gates[g.1]? = some g.2 := by
  obtain ⟨r, hr, hfound⟩ := Option.bind_eq_some_iff.1 h
  obtain ⟨hopen, hrow⟩ := gateRow_eq_some.1 hfound
  exact ⟨⟨r, hr, hopen⟩, hrow⟩

theorem known_of_loaded {found : LoadedGate} (hgates : Loaded db gates)
    (hfound : db.gates[found.1]? = some found.2) : known gates found = found := by
  unfold known
  cases hfind : gates.find? fun gate => gate.1 = found.1 with
  | none => rfl
  | some g =>
      have hid : g.1 = found.1 := by simpa using List.find?_some hfind
      have hrow := hgates g (List.mem_of_find?_eq_some hfind)
      rw [hid] at hrow
      exact Prod.ext hid (Option.some.inj (hrow.symm.trans hfound))

theorem eval_gateOfRun {runId : Option Nat} (hgates : Loaded db gates) :
    (gateOfRun env runId gates).eval db = some (foundGate env runId db, db) := by
  cases runId with
  | none => rfl
  | some r =>
      have hknown : (gateRow (openGateOfRun env r) db).map (known gates) =
          foundGate env (some r) db := by
        cases hfound : gateRow (openGateOfRun env r) db with
        | none => exact hfound.symm
        | some found =>
            rw [Option.map_some, known_of_loaded hgates (gateRow_eq_some.1 hfound).2]
            exact hfound.symm
      rw [gateOfRun, Script.eval_bind, Script.eval_select, Option.bind_some, Script.eval_pure, hknown]

theorem eval_buildCtx_decide {action : Action} {runId : Option Nat} {force : Bool}
    {notes : Option String} (haction : action ∈ decideActions) (hgates : Loaded db gates) :
    (buildCtx env cov action runId force notes gates).eval db =
      some (({ force, noteProvided := noteGiven notes,
               hasOpenPosition := hasOpenPosition cov.ticker db
               gateOpen := (foundGate env runId db).isSome
               answerInAllowed := (foundGate env runId db).any fun gate =>
                 (decisionAnswer action).any fun answer => answer ∈ gate.2.allowedAnswers },
             foundGate env runId db), db) := by
  rw [buildCtx, Script.eval_bind, Script.eval_select, Option.bind_some, if_pos haction,
    Script.eval_bind, eval_gateOfRun hgates, Option.bind_some]
  simp [haction]

theorem returned_buildCtx_decide {action : Action} {runId : Option Nat} {force : Bool}
    {notes : Option String} (haction : action ∈ decideActions) {written : List Db} :
    returned (AiFund.buildCtx env cov action runId force notes) ⟨db, db, written⟩ =
      some ({ force, noteProvided := noteGiven notes,
              hasOpenPosition := hasOpenPosition cov.ticker db
              gateOpen := (foundGate env runId db).isSome
              answerInAllowed := (foundGate env runId db).any fun gate =>
                (decisionAnswer action).any fun answer => answer ∈ gate.2.allowedAnswers },
        ⟨db, db, written⟩) := by
  have hfound : (do
      let gateId ← openGateOfRun env (← runId) db
      db.gates[gateId]?) = (foundGate env runId db).map (·.2) := by
    cases runId with
    | none => rfl
    | some r =>
        change ((openGateOfRun env r db).bind fun gateId => db.gates[gateId]?) =
          (gateRow (openGateOfRun env r) db).map (·.2)
        rw [gateRow_eq]
        cases openGateOfRun env r db with
        | none => rfl
        | some id => simp
  rw [AiFund.buildCtx, returned_bind, returned_select, Option.bind_some, returned_bind,
    returned_select, Option.bind_some]
  simp only [hfound, haction, not_true_eq_false, decide_false, Bool.false_or, Option.isSome_map,
    Option.any_map, returned_pure]

theorem answers_of_entries {state : CoverageState} {action : Action} {answer : String}
    (hentry : entries (some state) action = some sm)
    (hanswer : decisionAnswer action = some answer) :
    ∃ rest, sm.sideEffects = .answerGate :: rest ∧ ∀ effect ∈ rest, effect.idle = true := by
  cases action <;> cases hanswer <;> cases state <;> cases hentry <;>
    exact ⟨_, rfl, by decide⟩

/-- The gate that a decision has found, answered. -/
def answered (env : Env) (made : Recorded) (answer : String) (gate : Option LoadedGate) (base : Db) :
    Db :=
  gate.elim base fun gate => base.updateGate gate.1 fun gate =>
    { gate with
      state := .answered
      answer := some answer
      answeredBy := some made.actorId
      answeredAt := some env.now }

theorem coverages_answered {answer : String} {gate : Option LoadedGate} (base : Db) :
    (answered env made answer gate base).coverages = base.coverages := by
  cases gate <;> rfl

theorem eval_sendAnswer {answer : String} {gate : Option LoadedGate} {base : Db}
    (hanswer : decisionAnswer made.action = some answer)
    (hgate : ∀ g, gate = some g → base.gates[g.1]? = some g.2) :
    (sendAnswer env made.action made.actorId gate).eval base =
      some ((), answered env made answer gate base) := by
  cases gate with
  | none => rfl
  | some g =>
      obtain ⟨id, row⟩ := g
      rw [sendAnswer, hanswer]
      refine (eval_send _).trans (congrArg (fun gates => some ((), { base with gates })) ?_)
      exact modify_congr (hgate _ rfl) (by simp [PmGate.writeAnswered])

theorem returned_answerGate {answer : String} {base : Db} {written : List Db}
    (hanswer : decisionAnswer made.action = some answer) :
    returned (applySideEffect (env.drawing uuidHex) covId made.action made.actorId made.runId
      made.requestId .answerGate) ⟨db, base, written⟩ =
        some ((), ⟨db, answered env made answer (foundGate env made.runId db) base, written⟩) := by
  have hopen : (made.runId.bind fun r => openGateOfRun (env.drawing uuidHex) r db) =
      (foundGate env made.runId db).map (·.1) := by
    cases made.runId with
    | none => rfl
    | some r =>
        change openGateOfRun env r db = (gateRow (openGateOfRun env r) db).map (·.1)
        cases hfound : openGateOfRun env r db with
        | none => simp [gateRow_eq, hfound]
        | some id =>
            obtain ⟨row, hrow, -⟩ := RowOrder.of_first _ hfound
            simp [gateRow_eq, hfound, hrow]
  unfold applySideEffect
  rw [returned_bind, returned_select, Option.bind_some]
  dsimp only
  rw [hopen]
  cases foundGate env made.runId db with
  | none => rfl
  | some g =>
      simp only [Option.map_some, hanswer]
      rfl

theorem effects_decide {answer : String} (hdb : db.Sound) (hcov : db.coverages[covId]? = some cov)
    (hentry : entries (some cov.state) made.action = some sm)
    (hanswer : decisionAnswer made.action = some answer) (hgates : Loaded db gates) :
    Effects env uuidHex covId cov sm made gates db
      (answered env made answer (foundGate env made.runId db)) := by
  obtain ⟨rest, heffects, hidle⟩ := answers_of_entries hentry hanswer
  have hrest : ∀ effect ∈ sm.sideEffects, effect = .answerGate ∨ effect.idle = true := by
    intro effect heffect
    rw [heffects, List.mem_cons] at heffect
    exact heffect.imp_right (hidle effect)
  constructor
  · have hnow : (sm.sideEffects.mapM (effectNow env made.runId gates)).eval db =
        some ({ answered := foundGate env made.runId db } :: rest.map fun _ => {}, db) := by
      rw [heffects, List.mapM_cons, mapM_pure fun effect heffect =>
        effectNow_idle (hidle effect heffect)]
      simp only [effectNow, Script.eval_bind, eval_gateOfRun hgates, Option.bind_some,
        Script.eval_pure]
    have hnone {γ : Type} {f : Flushed → Option γ} (h : f {} = none) :
        (rest.map fun _ => ({} : Flushed)).findSome? f = none := by simp [h]
    have houtbox : ∀ effect ∈ sm.sideEffects,
        effectOutbox env covId made.runId made.requestId effect = pure () := by
      intro effect heffect
      obtain rfl | h := hrest effect heffect
      · rfl
      · exact effectOutbox_idle h
    have hgate : ∀ effect ∈ sm.sideEffects, effectGate covId made.runId effect = pure () := by
      intro effect heffect
      obtain rfl | h := hrest effect heffect
      · rfl
      · exact effectGate_idle h
    have hlead : ({ answered := foundGate env made.runId db } :: rest.map fun _ =>
        ({} : Flushed)).findSome? (·.lead) = none := hnone rfl
    have hanswered : ({ answered := foundGate env made.runId db } :: rest.map fun _ =>
        ({} : Flushed)).findSome? (·.answered) = foundGate env made.runId db := by
      cases hfound : foundGate env made.runId db with
      | none => exact hnone rfl
      | some g => rfl
    rw [eval_record hdb hcov hnow hlead houtbox hgate, hanswered]
    split
    · exact eval_sendAnswer hanswer fun g hg => (gate_of_foundGate hg).2
    · rfl
  · intro base written _
    rw [heffects, returned_forM_cons, returned_answerGate hanswer, Option.bind_some]
    exact returned_forM_idle hidle
  · intro base hbase _ _
    cases foundGate env made.runId db with
    | none => exact hbase
    | some g => exact hbase.updateGate (fun _ => rfl) fun _ => rfl
  · exact coverages_answered
  · intro base
    cases foundGate env made.runId db <;> rfl

end Concurrent

end AiFund
