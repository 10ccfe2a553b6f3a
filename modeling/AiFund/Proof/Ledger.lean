import AiFund.Ledger
import AiFund.Proof.OpSteps
import AiFund.Proof.Program

/-!
# Every history keeps the ledger

Only a proposal, a transition and a change of the lead touch the ledger. Whatever else a transaction
does shows no difference there.
-/

namespace AiFund

open UnitOfWork Rows

/-! ## Ledgers -/

namespace Ledger

variable {ledger : Ledger} {covId : Nat} {slug : String} {state : CoverageState}
  {row : CoverageTransition}

theorem Traced.orderly (h : ledger.Traced covId) : ledger.Orderly covId := by
  obtain ⟨state, hstate, hreaches⟩ := h
  exact ⟨state, hstate, hreaches.orderable⟩

theorem rowsOf_append (h : row.coverageId = covId) {coverages : List (String × CoverageState)} :
    rowsOf ⟨coverages, ledger.transitions ++ [row]⟩ covId = ledger.rowsOf covId ++ [row] := by
  simp [rowsOf, List.filter_append, h]

theorem rowsOf_append_of_ne (h : row.coverageId ≠ covId)
    {coverages : List (String × CoverageState)} :
    rowsOf ⟨coverages, ledger.transitions ++ [row]⟩ covId = ledger.rowsOf covId := by
  simp [rowsOf, List.filter_append, h]

/-- A coverage is proposed, with its first row. -/
theorem Kept.propose (h : ledger.Kept) (hcov : row.coverageId = ledger.coverages.length)
    (hto : row.toState = state) :
    Kept ⟨ledger.coverages ++ [(slug, state)], ledger.transitions ++ [row]⟩ := by
  constructor
  · intro other hother
    rw [List.length_append, List.length_singleton]
    rcases List.mem_append.1 hother with hold | hnew
    · exact Nat.lt_succ_of_lt (h.owned other hold)
    · rw [List.mem_singleton.1 hnew, hcov]
      exact Nat.lt_succ_self _
  · intro k hk
    rw [List.length_append, List.length_singleton] at hk
    rcases Nat.lt_succ_iff_lt_or_eq.1 hk with hold | rfl
    · obtain ⟨state', hstate', hreaches⟩ := h.traced k hold
      refine ⟨state', ?_, ?_⟩
      · change (ledger.coverages ++ _)[k]?.map _ = _
        rw [List.getElem?_append_left hold]
        exact hstate'
      · rw [rowsOf_append_of_ne fun heq => hold.ne (heq.symm.trans hcov)]
        exact hreaches
    · refine ⟨state, ?_, ?_⟩
      · change (ledger.coverages ++ [(slug, state)])[ledger.coverages.length]?.map _ = _
        rw [List.getElem?_concat_length]
        rfl
      · have hnone : ledger.rowsOf ledger.coverages.length = [] := by
          refine List.filter_eq_nil_iff.2 fun other hother => ?_
          simpa using (h.owned other hother).ne
        rw [rowsOf_append hcov, hnone, ← hto]
        exact .single row

/-- A coverage goes from the state it is in to where its new row leads. -/
theorem Kept.record (h : ledger.Kept) (hstate : ledger.state covId = some state)
    (hcov : row.coverageId = covId) (hfrom : row.fromState = some state) :
    Kept ⟨ledger.coverages.modify covId fun cov => (cov.1, row.toState),
      ledger.transitions ++ [row]⟩ := by
  obtain ⟨cov, hrow, rfl⟩ := Option.map_eq_some_iff.1 hstate
  constructor
  · intro other hother
    rw [List.length_modify]
    rcases List.mem_append.1 hother with hold | hnew
    · exact h.owned other hold
    · rw [List.mem_singleton.1 hnew, hcov]
      exact (List.getElem?_eq_some_iff.1 hrow).1
  · intro k hk
    rw [List.length_modify] at hk
    obtain ⟨state', hstate', hreaches⟩ := h.traced k hk
    by_cases hsame : k = covId
    · subst hsame
      obtain rfl : state' = cov.2 := Option.some.inj (hstate'.symm.trans hstate)
      refine ⟨row.toState, ?_, ?_⟩
      · change (ledger.coverages.modify k _)[k]?.map _ = _
        rw [getElem?_modify_self hrow]
        rfl
      · rw [rowsOf_append hcov]
        exact hreaches.append hfrom
    · refine ⟨state', ?_, ?_⟩
      · change (ledger.coverages.modify covId _)[k]?.map _ = _
        rw [getElem?_modify_of_ne hsame]
        exact hstate'
      · rw [rowsOf_append_of_ne fun heq => hsame (heq.symm.trans hcov)]
        exact hreaches

end Ledger

/-! ## The coverage repository -/

def Db.KeepsLedger (db : Db) : Prop := db.ledger.Kept

variable {app : App} {env : Env} {fund : FundConfig} {request : Request} {covId r g : Nat}
  {action : Action} {actorType : ActorType} {actorId pm slug : String} {runId : Option Nat}
  {force : Bool} {notes requestId : Option String} {sm : Transition} {s s' : Session Db} {u : Unit}

theorem Db.ledger_updateCoverage {db : Db} {f : Coverage → Coverage}
    {h : String × CoverageState → String × CoverageState}
    (hf : ∀ cov, ((f cov).dossierSlug, (f cov).state) = h (cov.dossierSlug, cov.state)) :
    (db.updateCoverage covId f).ledger =
      ⟨db.ledger.coverages.modify covId h, db.ledger.transitions⟩ :=
  congrArg (fun coverages => Ledger.mk coverages db.transitions) (map_modify hf)

theorem Db.ledger_updateCoverage_of_eq {db : Db} {f : Coverage → Coverage}
    (hf : ∀ cov, ((f cov).dossierSlug, (f cov).state) = (cov.dossierSlug, cov.state)) :
    (db.updateCoverage covId f).ledger = db.ledger := by
  rw [Db.ledger_updateCoverage (h := id) hf, List.modify_id]

theorem fixes_journal_applySideEffect {requestId : String} (effect : SideEffect) :
    Fixes Db.journal (applySideEffect env covId action actorId runId requestId effect) := by
  cases effect with
  | outbox kind =>
      by_cases hkind : kind = "coverage.state_changed"
      · rw [applySideEffect, if_pos hkind]
        exact .pure _
      · rw [applySideEffect, if_neg hkind]
        refine .assign fun db => ?_
        simp [Db.journal, Db.ledger, Db.stateChanges, List.filter_append, hkind]
  | cancelOpenGate =>
      unfold applySideEffect
      exact .execute fun _ => rfl
  | openGateInitiationDecision =>
      exact .bind (fixes_ofExcept _ _) fun _ => .assign fun _ => rfl
  | answerGate =>
      refine .bind (.select _) fun found => ?_
      cases found with
      | none => exact .pure _
      | some gateId => exact .bind (fixes_ofExcept _ _) fun _ => .assign fun _ => rfl
  | setLeadHouse =>
      refine .bind (.inspect _) fun found => ?_
      cases found with
      | none => exact .pure _
      | some run =>
          refine .bind (fixes_ofExcept _ _) fun _ => .assign fun db => ?_
          exact congrArg (fun ledger => Journal.mk ledger db.auditLog db.stateChanges)
            (Db.ledger_updateCoverage_of_eq fun _ => rfl)
  | _ => exact .pure _

/-- A record adds the transition row, its audit row and its event. -/
theorem journal_record {fromState : Option CoverageState}
    (h : Returns (record env covId fromState sm action actorType actorId runId notes requestId)
      s u s') :
    ∃ row audit event, row.coverageId = covId ∧ row.fromState = fromState ∧
      row.toState = sm.toState ∧ Recorded row audit event ∧ s'.stored = s'.loaded ∧
      s'.loaded.journal =
        ⟨⟨s.loaded.ledger.coverages, s.loaded.transitions ++ [row]⟩,
          s.loaded.auditLog ++ [audit], s.loaded.stateChanges ++ [event]⟩ := by
  unfold record addAudit addOutbox at h
  rw [returns_inspect_bind, returns_assign_bind, returns_assign_bind, returns_assign_bind] at h
  obtain ⟨_, s₁, heffects, hflush⟩ := returns_bind.1 h
  obtain ⟨-, rfl⟩ := returns_flush.1 hflush
  have hsame := (Fixes.forM fixes_journal_applySideEffect heffects).1
  let row : CoverageTransition :=
    { coverageId := covId, fromState, toState := sm.toState, actorType, actorId,
      cause := sm.cause, runId, notes }
  let given := (requestId.filter (· ≠ "")).getD (env.uuidHex s.loaded.auditLog.length)
  let audit : AuditLog :=
    { action := "coverage." ++ action.value, actorType, actorId,
      target := some ("coverage:" ++ toString covId),
      beforeState := .obj [("state", optStr (fromState.map CoverageState.value))],
      afterState := .obj [("state", .str sm.toState.value)], requestId := some given }
  let event : OutboxEvent :=
    { kind := "coverage.state_changed", coverageId := some covId, runId,
      payload := [("request_id", .str given), ("to_state", .str sm.toState.value),
        ("cause", .str sm.cause)],
      dedupeKey := .fresh "coverage.state_changed" covId s.loaded.outbox.length,
      availableAt := env.now }
  have hrecorded : Recorded row audit event :=
    ⟨rfl, rfl, rfl, by simp [event, row, JsonObject.get, List.lookup_cons], given, rfl,
      by simp [event, JsonObject.get]⟩
  refine ⟨row, audit, event, rfl, rfl, rfl, hrecorded, rfl, hsame.trans ?_⟩
  simp [Db.journal, Db.ledger, Db.stateChanges, List.filter_append, row, audit, event, given]

theorem CoverageTransition.edge_of_transition {row : CoverageTransition}
    {ctx : TransitionContext} (hsm : transition row.fromState action ctx = .ok sm)
    (hto : row.toState = sm.toState) : row.Edge :=
  ⟨action, sm, (transition_eq_ok.1 hsm).1, hto.symm⟩

theorem next_propose {ticker exchange name currency : String} {isin : Option String}
    (h : Returns (propose env ticker exchange name currency actorId notes isin requestId)
      s covId s') :
    s.loaded.journal.Next s'.loaded.journal ∧ s'.stored.journal = s'.loaded.journal := by
  unfold propose at h
  rw [returns_inspect_bind, returns_assign_bind, returns_flush_bind] at h
  obtain ⟨-, h⟩ := h
  obtain ⟨sm, hsm, h⟩ := returns_ofExcept_bind.1 h
  obtain ⟨_, s₁, hrecord, hpure⟩ := returns_bind.1 h
  obtain ⟨-, rfl⟩ := returns_pure.1 hpure
  obtain ⟨row, audit, event, hcov, hfrom, hto, hrecorded, hstored, hjournal⟩ :=
    journal_record hrecord
  have hproposed : sm.toState = .proposed := by
    have hentry := (transition_eq_ok.1 hsm).1
    cases hentry
    rfl
  have hlength : row.coverageId = s.loaded.journal.ledger.coverages.length := by
    rw [hcov]
    exact (List.length_map _).symm
  have hedge := CoverageTransition.edge_of_transition (hfrom ▸ hsm) hto
  rw [hstored, hjournal]
  refine ⟨?_, rfl⟩
  have hmap (cov : Coverage) : ((s.loaded.coverages ++ [cov]).map fun cov =>
      (cov.dossierSlug, cov.state)) =
        s.loaded.journal.ledger.coverages ++ [(cov.dossierSlug, cov.state)] := List.map_append
  exact (congrArg (fun coverages => s.loaded.journal.Next ⟨⟨coverages, _⟩, _, _⟩) (hmap _)).mpr
    (.propose hlength hfrom (hto.trans hproposed) hedge hrecorded)

theorem Db.ledger_state {db : Db} {cov : Coverage} (h : db.coverages[covId]? = some cov) :
    db.ledger.state covId = some cov.state := by
  simp [Ledger.state, Db.ledger, h]

theorem next_transitionCoverage
    (h : Returns (transitionCoverage env covId action actorType actorId runId force notes requestId)
      s u s') :
    s.loaded.journal.Next s'.loaded.journal ∧ s'.stored.journal = s'.loaded.journal := by
  unfold transitionCoverage at h
  obtain ⟨cov, hcov, h⟩ := of_returns_getCoverage_bind h
  obtain ⟨ctx, s₁, hctx, h⟩ := returns_bind.1 h
  obtain ⟨rfl, -⟩ := returns_buildCtx hctx
  obtain ⟨sm, hsm, h⟩ := returns_ofExcept_bind.1 h
  rw [returns_assign_bind] at h
  obtain ⟨row, audit, event, hrow, hfrom, hto, hrecorded, hstored, hjournal⟩ := journal_record h
  have hedge := CoverageTransition.edge_of_transition (hfrom ▸ hsm) hto
  rw [hstored, hjournal, Db.ledger_updateCoverage (h := fun cov => (cov.1, row.toState))
    fun cov => by rw [hto]]
  refine ⟨?_, rfl⟩
  exact .move (Db.ledger_state hcov) hrow hfrom hedge hrecorded

theorem next_setLead {house : String} {rationale : Option String}
    (h : Returns (setLead env covId house actorId runId rationale) s u s') :
    s.loaded.journal.Next s'.loaded.journal ∧ s'.stored.journal = s'.loaded.journal := by
  unfold setLead at h
  obtain ⟨cov, hcov, h⟩ := of_returns_getCoverage_bind h
  rw [returns_select_bind] at h
  obtain ⟨sm, hsm, h⟩ := returns_ofExcept_bind.1 h
  rw [returns_assign_bind] at h
  obtain ⟨_, s₁, hrecord, h⟩ := returns_bind.1 h
  obtain ⟨row, audit, event, hrow, hfrom, hto, hrecorded, hstored, hjournal⟩ :=
    journal_record hrecord
  rw [returns_assign] at h
  subst h
  change s.loaded.journal.Next s₁.loaded.journal ∧ s₁.stored.journal = s₁.loaded.journal
  have hstay : row.toState = cov.state := by
    have hentry := (transition_eq_ok.1 hsm).1
    rw [hto]
    cases hsame : cov.state <;> rw [hsame] at hentry <;> cases hentry <;> rfl
  have hedge := CoverageTransition.edge_of_transition (hfrom ▸ hsm) hto
  have hsame : (s.loaded.ledger.coverages.modify covId fun cov => (cov.1, row.toState)) =
      s.loaded.ledger.coverages := by
    refine List.ext_getElem? fun k => ?_
    by_cases hk : k = covId
    · have hentry : s.loaded.ledger.coverages[covId]? = some (cov.dossierSlug, cov.state) := by
        simp [Db.ledger, hcov]
      rw [hk, getElem?_modify_self hentry, hentry, hstay]
    · exact getElem?_modify_of_ne hk
  have hlead : (s.loaded.updateCoverage covId fun cov => { cov with leadHouse := some house }).ledger =
      s.loaded.ledger := Db.ledger_updateCoverage_of_eq fun _ => rfl
  rw [hstored, hjournal, hlead, ← hsame]
  refine ⟨?_, rfl⟩
  exact .move (Db.ledger_state hcov) hrow hfrom hedge hrecorded

theorem Journal.Next.kept {journal next : Journal} (h : journal.Next next)
    (hkept : journal.ledger.Kept) : next.ledger.Kept := by
  cases h with
  | propose hcov hfrom hto => exact hkept.propose hcov hto
  | move hstate hcov hfrom => exact hkept.record hstate hcov hfrom

theorem upholds_of_next {α : Type} {m : DbTxn α}
    (hm : ∀ s a s', Returns m s a s' → s.loaded.journal.Next s'.loaded.journal ∧
      s'.stored.journal = s'.loaded.journal) : Upholds Db.KeepsLedger m := by
  intro s a s' h hs
  obtain ⟨hnext, hstored⟩ := hm s a s' h
  have hkept : s'.loaded.journal.ledger.Kept := hnext.kept hs.2
  refine ⟨?_, hkept⟩
  rw [← hstored] at hkept
  exact hkept

theorem upholds_propose {ticker exchange name currency : String} {isin : Option String} :
    Upholds Db.KeepsLedger (propose env ticker exchange name currency actorId notes isin requestId) :=
  upholds_of_next fun _ _ _ h => next_propose h

theorem upholds_transitionCoverage :
    Upholds Db.KeepsLedger
      (transitionCoverage env covId action actorType actorId runId force notes requestId) :=
  upholds_of_next fun _ _ _ h => next_transitionCoverage h

theorem upholds_setLead {house : String} {rationale : Option String} :
    Upholds Db.KeepsLedger (setLead env covId house actorId runId rationale) :=
  upholds_of_next fun _ _ _ h => next_setLead h

/-! ## Histories -/

theorem overlooks_keepsLedger : OverlooksRuns Db.KeepsLedger where
  stage _ _ _ _ h := h
  cost _ _ _ h := h
  attempts _ _ h := h
  locks _ _ h := h
  levels _ _ h := h
  events _ _ h := h
  newsArticles _ _ h := h
  auditLog _ _ h := h
  idempotencyKeys _ _ h := h
  schedulerJobLogs _ _ h := h
  run _ _ _ _ h := h
  gate _ _ _ h := h
  outbox _ _ _ h := h
  predictions _ _ h := h
  crossCheck _ _ _ h := h
  transition _ _ _ _ _ _ _ _ _ _ := upholds_transitionCoverage
  decision _ _ _ _ _ _ _ _ _ _ := upholds_transitionCoverage

theorem step_keepsLedger {db : Db} (h : db.KeepsLedger) (op : Op) :
    (step app db op).KeepsLedger := by
  have horigins : Origins Db.KeepsLedger app.fund :=
    { createRun := fun _ _ _ _ _ _ _ _ => upholds_createRun (fun _ _ h => h) fun _ _ h => h
      propose := fun _ _ _ _ _ _ _ _ _ => upholds_propose
      setLead := fun _ _ _ _ _ _ => upholds_setLead }
  exact overlooks_keepsLedger.step horigins h op fun _ _ _ _ _ _ _ _ =>
    upholds_answerGate fun _ h => h

/-- In every history, every coverage is traced by its rows. -/
theorem run_keepsLedger {db : Db} (hcoverages : db.coverages = []) (htransitions : db.transitions = [])
    (ops : List Op) : (run app db ops).ledger.Kept := by
  refine History.invariant_of_forall (I := Db.KeepsLedger) (fun _ op h => step_keepsLedger h op) ?_
  constructor
  · intro row hrow
    simp [Db.ledger, htransitions] at hrow
  · intro covId hcovId
    simp [Db.ledger, hcoverages] at hcovId

end AiFund
