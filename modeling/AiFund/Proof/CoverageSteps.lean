import AiFund.Proof.RunSteps

/-!
# Steps of the coverage repository

A transition lands in one write: the state of the coverage and what its side effects do to gates.
-/

namespace AiFund

open UnitOfWork Rows

variable {env : Env} {s s₁ s' : Session Db} {covId r g : Nat} {action : Action}
  {actorType : ActorType} {actorId : String} {runId : Option Nat} {notes requestId : Option String}
  {sm : Transition} {u : Unit}

/-! ## Side effects -/

/-- A side effect that leaves the gates alone. -/
def SideEffect.quiet : SideEffect → Bool
  | .cancelOpenGate | .openGateInitiationDecision | .answerGate => false
  | _ => true

theorem Db.life_updateCoverage_of_eq (db : Db) {f : Coverage → Coverage}
    (h : ∀ cov, (f cov).state = cov.state) : (db.updateCoverage covId f).life = db.life := by
  have hstates : (db.coverages.modify covId f).map (·.state) =
      (db.coverages.map (·.state)).modify covId id := map_modify h
  unfold updateCoverage life
  rw [hstates, List.modify_id]

theorem drafts_applySideEffect {requestId : String} {effect : SideEffect}
    (h : effect.quiet = true) :
    Drafts Db.life (applySideEffect env covId action actorId runId requestId effect) := by
  cases effect with
  | outbox kind =>
      unfold applySideEffect
      exact .ite (.pure _) drafts_addOutbox
  | setLeadHouse =>
      refine .bind (.inspect _) fun found => ?_
      cases found with
      | none => exact .pure _
      | some run =>
          refine .bind (drafts_ofExcept _ _) fun house => .assign fun db => ?_
          exact db.life_updateCoverage_of_eq fun _ => rfl
  | cancelOpenGate => cases h
  | openGateInitiationDecision => cases h
  | answerGate => cases h
  | _ => exact .pure _

theorem drafts_addAudit {row : AuditLog} : Drafts Db.life (addAudit row) := .assign fun _ => rfl

/-- The rows of a transition are invisible to the lifecycle, up to the side effects. -/
theorem returns_record {fromState : Option CoverageState}
    (h : Returns (record env covId fromState sm action actorType actorId runId notes requestId)
      s u s') :
    ∃ s₁ s₂ requestId, s₁.stored = s.stored ∧ s₁.written = s.written ∧
      s₁.loaded.life = s.loaded.life ∧
      Returns (sm.sideEffects.forM (applySideEffect env covId action actorId runId requestId))
        s₁ ⟨⟩ s₂ ∧
      Lands s₂.loaded.life s₂ s' := by
  unfold record at h
  rw [returns_inspect_bind] at h
  obtain ⟨_, s₁, haudit, h⟩ := returns_bind.1 (returns_assign_bind.1 h)
  obtain ⟨_, s₂, houtbox, h⟩ := returns_bind.1 h
  obtain ⟨_, s₃, heffects, hflush⟩ := returns_bind.1 h
  obtain ⟨hstored, hwritten, hloaded⟩ := drafts_addAudit haudit
  obtain ⟨hstored', hwritten', hloaded'⟩ := drafts_addOutbox houtbox
  exact ⟨s₂, s₃, _, hstored'.trans hstored, hwritten'.trans hwritten, hloaded'.trans hloaded,
    heffects, lands_flush hflush⟩

theorem lands_record_quiet {fromState : Option CoverageState}
    (hquiet : ∀ effect ∈ sm.sideEffects, effect.quiet = true)
    (h : Returns (record env covId fromState sm action actorType actorId runId notes requestId)
      s u s') : Lands s.loaded.life s s' := by
  obtain ⟨s₁, s₂, _, -, hwritten, hloaded, heffects, hlands⟩ := returns_record h
  obtain ⟨-, hwritten', hloaded'⟩ :=
    Drafts.forM (fun effect heffect => drafts_applySideEffect (hquiet effect heffect)) heffects
  exact hlands.congr (hloaded'.trans hloaded) (hwritten'.trans hwritten)

theorem lands_record_deliver {fromState : Option CoverageState}
    (hdelivered : sm.sideEffects = [.openGateInitiationDecision, .outbox "gate.opened"])
    (h : Returns (record env covId fromState sm action actorType actorId (some r) notes requestId)
      s u s') : Lands (s.loaded.life.addGate (initiationGate r (some covId))) s s' := by
  obtain ⟨s₁, s₂, _, -, hwritten, hloaded, heffects, hlands⟩ := returns_record h
  rw [hdelivered] at heffects
  obtain ⟨s₃, hopen, hrest⟩ := returns_forM_cons.1 heffects
  obtain ⟨-, hwritten', hloaded'⟩ := Drafts.forM (fun effect heffect => by
    obtain rfl := List.mem_singleton.1 heffect
    exact drafts_applySideEffect rfl) hrest
  unfold applySideEffect at hopen
  obtain ⟨gateRunId, hgateRun, hassign⟩ := returns_ofExcept_bind.1 hopen
  cases hgateRun
  rw [returns_assign] at hassign
  subst hassign
  refine hlands.congr ?_ (hwritten'.trans hwritten)
  rw [hloaded', ← hloaded]
  exact Db.life_addGate _ _

theorem lands_record_answer {fromState : Option CoverageState} {rest : List SideEffect}
    {answer : String} (heffects : sm.sideEffects = .answerGate :: rest)
    (hquiet : ∀ effect ∈ rest, effect.quiet = true)
    (hgate : openGateOfRun env r s.stored = some g) (hanswer : decisionAnswer action = some answer)
    (h : Returns (record env covId fromState sm action actorType actorId (some r) notes requestId)
      s u s') : Lands (s.loaded.life.answer g answer) s s' := by
  obtain ⟨s₁, s₂, _, hstored, hwritten, hloaded, hall, hlands⟩ := returns_record h
  rw [heffects] at hall
  obtain ⟨s₃, hanswered, hrest⟩ := returns_forM_cons.1 hall
  obtain ⟨-, hwritten', hloaded'⟩ :=
    Drafts.forM (fun effect heffect => drafts_applySideEffect (hquiet effect heffect)) hrest
  unfold applySideEffect at hanswered
  rw [returns_select_bind, hstored, Option.bind_some, hgate] at hanswered
  obtain ⟨text, htext, hassign⟩ := returns_ofExcept_bind.1 hanswered
  rw [hanswer] at htext
  cases htext
  rw [returns_assign] at hassign
  subst hassign
  refine hlands.congr ?_ (hwritten'.trans hwritten)
  rw [hloaded', ← hloaded]
  exact Db.life_answer _ fun _ => rfl

/-! ## Transitions -/

theorem of_returns_getCoverage_bind {α : Type} {b : α} {f : Coverage → DbTxn α}
    (h : Returns (getCoverage action covId >>= f) s b s') :
    ∃ cov, s.loaded.coverages[covId]? = some cov ∧ Returns (f cov) s b s' := by
  obtain ⟨cov, s₁, hcov, h'⟩ := returns_bind.1 h
  unfold getCoverage at hcov
  rw [returns_lookup_bind] at hcov
  split at hcov
  · rename_i found hfound
    obtain ⟨rfl, hs₁⟩ := returns_pure.1 hcov
    rw [hs₁] at h'
    split_ifs at hfound with hid
    exact ⟨cov, hfound, h'⟩
  · exact absurd hcov not_returns_raise

theorem life_coverage {cov : Coverage} (hs : Synced Db.life s)
    (h : s.loaded.coverages[covId]? = some cov) :
    s.stored.life.coverages[covId]? = some cov.state := by
  rw [← hs]
  simp [Db.life, h]

theorem returns_buildCtx {cov : Coverage} {force : Bool} {ctx : TransitionContext}
    (h : Returns (buildCtx env cov action runId force notes) s ctx s') :
    s' = s ∧ ctx = {
      force
      noteProvided := noteGiven notes
      hasOpenPosition := hasOpenPosition cov.ticker s.stored
      gateOpen := action ∉ decideActions ||
        (runId.bind fun r => (openGateOfRun env r s.stored).bind (s.stored.gates[·]?)).isSome
      answerInAllowed := action ∉ decideActions ||
        (runId.bind fun r => (openGateOfRun env r s.stored).bind (s.stored.gates[·]?)).any
          fun gate => (decisionAnswer action).any fun answer => answer ∈ gate.allowedAnswers } := by
  unfold buildCtx at h
  rw [returns_select_bind, returns_select_bind] at h
  obtain ⟨rfl, rfl⟩ := returns_pure.1 h
  exact ⟨rfl, rfl⟩

/-- A transition reads the coverage, checks the guards, and records with the state written. -/
theorem returns_transitionCoverage {force : Bool}
    (h : Returns (transitionCoverage env covId action actorType actorId runId force notes requestId)
      s u s') (hs : Synced Db.life s) :
    ∃ cov ctx sm s₁, s.loaded.coverages[covId]? = some cov ∧
      Returns (buildCtx env cov action runId force notes) s ctx s ∧
      entries (some cov.state) action = some sm ∧ checkGuards action ctx = none ∧
      s₁.stored = s.stored ∧ s₁.written = s.written ∧
      s₁.loaded.life = s.stored.life.setCoverage covId sm.toState ∧
      Returns (record env covId (some cov.state) sm action actorType actorId runId notes requestId)
        s₁ u s' := by
  unfold transitionCoverage at h
  obtain ⟨cov, hcov, h⟩ := of_returns_getCoverage_bind h
  obtain ⟨ctx, s₁, hctx, h⟩ := returns_bind.1 h
  have hsame := (returns_buildCtx hctx).1
  rw [hsame] at hctx h
  obtain ⟨sm, hsm, h⟩ := returns_ofExcept_bind.1 h
  obtain ⟨hentry, hguards⟩ := transition_eq_ok.1 hsm
  rw [returns_assign_bind] at h
  refine ⟨cov, ctx, sm, { s with loaded := s.loaded.updateCoverage covId _ }, hcov, hctx, hentry,
    hguards, rfl, rfl, ?_, h⟩
  rw [← hs]
  exact Db.life_updateCoverage _

/-- An action whose side effects leave the gates alone. -/
def Action.quiet : Action → Bool
  | .initiationDelivered | .initiationCancelled | .decideActive | .decideWatch
  | .decideReject => false
  | _ => true

theorem entries_quiet {state : Option CoverageState} (h : entries state action = some sm)
    (hquiet : action.quiet = true) : ∀ effect ∈ sm.sideEffects, effect.quiet = true := by
  cases state with
  | none =>
      cases action <;> cases h
      decide
  | some state => cases state <;> cases action <;> cases h <;> first | decide | cases hquiet

theorem lands_transition_quiet {force : Bool} (hquiet : action.quiet = true)
    (h : Returns (transitionCoverage env covId action actorType actorId runId force notes requestId)
      s u s') (hs : Synced Db.life s) :
    ∃ state sm, s.stored.life.coverages[covId]? = some state ∧
      entries (some state) action = some sm ∧
      Lands (s.stored.life.setCoverage covId sm.toState) s s' := by
  obtain ⟨cov, ctx, sm, s₁, hcov, -, hentry, -, -, hwritten, hloaded, hrecord⟩ :=
    returns_transitionCoverage h hs
  exact ⟨cov.state, sm, life_coverage hs hcov, hentry,
    (lands_record_quiet (entries_quiet hentry hquiet) hrecord).congr hloaded hwritten⟩

theorem takes_shift {force : Bool} (hshift : action.shifts = true)
    (h : Returns (transitionCoverage env covId action actorType actorId runId force notes requestId)
      s u s') (hs : Synced Db.life s) : Takes (.shift covId action) s s' := by
  have hquiet : action.quiet = true := by cases action <;> first | rfl | cases hshift
  obtain ⟨state, sm, hstate, hentry, hlands⟩ := lands_transition_quiet hquiet h hs
  exact hlands.takes (.of_runs rfl) (.shift hstate hshift hentry)

theorem lands_transition_deliver {force : Bool}
    (h : Returns (transitionCoverage env covId .initiationDelivered actorType actorId (some r) force
      notes requestId) s u s') (hs : Synced Db.life s) :
    s.stored.life.coverages[covId]? = some .initiating ∧
      Lands ((s.stored.life.setCoverage covId .decisionPending).addGate
        (initiationGate r (some covId))) s s' := by
  obtain ⟨cov, ctx, sm, s₁, hcov, -, hentry, -, -, hwritten, hloaded, hrecord⟩ :=
    returns_transitionCoverage h hs
  have hstate := life_coverage hs hcov
  cases hcovState : cov.state <;> rw [hcovState] at hentry hstate <;> cases hentry
  have hlands := lands_record_deliver rfl hrecord
  rw [hloaded] at hlands
  exact ⟨hstate, hlands.congr rfl hwritten⟩

/-! ## Decisions -/

theorem openGateOfRun_eq_some {db : Db} (h : openGateOfRun env r db = some g) :
    ∃ gate, db.gates[g]? = some gate ∧ gate.runId = r ∧ gate.state = .opened := by
  obtain ⟨gate, hgate, hopen⟩ := (env.rows .gateOfRun).of_first h
  simp only [Bool.and_eq_true, decide_eq_true_eq] at hopen
  exact ⟨gate, hgate, hopen⟩

theorem decision_guards {answer : String} {ctx : TransitionContext}
    (hanswer : decisionAnswer action = some answer) (h : checkGuards action ctx = none) :
    action ∈ decideActions ∧ ctx.gateOpen = true ∧ ctx.answerInAllowed = true := by
  have hguard : (if !ctx.gateOpen then some "decide requires an open gate"
      else if !ctx.answerInAllowed then some "answer is not in allowed_answers" else none) =
        (none : Option String) := by
    cases action <;> first | exact h | cases hanswer
  have hmem : action ∈ decideActions := by
    cases action <;> first | decide | cases hanswer
  cases hopen : ctx.gateOpen <;> cases hallowed : ctx.answerInAllowed <;>
    simp [hopen, hallowed] at hguard
  exact ⟨hmem, rfl, rfl⟩

theorem entries_decision {state : CoverageState} {answer : String}
    (h : entries (some state) action = some sm) (hanswer : decisionAnswer action = some answer) :
    state = .decisionPending ∧ ∃ rest, sm.sideEffects = .answerGate :: rest ∧
      ∀ effect ∈ rest, effect.quiet = true := by
  cases action <;> cases hanswer <;> cases state <;> cases h <;>
    exact ⟨rfl, _, rfl, by decide⟩

/-- A decision answers an open gate of its run that allows the answer. -/
theorem returns_decision {force : Bool} {answer : String}
    (hanswer : decisionAnswer action = some answer)
    (h : Returns (transitionCoverage env covId action actorType actorId runId force notes requestId)
      s u s') (hs : Synced Db.life s) :
    ∃ r g gate sm, runId = some r ∧ openGateOfRun env r s.stored = some g ∧
      s.stored.gates[g]? = some gate ∧ gate.runId = r ∧ gate.state = .opened ∧
      answer ∈ gate.allowedAnswers ∧ s.stored.life.coverages[covId]? = some .decisionPending ∧
      entries (some .decisionPending) action = some sm ∧
      Lands ((s.stored.life.setCoverage covId sm.toState).answer g answer) s s' := by
  obtain ⟨cov, ctx, sm, s₁, hcov, hctx, hentry, hguards, hstored, hwritten, hloaded, hrecord⟩ :=
    returns_transitionCoverage h hs
  obtain ⟨hmem, hopen, hallowed⟩ := decision_guards hanswer hguards
  obtain ⟨hstate, rest, heffects, hquiet⟩ := entries_decision hentry hanswer
  rw [(returns_buildCtx hctx).2] at hopen hallowed
  cases runId with
  | none => simp [hmem] at hopen
  | some r =>
      cases hg : openGateOfRun env r s.stored with
      | none => simp [hmem, hg] at hopen
      | some g =>
          obtain ⟨gate, hgate, hrunId, hgateOpen⟩ := openGateOfRun_eq_some hg
          have hmemAnswer : answer ∈ gate.allowedAnswers := by
            simpa [hmem, hg, hgate, hanswer] using hallowed
          have hlands := lands_record_answer heffects hquiet (hstored ▸ hg) hanswer hrecord
          rw [hloaded] at hlands
          rw [hstate] at hentry
          refine ⟨r, g, gate, sm, rfl, hg, hgate, hrunId, hgateOpen, hmemAnswer, ?_, hentry,
            hlands.congr rfl hwritten⟩
          rw [life_coverage hs hcov, hstate]

/-! ## Proposals and leads -/

theorem Db.life_addCoverage (db : Db) (cov : Coverage) :
    Db.life { db with coverages := db.coverages ++ [cov] } =
      { db.life with coverages := db.life.coverages ++ [cov.state] } := by
  simp [life]

theorem takes_propose {ticker exchange name currency : String} {isin : Option String}
    {id : Nat}
    (h : Returns (propose env ticker exchange name currency actorId notes isin requestId) s id s')
    (hs : Synced Db.life s) : Takes .propose s s' := by
  unfold propose at h
  rw [returns_inspect_bind, returns_assign_bind] at h
  obtain ⟨_, s₁, hflush, h⟩ := returns_bind.1 h
  obtain ⟨sm, hsm, h⟩ := returns_ofExcept_bind.1 h
  obtain ⟨_, s₂, hrecord, h⟩ := returns_bind.1 h
  obtain ⟨-, rfl⟩ := returns_pure.1 h
  have hlands : Lands { s.stored.life with coverages := s.stored.life.coverages ++ [.proposed] }
      s s₁ := by
    refine (lands_flush hflush).congr ?_ rfl
    rw [← hs]
    exact Db.life_addCoverage _ _
  have hquiet := entries_quiet (transition_eq_ok.1 hsm).1 rfl
  have hsecond := lands_record_quiet hquiet hrecord
  exact (hlands.takes (.of_runs rfl) .propose).before (hsecond.still hlands.synced.symm)

theorem keeps_setLead {house : String} {rationale : Option String} :
    Keeps Db.life (setLead env covId house actorId runId rationale) := by
  intro s u s' h hs
  unfold setLead at h
  obtain ⟨cov, hcov, h⟩ := of_returns_getCoverage_bind h
  rw [returns_select_bind] at h
  obtain ⟨sm, hsm, h⟩ := returns_ofExcept_bind.1 h
  rw [returns_assign_bind] at h
  obtain ⟨_, s₁, hrecord, hhistory⟩ := returns_bind.1 h
  have hlands := lands_record_quiet (entries_quiet (transition_eq_ok.1 hsm).1 rfl) hrecord
  have hlands' : Lands s.stored.life s s₁ := by
    refine hlands.congr ?_ rfl
    rw [← hs]
    exact Db.life_updateCoverage_of_eq _ fun _ => rfl
  have hstill := hlands'.still rfl
  refine hstill.trans (Keeps.assign ?_ hhistory hstill.synced)
  exact fun _ => rfl

end AiFund
