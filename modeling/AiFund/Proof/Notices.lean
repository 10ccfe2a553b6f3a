import AiFund.Library.Traced
import AiFund.Proof.Ledger
import AiFund.Proof.Program

/-!
# What the desk is told

The events in the outbox against the transitions, the gates and the ends of the runs that they tell
of, after every history of the system.
-/

namespace AiFund

open UnitOfWork Rows

/-- The events, and what they are to tell of. -/
structure Feed where
  events : List OutboxEvent
  transitions : List CoverageTransition
  gates : List (Nat × GateKind)
  statuses : List RunStatus

def Db.feed (db : Db) : Feed :=
  ⟨db.outbox, db.transitions, db.gates.map fun gate => (gate.runId, gate.kind),
    db.runs.map (·.status)⟩

/-- A transition that announces the end of its run by itself. -/
def CoverageTransition.endsRun (row : CoverageTransition) : Bool :=
  row.cause = "initiation_failed" || row.cause = "initiation_cancelled"

namespace Feed

variable (feed : Feed)

def ofKind (kind : String) : List OutboxEvent := feed.events.filter fun event => event.kind = kind

def initiationGates : List Nat :=
  (feed.gates.filter fun gate => gate.2 = .initiationDecision).map (·.1)

def ended (runId : Nat) : Bool := feed.statuses[runId]?.any RunStatus.terminal

/-- Every transition and every initiation gate is told of once, in order, and the end of a run once,
with one telling more for each transition that announces it. -/
structure Announced : Prop where
  changes : ((feed.ofKind "coverage.state_changed").map fun event =>
      (event.coverageId, event.runId, event.payload.get "to_state", event.payload.get "cause")) =
    feed.transitions.map fun row =>
      (some row.coverageId, row.runId, .str row.toState.value, .str row.cause)
  gates : (feed.ofKind "gate.opened").map (·.runId) = feed.initiationGates.map some
  ends : ∀ runId, (feed.ofKind "run.finished").countP (fun event => event.runId = some runId) =
    (feed.ended runId).toNat +
      feed.transitions.countP fun row => row.runId = some runId && row.endsRun

end Feed

def Db.Announced (db : Db) : Prop := db.feed.Announced

variable {app : App} {env : Env} {fund : FundConfig} {covId r : Nat} {action : Action}
  {actorType : ActorType} {actorId pm slug : String} {runId : Option Nat} {force : Bool}
  {notes requestId : Option String} {sm : Transition} {s s' : Session Db} {u : Unit} {feed : Feed}
  {row : CoverageTransition} {event : OutboxEvent}

/-! ## Additions to the feed -/

/-- The event tells of the transition. -/
structure OutboxEvent.TellsOf (event : OutboxEvent) (row : CoverageTransition) : Prop where
  kind : event.kind = "coverage.state_changed"
  coverageId : event.coverageId = some row.coverageId
  runId : event.runId = row.runId
  toState : event.payload.get "to_state" = .str row.toState.value
  cause : event.payload.get "cause" = .str row.cause

namespace Feed.Announced

variable (h : feed.Announced)
include h

theorem addTransition (htells : event.TellsOf row) (hends : row.endsRun = false) :
    Announced { feed with
      events := feed.events ++ [event], transitions := feed.transitions ++ [row] } := by
  obtain ⟨hkind, hcoverage, hrun, hto, hcause⟩ := htells
  constructor
  · have hchanges := h.changes
    simp only [ofKind, List.filter_append, List.map_append] at hchanges ⊢
    rw [hchanges]
    simp [hkind, hcoverage, hrun, hto, hcause]
  · have hgates := h.gates
    simp only [ofKind, List.filter_append, List.map_append] at hgates ⊢
    rw [hgates]
    simp [hkind, initiationGates]
  · intro runId
    have hends' := h.ends runId
    simp only [ofKind, List.filter_append, List.countP_append] at hends' ⊢
    rw [hends']
    simp [hkind, hends, ended]

/-- A transition that opens the gate of its run. -/
theorem deliver {opened : OutboxEvent} (htells : event.TellsOf row) (hends : row.endsRun = false)
    (hkind : opened.kind = "gate.opened") (hrun : opened.runId = some r) :
    Announced { feed with
      events := feed.events ++ [event] ++ [opened], transitions := feed.transitions ++ [row],
      gates := feed.gates ++ [(r, .initiationDecision)] } := by
  obtain ⟨hchanges, hgates, hends⟩ := h.addTransition htells hends
  constructor
  · refine Eq.trans ?_ hchanges
    simp [ofKind, htells.kind, hkind]
  · simp only [ofKind, initiationGates, List.filter_append, List.map_append] at hgates ⊢
    rw [hgates]
    simp [hkind, hrun]
  · intro runId
    refine Eq.trans ?_ (hends runId)
    simp [ofKind, htells.kind, hkind]

/-- A transition that announces the end of its run. -/
theorem announceEnd {finished : OutboxEvent} (htells : event.TellsOf row)
    (hends : row.endsRun = true) (hkind : finished.kind = "run.finished")
    (hrun : finished.runId = row.runId) :
    Announced { feed with
      events := feed.events ++ [event] ++ [finished],
      transitions := feed.transitions ++ [row] } := by
  obtain ⟨hkind', hcoverage, hrun', hto, hcause⟩ := htells
  constructor
  · have hchanges := h.changes
    simp only [ofKind, List.filter_append, List.map_append] at hchanges ⊢
    rw [hchanges]
    simp [hkind, hkind', hcoverage, hrun', hto, hcause]
  · have hgates := h.gates
    simp only [ofKind, List.filter_append, List.map_append] at hgates ⊢
    rw [hgates]
    simp [hkind, hkind', initiationGates]
  · intro runId
    have hends' := h.ends runId
    simp only [ofKind, List.filter_append, List.countP_append] at hends' ⊢
    rw [hends']
    simp [hkind, hkind', hends, hrun, ended, Nat.add_assoc, List.countP_singleton]

/-- A run that had not ended has ended, and an event tells of it. -/
theorem finish {status : RunStatus} (hlive : feed.ended r = false) (hr : r < feed.statuses.length)
    (hstatus : status.terminal = true) (hkind : event.kind = "run.finished")
    (hrun : event.runId = some r) :
    Announced { feed with
      events := feed.events ++ [event], statuses := feed.statuses.modify r fun _ => status } := by
  constructor
  · refine Eq.trans ?_ h.changes
    simp [ofKind, hkind]
  · refine Eq.trans ?_ h.gates
    simp [ofKind, hkind]
  · intro runId
    have hends' := h.ends runId
    simp only [ofKind, List.filter_append, List.countP_append] at hends' ⊢
    rw [hends']
    by_cases hid : runId = r
    · subst hid
      have hstatus' : (feed.statuses.modify runId fun _ => status)[runId]? = some status :=
        getElem?_modify_self (List.getElem?_eq_getElem hr)
      simp only [ended] at hlive ⊢
      rw [hlive, hstatus']
      simp [hkind, hrun, hstatus, Nat.add_comm]
    · have hsame : (feed.statuses.modify r fun _ => status)[runId]? = feed.statuses[runId]? :=
        getElem?_modify_of_ne hid
      simp only [ended]
      rw [hsame]
      simp [hkind, hrun, Ne.symm hid]

/-- What is told depends on no more of the runs than which of them have ended. -/
theorem congr_ended {statuses : List RunStatus}
    (hended : ∀ runId, statuses[runId]?.any RunStatus.terminal = feed.ended runId) :
    Announced { feed with statuses } :=
  ⟨h.changes, h.gates, fun runId => by
    have hends := h.ends runId
    rw [← hended runId] at hends
    exact hends⟩

end Feed.Announced

/-! ## Transitions -/

/-- The side effect adds nothing to the feed. -/
def SideEffect.silent : SideEffect → Bool
  | .outbox kind => kind = "coverage.state_changed"
  | .openGateInitiationDecision => false
  | _ => true

theorem fixes_feed_applySideEffect {requestId : String} {effect : SideEffect}
    (h : effect.silent = true) :
    Fixes Db.feed (applySideEffect env covId action actorId runId requestId effect) := by
  cases effect with
  | outbox kind =>
      rw [applySideEffect, if_pos (of_decide_eq_true h)]
      exact .pure _
  | cancelOpenGate =>
      unfold applySideEffect
      refine .execute fun db => ?_
      simp only [Db.feed, List.map_map]
      congr 1
      refine List.map_congr_left fun gate _ => ?_
      simp only [Function.comp_apply]
      split <;> rfl
  | openGateInitiationDecision => cases h
  | answerGate =>
      refine .bind (.select _) fun found => ?_
      cases found with
      | none => exact .pure _
      | some gateId =>
          refine .bind (fixes_ofExcept _ _) fun _ => .assign fun db => ?_
          exact congrArg (fun gates => Feed.mk db.outbox db.transitions gates _)
            (map_modify_of_eq fun _ => rfl)
  | setLeadHouse =>
      refine .bind (.inspect _) fun found => ?_
      cases found with
      | none => exact .pure _
      | some run => exact .bind (fixes_ofExcept _ _) fun _ => .assign fun _ => rfl
  | _ => exact .pure _

/-- What a transition of the table tells of beside itself. -/
inductive Transition.Tells (sm : Transition) : Prop
  | itself (hcause : sm.cause ≠ "initiation_failed" ∧ sm.cause ≠ "initiation_cancelled")
      (hsilent : ∀ effect ∈ sm.sideEffects, effect.silent = true)
  | gate (hcause : sm.cause ≠ "initiation_failed" ∧ sm.cause ≠ "initiation_cancelled")
      (heffects : sm.sideEffects = [.openGateInitiationDecision, .outbox "gate.opened"])
  | ends (hcause : sm.cause = "initiation_failed" ∨ sm.cause = "initiation_cancelled")
      (first : List SideEffect) (hsilent : ∀ effect ∈ first, effect.silent = true)
      (heffects : sm.sideEffects = first ++ [.outbox "run.finished"])

theorem entries_tells {fromState : Option CoverageState} (h : entries fromState action = some sm) :
    sm.Tells := by
  cases fromState with
  | none =>
      cases action <;> cases h
      exact .itself (by decide) (by decide)
  | some state =>
      cases state <;> cases action <;> cases h <;> first
        | exact .itself (by decide) (by decide)
        | exact .gate (by decide) rfl
        | exact .ends (by decide) [] (by decide) rfl
        | exact .ends (by decide) [.cancelOpenGate, .retainBranch] (by decide) rfl

theorem fixes_feed_sideEffects {requestId : String} {effects : List SideEffect}
    (h : ∀ effect ∈ effects, effect.silent = true) :
    Fixes Db.feed (effects.forM (applySideEffect env covId action actorId runId requestId)) := by
  induction effects with
  | nil => exact .pure _
  | cons effect effects ih =>
      rw [List.forall_mem_cons] at h
      exact (fixes_feed_applySideEffect h.1).bind fun _ => ih h.2

theorem returns_outboxEffect {requestId kind : String} (hkind : kind ≠ "coverage.state_changed")
    (h : Returns (applySideEffect env covId action actorId runId requestId (.outbox kind)) s u s') :
    ∃ event : OutboxEvent, event.kind = kind ∧ event.runId = runId ∧ s'.loaded.feed =
      { s.loaded.feed with events := s.loaded.feed.events ++ [event] } := by
  rw [applySideEffect, if_neg hkind, addOutbox, returns_assign] at h
  subst h
  exact ⟨_, rfl, rfl, rfl⟩

/-- The side effects of a transition tell of the gate that it opens or the run that it ends. -/
theorem announced_sideEffects {requestId : String} (htells : sm.Tells) (hfeed : feed.Announced)
    (hevent : event.TellsOf row) (hcause : row.cause = sm.cause) (hrun : row.runId = runId)
    (hs : s.loaded.feed = { feed with
      events := feed.events ++ [event], transitions := feed.transitions ++ [row] })
    (h : Returns (sm.sideEffects.forM (applySideEffect env covId action actorId runId requestId))
      s ⟨⟩ s') : s'.loaded.Announced ∧ s'.loaded.feed.statuses = feed.statuses := by
  cases htells with
  | itself hname hsilent =>
      have hends : row.endsRun = false := by
        simp [CoverageTransition.endsRun, hcause, hname]
      rw [Db.Announced, (fixes_feed_sideEffects hsilent h).1, hs]
      exact ⟨hfeed.addTransition hevent hends, rfl⟩
  | gate hname heffects =>
      have hends : row.endsRun = false := by
        simp [CoverageTransition.endsRun, hcause, hname]
      rw [heffects] at h
      obtain ⟨s₁, hopen, hrest⟩ := returns_forM_cons.1 h
      obtain ⟨s₂, houtbox, hnil⟩ := returns_forM_cons.1 hrest
      obtain rfl := returns_forM_nil.1 hnil
      obtain ⟨opened, hkind, hopened, hs₂⟩ := returns_outboxEffect (by decide) houtbox
      unfold applySideEffect at hopen
      obtain ⟨r, hr, hassign⟩ := returns_ofExcept_bind.1 hopen
      obtain rfl : runId = some r := by
        cases runId with
        | none => cases hr
        | some k =>
            cases hr
            rfl
      rw [returns_assign] at hassign
      subst hassign
      have hgate (db : Db) (gate : PmGate) : Db.feed { db with gates := db.gates ++ [gate] } =
          { db.feed with gates := db.feed.gates ++ [(gate.runId, gate.kind)] } := by
        simp [Db.feed]
      rw [Db.Announced, hs₂, hgate, hs]
      exact ⟨hfeed.deliver hevent hends hkind hopened, rfl⟩
  | ends hname first hsilent heffects =>
      have hends : row.endsRun = true := by
        simp [CoverageTransition.endsRun, hcause, hname]
      rw [heffects] at h
      obtain ⟨s₁, hfirst, hrest⟩ := returns_forM_append.1 h
      obtain ⟨s₂, houtbox, hnil⟩ := returns_forM_cons.1 hrest
      obtain rfl := returns_forM_nil.1 hnil
      obtain ⟨finished, hkind, hfinished, hs₂⟩ := returns_outboxEffect (by decide) houtbox
      rw [Db.Announced, hs₂, (fixes_feed_sideEffects hsilent hfirst).1, hs]
      exact ⟨hfeed.announceEnd hevent hends hkind (hfinished.trans hrun.symm), rfl⟩

/-- A record tells of its transition. -/
theorem announced_record {fromState : Option CoverageState}
    (hentry : entries fromState action = some sm)
    (h : Returns (record env covId fromState sm action actorType actorId runId notes requestId)
      s u s') (hs : s.loaded.Announced) :
    s'.loaded.Announced ∧ s'.stored = s'.loaded ∧
      s'.loaded.feed.statuses = s.loaded.feed.statuses := by
  unfold record addAudit addOutbox at h
  rw [returns_inspect_bind, returns_assign_bind, returns_assign_bind, returns_assign_bind] at h
  obtain ⟨_, s₁, heffects, hflush⟩ := returns_bind.1 h
  obtain ⟨-, rfl⟩ := returns_flush.1 hflush
  let row : CoverageTransition :=
    { coverageId := covId, fromState, toState := sm.toState, actorType, actorId,
      cause := sm.cause, runId, notes }
  let event : OutboxEvent :=
    { kind := "coverage.state_changed", coverageId := some covId, runId,
      payload := [("request_id", .str ((requestId.filter (· ≠ "")).getD
          (env.uuidHex s.loaded.auditLog.length))),
        ("to_state", .str sm.toState.value), ("cause", .str sm.cause)],
      dedupeKey := .fresh "coverage.state_changed" covId s.loaded.outbox.length,
      availableAt := env.now }
  have htells : event.TellsOf row :=
    ⟨rfl, rfl, rfl, by simp [event, row, JsonObject.get, List.lookup_cons],
      by simp [event, row, JsonObject.get, List.lookup_cons]⟩
  obtain ⟨hannounced, hstatuses⟩ :=
    announced_sideEffects (entries_tells hentry) hs htells rfl rfl rfl heffects
  exact ⟨hannounced, rfl, hstatuses⟩

theorem upholds_propose_announced {ticker exchange name currency : String} {isin : Option String} :
    Upholds Db.Announced
      (propose env ticker exchange name currency actorId notes isin requestId) := by
  intro s covId s' h hs
  unfold propose at h
  rw [returns_inspect_bind, returns_assign_bind, returns_flush_bind] at h
  obtain ⟨-, h⟩ := h
  obtain ⟨sm, hsm, h⟩ := returns_ofExcept_bind.1 h
  obtain ⟨_, s₁, hrecord, hpure⟩ := returns_bind.1 h
  obtain ⟨-, rfl⟩ := returns_pure.1 hpure
  obtain ⟨hannounced, hstored, -⟩ := announced_record (transition_eq_ok.1 hsm).1 hrecord hs.2
  exact ⟨hstored ▸ hannounced, hannounced⟩

theorem announced_transitionCoverage
    (h : Returns (transitionCoverage env covId action actorType actorId runId force notes requestId)
      s u s') (hs : s.loaded.Announced) :
    s'.loaded.Announced ∧ s'.stored = s'.loaded ∧
      s'.loaded.feed.statuses = s.loaded.feed.statuses := by
  unfold transitionCoverage at h
  obtain ⟨cov, hcov, h⟩ := of_returns_getCoverage_bind h
  obtain ⟨ctx, s₁, hctx, h⟩ := returns_bind.1 h
  obtain ⟨rfl, -⟩ := returns_buildCtx hctx
  obtain ⟨sm, hsm, h⟩ := returns_ofExcept_bind.1 h
  have hrecorded := announced_record (transition_eq_ok.1 hsm).1 (returns_assign_bind.1 h) hs
  exact hrecorded

theorem upholds_transition_announced :
    Upholds Db.Announced
      (transitionCoverage env covId action actorType actorId runId force notes requestId) := by
  intro s u s' h hs
  obtain ⟨hannounced, hstored, -⟩ := announced_transitionCoverage h hs.2
  exact ⟨hstored ▸ hannounced, hannounced⟩

theorem upholds_setLead_announced {house : String} {rationale : Option String} :
    Upholds Db.Announced (setLead env covId house actorId runId rationale) := by
  intro s u s' h hs
  unfold setLead at h
  obtain ⟨cov, hcov, h⟩ := of_returns_getCoverage_bind h
  rw [returns_select_bind] at h
  obtain ⟨sm, hsm, h⟩ := returns_ofExcept_bind.1 h
  obtain ⟨_, s₁, hrecord, hassign⟩ := returns_bind.1 (returns_assign_bind.1 h)
  obtain ⟨hannounced, hstored, -⟩ := announced_record (transition_eq_ok.1 hsm).1 hrecord hs.2
  rw [returns_assign] at hassign
  subst hassign
  exact ⟨hstored ▸ hannounced, hannounced⟩

/-! ## Runs -/

/-- A write to a run that leaves it open if it was open. -/
theorem Db.Announced.updateRun {db : Db} {f : Run → Run} (h : db.Announced)
    (hf : ∀ run, db.runs[r]? = some run → (f run).status.terminal = run.status.terminal) :
    (db.updateRun r f).Announced := by
  refine Feed.Announced.congr_ended h fun runId => ?_
  simp only [Feed.ended, Db.feed, Db.updateRun, List.getElem?_map]
  by_cases hid : runId = r
  · subst hid
    cases hrun : db.runs[runId]? with
    | none => simp [hrun]
    | some run => simp [hrun, hf run hrun]
  · rw [getElem?_modify_of_ne hid]

theorem Db.feed_ended {db : Db} {run : Run} (h : db.runs[r]? = some run) :
    db.feed.ended r = run.status.terminal := by
  simp [Feed.ended, Db.feed, h]

/-- A write of a status that is no end to a run that had not ended. -/
theorem Db.Announced.setStatus {db : Db} {f : Run → Run} (h : db.Announced) (status : RunStatus)
    (hf : ∀ run, (f run).status = status) (hstatus : status.terminal = false)
    (hopen : db.feed.ended r = false) : (db.updateRun r f).Announced := by
  refine h.updateRun fun run hrun => ?_
  rw [hf, hstatus, ← Db.feed_ended hrun, hopen]

theorem Db.Announced.addRun {db : Db} {run : Run} (h : db.Announced)
    (hrun : run.status = .queued) : Announced { db with runs := db.runs ++ [run] } := by
  refine Feed.Announced.congr_ended h fun runId => ?_
  simp only [Feed.ended, Db.feed, List.getElem?_map]
  rcases lt_or_ge runId db.runs.length with hlt | hge
  · rw [List.getElem?_append_left hlt]
  · rw [List.getElem?_append_right hge, List.getElem?_eq_none hge]
    cases hindex : runId - db.runs.length with
    | zero => simp [hrun, RunStatus.terminal]
    | succ n => simp

theorem Db.feed_updateRun {db : Db} {f : Run → Run} (status : RunStatus)
    (hf : ∀ run, (f run).status = status) :
    (db.updateRun r f).feed =
      { db.feed with statuses := db.feed.statuses.modify r fun _ => status } :=
  congrArg (Feed.mk db.outbox db.transitions _) (map_modify hf)

theorem returns_finishEffects_feed {run : Run} {status : RunStatus} {u : Unit}
    (hs : s.loaded.feed = feed)
    (h : Returns ([.releaseLock, .outboxRunFinished].forM (applyFinishEffect env r run status))
      s u s') :
    ∃ event : OutboxEvent, event.kind = "run.finished" ∧ event.runId = some r ∧
      s'.loaded.feed = { feed with events := feed.events ++ [event] } := by
  obtain ⟨s₁, hrelease, hrest⟩ := returns_forM_cons.1 h
  obtain ⟨s₂, houtbox, hnil⟩ := returns_forM_cons.1 hrest
  obtain rfl := returns_forM_nil.1 hnil
  have hsame : s₁.loaded.feed = feed := by
    have hfixes : Fixes Db.feed (applyFinishEffect env r run status .releaseLock) := by
      unfold applyFinishEffect
      exact .execute fun _ => rfl
    exact (hfixes hrelease).1.trans hs
  unfold applyFinishEffect addOutbox at houtbox
  rw [returns_assign] at houtbox
  subst houtbox
  rw [← hsame]
  exact ⟨_, rfl, rfl, rfl⟩

theorem runEntries_from_open {a b : RunStatus} {act : RunAction} {cause : String}
    (h : runEntries a act = some (b, cause)) : a.terminal = false := by
  cases a <;> cases act <;> cases h <;> rfl

theorem runEntries_to_open {a b : RunStatus} {act : RunAction} {cause : String}
    (h : runEntries a act = some (b, cause)) (hact : act ∉ [.fail, .succeed, .cancel]) :
    b.terminal = false := by
  cases a <;> cases act <;> cases h <;> first | rfl | simp at hact

theorem finishAction_terminal {status : RunStatus} {act : RunAction}
    (h : finishAction status = .ok act) : status.terminal = true := by
  cases status <;> cases h <;> rfl

theorem upholds_finishRun_announced {status : RunStatus} {summary error : Option String} :
    Upholds Db.Announced (finishRun env r status summary error) := by
  intro s u s' h hs
  unfold finishRun at h
  obtain ⟨-, run, hrun, h⟩ := returns_getRow_bind.1 h
  obtain ⟨act, hact, h⟩ := returns_ofExcept_bind.1 h
  obtain ⟨sm, hsm, h⟩ := returns_ofExcept_bind.1 h
  obtain ⟨hentry, heffects⟩ := runEntries_of_runTransition hsm
  obtain ⟨hto, hlive, hlist⟩ := finishAction_entry hact hentry
  rw [heffects, hlist, returns_assign_bind] at h
  obtain ⟨_, s₁, heffects, hflush⟩ := returns_bind.1 h
  obtain ⟨-, rfl⟩ := returns_flush.1 hflush
  obtain ⟨event, hkind, hevent, hfeed⟩ := returns_finishEffects_feed (Db.feed_updateRun sm.toState fun _ => rfl) heffects
  have hlength : r < s.loaded.feed.statuses.length := by
    simpa [Db.feed] using (List.getElem?_eq_some_iff.1 hrun).1
  have hopen : s.loaded.feed.ended r = false :=
    (Db.feed_ended hrun).trans (runEntries_from_open hentry)
  have hends : sm.toState.terminal = true := hto ▸ finishAction_terminal hact
  have hannounced : s₁.loaded.Announced := by
    rw [Db.Announced, hfeed]
    exact Feed.Announced.finish hs.2 hopen hlength hends hkind hevent
  exact ⟨hannounced, hannounced⟩

theorem Db.feed_insertLock {db : Db} {acquiredAt : Time} :
    (db.insertLock covId r acquiredAt).feed = db.feed := by
  unfold Db.insertLock
  split <;> rfl

theorem announced_markRunning {started : Bool} (h : Returns (markRunning env r) s started s')
    (hs : s.loaded.Announced) (hopen : s.loaded.feed.ended r = false) :
    s'.stored.Announced ∧ s'.loaded.Announced := by
  unfold markRunning at h
  obtain ⟨_, s₁, hflush, hpure⟩ := returns_bind.1 (returns_assign_bind.1 h)
  obtain ⟨-, rfl⟩ := returns_flush.1 hflush
  obtain ⟨-, rfl⟩ := returns_pure.1 hpure
  have hstarted := hs.setStatus .running (f := fun run : Run =>
    { run with status := .running, startedAt := some (run.startedAt.getD env.now) })
    (fun _ => rfl) rfl hopen
  exact ⟨hstarted, hstarted⟩

/-- The start of a run that has not ended. -/
theorem announced_startRun {started : Bool} (h : Returns (startRun env r) s started s')
    (hs : s.stored.Announced ∧ s.loaded.Announced) (hopen : s.loaded.feed.ended r = false) :
    s'.stored.Announced ∧ s'.loaded.Announced := by
  unfold startRun at h
  obtain ⟨-, run, hrun, h⟩ := returns_getRow_bind.1 h
  split at h
  · exact announced_markRunning h hs.2 hopen
  · rename_i covId hcovId
    obtain ⟨-, h⟩ := returns_execute_bind.1 h
    rw [returns_select_bind] at h
    have hfeed : (s.loaded.insertLock covId r env.now).feed = s.loaded.feed := Db.feed_insertLock
    have hkept : (s.loaded.insertLock covId r env.now).Announced := by
      rw [Db.Announced, hfeed]
      exact hs.2
    split_ifs at h
    · obtain ⟨-, h⟩ := returns_flush_bind.1 h
      obtain ⟨-, rfl⟩ := returns_pure.1 h
      exact ⟨hkept, hkept⟩
    · refine announced_markRunning h hkept ?_
      exact (congrArg (fun feed => Feed.ended feed r) hfeed).trans hopen

theorem upholds_promoteRun_announced : Upholds Db.Announced (Engine.promoteRun env r) := by
  intro s promoted s' h hs
  unfold Engine.promoteRun at h
  obtain ⟨-, run, hrun, h⟩ := returns_getRow_bind.1 h
  split_ifs at h with hqueued
  · obtain ⟨-, rfl⟩ := returns_pure.1 h
    exact hs
  · obtain ⟨started, s₁, hstart, h⟩ := returns_bind.1 h
    have hopen : s.loaded.feed.ended r = false := by
      rw [not_not] at hqueued
      rw [Db.feed_ended hrun, hqueued]
      rfl
    have hstarted := announced_startRun hstart hs hopen
    have hrest : Upholds Db.Announced (if !started then return false else do
        Engine.beginInitiation env r run
        return true : DbTxn Bool) := by
      refine .ite (.pure _) (.bind (.bind (.of_reads reads_findCoverage) fun cov => ?_)
        fun _ => .pure _)
      split
      · exact .ite upholds_transition_announced (.pure _)
      · exact .pure _
    exact hrest h hstarted

theorem upholds_requeueRun_announced {reason : String} :
    Upholds Db.Announced (requeueRun r reason) := by
  intro s u s' h hs
  unfold requeueRun at h
  obtain ⟨-, run, hrun, h⟩ := returns_getRow_bind.1 h
  obtain ⟨sm, hsm, h⟩ := returns_ofExcept_bind.1 h
  obtain ⟨-, rfl⟩ := returns_flush.1 (returns_assign_bind.1 h)
  have hentry := (runEntries_of_runTransition hsm).1
  have hopen := (Db.feed_ended hrun).trans (runEntries_from_open hentry)
  have hkept := hs.2.setStatus sm.toState (f := fun run : Run =>
    { run with status := sm.toState, error := some reason }) (fun _ => rfl)
    (runEntries_to_open hentry (by decide)) hopen
  exact ⟨hkept, hkept⟩

theorem Db.Announced.addGate {db : Db} {gate : PmGate} (h : db.Announced)
    (hkind : gate.kind ≠ .initiationDecision) :
    Announced { db with gates := db.gates ++ [gate] } := by
  refine ⟨h.changes, ?_, h.ends⟩
  refine h.gates.trans ?_
  simp [Feed.initiationGates, Db.feed, hkind]

theorem Db.Announced.updateGate {db : Db} {g : Nat} {f : PmGate → PmGate} (h : db.Announced)
    (hf : ∀ gate, ((f gate).runId, (f gate).kind) = (gate.runId, gate.kind)) :
    (db.updateGate g f).Announced := by
  have hsame : (db.updateGate g f).feed = db.feed :=
    congrArg (fun gates => Feed.mk db.outbox db.transitions gates _) (map_modify_of_eq hf)
  rw [Db.Announced, hsame]
  exact h

/-- The status write of a run that stops at a gate. -/
theorem announced_stopAtGate {run : Run}
    (h : Returns (do
      let sm ← ofExcept .illegalStateChange (runTransition run.status .openGate {})
      assign fun db => db.updateRun r fun run => { run with status := sm.toState }
      flush : DbTxn Unit) s u s')
    (hs : s.loaded.Announced) (hrun : s.loaded.feed.ended r = false) :
    s'.stored.Announced ∧ s'.loaded.Announced := by
  obtain ⟨sm, hsm, h⟩ := returns_ofExcept_bind.1 h
  obtain ⟨-, rfl⟩ := returns_flush.1 (returns_assign_bind.1 h)
  have hentry := (runEntries_of_runTransition hsm).1
  have hkept := hs.setStatus sm.toState (f := fun run : Run => { run with status := sm.toState })
    (fun _ => rfl) (runEntries_to_open hentry (by decide)) hrun
  exact ⟨hkept, hkept⟩

theorem upholds_pauseForBudget_announced : Upholds Db.Announced (Engine.pauseForBudget r) := by
  intro s u s' h hs
  unfold Engine.pauseForBudget at h
  obtain ⟨-, run, hrun, h⟩ := returns_getRow_bind.1 h
  obtain ⟨_, s₁, hopen, h⟩ := returns_bind.1 h
  unfold openGate at hopen
  obtain ⟨-, found, hfound, hopen⟩ := returns_getRow_bind.1 hopen
  obtain ⟨-, rfl⟩ := returns_flush.1 (returns_assign_bind.1 hopen)
  obtain ⟨sm, hsm, hstop⟩ := returns_ofExcept_bind.1 h
  have hlive := runEntries_from_open (runEntries_of_runTransition hsm).1
  refine announced_stopAtGate h ?_ ((Db.feed_ended hrun).trans hlive)
  have hopened (gate : PmGate) (hkind : gate.kind ≠ .initiationDecision) :
      Db.Announced { s.loaded with gates := s.loaded.gates ++ [gate] } := hs.2.addGate hkind
  have hkind : GateKind.budgetCap ≠ .initiationDecision := by decide
  exact hopened _ hkind

theorem upholds_finalizeRun_announced : Upholds Db.Announced (Engine.finalizeRun env r) := by
  intro s u s' h hs
  unfold Engine.finalizeRun at h
  obtain ⟨-, run, hrun, h⟩ := returns_getRow_bind.1 h
  obtain ⟨cov, s₁, hcov, hrest⟩ := returns_bind.1 h
  obtain rfl := reads_findCoverage hcov
  split at hrest
  · obtain ⟨_, s₂, hdeliver, hstop⟩ := returns_bind.1 hrest
    obtain ⟨hannounced, -, hstatuses⟩ := announced_transitionCoverage hdeliver hs.2
    obtain ⟨sm, hsm, -⟩ := returns_ofExcept_bind.1 hstop
    have hlive := runEntries_from_open (runEntries_of_runTransition hsm).1
    refine announced_stopAtGate hstop hannounced ?_
    rw [Feed.ended, hstatuses]
    exact (Db.feed_ended hrun).trans hlive
  · exact upholds_finishRun_announced hrest hs

theorem upholds_failRun_announced {error : String} :
    Upholds Db.Announced (Engine.failRun env r error) := by
  refine .bind (upholds_getRow _ _) fun run =>
    .bind (.bind (.of_reads reads_findCoverage) fun cov => ?_) fun _ => upholds_finishRun_announced
  split
  · exact .ite upholds_transition_announced (.pure _)
  · exact .pure _

theorem upholds_settleRun_announced : Upholds Db.Announced (Engine.settleRun env r) :=
  upholds_settleRun (fun _ _ _ => upholds_failRun_announced)
    (fun _ _ => upholds_requeueRun_announced) (fun _ => upholds_pauseForBudget_announced)
    fun _ _ => upholds_finalizeRun_announced

/-! ## The system -/

theorem overlooks_announced : Overlooks Db.Announced where
  stage _ _ _ _ h := h
  cost _ _ _ h := h.updateRun fun _ _ => rfl
  attempts _ _ h := h
  locks _ _ h := h
  levels _ _ h := h
  events _ _ h := h
  newsArticles _ _ h := h
  auditLog _ _ h := h
  idempotencyKeys _ _ h := h
  schedulerJobLogs _ _ h := h

theorem handlerParts_announced : HandlerParts Db.Announced where
  toOverlooks := overlooks_announced
  propose _ _ _ _ _ _ _ _ _ := upholds_propose_announced
  shift _ _ _ _ _ _ _ := upholds_transition_announced
  setLead _ _ _ _ _ _ := upholds_setLead_announced
  cancel _ _ _ := upholds_finishRun_announced

theorem upholds_createRun_announced {metaHouses : List String} {runType trigger : String}
    {coverageId : Option Nat} {params : JsonObject} {requestedBy triggerRef : Option String} :
    Upholds Db.Announced (Engine.createRun env fund metaHouses runType coverageId trigger params
      requestedBy triggerRef) := by
  refine .bind (upholds_ofExcept _ _) fun policy => .bind (.of_reads reads_findCoverage) fun cov =>
    .bind (.of_reads reads_contributorsFor) fun contributors => ?_
  split
  · exact .throw _
  · refine .bind (upholds_ofExcept _ _) fun stages => .bind ?_ fun runId => .bind ?_ fun _ => .pure _
    · exact .bind (upholds_ofExcept _ _) fun _ => .bind (.inspect _) fun _ =>
        .bind (.assign fun db hdb => hdb.addRun rfl) fun _ => .bind .flush fun _ => .pure _
    · exact .bind (upholds_ofExcept _ _) fun _ =>
        .bind (.assign fun db hdb => hdb) fun _ => .flush

theorem engineParts_announced : EngineParts Db.Announced fund where
  toOverlooks := overlooks_announced
  createRun _ _ _ _ _ _ _ _ := upholds_createRun_announced
  promoteRun _ _ := upholds_promoteRun_announced
  settleRun _ _ := upholds_settleRun_announced

theorem upholds_decide_announced {decision : String} :
    Upholds Db.Announced (handleDecide env slug decision notes pm) := by
  refine .bind (.of_reads reads_requireCoverage) fun covId => ?_
  split
  · exact .throw _
  · refine .bind (.select _) fun runId => .bind (.adaptExcept upholds_transition_announced)
      fun _ => .bind ?_ fun _ => .bind (upholds_getRow _ _) fun _ => .pure _
    cases runId with
    | none => exact .pure _
    | some r => exact upholds_finishRun_announced

theorem announced_step {db : Db} (h : db.Announced) (op : Op) : (step app db op).Announced := by
  refine engineParts_announced.step h op (fun _ env r run stageId => ?_)
    fun env request call pm key _ => ?_
  · exact upholds_digestStage (fun _ _ _ => upholds_registerFromStage fun _ _ h => h)
      fun _ _ _ h => h
  · refine handlerParts_announced.handler call (fun hcall => ?_) (fun _ _ _ _ => ?_)
      fun gateId answer notes _ => ?_
    · exact upholds_creates call hcall fun _ _ _ => engineParts_announced.createRun ..
    · exact upholds_decide_announced
    · exact upholds_answerGate fun db h => h.updateGate fun _ => rfl

/-- In every history, each transition and each initiation gate is told of exactly once, in order; a
run that has not ended is told of as ended only by the transitions that announce it, and one that
has ended once more than that. -/
theorem run_announced {db : Db} (h : db.Announced) (ops : List Op) :
    (run app db ops).Announced :=
  History.invariant_of_forall (fun _ op h => announced_step h op) h

/-- Apple is proposed, its initiation is delivered for a decision, and the PM cancels it instead. -/
def Op.cancelApple : List Op :=
  Op.initiateApple ++
    [.tickWith (QueueCall.succeeds 0 [] ++ QueueCall.succeeds 1 []),
      .ask "cancel" (.cancelRun 0 none)]

theorem Db.small_announced : Db.small.Announced :=
  ⟨rfl, rfl, fun _ => rfl⟩

theorem run_announced_small :
    (run .small .small Op.cancelApple).runs.map (·.status) = [.cancelled] ∧
      (run .small .small Op.cancelApple).Announced :=
  ⟨by decide +kernel, run_announced Db.small_announced _⟩

end AiFund
