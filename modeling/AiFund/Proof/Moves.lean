import AiFund.Concurrent.Moves
import AiFund.Proof.Adoption
import AiFund.Proof.Ledger
import AiFund.Proof.Requests

/-!
# Moves that act on the state they have read

A request that changes the state of its coverage has read the state that it changes, unless the
coverage has been moved on in between; a change of the lead finds a place wherever the coverage has
been in the state that it has read.
-/

namespace AiFund

open Rows

/-! ## What a move makes of the ledger -/

namespace Ledger

variable {ledger : Ledger} {covId : Nat} {slug : String} {x : CoverageState}
  {row : CoverageTransition}

/-- The coverage is found by its slug, and its rows are orderly. -/
structure Good (slug : String) (covId : Nat) (ledger : Ledger) : Prop where
  slug : (ledger.coverages.findIdx? fun cov => cov.1 = slug) = some covId
  orderly : ledger.Orderly covId

/-- An UPDATE of the state of a coverage that was loaded in the state `x`. -/
def setState (covId : Nat) (x y : CoverageState) (ledger : Ledger) : Ledger :=
  { ledger with coverages := ledger.coverages.modify covId fun cov => (cov.1, put x y cov.2) }

def addRow (row : CoverageTransition) (ledger : Ledger) : Ledger :=
  { ledger with transitions := ledger.transitions ++ [row] }

theorem setState_self : ledger.setState covId x x = ledger := by
  have hsame : (fun cov : String × CoverageState => (cov.1, put x x cov.2)) = id := by
    funext cov
    unfold put
    simp
  unfold setState
  rw [hsame, List.modify_id]

@[simp] theorem setState_transitions {y : CoverageState} :
    (ledger.setState covId x y).transitions = ledger.transitions := rfl

@[simp] theorem setState_rowsOf {y : CoverageState} {k : Nat} :
    (ledger.setState covId x y).rowsOf k = ledger.rowsOf k := rfl

theorem setState_state {y : CoverageState} (h : ledger.state covId = some x) :
    (ledger.setState covId x y).state covId = some y := by
  obtain ⟨cov, hcov, rfl⟩ := Option.map_eq_some_iff.1 h
  unfold state setState
  rw [getElem?_modify_self hcov]
  simp

theorem setState_slug {y : CoverageState} :
    ((ledger.setState covId x y).coverages.findIdx? fun cov => cov.1 = slug) =
      ledger.coverages.findIdx? fun cov => cov.1 = slug := by
  have hslugs : (ledger.setState covId x y).coverages.map (·.1) = ledger.coverages.map (·.1) := by
    calc
      (ledger.setState covId x y).coverages.map (·.1) =
          (ledger.coverages.map (·.1)).modify covId id := map_modify fun _ => rfl
      _ = ledger.coverages.map (·.1) := List.modify_id _ _
  have hfind := congrArg (List.findIdx? fun text => decide (text = slug)) hslugs
  rwa [List.findIdx?_map, List.findIdx?_map] at hfind

@[simp] theorem addRow_state {k : Nat} : (ledger.addRow row).state k = ledger.state k := rfl

theorem addRow_rowsOf (h : row.coverageId = covId) :
    (ledger.addRow row).rowsOf covId = ledger.rowsOf covId ++ [row] := by
  unfold rowsOf addRow
  rw [List.filter_append]
  simp [h]

/-- A coverage that is still in the state that a row leads on from goes where the row leads. -/
theorem Good.shift (h : ledger.Good slug covId) (hstate : ledger.state covId = some x)
    (hcov : row.coverageId = covId) (hfrom : row.fromState = some x) :
    ((ledger.setState covId x row.toState).addRow row).Good slug covId := by
  obtain ⟨state, hfound, horder⟩ := h.orderly
  obtain rfl : state = x := Option.some.inj (hfound.symm.trans hstate)
  refine ⟨setState_slug.trans h.slug, row.toState, setState_state hstate, ?_⟩
  rw [addRow_rowsOf hcov]
  exact horder.append hfrom

/-- A row that leads back to where it starts has a place where the coverage has been there. -/
theorem Good.stay (h : ledger.Good slug covId) (hcov : row.coverageId = covId)
    (hfrom : row.fromState = some x) (hto : row.toState = x)
    (hx : ∃ old ∈ ledger.rowsOf covId, old.toState = x) : (ledger.addRow row).Good slug covId := by
  obtain ⟨state, hstate, horder⟩ := h.orderly
  refine ⟨h.slug, state, hstate, ?_⟩
  rw [addRow_rowsOf hcov]
  exact horder.insert hfrom hto hx

end Ledger

theorem Db.ledger_slug {db : Db} {slug : String} :
    (db.ledger.coverages.findIdx? fun cov => cov.1 = slug) =
      db.coverages.findIdx? fun cov => cov.dossierSlug = slug := by
  change (db.coverages.map _).findIdx? _ = _
  rw [List.findIdx?_map]
  rfl

theorem Db.ledger_writeState {db : Db} {covId : Nat} {cov : Coverage} {state : CoverageState}
    {lead : Option String} :
    (db.updateCoverage covId (cov.writeState state lead)).ledger =
      db.ledger.setState covId cov.state state :=
  Db.ledger_updateCoverage fun _ => rfl

end AiFund

namespace AiFund.Concurrent

open ReadCommitted Rows

/-! ## The calls -/

/-- The action that a call is recorded with. -/
def CoverageCall.recorded (call : CoverageCall) : Action := call.action.getD .setLead

/-- The state that a call has read still serves it: a change of the state needs it to be the state
of the coverage, a change of the lead needs that the coverage has been there. -/
def CoverageCall.Serves (call : CoverageCall) (covId : Nat) (x : CoverageState) (ledger : Ledger) :
    Prop :=
  if call.action.isSome then ledger.state covId = some x
  else ∃ row ∈ ledger.rowsOf covId, row.toState = x

/-- A change of the state leads elsewhere, a change of the lead leads back. -/
theorem CoverageCall.toState {call : CoverageCall} {x : CoverageState} {sm : Transition}
    (h : entries (some x) call.recorded = some sm) :
    (sm.toState = x ↔ call.action = none) ∧ .openGateInitiationDecision ∉ sm.sideEffects ∧
      ∀ effect ∈ sm.sideEffects, ∀ (env : Env) (runId : Option Nat) (gates : List LoadedGate),
        effectNow env runId gates effect = pure {} := by
  cases call <;> cases x <;> cases h <;> simp [CoverageCall.action, effectNow]

/-! ## What holds while the requests are at work -/

section Assertions

variable (slug : String) (covId : Nat) (call : CoverageCall)

/-- Others keep the ledger orderly, remove no row, and do not change a state that the call is about
to change. -/
structure MoveRely (l : Local Db RowKey) (s s' : Db) : Prop where
  good : s.ledger.Good slug covId → s'.ledger.Good slug covId
  rows : ∀ row ∈ s.ledger.rowsOf covId, row ∈ s'.ledger.rowsOf covId
  state : ∀ x, stateRead slug l = some x → call.action.isSome →
    (entries (some x) call.recorded).isSome → s.ledger.state covId = some x →
    s'.ledger.state covId = some x

/-- A request that has made `n` queries and written nothing that the ledger shows. -/
structure Asking (n : Nat) (s : Db) (l : Local Db RowKey) : Prop where
  good : s.ledger.Good slug covId
  seen : l.seen.length = n
  pends : ∀ s : Db, (l.pending s).ledger = s.ledger

/-- A request that has read the coverage in the state `x` and has made `F` of the ledger. -/
structure Moving (x : CoverageState) (F : Ledger → Ledger) (s : Db) (l : Local Db RowKey) :
    Prop where
  good : s.ledger.Good slug covId
  read : stateRead slug l = some x
  pends : ∀ s : Db, (l.pending s).ledger = F s.ledger
  serves : (entries (some x) call.recorded).isSome → call.Serves covId x s.ledger

end Assertions

variable {app : App} {slug : String} {covId : Nat} {call : CoverageCall} {env : Env}
  {x : CoverageState} {F G : Ledger → Ledger} {s s' : Db} {l : Local Db RowKey} {n : Nat}

theorem stable_asking : Stable (MoveRely slug covId call) (Asking slug covId n) :=
  fun _ _ _ h hrely => ⟨hrely.good h.good, h.seen, h.pends⟩

theorem stable_moving : Stable (MoveRely slug covId call) (Moving slug covId call x F) := by
  intro s s' l h hrely
  refine ⟨hrely.good h.good, h.read, h.pends, fun hentry => ?_⟩
  have hserves := h.serves hentry
  unfold CoverageCall.Serves at hserves ⊢
  split_ifs at hserves ⊢ with haction
  · exact hrely.state x h.read haction hentry hserves
  · obtain ⟨row, hrow, hto⟩ := hserves
    exact ⟨row, hrely.rows row hrow, hto⟩

theorem Asking.saw (h : Asking slug covId n s l) : Asking slug covId (n + 1) s (l.saw s) :=
  ⟨h.good, by simp [Local.saw, h.seen], h.pends⟩

theorem stateRead_saw (h : stateRead slug l = some x) : stateRead slug (l.saw s) = some x := by
  obtain ⟨seen, hseen, hcov⟩ := Option.bind_eq_some_iff.1 h
  unfold stateRead
  rw [Local.saw, getElem?_append_of_some hseen]
  exact hcov

theorem Moving.saw (h : Moving slug covId call x F s l) :
    Moving slug covId call x F s (l.saw s) :=
  ⟨h.good, stateRead_saw h.read, h.pends, h.serves⟩

theorem Moving.wrote {w : DbWrite} (h : Moving slug covId call x F s l)
    (hw : ∀ db : Db, (w.apply db).ledger = G db.ledger) :
    Moving slug covId call x (fun ledger => G (F ledger)) s (l.wrote w) :=
  ⟨h.good, h.read, fun s => (hw _).trans (congrArg G (h.pends s)), h.serves⟩

/-! ## Reading -/

/-- The second query of a request reads the coverage. -/
theorem outline_readCoverage :
    Outline (MoveRely slug covId call) .always (Asking slug covId 1) (requireCoverage slug)
      fun found s l => found.1 = covId ∧ Moving slug covId call found.2.state id s l := by
  refine outline_requireCoverage (fun found s s' l h hrely => ⟨h.1, stable_moving h.2 hrely⟩)
    fun s l k cov h hk hcov => ?_
  have hvisible : (l.visible s).ledger = s.ledger := h.pends s
  have hslug := h.good.slug
  rw [← hvisible, Db.ledger_slug, hk] at hslug
  obtain rfl : k = covId := Option.some.inj hslug
  have hstate : s.ledger.state k = some cov.state := hvisible ▸ Db.ledger_state hcov
  have hread : stateRead slug (l.saw s) = some cov.state := by
    have hseen : (l.saw s).seen[1]? = some (l.visible s) := by
      rw [Local.saw, ← h.seen]
      exact List.getElem?_concat_length
    unfold stateRead
    simp [hseen, List.find?_eq_bind_findIdx?_getElem?, hk, hcov]
  refine ⟨rfl, h.good, hread, h.pends, fun _ => ?_⟩
  unfold CoverageCall.Serves
  split_ifs
  · exact hstate
  · obtain ⟨state, hfound, horder⟩ := h.good.orderly
    obtain rfl : state = cov.state := Option.some.inj (hfound.symm.trans hstate)
    exact horder.arrived

theorem outline_look {α : Type} {f : Db → α} :
    Outline (MoveRely slug covId call) .always (Moving slug covId call x F) (Script.select f)
      fun _ => Moving slug covId call x F :=
  .select (fun _ => stable_moving) fun _ _ h => h.saw

theorem outline_sendMoving {w : DbWrite} (hw : ∀ db : Db, (w.apply db).ledger = G db.ledger) :
    Outline (MoveRely slug covId call) .always (Moving slug covId call x F) (send w)
      fun _ => Moving slug covId call x fun ledger => G (F ledger) :=
  outline_send stable_moving fun _ _ h => h.wrote hw

theorem outline_sendAside {w : DbWrite} (hw : ∀ db : Db, (w.apply db).ledger = db.ledger) :
    Outline (MoveRely slug covId call) .always (Moving slug covId call x F) (send w)
      fun _ => Moving slug covId call x F :=
  outline_sendMoving (G := fun ledger => ledger) hw

/-! ## Writing -/

/-- What a recorded transition makes of the ledger. -/
def moved (covId : Nat) (x : CoverageState) (row : CoverageTransition) (ledger : Ledger) : Ledger :=
  (ledger.setState covId x row.toState).addRow row

theorem outline_sendMoved {cov : Coverage} {state : CoverageState} {lead : Option String} :
    Outline (MoveRely slug covId call) .always (Moving slug covId call cov.state id)
      (sendCoverage covId cov state lead) fun _ =>
        Moving slug covId call cov.state (Ledger.setState covId cov.state state) := by
  unfold sendCoverage
  split_ifs with hsame
  · refine .pure fun s l h => ⟨h.good, h.read, fun s => ?_, h.serves⟩
    rw [hsame.1, Ledger.setState_self]
    exact h.pends s
  · exact outline_sendChecked stable_moving fun s l h _ => h.wrote fun _ => Db.ledger_writeState

/-- A call that is recorded has nothing to do before its flush, opens no gate and answers none. -/
theorem outline_record {cov : Coverage} {lead : Option String} {sm : Transition} {r : Recorded}
    (hentry : entries (some cov.state) call.recorded = some sm) :
    Outline (MoveRely slug covId call) .always (Moving slug covId call cov.state id)
      (record env covId cov lead sm r []) fun _ =>
        Moving slug covId call cov.state (moved covId cov.state (r.transitionRow covId cov.state sm)) := by
  obtain ⟨-, hnoGate, heffects⟩ := CoverageCall.toState hentry
  have hnone {α : Type} {f : Flushed → Option α} (h : f {} = none) :
      (sm.sideEffects.map fun _ => ({} : Flushed)).findSome? f = none := by simp [h]
  unfold record
  rw [mapM_pure fun effect heffect => heffects effect heffect env r.runId [], pure_bind,
    hnone (f := Flushed.answered) rfl]
  refine .bind (outline_sendAside fun _ => rfl) fun _ => .bind outline_sendMoved fun _ => ?_
  refine .bind (outline_sendMoving (G := Ledger.addRow (r.transitionRow covId cov.state sm))
    fun _ => rfl) fun _ => ?_
  refine .bind (outline_sendAside fun _ => rfl) fun _ => ?_
  refine .bind (outline_effectOutbox fun _ => outline_sendAside fun _ => rfl) fun _ => ?_
  exact .bind (outline_effectGate hnoGate) fun _ => .pure fun _ _ h => h

/-- The request is about to commit its move. -/
def Moved (slug : String) (covId : Nat) (call : CoverageCall) (s : Db) (l : Local Db RowKey) :
    Prop :=
  ∃ (x : CoverageState) (sm : Transition) (row : CoverageTransition),
    (entries (some x) call.recorded = some sm ∧ row.coverageId = covId ∧ row.fromState = some x ∧
      row.toState = sm.toState) ∧ Moving slug covId call x (moved covId x row) s l

theorem stable_moved : Stable (MoveRely slug covId call) (Moved slug covId call) :=
  fun _ _ _ ⟨x, sm, row, hrow, h⟩ hrely => ⟨x, sm, row, hrow, stable_moving h hrely⟩

theorem Moved.wrote {w : DbWrite} (h : Moved slug covId call s l)
    (hw : ∀ db : Db, (w.apply db).ledger = db.ledger) : Moved slug covId call s (l.wrote w) := by
  obtain ⟨x, sm, row, hrow, hmoving⟩ := h
  exact ⟨x, sm, row, hrow, hmoving.wrote (G := fun ledger => ledger) hw⟩

/-! ## The requests -/

theorem outline_handleTransition {action : Action} {force : Bool} {notes : Option String}
    {pm : String} (haction : call.action = some action) (hplain : action ∉ decideActions) :
    Outline (MoveRely slug covId call) .always (Asking slug covId 1)
      (handleTransition env slug action force notes pm) fun handling s l =>
        handling.flush = pure () ∧ Moved slug covId call s l := by
  refine .bind outline_readCoverage fun found => .assuming fun hfound => ?_
  obtain ⟨k, cov⟩ := found
  obtain rfl : k = covId := hfound
  refine .bind (Q := fun _ => Moved slug k call) ?_ fun _ => .pure fun _ _ h => ⟨rfl, h⟩
  refine .bind (Q := fun found s l => found.2 = none ∧ Moving slug k call cov.state id s l) ?_
    fun found => .assuming fun hnone => ?_
  · unfold buildCtx
    refine .bind outline_look fun position => ?_
    have hquiet : (recordedFor env action pm none notes).action ∉ decideActions := hplain
    rw [if_neg hquiet]
    exact .pure fun _ _ h => ⟨rfl, h⟩
  · obtain ⟨ctx, gate⟩ := found
    obtain rfl : gate = none := hnone
    refine outline_ofExcept_bind fun sm hsm => ?_
    have hentry : entries (some cov.state) call.recorded = some sm := by
      rw [CoverageCall.recorded, haction]
      exact (transition_eq_ok.1 hsm).1
    refine .bind (outline_record hentry) fun _ => .pure fun s l h => ?_
    exact ⟨cov.state, sm, _, ⟨hentry, rfl, rfl, rfl⟩, h⟩

theorem outline_handleSetLead {house : String} {rationale : Option String} {pm : String}
    (hcall : call.action = none) :
    Outline (MoveRely slug covId call) .always (Asking slug covId 1)
      (handleSetLead env slug house rationale pm) fun handling s l =>
        (∃ row, handling.flush = send (.addLeadHistory row)) ∧ Moved slug covId call s l := by
  refine .bind outline_readCoverage fun found => .assuming fun hfound => ?_
  obtain ⟨k, cov⟩ := found
  obtain rfl : k = covId := hfound
  refine .bind (Q := fun _ => Moved slug k call) ?_ fun row => .pure fun _ _ h => ⟨⟨row, rfl⟩, h⟩
  refine .bind outline_look fun h => outline_ofExcept_bind fun sm hsm => ?_
  have hentry : entries (some cov.state) call.recorded = some sm := by
    rw [CoverageCall.recorded, hcall]
    exact (transition_eq_ok.1 hsm).1
  refine .bind (outline_record hentry) fun _ => .pure fun s l h => ?_
  exact ⟨cov.state, sm, _, ⟨hentry, rfl, rfl, rfl⟩, h⟩

theorem outline_route {pm : String} :
    Outline (MoveRely slug covId call) .always (Asking slug covId 1) ((call.route env slug).2 pm)
      fun handling s l => (handling.flush = pure () ∨
        ∃ row, handling.flush = send (.addLeadHistory row)) ∧ Moved slug covId call s l := by
  cases call with
  | setLead house rationale =>
      exact (outline_handleSetLead rfl).post fun _ _ _ h => ⟨.inr h.1, h.2⟩
  | _ => exact (outline_handleTransition rfl (by decide)).post fun _ _ _ h => ⟨.inl h.1, h.2⟩

theorem outline_script {asked : Asked CoverageCall} :
    Outline (MoveRely slug covId asked.call) .always (Asking slug covId 0) (asked.script app slug)
      fun reply s l => match reply with
        | .replayed _ => Asking slug covId 1 s l
        | .performed _ => Moved slug covId asked.call s l := by
  refine outline_mutation (J := Asking slug covId 1)
    (R := fun _ handling s l => (handling.flush = pure () ∨
      ∃ row, handling.flush = send (.addLeadHistory row)) ∧ Moved slug covId asked.call s l)
    stable_asking (fun _ _ h => h.saw) (fun _ _ _ h => h) (fun pm _ => outline_route) ?_ ?_ ?_
  · intro pm handling row
    refine outline_send (fun s s' l h hrely => ⟨h.1, stable_moved h.2 hrely⟩) fun s l h => ?_
    exact ⟨h.1, h.2.wrote fun _ => rfl⟩
  · intro pm handling
    refine .assuming fun hflush => ?_
    rcases hflush with hflush | ⟨row, hflush⟩ <;> rw [hflush]
    · exact .pure fun _ _ h => ⟨.inl rfl, h⟩
    · exact outline_send (fun s s' l h hrely => ⟨h.1, stable_moved h.2 hrely⟩)
        fun s l h => ⟨.inr ⟨row, rfl⟩, h.wrote fun _ => rfl⟩
  · intro pm handling idem
    exact outline_sendChecked stable_moved fun s l h _ => h.2.wrote fun _ => rfl

/-! ## All requests together -/

variable {calls : List (Asked CoverageCall)} {w : RequestWorld} {i j : Nat} {ledger : Ledger}
  {sm : Transition} {row : CoverageTransition}

theorem moved_rowsOf (h : row.coverageId = covId) :
    (moved covId x row ledger).rowsOf covId = ledger.rowsOf covId ++ [row] :=
  Ledger.addRow_rowsOf h

theorem moved_of_stay (h : row.toState = x) : moved covId x row ledger = ledger.addRow row := by
  unfold moved
  rw [h, Ledger.setState_self]

/-- A move from a state that still serves its call leaves the ledger orderly. -/
theorem moved_good (h : ledger.Good slug covId)
    (hentry : entries (some x) call.recorded = some sm) (hcov : row.coverageId = covId)
    (hfrom : row.fromState = some x) (hto : row.toState = sm.toState)
    (hserves : call.Serves covId x ledger) : (moved covId x row ledger).Good slug covId := by
  unfold CoverageCall.Serves at hserves
  split_ifs at hserves with haction
  · exact h.shift hserves hcov hfrom
  · have hstay : row.toState = x := by
      rw [hto]
      exact (CoverageCall.toState hentry).1.2 (Option.not_isSome_iff_eq_none.1 haction)
    rw [moved_of_stay hstay]
    exact h.stay hcov hfrom hstay hserves

/-- The call of request `i`; there is no request without one. -/
def callAt (calls : List (Asked CoverageCall)) (i : Nat) : CoverageCall :=
  calls[i]?.elim (.setLead "" none) (·.call)

theorem callAt_action {action : Action} (h : (callAt calls i).action = some action) :
    ∃ asked, calls[i]? = some asked ∧ asked.call.action = some action := by
  unfold callAt at h
  cases hasked : calls[i]? with
  | none =>
      rw [hasked] at h
      cases h
  | some asked =>
      rw [hasked] at h
      exact ⟨asked, rfl, h⟩

def moveContract (slug : String) (covId : Nat) (calls : List (Asked CoverageCall)) (i : Nat) :
    Contract Db RowKey Reply where
  rely := MoveRely slug covId (callAt calls i)
  raises := .always
  commits
    | .replayed _ => Asking slug covId 1
    | .performed _ => Moved slug covId (callAt calls i)

theorem obeys_movers {db : Db} (h : db.ledger.Good slug covId) :
    (movers app slug db calls).Obeys (moveContract slug covId calls) := by
  refine .start fun i m hm => ?_
  obtain ⟨asked, hasked, rfl⟩ := Option.map_eq_some_iff.1 ((List.getElem?_map ..).symm.trans hm)
  have hcall : callAt calls i = asked.call := by simp [callAt, hasked]
  unfold moveContract
  rw [hcall]
  refine ⟨Asking slug covId 0, stable_asking, ⟨h, rfl, fun _ => rfl⟩, ?_⟩
  refine outline_script.post fun reply s l hreply => ?_
  cases reply with
  | replayed body => exact hreply
  | performed body => exact hreply

/-- What a commit makes of the ledger: nothing, or a move from a state that still serves its
call. -/
theorem Moved.good (h : Moved slug covId call s l) : (l.pending s).ledger.Good slug covId := by
  obtain ⟨x, sm, row, ⟨hentry, hcov, hfrom, hto⟩, hmoving⟩ := h
  rw [hmoving.pends]
  exact moved_good hmoving.good hentry hcov hfrom hto
    (hmoving.serves (Option.isSome_iff_exists.2 ⟨sm, hentry⟩))

/-- Every commit is one that the others rely on, if it spares their readers. -/
theorem respects_movers (hspares : SparesReaders slug calls w i) :
    w.Respects (moveContract slug covId calls) i := by
  intro reply l hi hcommits j m l' hj hm _
  cases reply with
  | replayed body =>
      have hsame : (l.pending w.store).ledger = w.store.ledger := Asking.pends hcommits w.store
      exact ⟨fun h => hsame ▸ h, fun row hrow => hsame ▸ hrow, fun x _ _ _ h => hsame ▸ h⟩
  | performed body =>
      have hmoved : Moved slug covId (callAt calls i) w.store l := hcommits
      refine ⟨fun _ => hmoved.good, ?_, ?_⟩
      · obtain ⟨x, sm, row, ⟨-, hcov, -⟩, hmoving⟩ := hmoved
        rw [hmoving.pends, moved_rowsOf hcov]
        exact fun row hrow => List.mem_append_left _ hrow
      · intro x' hread haction hentry hstate
        obtain ⟨action, haction⟩ := Option.isSome_iff_exists.1 haction
        obtain ⟨asked, hasked, hcall⟩ := callAt_action haction
        have hreads : HasRead slug calls w j := by
          rw [CoverageCall.recorded, haction] at hentry
          exact ⟨asked, action, m, l', x', hasked, hcall, hm, hread, hentry⟩
        cases haction' : (callAt calls i).action with
        | some action' =>
            obtain ⟨asked', hasked', hcall'⟩ := callAt_action haction'
            have hshifts : Shifts calls w i :=
              ⟨asked', body, l, hasked', by simp [hcall'], hi⟩
            exact absurd hreads (hspares hshifts j hj)
        | none =>
            obtain ⟨x, sm, row, ⟨hentry', -, -, hto⟩, hmoving⟩ := hmoved
            have hstay : row.toState = x :=
              hto.trans ((CoverageCall.toState hentry').1.2 haction')
            rw [hmoving.pends, moved_of_stay hstay]
            exact hstate

structure MovesWell (slug : String) (covId : Nat) (calls : List (Asked CoverageCall))
    (w : RequestWorld) : Prop where
  obeys : w.Obeys (moveContract slug covId calls)
  good : w.store.ledger.Good slug covId

theorem MovesWell.step (h : MovesWell slug covId calls w) (hspares : SparesReaders slug calls w i) :
    MovesWell slug covId calls (w.step i) := by
  refine ⟨h.obeys.step (respects_movers hspares), ?_⟩
  obtain hsame | ⟨reply, l, hparty, hstore, -⟩ := (w.move i).store_cases
  · rw [hsame]
    exact h.good
  · rw [hstore]
    have hcommits := h.obeys.commits hparty
    cases reply with
    | replayed body =>
        rw [Asking.pends hcommits w.store]
        exact h.good
    | performed body => exact Moved.good hcommits

theorem run_movesWell {db : Db} (h : db.ledger.Good slug covId) {schedule : List Nat}
    (hspares : History.EachStep World.step (SparesReaders slug calls) (movers app slug db calls)
      schedule) : MovesWell slug covId calls ((movers app slug db calls).run schedule) :=
  History.invariant (fun _ _ hw hspares => hw.step hspares) ⟨obeys_movers h, h⟩ hspares

/-- However any number of requests to move one coverage interleave, its rows can be put in order, if
no change of its state commits while another one, from a state that its request has read, is under
way. -/
theorem moves_serialize {db : Db} (hdb : db.Fresh) (htransitions : db.transitions = [])
    (ops : List Op)
    (hslug : ((AiFund.run app db ops).coverages.findIdx? fun cov => cov.dossierSlug = slug) =
      some covId)
    {schedule : List Nat}
    (hspares : History.EachStep World.step (SparesReaders slug calls)
      (movers app slug (AiFund.run app db ops) calls) schedule) :
    ((movers app slug (AiFund.run app db ops) calls).run schedule).store.ledger.Orderly covId := by
  have hkept : (AiFund.run app db ops).ledger.Kept :=
    run_keepsLedger hdb.coverages htransitions ops
  have hfound : covId < (AiFund.run app db ops).ledger.coverages.length := by
    obtain ⟨hlength, -⟩ := List.findIdx?_eq_some_iff_getElem.1 hslug
    simpa [Db.ledger] using hlength
  have hgood : (AiFund.run app db ops).ledger.Good slug covId :=
    ⟨Db.ledger_slug.trans hslug, (hkept.traced covId hfound).orderly⟩
  exact (run_movesWell hgood hspares).good.orderly

/-- One request demotes Apple and another confirms its lead. -/
def demoteAndLead : List (Asked CoverageCall) :=
  [⟨.quiet 0, .fromPm "demote", .demote none⟩, ⟨.quiet 0, .fromPm "lead", .setLead "gpt" none⟩]

theorem spares_demoteAndLead (w : RequestWorld) (i : Nat) :
    SparesReaders "us_aapl" demoteAndLead w i := by
  have honly {j : Nat} {asked : Asked CoverageCall} (h : demoteAndLead[j]? = some asked)
      (haction : asked.call.action.isSome) : j = 0 := by
    match j, h with
    | 0, _ => rfl
    | 1, h =>
        cases h
        cases haction
  rintro ⟨asked, body, l, hasked, haction, -⟩ j hj ⟨asked', action, m, l', x, hasked', haction', -⟩
  obtain rfl := honly hasked haction
  exact hj (honly hasked' (by simp [haction']))

/-- Both requests have read the coverage when the first one writes, and both commit. -/
def readThenCommit : List Nat :=
  List.replicate 3 0 ++ List.replicate 3 1 ++ List.replicate 7 0 ++ List.replicate 8 1

theorem moves_serialize_small :
    ((((movers .small "us_aapl" (AiFund.run .small .small Op.adoptApple) demoteAndLead).run
        readThenCommit).result 0).any Reply.isPerformed ∧
      (((movers .small "us_aapl" (AiFund.run .small .small Op.adoptApple) demoteAndLead).run
        readThenCommit).result 1).any Reply.isPerformed) ∧
      ((movers .small "us_aapl" (AiFund.run .small .small Op.adoptApple) demoteAndLead).run
        readThenCommit).store.ledger.Orderly 0 := by
  refine ⟨by decide +kernel, moves_serialize Db.small_fresh rfl _ (by decide +kernel) ?_⟩
  exact History.eachStep_of_forall spares_demoteAndLead

/-- One request exits Apple and another demotes it. -/
def exitAndDemote : List (Asked CoverageCall) :=
  [⟨.quiet 0, .fromPm "exit", .exit false none⟩, ⟨.quiet 0, .fromPm "demote", .demote none⟩]

/-- Two requests that have read the same state both leave it, and the second one undoes the
first. -/
theorem not_orderly_exitAndDemote :
    ((((movers .small "us_aapl" (AiFund.run .small .small Op.adoptApple) exitAndDemote).run
        readThenCommit).result 0).any Reply.isPerformed ∧
      (((movers .small "us_aapl" (AiFund.run .small .small Op.adoptApple) exitAndDemote).run
        readThenCommit).result 1).any Reply.isPerformed ∧
      ((movers .small "us_aapl" (AiFund.run .small .small Op.adoptApple) exitAndDemote).run
        readThenCommit).store.coverages.map (·.state) = [.watch]) ∧
      ¬ ((movers .small "us_aapl" (AiFund.run .small .small Op.adoptApple) exitAndDemote).run
        readThenCommit).store.ledger.Orderly 0 := by
  refine ⟨by decide +kernel, ?_⟩
  rintro ⟨state, -, horder⟩
  have hle := horder.countP_src_le (x := .active) (by decide +kernel)
  revert hle
  decide +kernel

end AiFund.Concurrent
