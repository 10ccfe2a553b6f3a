import AiFund.Concurrent.Decisions
import AiFund.Proof.Gates
import AiFund.Proof.Requests

/-!
# At most one decision wins

A decision is written before its run is read, so the request that holds the coverage decides on a
store in which nobody else has decided or will decide before it commits.
-/

namespace AiFund

open UnitOfWork Rows History

variable {app : App} {c c' : Life} {e : LifeEvent} {db : Db}

/-! ## Gates that offer a decision -/

def GateLife.offers (gate : GateLife) (action : Action) : Prop :=
  ∃ answer, decisionAnswer action = some answer ∧ answer ∈ gate.allowed

/-- A gate that offers a decision is that of an initiation. -/
def Life.Offers (c : Life) : Prop :=
  ∀ gate ∈ c.gates, ∀ action, gate.offers action →
    ∃ run, c.runs[gate.runId]? = some run ∧ run.type = .initiation

theorem not_offers_budgetGate {r : Nat} {covId : Option Nat} {action : Action} :
    ¬ (budgetGate r covId).offers action := by
  rintro ⟨answer, hanswer, hmem⟩
  cases action <;> cases hanswer <;> simp [budgetGate] at hmem

/-- A gate after a step was there before, for the same run and with the same answers allowed, or
has just been opened. -/
theorem LifeStep.gate_before (hstep : LifeStep e c c') {gate : GateLife} (hgate : gate ∈ c'.gates) :
    (∃ old ∈ c.gates, gate.runId = old.runId ∧ gate.allowed = old.allowed) ∨
      (∃ r covId, gate = budgetGate r covId) ∨
      ∃ r covId run, gate = initiationGate r covId ∧ c.runs[r]? = some run ∧
        run.type = .initiation := by
  have hanswer {g : Nat} {text : String} (h : gate ∈ (c.answer g text).gates) :
      ∃ old ∈ c.gates, gate.runId = old.runId ∧ gate.allowed = old.allowed := by
    obtain ⟨k, hk⟩ := List.getElem?_of_mem h
    obtain ⟨-, old, hold, rfl⟩ | ⟨-, hold⟩ := getElem?_modify_cases hk
    · exact ⟨old, List.mem_of_getElem? hold, rfl, rfl⟩
    · exact ⟨gate, List.mem_of_getElem? hold, rfl, rfl⟩
  cases hstep with
  | pause hrun hrunning =>
      rcases List.mem_append.1 hgate with hold | hnew
      · exact .inl ⟨gate, hold, rfl, rfl⟩
      · exact .inr (.inl ⟨_, _, List.mem_singleton.1 hnew⟩)
  | deliver hrun hrunning hinitiation =>
      rcases List.mem_append.1 hgate with hold | hnew
      · exact .inl ⟨gate, hold, rfl, rfl⟩
      · exact .inr (.inr ⟨_, _, _, List.mem_singleton.1 hnew, hrun,
          (Life.initiationOf_eq_some.1 hinitiation).2.1⟩)
  | decide => exact .inl (hanswer hgate)
  | answer => exact .inl (hanswer hgate)
  | _ => exact .inl ⟨gate, by simpa using hgate, rfl, rfl⟩

theorem LifeStep.keepsOffers (hstep : LifeStep e c c') (h : c.Offers) : c'.Offers := by
  intro gate hgate action hoffers
  have hafter {r : Nat} {run : RunLife} (hrun : c.runs[r]? = some run)
      (htype : run.type = .initiation) : ∃ run, c'.runs[r]? = some run ∧ run.type = .initiation := by
    obtain ⟨run', hrun', hbecomes⟩ := hstep.run_after hrun
    exact ⟨run', hrun', hbecomes.type.trans htype⟩
  obtain ⟨old, hold, hrunId, hallowed⟩ | ⟨r, covId, rfl⟩ | ⟨r, covId, run, rfl, hrun, htype⟩ :=
    hstep.gate_before hgate
  · obtain ⟨answer, hanswer, hmem⟩ := hoffers
    obtain ⟨run, hrun, htype⟩ := h old hold action ⟨answer, hanswer, hallowed ▸ hmem⟩
    rw [hrunId]
    exact hafter hrun htype
  · exact absurd hoffers not_offers_budgetGate
  · exact hafter hrun htype

theorem run_offers (h : db.Fresh) (ops : List Op) :
    (run app db ops).life.Lawful ∧ (run app db ops).life.Offers := by
  have hstart : db.life.Lawful ∧ db.life.Offers := by
    refine ⟨h.lawful, fun gate hgate => ?_⟩
    simp [Db.life, h.gates] at hgate
  refine invariant_of_forall (I := fun db : Db => db.life.Lawful ∧ db.life.Offers)
    (fun db op h => ⟨h.1.step op, ?_⟩) hstart
  exact op_preserves h.1 (fun _ _ _ hstep ha => hstep.keepsOffers ha)
    (fun _ _ _ _ _ hstep _ ha => hstep.keepsOffers ha) h.2

/-- A gate of the coverage that offers a decision and whose run is live. -/
structure Db.Candidate (db : Db) (covId g : Nat) (gate : PmGate) : Prop where
  row : db.gates[g]? = some gate
  coverage : gate.coverageId = some covId
  offers : ∃ action answer, decisionAnswer action = some answer ∧ answer ∈ gate.allowedAnswers
  live : ∃ run, db.runs[gate.runId]? = some run ∧ run.status.live = true

/-- The run of a candidate owns the coverage's lock. -/
theorem Db.Candidate.owner {covId g : Nat} {gate : PmGate} (h : db.Candidate covId g gate)
    (hdb : db.life.Lawful) (hoffers : db.life.Offers) :
    db.life.owner covId = some gate.runId := by
  obtain ⟨action, answer, hanswer, hmem⟩ := h.offers
  obtain ⟨run, hrun, hlive⟩ := h.live
  have hgate : gate.life ∈ db.life.gates := List.mem_map_of_mem (List.mem_of_getElem? h.row)
  obtain ⟨life, hlife, htype⟩ := hoffers gate.life hgate action ⟨answer, hanswer, hmem⟩
  obtain ⟨found, hfound, hcoverage, -⟩ := hdb.gated.run gate.life hgate
  cases (Db.life_run hrun).symm.trans hlife
  cases (Db.life_run hrun).symm.trans hfound
  refine hdb.serial.owns gate.runId run.life covId (Db.life_run hrun) ?_ hlive
  have hmutates := hdb.formed.mutates gate.runId run.life (Db.life_run hrun)
  rw [htype] at hmutates
  exact Run.life_locked.2 ⟨hmutates, hcoverage.trans h.coverage⟩

theorem Db.Candidate.same_run {covId g g' : Nat} {gate gate' : PmGate}
    (h : db.Candidate covId g gate) (h' : db.Candidate covId g' gate') (hdb : db.life.Lawful)
    (hoffers : db.life.Offers) : gate.runId = gate'.runId :=
  Option.some.inj ((h.owner hdb hoffers).symm.trans (h'.owner hdb hoffers))

end AiFund

namespace AiFund.Concurrent

open ReadCommitted Rows

/-! ## The desk while requests decide -/

section Desk

variable (app : App) (slug : String) (db : Db) (calls : List (Asked DecideCall))

/-- One of the requests has decided. -/
def Settled (desk : Desk) : Prop :=
  ∃ (i : Nat) (asked : Asked DecideCall) (d : Decision), calls[i]? = some asked ∧
    d.Of app slug db asked ∧ desk = d.apply db.desk

def Along (desk : Desk) : Prop := desk = db.desk ∨ Settled app slug db calls desk

/-- Others may decide once, and not while the transaction holds the coverage. -/
structure DeskRely (l : Local Db RowKey) (s s' : Db) : Prop where
  along : Along app slug db calls s.desk → Along app slug db calls s'.desk
  settled : Settled app slug db calls s.desk → Settled app slug db calls s'.desk
  held : ∀ covId, (db.coverages.findIdx? fun cov => cov.dossierSlug = slug) = some covId →
    RowKey.coverage covId ∈ l.held → s'.desk = s.desk

/-- A request that has written nothing that the desk shows. -/
structure Reading (s : Db) (l : Local Db RowKey) : Prop where
  along : Along app slug db calls s.desk
  held : l.held = []
  keeps : ∀ s : Db, (l.pending s).desk = s.desk

/-- A request that holds the coverage, with what it has made of the desk and what it has found. -/
structure Holding (covId : Nat) (F : Desk → Desk) (X : Desk → Prop) (s : Db)
    (l : Local Db RowKey) : Prop where
  along : Along app slug db calls s.desk
  held : RowKey.coverage covId ∈ l.held
  pends : ∀ s : Db, (l.pending s).desk = F s.desk
  found : X s.desk

end Desk

variable {app : App} {slug : String} {db : Db} {calls : List (Asked DecideCall)} {covId : Nat}
  {F G : Desk → Desk} {X Y : Desk → Prop} {s : Db} {l : Local Db RowKey} {desk : Desk} {env : Env}

theorem Along.finds (h : Along app slug db calls desk) :
    (desk.coverages.findIdx? fun cov => cov.dossierSlug = slug) =
      db.coverages.findIdx? fun cov => cov.dossierSlug = slug := by
  obtain rfl | ⟨i, asked, d, -, -, rfl⟩ := h
  · rfl
  · have hslugs : (d.apply db.desk).coverages.map (·.dossierSlug) =
        db.coverages.map (·.dossierSlug) := by
      calc
        (d.apply db.desk).coverages.map (·.dossierSlug) =
            (db.coverages.map (·.dossierSlug)).modify d.covId id := map_modify fun _ => rfl
        _ = db.coverages.map (·.dossierSlug) := List.modify_id _ _
    have hfind := congrArg (List.findIdx? fun text => decide (text = slug)) hslugs
    rwa [List.findIdx?_map, List.findIdx?_map] at hfind

/-- A gate that is still open is as it was. -/
theorem Along.gate (h : Along app slug db calls desk) {g : Nat} {gate : PmGate}
    (hgate : desk.gates[g]? = some gate) (hopen : gate.state = .opened) :
    db.gates[g]? = some gate := by
  obtain rfl | ⟨i, asked, d, -, -, rfl⟩ := h
  · exact hgate
  · obtain ⟨-, old, -, rfl⟩ | ⟨-, hold⟩ := getElem?_modify_cases hgate
    · cases hopen
    · exact hold

theorem stable_reading :
    Stable (DeskRely app slug db calls) (Reading app slug db calls) :=
  fun _ _ _ h hrely => ⟨hrely.along h.along, h.held, h.keeps⟩

theorem stable_holding (hslug : (db.coverages.findIdx? fun cov => cov.dossierSlug = slug) = some covId) :
    Stable (DeskRely app slug db calls) (Holding app slug db calls covId F X) := by
  intro s s' l h hrely
  have hsame := hrely.held covId hslug h.held
  exact ⟨hsame ▸ h.along, h.held, h.pends, hsame ▸ h.found⟩

theorem Reading.saw (h : Reading app slug db calls s l) : Reading app slug db calls s (l.saw s) :=
  ⟨h.along, h.held, h.keeps⟩

theorem Reading.visible (h : Reading app slug db calls s l) : (l.visible s).desk = s.desk := h.keeps s

/-- A query of a request that has only read. -/
theorem outline_read {α : Type} {f : Db → α} {p : α → Prop}
    (h : ∀ v : Db, Along app slug db calls v.desk → p (f v)) :
    Outline (DeskRely app slug db calls) .always (Reading app slug db calls) (Script.select f)
      fun a s l => p a ∧ Reading app slug db calls s l := by
  refine .select (fun a s s' l ha hrely => ⟨ha.1, stable_reading ha.2 hrely⟩) fun s l hs => ?_
  exact ⟨h _ (hs.visible.symm ▸ hs.along), hs.saw⟩

theorem outline_sendHeld
    (hslug : (db.coverages.findIdx? fun cov => cov.dossierSlug = slug) = some covId)
    {w : DbWrite} (hw : ∀ db : Db, (w.apply db).desk = G db.desk) :
    Outline (DeskRely app slug db calls) .always (Holding app slug db calls covId F X) (send w)
      fun _ => Holding app slug db calls covId (fun desk => G (F desk)) X := by
  refine outline_send (stable_holding hslug) fun s l h => ⟨h.along, ?_, fun s => ?_, h.found⟩
  · exact List.mem_append_right _ h.held
  · exact (hw _).trans (congrArg G (h.pends s))

/-! ## Reading -/

theorem outline_findCoverage :
    Outline (DeskRely app slug db calls) .always (Reading app slug db calls) (requireCoverage slug)
      fun found s l => (db.coverages.findIdx? fun cov => cov.dossierSlug = slug) = some found.1 ∧
        Reading app slug db calls s l := by
  refine outline_requireCoverage (fun found s s' l h hrely => ⟨h.1, stable_reading h.2 hrely⟩)
    fun s l covId cov h hcovId _ => ⟨?_, h.saw⟩
  exact (h.visible.symm ▸ h.along).finds.symm.trans hcovId

/-- What is known of a gate that a request has loaded. -/
structure GateFact (db : Db) (gate : LoadedGate) : Prop where
  row : db.gates[gate.1]? = some gate.2
  opened : gate.2.state = .opened

theorem GateFact.of_row {find : Db → Option Nat} {v : Db} {gate : LoadedGate}
    {p : PmGate → Bool} (hfind : ∀ g, find v = some g → ∃ row, v.gates[g]? = some row ∧ p row = true)
    (hopen : ∀ row, p row = true → row.state = .opened) (hv : Along app slug db calls v.desk)
    (h : gateRow find v = some gate) : GateFact db gate ∧ p gate.2 = true := by
  obtain ⟨g, hg, hrest⟩ := Option.bind_eq_some_iff.1 h
  obtain ⟨row, hrow, hpair⟩ := Option.bind_eq_some_iff.1 hrest
  cases hpair
  obtain ⟨found, hfound, hp⟩ := hfind g hg
  obtain rfl : row = found := Option.some.inj (hrow.symm.trans hfound)
  exact ⟨⟨hv.gate hrow (hopen row hp), hopen row hp⟩, hp⟩

theorem outline_gateOfCoverage :
    Outline (DeskRely app slug db calls) .always (Reading app slug db calls)
      (Script.select (gateRow (openGateOfCoverage env covId))) fun gate s l =>
        (∀ g, gate = some g → GateFact db g ∧ g.2.coverageId = some covId) ∧
          Reading app slug db calls s l := by
  refine outline_read fun v hv g hg => ?_
  obtain ⟨hfact, hp⟩ := GateFact.of_row
    (p := fun gate => gate.coverageId = some covId && gate.state = .opened)
    (fun g hg => (env.rows .gateOfCoverage).of_first hg) (fun row hrow => by simp at hrow; exact hrow.2)
    hv hg
  simp only [Bool.and_eq_true, decide_eq_true_eq] at hp
  exact ⟨hfact, hp.1⟩

theorem known_eq {gates : List LoadedGate} {found : LoadedGate}
    (hgates : ∀ g ∈ gates, GateFact db g) (hfound : db.gates[found.1]? = some found.2) :
    known gates found = found := by
  unfold known
  cases hfind : gates.find? fun gate => gate.1 = found.1 with
  | none => rfl
  | some gate =>
      have hid : gate.1 = found.1 := by simpa using List.find?_some hfind
      have hrow := (hgates gate (List.mem_of_find?_eq_some hfind)).row
      rw [hid, hfound] at hrow
      exact Prod.ext hid (Option.some.inj hrow).symm

/-- The open gate of a run, which is missing only when somebody has decided since. -/
theorem outline_gateOfRun {runId : Option Nat} {gates : List LoadedGate}
    (hgates : ∀ g ∈ gates, GateFact db g) :
    Outline (DeskRely app slug db calls) .always (Reading app slug db calls)
      (gateOfRun env runId gates) fun gate s l =>
        (∀ g, gate = some g → GateFact db g ∧ runId = some g.2.runId) ∧
          Reading app slug db calls s l ∧
          (gate = none → ∀ g, GateFact db g → runId = some g.2.runId →
            Settled app slug db calls s.desk) := by
  cases runId with
  | none =>
      refine .pure fun s l h => ⟨fun g hg => ?_, h, fun _ g _ hr => ?_⟩
      · cases hg
      · cases hr
  | some r =>
      refine .bind (Q := fun found s l =>
        (∀ g, found = some g → GateFact db g ∧ g.2.runId = r) ∧ Reading app slug db calls s l ∧
          (found = none → ∀ g, GateFact db g → g.2.runId = r →
            Settled app slug db calls s.desk)) (.select (fun found => ?_) ?_) fun found => ?_
      · intro s s' l h hrely
        exact ⟨h.1, stable_reading h.2.1 hrely, fun hnone g hg hr =>
          hrely.settled (h.2.2 hnone g hg hr)⟩
      · intro s l h
        have hv : Along app slug db calls (l.visible s).desk := h.visible.symm ▸ h.along
        refine ⟨fun g hg => ?_, h.saw, fun hnone g hg hr => ?_⟩
        · obtain ⟨hfact, hp⟩ := GateFact.of_row
            (p := fun gate => gate.runId = r && gate.state = .opened)
            (fun g hg => (env.rows .gateOfRun).of_first hg)
            (fun row hrow => by simp at hrow; exact hrow.2) hv hg
          simp only [Bool.and_eq_true, decide_eq_true_eq] at hp
          exact ⟨hfact, hp.1⟩
        · rw [← h.visible]
          refine hv.resolve_left fun hsame => ?_
          have hmem : g.2 ∈ (l.visible s).gates := by
            have hgate : (l.visible s).gates = db.gates := congrArg Desk.gates hsame
            rw [hgate]
            exact List.mem_of_getElem? hg.row
          cases hfirst : openGateOfRun env r (l.visible s) with
          | none =>
              have hp := (env.rows .gateOfRun).first_eq_none.1 hfirst g.2 hmem
              simp [hr, hg.opened] at hp
          | some k =>
              obtain ⟨row, hrow, -⟩ := openGateOfRun_eq_some hfirst
              simp [gateRow, hfirst, hrow] at hnone
      · refine .pure fun s l h => ⟨fun g hg => ?_, h.2.1, fun hnone g hg hr => ?_⟩
        · obtain ⟨gate, rfl, rfl⟩ := Option.map_eq_some_iff.1 hg
          obtain ⟨hfact, hr⟩ := h.1 gate rfl
          rw [known_eq hgates hfact.row]
          exact ⟨hfact, congrArg some hr.symm⟩
        · exact h.2.2 (Option.map_eq_none_iff.1 hnone) g hg (Option.some.inj hr).symm

/-- The context of a decision tells whether the run has an open gate that allows the answer. -/
theorem outline_buildCtx {cov : Coverage} {action : Action} {runId : Option Nat} {force : Bool}
    {notes : Option String} {gates : List LoadedGate} (hgates : ∀ g ∈ gates, GateFact db g)
    (haction : action ∈ decideActions) :
    Outline (DeskRely app slug db calls) .always (Reading app slug db calls)
      (buildCtx env cov action runId force notes gates) fun found s l =>
        (found.1.gateOpen = found.2.isSome ∧
          (found.1.answerInAllowed = found.2.any fun gate =>
            (decisionAnswer action).any fun answer => answer ∈ gate.2.allowedAnswers) ∧
          ∀ g, found.2 = some g → GateFact db g ∧ runId = some g.2.runId) ∧
        Reading app slug db calls s l := by
  unfold buildCtx
  refine .bind (outline_read (p := fun _ => True) fun _ _ => trivial) fun position => ?_
  rw [if_pos haction]
  refine .bind ((outline_gateOfRun hgates).pre fun s l h => h.2) fun gate => ?_
  refine .pure fun s l h => ⟨⟨?_, ?_, h.1⟩, h.2.1⟩
  · simp [haction]
  · simp [haction]

/-! ## Writing -/

theorem outline_quiet (hslug : (db.coverages.findIdx? fun cov => cov.dossierSlug = slug) = some covId)
    {w : DbWrite} (hw : ∀ db : Db, (w.apply db).desk = db.desk) :
    Outline (DeskRely app slug db calls) .always (Holding app slug db calls covId F X) (send w)
      fun _ => Holding app slug db calls covId F X :=
  outline_sendHeld (G := fun desk => desk) hslug hw

theorem Coverage.writeState_of_ne {cov : Coverage} {state : CoverageState} (h : state ≠ cov.state) :
    cov.writeState state cov.leadHouse = fun row => { row with state } := by
  funext row
  simp [Coverage.writeState, put, h]

/-- The UPDATE of the coverage takes its row. -/
theorem outline_sendCoverage
    (hslug : (db.coverages.findIdx? fun cov => cov.dossierSlug = slug) = some covId)
    {cov : Coverage} {state : CoverageState} (hne : state ≠ cov.state) :
    Outline (DeskRely app slug db calls) .always
      (fun s l => Reading app slug db calls s l ∧ X s.desk)
      (sendCoverage covId cov state cov.leadHouse) fun _ =>
        Holding app slug db calls covId (fun desk =>
          { desk with coverages := desk.coverages.modify covId fun cov => { cov with state } }) X := by
  unfold sendCoverage
  rw [if_neg fun h => hne h.1, Coverage.writeState_of_ne hne]
  refine outline_sendChecked (stable_holding hslug) fun s l h _ => ⟨h.1.along, ?_, fun s => ?_, h.2⟩
  · exact List.mem_cons_self
  · have hdesk := h.1.keeps s
    change ((l.pending s).updateCoverage covId _).desk = _
    rw [← hdesk]
    rfl

/-! ## Deciding -/

/-- A decision answers its gate; its other side effects have nothing to do before the flush, and
none opens a gate. -/
theorem effects_decision {state : CoverageState} {action : Action} {sm : Transition}
    {answer : String} (hentry : entries (some state) action = some sm)
    (hanswer : decisionAnswer action = some answer) :
    state = .decisionPending ∧ sm.toState ≠ state ∧
      .openGateInitiationDecision ∉ sm.sideEffects ∧ ∃ rest,
        sm.sideEffects = .answerGate :: rest ∧ ∀ effect ∈ rest,
          ∀ (env : Env) (runId : Option Nat) (gates : List LoadedGate),
            effectNow env runId gates effect = pure {} := by
  cases action <;> cases hanswer <;> cases state <;> cases hentry <;>
    refine ⟨rfl, by decide, by decide, _, rfl, ?_⟩ <;> simp [effectNow]

/-- Before its flush a decision has found the gate to answer, or somebody has decided. -/
theorem outline_effectsNow {action : Action} {sm : Transition} {answer : String}
    {state : CoverageState} {runId : Option Nat} {gates : List LoadedGate}
    (hgates : ∀ g ∈ gates, GateFact db g) (hentry : entries (some state) action = some sm)
    (hanswer : decisionAnswer action = some answer) :
    Outline (DeskRely app slug db calls) .always (Reading app slug db calls)
      (sm.sideEffects.mapM (effectNow env runId gates)) fun effects s l =>
        (effects.findSome? (·.lead) = none ∧
          ∀ g, effects.findSome? (·.answered) = some g → GateFact db g ∧ runId = some g.2.runId) ∧
          Reading app slug db calls s l ∧
          (effects.findSome? (·.answered) = none → ∀ g, GateFact db g → runId = some g.2.runId →
            Settled app slug db calls s.desk) := by
  obtain ⟨-, -, -, rest, heffects, hrest⟩ := effects_decision hentry hanswer
  rw [heffects, List.mapM_cons, mapM_pure fun effect heffect => hrest effect heffect env runId gates]
  have hnone {α : Type} {f : Flushed → Option α} (h : f {} = none) :
      (rest.map fun _ => ({} : Flushed)).findSome? f = none := by simp [h]
  refine .bind (.bind (outline_gateOfRun hgates) fun gate =>
    .pure (Q := fun (flushed : Flushed) s l => flushed.lead = none ∧
      (∀ g, flushed.answered = some g → GateFact db g ∧ runId = some g.2.runId) ∧
      Reading app slug db calls s l ∧ (flushed.answered = none → ∀ g, GateFact db g →
        runId = some g.2.runId → Settled app slug db calls s.desk))
      fun s l h => ⟨rfl, h⟩) fun flushed => ?_
  refine .pure fun s l h => ?_
  obtain ⟨hlead, hfound, hreading, hmissing⟩ := h
  simp only [List.findSome?_cons, hlead, hnone (f := Flushed.lead) rfl,
    hnone (f := Flushed.answered) rfl]
  cases hanswered : flushed.answered with
  | none => exact ⟨⟨trivial, fun g hg => nomatch hg⟩, hreading, fun _ => hmissing hanswered⟩
  | some gate =>
      refine ⟨⟨trivial, fun g hg => ?_⟩, hreading, fun h => nomatch h⟩
      exact hfound g (hanswered.trans hg)

/-- What a decision that has been flushed has made of the desk. -/
def written (covId : Nat) (state : CoverageState) (gate : Option LoadedGate)
    (answer actorId : String) (now : Time) (desk : Desk) : Desk where
  coverages := desk.coverages.modify covId fun cov => { cov with state }
  gates := gate.elim desk.gates fun gate =>
    desk.gates.modify gate.1 (gate.2.writeAnswered answer actorId now)
  runs := desk.runs

/-- Two open gates of a run are one. -/
theorem GateFact.same {g g' : LoadedGate} (h : GateFact db g) (h' : GateFact db g')
    (hdb : db.life.Gated) (hrun : g.2.runId = g'.2.runId) : g = g' := by
  have hlife {g : LoadedGate} (h : GateFact db g) : db.life.gates[g.1]? = some g.2.life := by
    simp [Db.life, h.row]
  have hid : g.1 = g'.1 := hdb.same (hlife h) (hlife h') hrun
  refine Prod.ext hid (Option.some.inj ?_)
  rw [← h.row, ← h'.row, hid]

/-- A flushed decision has answered its gate, unless somebody else has decided. -/
theorem outline_recordDecision {cov : Coverage} {sm : Transition} {r : Recorded}
    {gates : List LoadedGate} {g : LoadedGate} {answer : String}
    (hslug : (db.coverages.findIdx? fun cov => cov.dossierSlug = slug) = some covId)
    (hdb : db.life.Gated) (hgates : ∀ g ∈ gates, GateFact db g)
    (hentry : entries (some cov.state) r.action = some sm)
    (hanswer : decisionAnswer r.action = some answer) (hg : GateFact db g)
    (hrun : r.runId = some g.2.runId) :
    Outline (DeskRely app slug db calls) .always (Reading app slug db calls)
      (record env covId cov cov.leadHouse sm r gates) fun _ s l => ∃ gate : Option LoadedGate,
        (gate = none ∨ gate = some g) ∧ Holding app slug db calls covId
          (written covId sm.toState gate answer r.actorId env.now)
          (fun desk => gate = none → Settled app slug db calls desk) s l := by
  obtain ⟨-, hne, hnoGate, -⟩ := effects_decision hentry hanswer
  refine .bind (outline_effectsNow hgates hentry hanswer) fun effects => .assuming fun hfound => ?_
  obtain ⟨hlead, hgate⟩ := hfound
  rw [hlead, Option.getD_none]
  generalize hanswered : effects.findSome? (·.answered) = gate at hgate ⊢
  have hcases : gate = none ∨ gate = some g := by
    cases gate with
    | none => exact .inl rfl
    | some g' =>
        obtain ⟨hfact, hrun'⟩ := hgate g' rfl
        exact .inr (congrArg some (hfact.same hg hdb (Option.some.inj (hrun'.symm.trans hrun))))
  -- The audit row is sent before the coverage is held.
  refine .bind (Q := fun _ s l => Reading app slug db calls s l ∧
    (gate = none → Settled app slug db calls s.desk)) ?_ fun _ => ?_
  · refine outline_send (fun s s' l h hrely => ⟨stable_reading h.1 hrely, fun hnone =>
      hrely.settled (h.2 hnone)⟩) fun s l h => ⟨⟨h.1.along, h.1.held, h.1.keeps⟩, fun hnone => ?_⟩
    exact h.2 hnone g hg hrun
  refine .bind (outline_sendCoverage
    (X := fun desk => gate = none → Settled app slug db calls desk) hslug hne) fun _ => ?_
  refine .bind (outline_quiet hslug fun _ => rfl) fun _ => ?_
  refine .bind (outline_quiet hslug fun _ => rfl) fun _ => ?_
  refine .bind (outline_effectOutbox fun _ => outline_quiet hslug fun _ => rfl) fun _ =>
    .bind (outline_effectGate hnoGate) fun _ => ?_
  rcases hcases with rfl | rfl
  · exact .pure fun s l h => ⟨none, .inl rfl, h⟩
  · refine outline_ofExcept_bind fun text htext => ?_
    rw [hanswer] at htext
    cases htext
    refine (outline_sendHeld (G := fun desk =>
      { desk with gates := desk.gates.modify g.1 (g.2.writeAnswered answer r.actorId env.now) })
      hslug fun _ => rfl).post fun _ s l h => ⟨some g, .inr rfl, h⟩

/-- A transition that decides has found an open gate of its run that allows the answer. -/
theorem outline_decideTransition {cov : Coverage} {r : Recorded} {force : Bool}
    {gates : List LoadedGate} {answer : String}
    (hslug : (db.coverages.findIdx? fun cov => cov.dossierSlug = slug) = some covId)
    (hdb : db.life.Gated) (hgates : ∀ g ∈ gates, GateFact db g)
    (hanswer : decisionAnswer r.action = some answer) :
    Outline (DeskRely app slug db calls) .always (Reading app slug db calls)
      (transitionCoverage env covId cov r force gates) fun state s l =>
        ∃ (g : LoadedGate) (sm : Transition) (gate : Option LoadedGate),
          (entries (some .decisionPending) r.action = some sm ∧ sm.toState = state ∧
            GateFact db g ∧ r.runId = some g.2.runId ∧ answer ∈ g.2.allowedAnswers ∧
            (gate = none ∨ gate = some g)) ∧
          Holding app slug db calls covId (written covId state gate answer r.actorId env.now)
            (fun desk => gate = none → Settled app slug db calls desk) s l := by
  have haction : r.action ∈ decideActions := by
    cases h : r.action <;> rw [h] at hanswer <;> first | decide | cases hanswer
  refine .bind (outline_buildCtx hgates haction) fun found => .assuming fun hfound => ?_
  obtain ⟨ctx, loaded⟩ := found
  obtain ⟨hopen, hallowed, hloaded⟩ := hfound
  refine outline_ofExcept_bind fun sm hsm => ?_
  obtain ⟨hentry, hguards⟩ := transition_eq_ok.1 hsm
  obtain ⟨-, hopen', hallowed'⟩ := decision_guards hanswer hguards
  rw [hopen'] at hopen
  obtain ⟨g, rfl⟩ := Option.isSome_iff_exists.1 hopen.symm
  obtain ⟨hg, hrun⟩ := hloaded g rfl
  have hmem : answer ∈ g.2.allowedAnswers := by
    rw [hallowed'] at hallowed
    simpa [hanswer] using hallowed.symm
  have hgates' : ∀ g' ∈ gates ++ [g], GateFact db g' := by
    intro g' hg'
    rcases List.mem_append.1 hg' with hold | hnew
    · exact hgates g' hold
    · rw [List.mem_singleton.1 hnew]
      exact hg
  refine .bind (outline_recordDecision hslug hdb hgates' hentry hanswer hg hrun) fun _ => ?_
  have hpending := (effects_decision hentry hanswer).1
  rw [hpending] at hentry
  exact .pure fun s l ⟨gate, hgate, h⟩ => ⟨g, sm, gate, ⟨hentry, rfl, hg, hrun, hmem, hgate⟩, h⟩

/-! ## Finishing the run -/

theorem Decision.Of.candidate {d : Decision} {asked : Asked DecideCall}
    (h : d.Of app slug db asked) : ∃ gate, db.Candidate d.covId d.gateId gate ∧
      gate.runId = d.runId := by
  obtain ⟨gate, hgate, hcoverage, hrun, -, hmem⟩ := h.gate
  obtain ⟨action, sm, -, -, -, hanswer⟩ := h.action
  refine ⟨gate, ⟨hgate, hcoverage, ⟨action, d.answer, hanswer, hmem⟩, ?_⟩, hrun⟩
  rw [hrun]
  exact h.run

/-- While the run of an open gate of the coverage is live, nobody has decided. -/
theorem not_settled {g : LoadedGate} {run : Run} {action : Action} {answer : String}
    (hslug : (db.coverages.findIdx? fun cov => cov.dossierSlug = slug) = some covId)
    (hdb : db.life.Lawful) (hoffers : db.life.Offers) (hg : GateFact db g)
    (hcoverage : g.2.coverageId = some covId) (hanswer : decisionAnswer action = some answer)
    (hmem : answer ∈ g.2.allowedAnswers) (hrun : desk.runs[g.2.runId]? = some run)
    (hlive : run.status.live = true) : ¬ Settled app slug db calls desk := by
  rintro ⟨i, asked, d, -, hof, rfl⟩
  obtain ⟨gate, hcandidate, hgateRun⟩ := hof.candidate
  obtain rfl : covId = d.covId := Option.some.inj (hslug.symm.trans hof.slug)
  obtain ⟨-, old, -, rfl⟩ | ⟨hne, hold⟩ := getElem?_modify_cases hrun
  · cases hlive
  · refine hne ?_
    have hmine : db.Candidate d.covId g.1 g.2 :=
      ⟨hg.row, hcoverage, ⟨action, answer, hanswer, hmem⟩, run, hold, hlive⟩
    exact (hmine.same_run hcandidate hdb hoffers).trans hgateRun

theorem outline_finishEffect
    (hslug : (db.coverages.findIdx? fun cov => cov.dossierSlug = slug) = some covId) {r : Nat}
    {effect : RunEffect} :
    Outline (DeskRely app slug db calls) .always (Holding app slug db calls covId F X)
      (finishEffect r effect) fun _ => Holding app slug db calls covId F X := by
  cases effect with
  | releaseLock =>
      refine .write (stable_holding hslug) (fun s l w h hw => ?_) fun _ _ _ _ => trivial
      cases hw
      exact ⟨h.along, List.mem_append_right _ h.held, h.pends, h.found⟩
  | _ => exact .pure fun _ _ h => h

theorem outline_finishInsert
    (hslug : (db.coverages.findIdx? fun cov => cov.dossierSlug = slug) = some covId) {r : Nat}
    {run : Run} {status : RunStatus} {effect : RunEffect} :
    Outline (DeskRely app slug db calls) .always (Holding app slug db calls covId F X)
      (finishInsert env r run status effect) fun _ => Holding app slug db calls covId F X := by
  cases effect with
  | outboxRunFinished => exact outline_quiet hslug fun _ => rfl
  | _ => exact .pure fun _ _ h => h

/-- A run that finishes with success was live. -/
theorem outline_finishSucceeded
    (hslug : (db.coverages.findIdx? fun cov => cov.dossierSlug = slug) = some covId) {r : Nat}
    {run : Run} (hX : run.status.live = true → ∀ desk, X desk → Y desk) :
    Outline (DeskRely app slug db calls) .always (Holding app slug db calls covId F X)
      (finishLoaded env r run .succeeded none none) fun _ => Holding app slug db calls covId
        (fun desk => { F desk with
          runs := (F desk).runs.modify r (run.writeFinished .succeeded env.now none none) }) Y := by
  refine outline_ofExcept_bind fun action haction => ?_
  cases haction
  refine outline_ofExcept_bind fun sm hsm => ?_
  have hentry := (runEntries_of_runTransition hsm).1
  have hlive : run.status.live = true := by
    cases hstatus : run.status <;> rw [hstatus] at hentry <;> first | rfl | cases hentry
  have hto : sm.toState = .succeeded := by
    cases hstatus : run.status <;> rw [hstatus] at hentry <;>
      first | exact (Prod.mk.inj (Option.some.inj hentry)).1.symm | cases hentry
  rw [hto]
  refine .bind (.forM fun effect _ => outline_finishEffect hslug) fun _ => ?_
  refine .bind (.forM fun effect _ => outline_finishInsert hslug) fun _ => ?_
  refine (outline_sendHeld (G := fun desk => { desk with
    runs := desk.runs.modify r (run.writeFinished .succeeded env.now none none) })
    hslug fun _ => rfl).post fun _ s l h => ?_
  exact ⟨h.along, h.held, h.pends, hX hlive _ h.found⟩

theorem modify_congr {ρ : Type} {rows : List ρ} {id : Nat} {row : ρ} {f f' : ρ → ρ}
    (hrow : rows[id]? = some row) (h : f row = f' row) : rows.modify id f = rows.modify id f' := by
  refine List.ext_getElem? fun k => ?_
  by_cases hk : k = id
  · subst hk
    rw [getElem?_modify_self hrow, getElem?_modify_self hrow, h]
  · rw [getElem?_modify_of_ne hk, getElem?_modify_of_ne hk]

/-- A request that is about to commit its decision, on the desk as it was at first. -/
def Deciding (app : App) (slug : String) (db : Db) (calls : List (Asked DecideCall))
    (asked : Asked DecideCall) (s : Db) (l : Local Db RowKey) : Prop :=
  ∃ (d : Decision) (F : Desk → Desk), d.Of app slug db asked ∧
    Holding app slug db calls d.covId F
      (fun desk => desk = db.desk ∧ F desk = d.apply db.desk) s l

theorem stable_deciding {asked : Asked DecideCall} :
    Stable (DeskRely app slug db calls) (Deciding app slug db calls asked) :=
  fun _ _ _ ⟨d, F, hof, h⟩ hrely => ⟨d, F, hof, stable_holding hof.slug h hrely⟩

theorem Deciding.wrote {asked : Asked DecideCall} {w : DbWrite}
    (h : Deciding app slug db calls asked s l) (hw : ∀ db : Db, (w.apply db).desk = db.desk) :
    Deciding app slug db calls asked s (l.wrote w) := by
  obtain ⟨d, F, hof, hholding⟩ := h
  refine ⟨d, F, hof, hholding.along, List.mem_append_right _ hholding.held, fun s => ?_,
    hholding.found⟩
  exact (hw _).trans (hholding.pends s)

/-! ## The requests -/

/-- What a decided desk is once the decision has been flushed and its run finished. -/
theorem written_finished {g : LoadedGate} {run : Run} {state : CoverageState} {answer pm : String}
    {now : Time} (hg : GateFact db g) (hrun : db.runs[g.2.runId]? = some run) :
    { written covId state (some g) answer pm now db.desk with
      runs := db.runs.modify g.2.runId (run.writeFinished .succeeded now none none) } =
      Decision.apply ⟨covId, g.1, g.2.runId, state, answer, pm, now⟩ db.desk := by
  have hgates : db.gates.modify g.1 (g.2.writeAnswered answer pm now) =
      db.gates.modify g.1 fun gate =>
        { gate with
          state := .answered
          answer := some answer
          answeredBy := some pm
          answeredAt := some now } :=
    modify_congr hg.row (by simp [PmGate.writeAnswered])
  have hruns : db.runs.modify g.2.runId (run.writeFinished .succeeded now none none) =
      db.runs.modify g.2.runId fun run =>
        { run with status := .succeeded, finishedAt := some now } :=
    modify_congr hrun (by simp [Run.writeFinished])
  rw [hruns]
  change Desk.mk _ (db.gates.modify g.1 (g.2.writeAnswered answer pm now)) _ = _
  rw [hgates]
  rfl

/-- The run of the decided gate can only be finished on the desk as it was at first. -/
theorem outline_finishDecided {asked : Asked DecideCall} {g : LoadedGate} {gate : Option LoadedGate}
    {state : CoverageState} {action : Action} {sm : Transition} {pm : String}
    (hslug : (db.coverages.findIdx? fun cov => cov.dossierSlug = slug) = some covId)
    (hdb : db.life.Lawful) (hoffers : db.life.Offers)
    (hpm : requirePm asked.env app asked.request = .ok pm)
    (haction : decisionAction asked.call.decision = some action)
    (hentry : entries (some .decisionPending) action = some sm) (hto : sm.toState = state)
    (hg : GateFact db g) (hcoverage : g.2.coverageId = some covId)
    (hmem : asked.call.decision ∈ g.2.allowedAnswers) (hgate : gate = none ∨ gate = some g) :
    Outline (DeskRely app slug db calls) .always
      (Holding app slug db calls covId
        (written covId state gate asked.call.decision pm asked.env.now)
        fun desk => gate = none → Settled app slug db calls desk)
      (finishRun asked.env g.2.runId .succeeded none none)
      fun _ => Deciding app slug db calls asked := by
  have hanswer := decisionAction_answer haction
  refine .bind (Q := fun run => Holding app slug db calls covId
    (written covId state gate asked.call.decision pm asked.env.now) fun desk =>
      Along app slug db calls desk ∧ (gate = none → Settled app slug db calls desk) ∧
        desk.runs[g.2.runId]? = some run)
    (outline_getRow (fun run => stable_holding hslug) (fun s l run h hrow => ?_)
      (fun _ _ _ _ => trivial) .always) fun run => ?_
  · have hruns : (l.visible s).runs = s.runs := congrArg Desk.runs (h.pends s)
    rw [hruns] at hrow
    exact ⟨h.along, h.held, h.pends, h.along, h.found, hrow⟩
  · let d : Decision :=
      ⟨covId, g.1, g.2.runId, state, asked.call.decision, pm, asked.env.now⟩
    let F (desk : Desk) : Desk :=
      { written covId state gate asked.call.decision pm asked.env.now desk with
        runs := desk.runs.modify g.2.runId
          (run.writeFinished .succeeded asked.env.now none none) }
    refine (outline_finishSucceeded (Y := fun desk => d.Of app slug db asked ∧ desk = db.desk ∧
      F desk = d.apply db.desk) hslug fun hlive desk hdesk => ?_).post fun _ s l h =>
        ⟨d, F, h.found.1, h.along, h.held, h.pends, h.found.2⟩
    obtain ⟨halong, hsettled, hrow⟩ := hdesk
    have hnot : ¬ Settled app slug db calls desk :=
      not_settled hslug hdb hoffers hg hcoverage hanswer hmem hrow hlive
    obtain rfl := halong.resolve_right hnot
    obtain rfl := hgate.resolve_left fun hnone => hnot (hsettled hnone)
    refine ⟨⟨hslug, ⟨action, sm, haction, hentry, hto, hanswer⟩, hpm, rfl, ?_, run, hrow, hlive⟩,
      rfl, written_finished hg hrow⟩
    exact ⟨g.2, hg.row, hcoverage, rfl, hg.opened, hmem⟩

/-- A handler that returns has decided on the desk as it was at first. -/
theorem outline_handleDecide {asked : Asked DecideCall} {pm : String} (hdb : db.life.Lawful)
    (hoffers : db.life.Offers) (hpm : requirePm asked.env app asked.request = .ok pm) :
    Outline (DeskRely app slug db calls) .always (Reading app slug db calls)
      (handleDecide asked.env slug asked.call.decision asked.call.notes pm)
      fun handling s l => handling.flush = pure () ∧ Deciding app slug db calls asked s l := by
  refine .bind outline_findCoverage fun found => .assuming fun hslug => ?_
  obtain ⟨covId, cov⟩ := found
  cases haction : decisionAction asked.call.decision with
  | none => exact .raise fun _ _ _ => trivial
  | some action =>
      refine .bind outline_gateOfCoverage fun gate => .assuming fun hgate => ?_
      have hgates : ∀ g ∈ gate.toList, GateFact db g :=
        fun g hg => (hgate g (Option.mem_toList.1 hg)).1
      refine .bind (outline_decideTransition hslug hdb.gated hgates
        (decisionAction_answer haction)) fun state =>
          .existing fun g => .existing fun sm => .existing fun answered => .assuming fun hfacts => ?_
      obtain ⟨hentry, hto, hg, hrunId, hmem, hanswered⟩ := hfacts
      -- The gate of the coverage and the gate of its run are one.
      obtain ⟨g', rfl, hrun⟩ := Option.map_eq_some_iff.1 hrunId
      obtain ⟨hg', hcoverage⟩ := hgate g' rfl
      obtain rfl := hg'.same hg hdb.gated hrun
      refine .bind (outline_finishDecided hslug hdb hoffers hpm haction hentry hto hg hcoverage hmem
        hanswered) fun _ => .pure fun _ _ h => ⟨rfl, h⟩

def decideContract (app : App) (slug : String) (db : Db) (calls : List (Asked DecideCall))
    (i : Nat) : Contract Db RowKey Reply where
  rely := DeskRely app slug db calls
  raises := .always
  commits
    | .replayed _ => Reading app slug db calls
    | .performed _ => fun s l => ∃ asked, calls[i]? = some asked ∧
        Deciding app slug db calls asked s l

variable {w : RequestWorld} {i : Nat}

theorem obeys_deciders (hdb : db.life.Lawful) (hoffers : db.life.Offers) :
    (deciders app slug db calls).Obeys (decideContract app slug db calls) := by
  refine .start fun i m hm => ?_
  obtain ⟨asked, hasked, rfl⟩ := Option.map_eq_some_iff.1 ((List.getElem?_map ..).symm.trans hm)
  refine ⟨Reading app slug db calls, stable_reading, ⟨.inl rfl, rfl, fun _ => rfl⟩, ?_⟩
  refine outline_mutation (R := fun _ handling s l => handling.flush = pure () ∧
    Deciding app slug db calls asked s l) stable_reading (fun _ _ h => h.saw) (fun _ _ _ h => h)
    (fun pm hpm => outline_handleDecide hdb hoffers hpm) ?_ ?_ ?_
  · intro pm handling row
    refine outline_send (fun s s' l h hrely => ⟨h.1, stable_deciding h.2 hrely⟩) fun s l h => ?_
    exact ⟨h.1, h.2.wrote fun _ => rfl⟩
  · intro pm handling
    refine .assuming fun hflush => ?_
    rw [hflush]
    exact .pure fun _ _ h => ⟨rfl, h⟩
  · intro pm handling idem
    refine outline_sendChecked (fun s s' l ⟨a, ha, h⟩ hrely => ⟨a, ha, stable_deciding h hrely⟩)
      fun s l h _ => ⟨asked, hasked, h.2.wrote fun _ => rfl⟩

/-- A decision commits on the desk as it was at first. -/
theorem Deciding.decided {asked : Asked DecideCall} (h : Deciding app slug db calls asked s l) :
    s.desk = db.desk ∧ ∃ d : Decision, d.Of app slug db asked ∧
      RowKey.coverage d.covId ∈ l.held ∧ (l.pending s).desk = d.apply db.desk := by
  obtain ⟨d, F, hof, hholding⟩ := h
  obtain ⟨hsame, hdecided⟩ := hholding.found
  refine ⟨hsame, d, hof, hholding.held, ?_⟩
  rw [hholding.pends, hsame, ← hdecided, hsame]

/-- Every commit is one that the others rely on. -/
theorem respects_deciders : w.Respects (decideContract app slug db calls) i := by
  intro reply l hi hcommits j m l' hj hm hdisjoint
  cases reply with
  | replayed body =>
      have hsame := Reading.keeps hcommits w.store
      exact ⟨fun h => hsame ▸ h, fun h => hsame ▸ h, fun _ _ _ => hsame⟩
  | performed body =>
      obtain ⟨asked, hasked, hdeciding⟩ := hcommits
      obtain ⟨-, d, hof, hheld, hdesk⟩ := hdeciding.decided
      have hsettled : Settled app slug db calls (l.pending w.store).desk :=
        ⟨i, asked, d, hasked, hof, hdesk⟩
      refine ⟨fun _ => .inr hsettled, fun _ => hsettled, fun covId hslug hheld' => ?_⟩
      obtain rfl : covId = d.covId := Option.some.inj (hslug.symm.trans hof.slug)
      exact absurd hheld' (hdisjoint _ hheld)

/-- A decision changes the desk: its run was live. -/
theorem Decision.Of.apply_ne {d : Decision} {asked : Asked DecideCall}
    (h : d.Of app slug db asked) : d.apply db.desk ≠ db.desk := by
  intro heq
  obtain ⟨run, hrun, hlive⟩ := h.run
  have hruns : (d.apply db.desk).runs[d.runId]? = db.runs[d.runId]? :=
    congrArg (fun desk : Desk => desk.runs[d.runId]?) heq
  have hafter := (getElem?_modify_self hrun).symm.trans (hruns.trans hrun)
  rw [← Option.some.inj hafter] at hlive
  cases hlive

/-- Nobody has decided, or one request alone has. -/
structure DecidedOnce (app : App) (slug : String) (db : Db) (calls : List (Asked DecideCall))
    (w : RequestWorld) : Prop where
  obeys : w.Obeys (decideContract app slug db calls)
  once : (w.store.desk = db.desk ∧ ∀ i, ¬ Performed w i) ∨
    ∃ (i : Nat) (asked : Asked DecideCall) (d : Decision), calls[i]? = some asked ∧
      d.Of app slug db asked ∧ w.store.desk = d.apply db.desk ∧ ∀ j, Performed w j ↔ j = i

theorem performed_step {j : Nat} : Performed (w.step i) j ↔ Performed w j ∨
    j = i ∧ ∃ body l, w.parties[i]? = some (.active (.done (.performed body)) l) := by
  constructor
  · rintro ⟨body, hbody⟩
    obtain ⟨hbefore, -⟩ | ⟨rfl, l, hparty, -⟩ :=
      (w.move i).committed_cases (World.result_eq_some.1 hbody)
    · exact .inl ⟨body, World.result_eq_some.2 hbefore⟩
    · exact .inr ⟨rfl, body, l, hparty⟩
  · rintro (⟨body, hbody⟩ | ⟨rfl, body, l, hparty⟩)
    · exact ⟨body, World.result_eq_some.2 ((w.move i).committed (World.result_eq_some.1 hbody))⟩
    · refine ⟨body, World.result_eq_some.2 ?_⟩
      rw [World.step, hparty]
      exact List.getElem?_set_self (List.getElem?_eq_some_iff.1 hparty).1

theorem DecidedOnce.step (h : DecidedOnce app slug db calls w) :
    DecidedOnce app slug db calls (w.step i) := by
  refine ⟨h.obeys.step respects_deciders, ?_⟩
  by_cases hcommits : ∃ body l, w.parties[i]? = some (.active (.done (.performed body)) l)
  · have ⟨body, l, hparty⟩ := hcommits
    obtain ⟨asked, hasked, hdeciding⟩ := h.obeys.commits hparty
    obtain ⟨hsame, d, hof, -, hdesk⟩ := hdeciding.decided
    obtain ⟨-, hnone⟩ | ⟨_, _, d', -, hof', hdesk', -⟩ := h.once
    · refine .inr ⟨i, asked, d, hasked, hof, ?_, fun j => ?_⟩
      · rw [World.step, hparty]
        exact hdesk
      · rw [performed_step]
        exact ⟨fun hj => (hj.resolve_left (hnone j)).1, fun hj => .inr ⟨hj, hcommits⟩⟩
    · exact absurd (hdesk'.symm.trans hsame) hof'.apply_ne
  · have hperformed (j : Nat) : Performed (w.step i) j ↔ Performed w j := by
      rw [performed_step]
      exact or_iff_left fun hj => hcommits hj.2
    have hdesk : (w.step i).store.desk = w.store.desk := by
      obtain hsame | ⟨reply, l, hparty, hstore, -⟩ := (w.move i).store_cases
      · rw [hsame]
      · cases reply with
        | replayed body =>
            rw [hstore]
            exact Reading.keeps (h.obeys.commits hparty) w.store
        | performed body => exact absurd ⟨body, l, hparty⟩ hcommits
    simp only [hdesk, hperformed]
    exact h.once

theorem Decision.Of.shows {d : Decision} {asked : Asked DecideCall} (h : d.Of app slug db asked)
    (hdesk : s.desk = d.apply db.desk) : d.Shows s := by
  obtain ⟨hcov, -⟩ := List.findIdx?_eq_some_iff_getElem.1 h.slug
  obtain ⟨gate, hgate, -⟩ := h.gate
  obtain ⟨run, hrun, -⟩ := h.run
  have hcoverages : s.coverages = (d.apply db.desk).coverages := congrArg Desk.coverages hdesk
  have hgates : s.gates = (d.apply db.desk).gates := congrArg Desk.gates hdesk
  have hruns : s.runs = (d.apply db.desk).runs := congrArg Desk.runs hdesk
  constructor
  · rw [hcoverages]
    exact ⟨_, getElem?_modify_self (List.getElem?_eq_getElem hcov), rfl⟩
  · rw [hgates]
    exact ⟨_, getElem?_modify_self hgate, rfl, rfl, rfl⟩
  · rw [hruns]
    exact ⟨_, getElem?_modify_self hrun, rfl⟩

/-- However any number of decide requests for one coverage interleave, at most one decides, and the
coverage, the gate and the run are as it leaves them. -/
theorem one_decides (hfresh : db.Fresh) (ops : List Op) (schedule : List Nat) :
    OneDecides app slug (AiFund.run app db ops) calls
      ((deciders app slug (AiFund.run app db ops) calls).run schedule) := by
  have hlife : (AiFund.run app db ops).life.Lawful ∧ (AiFund.run app db ops).life.Offers :=
    run_offers hfresh ops
  obtain ⟨hlawful, hoffers⟩ := hlife
  have hstart : DecidedOnce app slug (AiFund.run app db ops) calls
      (deciders app slug (AiFund.run app db ops) calls) := by
    refine ⟨obeys_deciders hlawful hoffers, .inl ⟨rfl, fun i ⟨body, hbody⟩ => ?_⟩⟩
    have hparty := World.result_eq_some.1 hbody
    simp [deciders, World.start] at hparty
  have hend : DecidedOnce app slug (AiFund.run app db ops) calls
      ((deciders app slug (AiFund.run app db ops) calls).run schedule) :=
    History.invariant_of_forall
      (I := fun w => DecidedOnce app slug (AiFund.run app db ops) calls w)
      (fun w i hw => hw.step (i := i)) hstart
  obtain ⟨hdesk, hnone⟩ | ⟨i, asked, d, hasked, hof, hdesk, honly⟩ := hend.once
  · exact ⟨fun i j hi => absurd hi (hnone i), fun i asked _ hi => absurd hi (hnone i), fun _ => hdesk⟩
  · refine ⟨fun a b ha hb => ?_, fun a asked' hasked' ha => ?_, fun hnone => ?_⟩
    · exact ((honly a).1 ha).trans ((honly b).1 hb).symm
    · obtain rfl := (honly a).1 ha
      cases hasked.symm.trans hasked'
      exact ⟨d, hof, hdesk, hof.shows hdesk⟩
    · exact absurd ((honly i).2 rfl) (hnone i)

/-- One request adopts Apple and another rejects it. -/
def adoptAndReject : List (Asked DecideCall) :=
  [⟨.quiet 0, .fromPm "adopt", ⟨"active", none⟩⟩, ⟨.quiet 0, .fromPm "reject", ⟨"reject", none⟩⟩]

/-- Both requests have read that a decision is pending when the first one writes. -/
theorem one_decides_small :
    (((deciders .small "us_aapl" (AiFund.run .small .small Op.deliverApple) adoptAndReject).run
        (List.replicate 7 0 ++ List.replicate 7 1 ++ List.replicate 11 0 ++
          List.replicate 8 1)).result 0).any Reply.isPerformed = true ∧
      OneDecides .small "us_aapl" (AiFund.run .small .small Op.deliverApple) adoptAndReject
        ((deciders .small "us_aapl" (AiFund.run .small .small Op.deliverApple) adoptAndReject).run
          (List.replicate 7 0 ++ List.replicate 7 1 ++ List.replicate 11 0 ++
            List.replicate 8 1)) :=
  ⟨by decide +kernel, one_decides Db.small_fresh Op.deliverApple _⟩

end AiFund.Concurrent
