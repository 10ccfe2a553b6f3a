import AiFund.Proof.Serialization

/-!
# Adoption

A coverage becomes active or watched only by a decision of the PM.
-/

namespace AiFund

open UnitOfWork Rows History

variable {app : App} {env : Env} {request : Request} {pm : String} {db : Db} {c c' : Life}
  {e : LifeEvent} {covId : Nat}

theorem requirePm_eq_ok (h : requirePm env app request = .ok pm) :
    app.Authorizes env request pm := by
  unfold requirePm at h
  split at h
  · cases h
  · rename_i token htoken
    split_ifs at h with hbad
    split at h
    · cases h
    · rename_i caller hcaller
      split_ifs at h with hstranger
      cases h
      rw [not_or, not_not] at hbad hstranger
      exact ⟨hbad.2 ▸ htoken, hbad.2 ▸ hbad.1, hcaller, hstranger.2⟩

/-- A transition that the PM makes without a gate adopts nothing new. -/
theorem adopted_of_shift {state : CoverageState} {action : Action} {sm : Transition}
    (hshift : action.shifts = true) (hentry : entries (some state) action = some sm)
    (h : sm.toState.adopted = true) : state.adopted = true := by
  cases action with
  | promote =>
      cases state <;> cases hentry
      rfl
  | demote =>
      cases state <;> cases hentry
      rfl
  | exit => cases state <;> cases hentry <;> cases h
  | rePropose => cases state <;> cases hentry <;> cases h
  | _ => cases hshift

/-- The coverage is not adopted, if it exists at all. -/
def Life.Unadopted (c : Life) (covId : Nat) : Prop :=
  ∀ state, c.coverages[covId]? = some state → state.adopted = false

/-- The only step with which a coverage is adopted is a decision. -/
theorem LifeStep.adopts (hstep : LifeStep e c c') {state' : CoverageState}
    (h : c'.coverages[covId]? = some state') (hadopted : state'.adopted = true)
    (hbefore : c.Unadopted covId) :
    ∃ r g action, e = .decide covId r g action := by
  obtain ⟨state, hstate⟩ | rfl := hstep.coverage_before h
  · obtain ⟨found, hfound, hmove⟩ := hstep.coverage_after hstate
    obtain rfl : state' = found := Option.some.inj (h.symm.trans hfound)
    have hnot := hbefore state hstate
    cases hmove with
    | stays => simp [hadopted] at hnot
    | begins => cases hadopted
    | delivered => cases hadopted
    | aborted => cases hadopted
    | decided => exact ⟨_, _, _, rfl⟩
    | shifted hshift hentry => simp [adopted_of_shift hshift hentry hadopted] at hnot
  · cases hadopted

theorem Life.Path.unadopted {ok : Life → LifeEvent → Prop} (hpath : Life.Path ok c c')
    (hok : ∀ a r g action, ¬ ok a (.decide covId r g action)) (hbefore : c.Unadopted covId) :
    c'.Unadopted covId := by
  refine hpath.preserves (P := fun c => c.Unadopted covId) (fun a b e hallowed hstep ha => ?_) hbefore
  intro state hstate
  by_contra hadopted
  obtain ⟨r, g, action, rfl⟩ := hstep.adopts hstate (Bool.eq_true_of_not_eq_false hadopted) ha
  exact hok a r g action hallowed

theorem Db.life_coverages_eq_some {state : CoverageState} :
    db.life.coverages[covId]? = some state ↔
      ∃ cov, db.coverages[covId]? = some cov ∧ cov.state = state := by
  simp [Db.life]

theorem Db.life_gates_eq_some {g : Nat} {life : GateLife} :
    db.life.gates[g]? = some life ↔ ∃ gate, db.gates[g]? = some gate ∧ gate.life = life := by
  simp [Db.life]

theorem LifeStep.decide_gates {r g : Nat} {action : Action}
    (hstep : LifeStep (.decide covId r g action) c c') (hc : c.Gated) :
    ∃ gate answer, c.coverages[covId]? = some .decisionPending ∧
      decisionAnswer action = some answer ∧ c.gates[g]? = some gate ∧
      gate.coverageId = some covId ∧ gate.state = .opened ∧ answer ∈ gate.allowed ∧
      c'.gates[g]? = some { gate with state := .answered, answer := some answer } ∧
      ∃ sm, entries (some .decisionPending) action = some sm ∧
        c'.coverages[covId]? = some sm.toState := by
  cases hstep with
  | @decide _ _ _ _ _ _ sm found asked gate answer hrun hlive hpending hentry hanswer hfound hasked
      hgate =>
      obtain ⟨hget, hgateRun, hopen⟩ := hgate
      have hsame {other : GateLife} (hother : other ∈ c.gates) (hr : other.runId = r) :
          other = gate := by
        obtain ⟨k, hk⟩ := List.getElem?_of_mem hother
        rw [hc.same hk hget (hr.trans hgateRun.symm), hget] at hk
        exact (Option.some.inj hk).symm
      obtain rfl := hsame hfound.1 hfound.2.2.1
      obtain rfl := hsame hasked.1 hasked.2.1
      refine ⟨asked, answer, hpending, hanswer, hget, hfound.2.1, hopen, hasked.2.2.2, ?_, sm, hentry,
        ?_⟩
      · exact (Life.getElem?_answer hget).trans (by rw [if_pos rfl])
      · exact getElem?_modify_self hpending

theorem decisionAction_value {decision : String} {action : Action} {sm : Transition}
    (h : decisionAction decision = some action)
    (hentry : entries (some .decisionPending) action = some sm)
    (hadopted : sm.toState.adopted = true) : sm.toState.value = decision := by
  unfold decisionAction at h
  split at h
  · cases h
    cases hentry
    rfl
  · cases h
    cases hentry
    rfl
  · cases h
    cases hentry
    cases hadopted
  · cases h

theorem decides_of_step {slug decision : String} {notes : Option String} {r g : Nat}
    {action : Action} {cov' : Coverage} (hdb : db.life.Lawful)
    (haccepts : app.Accepts env db request pm)
    (hslug : db.coverages.findIdx? (fun cov => cov.dossierSlug = slug) = some covId)
    (haction : decisionAction decision = some action)
    (hstep : LifeStep (.decide covId r g action) db.life
      (step app db (.api env request (.decide slug decision notes))).life)
    (hcov' : (step app db (.api env request (.decide slug decision notes))).coverages[covId]? =
      some cov') (hadopted : cov'.state.adopted = true) :
    Op.Decides app db (.api env request (.decide slug decision notes)) covId := by
  obtain ⟨life, answer, hpending, hanswer, hgate, hgateCov, hopen, hallowed, hgate', sm, hentry,
    hstate'⟩ := hstep.decide_gates hdb.gated
  obtain rfl : decision = answer :=
    Option.some.inj ((decisionAction_answer haction).symm.trans hanswer)
  obtain ⟨cov, hcov, hcovState⟩ := Db.life_coverages_eq_some.1 hpending
  obtain ⟨found, hfound, hfoundState⟩ := Db.life_coverages_eq_some.1 hstate'
  obtain rfl : cov' = found := Option.some.inj (hcov'.symm.trans hfound)
  obtain ⟨gate, hget, rfl⟩ := Db.life_gates_eq_some.1 hgate
  obtain ⟨gate', hget', hlife'⟩ := Db.life_gates_eq_some.1 hgate'
  have hcovSlug : cov.dossierSlug = slug := by
    obtain ⟨hlength, hmatch, -⟩ := List.findIdx?_eq_some_iff_getElem.1 hslug
    rw [List.getElem?_eq_getElem hlength, Option.some.injEq] at hcov
    rw [hcov] at hmatch
    exact of_decide_eq_true hmatch
  rw [hfoundState] at hadopted
  refine ⟨env, request, slug, decision, notes, pm, rfl, requirePm_eq_ok haccepts.authorized,
    ⟨cov, cov', hcov, hcovSlug, hcovState, hcov', ?_⟩,
    g, gate, gate', hget, hgateCov, hopen, hallowed, hget', ?_, ?_⟩
  · rw [hfoundState]
    exact decisionAction_value haction hentry hadopted
  · exact congrArg GateLife.state hlife'
  · exact congrArg GateLife.answer hlife'

theorem op_adoptsByDecision (hdb : db.life.Lawful) (op : Op) : op.AdoptsByDecision app db := by
  intro covId cov' hcov' hadopted hbefore
  have hafter : (step app db op).life.coverages[covId]? = some cov'.state :=
    Db.life_coverages_eq_some.2 ⟨cov', hcov', rfl⟩
  have hunadopted : db.life.Unadopted covId := by
    intro state hstate
    obtain ⟨cov, hcov, rfl⟩ := Db.life_coverages_eq_some.1 hstate
    exact hbefore cov hcov
  have hrest (hok : ∀ r g action, ¬ op.allows app db (.decide covId r g action)) :
      op.Decides app db covId := by
    have hnot := (op.commits db).path.unadopted (fun _ => hok) hunadopted cov'.state hafter
    simp [hadopted] at hnot
  cases op with
  | api env request call =>
      obtain hsame | ⟨e, ⟨⟨pm, haccepts⟩, hallows⟩, hstep⟩ := api_cases call db
      · rw [hsame] at hafter
        have hnot := hunadopted cov'.state hafter
        simp [hadopted] at hnot
      · obtain ⟨r, g, action, rfl⟩ := hstep.adopts hafter hadopted hunadopted
        obtain ⟨slug, decision, notes, rfl, hslug, haction⟩ := ApiCall.allows_cases hallows
        exact decides_of_step hdb haccepts hslug haction hstep hcov' hadopted
  | _ => exact hrest fun _ _ _ h => (Op.background_of_allows rfl h).elim

/-- In every history, a coverage becomes active or watched only by a decision of an authorized PM
at an open gate of that coverage. -/
theorem run_adoptsByDecision (hdb : db.Fresh) (ops : List Op) :
    EachStep (step app) (Op.AdoptsByDecision app) db ops := by
  have hall : EachStep (step app) (fun _ _ => True) db ops := eachStep_of_forall fun _ _ => trivial
  exact eachStep_of_invariant (I := fun db => db.life.Lawful) (fun _ op h _ => h.step op)
    (fun _ op h _ => op_adoptsByDecision h op) hdb.lawful hall

/-- Apple is proposed, initiated and decided on. -/
def Op.adoptApple : List Op :=
  Op.initiateApple ++
    [.tickWith (QueueCall.succeeds 0 [] ++ QueueCall.succeeds 1 []),
      .ask "decide" (.decide "us_aapl" "active" none)]

theorem run_adoptsByDecision_small :
    (run .small .small Op.adoptApple).coverages.map (·.state) = [.active] ∧
      EachStep (step .small) (Op.AdoptsByDecision .small) .small Op.adoptApple :=
  ⟨by decide +kernel, run_adoptsByDecision Db.small_fresh _⟩

end AiFund
