import AiFund.Proof.Gates
import AiFund.Proof.Program

/-!
# Answers

The PM's decision answers an open gate with an answer that the gate offers. A gate that is answered
or cancelled is left as it is, unless an accepted answer of another request overwrites it.
-/

namespace AiFund

open UnitOfWork Rows History

variable {app : App} {env : Env} {request : Request} {db : Db} {g r : Nat} {gate : PmGate}
  {c c' : Life} {e : LifeEvent}

/-! ## Offered answers -/

def Life.Offered (c : Life) : Prop :=
  ∀ gate ∈ c.gates, gate.state = .answered → ∃ answer, gate.answer = some answer ∧
    answer ∈ gate.allowed

theorem Life.Offered.congr (h : c.Offered) (hgates : c'.gates = c.gates) : c'.Offered := by
  rw [Offered, hgates]
  exact h

theorem Life.Offered.addGate {new : GateLife} (h : c.Offered) (hopen : new.state = .opened)
    (hgates : c'.gates = c.gates ++ [new]) : c'.Offered := by
  intro gate hgate hanswered
  rw [hgates] at hgate
  rcases List.mem_append.1 hgate with hold | hnew
  · exact h gate hold hanswered
  · rw [List.mem_singleton.1 hnew, hopen] at hanswered
    cases hanswered

/-- A decision answers the one gate of its run, which offers it. -/
theorem LifeStep.offered (hstep : LifeStep e c c') (he : ∀ g, e ≠ .answer g) (hc : c.Gated)
    (h : c.Offered) : c'.Offered := by
  cases hstep with
  | answer hgate => exact absurd rfl (he _)
  | pause => exact h.addGate rfl rfl
  | deliver => exact h.addGate rfl rfl
  | @decide _ covId r g action run sm found asked gate text hrun hlive hpending hentry hanswer hfound
      hasked hgate =>
      obtain ⟨hget, hgateRun, hopen⟩ := hgate
      obtain ⟨hmem, haskedRun, -, hallowed⟩ := hasked
      obtain ⟨i, hi⟩ := List.getElem?_of_mem hmem
      obtain rfl : i = g := hc.same hi hget (haskedRun.trans hgateRun.symm)
      obtain rfl : asked = gate := Option.some.inj (hi.symm.trans hget)
      intro other hother hanswered
      obtain ⟨k, hk⟩ := List.getElem?_of_mem hother
      obtain ⟨rfl, old, hold, rfl⟩ | ⟨-, hold⟩ := getElem?_modify_cases hk
      · obtain rfl : asked = old := Option.some.inj (hi.symm.trans hold)
        exact ⟨text, rfl, hallowed⟩
      · exact h other (List.mem_of_getElem? hold) hanswered
  | _ => exact h.congr (by simp)

theorem Db.offered_life : db.life.Offered ↔ db.AnswersOffered := by
  simp [Life.Offered, AnswersOffered, Db.life, PmGate.life]

/-! ## Kept gates -/

/-- The row of the gate is as it was. -/
def Db.Shows (g : Nat) (gate : PmGate) (db : Db) : Prop := db.gates[g]? = some gate

section Kept

variable (hgate : gate.state ≠ .opened)
include hgate

theorem openGateOfRun_ne {gateId : Nat} (hdb : db.Shows g gate)
    (h : openGateOfRun env r db = some gateId) : gateId ≠ g := by
  rintro rfl
  obtain ⟨found, hfound, hopen⟩ := RowOrder.of_first _ h
  obtain rfl : gate = found := Option.some.inj (hdb.symm.trans hfound)
  simp [hgate] at hopen

theorem upholds_shows_sideEffect {covId : Nat} {action : Action} {actorId requestId : String}
    {runId : Option Nat} (effect : SideEffect) :
    Upholds (Db.Shows g gate) (applySideEffect env covId action actorId runId requestId effect) := by
  cases effect with
  | outbox kind =>
      exact .ite (.pure _) (.assign fun _ hdb => hdb)
  | cancelOpenGate =>
      unfold applySideEffect
      refine .execute fun db hdb => ?_
      have hkept : db.gates[g]? = some gate := hdb
      simp [Db.Shows, hkept, hgate]
  | openGateInitiationDecision =>
      exact .bind (upholds_ofExcept _ _) fun _ => .assign fun _ hdb => getElem?_append_of_some hdb
  | answerGate =>
      refine .bind_read (fun _ _ _ h => (returns_select.1 h).2) fun s found hread hstored hloaded => ?_
      obtain ⟨rfl, -⟩ := returns_select.1 hread
      cases hfound : runId.bind fun r => openGateOfRun env r s.stored with
      | none => exact .pure _
      | some gateId =>
          obtain ⟨r, -, hopen⟩ := Option.bind_eq_some_iff.1 hfound
          have hne := openGateOfRun_ne hgate hstored hopen
          exact .bind (upholds_ofExcept _ _) fun _ => .assign fun db hdb =>
            (getElem?_modify_of_ne hne.symm).trans hdb
  | setLeadHouse =>
      refine .bind (.inspect _) fun found => ?_
      cases found with
      | none => exact .pure _
      | some run => exact .bind (upholds_ofExcept _ _) fun _ => .assign fun _ hdb => hdb
  | _ => exact .pure _

theorem overlooks_shows : OverlooksRuns (Db.Shows g gate) ∧ OverlooksCoverages (Db.Shows g gate) := by
  have hwrites : Overlooks (Db.Shows g gate) :=
    { stage := fun _ _ _ _ h => h
      cost := fun _ _ _ h => h
      attempts := fun _ _ h => h
      locks := fun _ _ h => h
      levels := fun _ _ h => h
      events := fun _ _ h => h
      newsArticles := fun _ _ h => h
      auditLog := fun _ _ h => h
      idempotencyKeys := fun _ _ h => h
      schedulerJobLogs := fun _ _ h => h }
  have hcoverages : OverlooksCoverages (Db.Shows g gate) :=
    { hwrites with
      coverages := fun _ _ h => h
      transitions := fun _ _ h => h
      leadHistory := fun _ _ h => h
      outbox := fun _ _ _ h => h
      effect := fun _ _ _ _ _ _ => upholds_shows_sideEffect hgate }
  refine ⟨?_, hcoverages⟩
  exact
    { hwrites with
      run := fun _ _ _ _ h => h
      gate := fun _ _ _ h => getElem?_append_of_some h
      outbox := fun _ _ _ h => h
      predictions := fun _ _ h => h
      crossCheck := fun _ _ _ h => h
      transition := fun _ _ _ _ _ _ _ _ _ _ => hcoverages.transitionCoverage
      decision := fun _ _ _ _ _ _ _ _ _ _ => hcoverages.transitionCoverage }

/-- Only a request to answer the very gate touches its row. -/
theorem step_shows (hdb : db.Shows g gate) (op : Op)
    (hop : ∀ env request answer notes, op ≠ .api env request (.answerGate g answer notes)) :
    (step app db op).Shows g gate := by
  obtain ⟨hruns, hcoverages⟩ := overlooks_shows (g := g) hgate
  have horigins : Origins (Db.Shows g gate) app.fund := hcoverages.origins fun _ _ _ _ _ _ _ _ =>
    upholds_createRun (fun _ _ h => h) fun _ _ h => h
  refine hruns.step horigins hdb op fun env request gateId answer notes heq pm key => ?_
  have hne : g ≠ gateId := by
    rintro rfl
    exact hop env request answer notes heq
  exact upholds_answerGate fun _ hdb => (getElem?_modify_of_ne hne).trans hdb

end Kept

/-! ## Requests -/

/-- A request that is not accepted changes nothing: it is refused, or answered from what is
stored under its key. -/
theorem commit_not_accepted (call : ApiCall) (hnot : ∀ pm, ¬ app.Accepts env db request pm) :
    (commit (call.perform env app request) db).after = db ∧
      ((∃ error, (commit (call.perform env app request) db).result = .error error) ∨
        ∃ row ∈ db.idempotencyKeys, row.key = request.idempotencyKey.getD "" ∧
          (commit (call.perform env app request) db).result = .ok row.response.body) := by
  obtain ⟨error, hcommit⟩ | ⟨body, s, hs, -, hcommit⟩ :=
    commit_cases (call.perform env app request) db
  · rw [hcommit]
    exact ⟨rfl, .inl ⟨error, rfl⟩⟩
  · obtain ⟨rfl, row, hrow, hkey, rfl⟩ | ⟨pm, handled, s₁, haccepts, -⟩ := mutation_cases hs
    · rw [hcommit]
      exact ⟨rfl, .inr ⟨row, hrow, hkey, rfl⟩⟩
    · exact absurd haccepts (hnot pm)

/-- Offered answers, and an answer that the gate offers. -/
def Db.OffersFor (g : Nat) (answer : String) (db : Db) : Prop :=
  db.AnswersOffered ∧ ∀ gate, db.gates[g]? = some gate → answer ∈ gate.allowedAnswers

theorem overlooks_offersFor {answer : String} : Overlooks (Db.OffersFor g answer) where
  stage _ _ _ _ h := h
  cost _ _ _ h := h
  attempts _ _ h := h
  locks _ _ h := h
  levels _ _ h := h
  events _ _ h := h
  newsArticles _ _ h := h
  auditLog _ _ h := h
  idempotencyKeys _ _ h := h
  schedulerJobLogs _ _ h := h

theorem Db.OffersFor.answer {answer actorId key : String} {notes : Option String} {now : Time}
    (h : db.OffersFor g answer) :
    (db.updateGate g fun gate => gate.answeredWith answer actorId notes now key).OffersFor g
      answer := by
  constructor
  · intro gate hgate hanswered
    obtain ⟨i, hi⟩ := List.getElem?_of_mem hgate
    obtain ⟨rfl, old, hold, rfl⟩ | ⟨-, hold⟩ := getElem?_modify_cases hi
    · exact ⟨answer, rfl, h.2 old hold⟩
    · exact h.1 gate (List.mem_of_getElem? hold) hanswered
  · intro gate hgate
    obtain ⟨-, old, hold, rfl⟩ | ⟨hne, -⟩ := getElem?_modify_cases hgate
    · exact h.2 old hold
    · exact absurd rfl hne

/-! ## Histories -/

namespace Op

theorem AnswersOpenly.keeps {op : Op} (h : op.AnswersOpenly app db) : op.KeepsAnswers app db where
  kept := by
    intro g gate hgate hclosed
    by_cases hop : ∃ env request answer notes, op = .api env request (.answerGate g answer notes)
    · obtain ⟨env, request, answer, notes, rfl⟩ := hop
      have hnot (pm : String) : ¬ app.Accepts env db request pm := fun haccepts =>
        hclosed (h env request g answer notes pm gate rfl haccepts hgate).1
      exact (congrArg (fun db : Db => db.gates[g]?) (commit_not_accepted _ hnot).1).trans hgate
    · exact step_shows hclosed hgate op fun env request answer notes heq =>
        hop ⟨env, request, answer, notes, heq⟩
  refused := by
    rintro env request g answer notes gate rfl hgate hclosed
    have hnot (pm : String) : ¬ app.Accepts env db request pm := fun haccepts =>
      hclosed (h env request g answer notes pm gate rfl haccepts hgate).1
    obtain ⟨hafter, herror | hreplay⟩ := commit_not_accepted (.answerGate g answer notes) hnot
    · obtain ⟨error, herror⟩ := herror
      exact ⟨hafter, .inl ⟨error, congrArg (Except.map fun _ => ()) herror⟩⟩
    · exact ⟨hafter, .inr hreplay⟩

theorem AnswersOpenly.offered {op : Op} (h : op.AnswersOpenly app db) (hdb : db.life.Lawful)
    (hoffered : db.AnswersOffered) : (step app db op).AnswersOffered := by
  by_cases hop : ∃ env request g answer notes, op = .api env request (.answerGate g answer notes)
  · obtain ⟨env, request, g, answer, notes, rfl⟩ := hop
    by_cases haccepts : ∃ pm, app.Accepts env db request pm
    · obtain ⟨pm, haccepts⟩ := haccepts
      have hstart : db.OffersFor g answer :=
        ⟨hoffered, fun gate hgate => (h env request g answer notes pm gate rfl haccepts hgate).2⟩
      have hrequest : Upholds (Db.OffersFor g answer)
          ((ApiCall.answerGate g answer notes).perform env app request) :=
        overlooks_offersFor.mutation fun _ _ =>
          .bind (upholds_answerGate fun _ h => h.answer) fun _ => .pure _
      exact (hrequest.commit hstart).1
    · rw [not_exists] at haccepts
      rw [show step app db (.api env request (.answerGate g answer notes)) = db from
        (commit_not_accepted _ haccepts).1]
      exact hoffered
  · have hother (e : LifeEvent) (hallows : op.allows app db e) (i : Nat) : e ≠ .answer i := by
      rintro rfl
      obtain ⟨env, request, answer, notes, pm, heq, -⟩ := Op.answers_of_allows hallows
      exact hop ⟨env, request, i, answer, notes, heq⟩
    rw [← Db.offered_life] at hoffered ⊢
    exact op_preserves hdb
      (fun e _ hallows hstep hc => hstep.offered (hother e hallows) hdb.gated hc)
      (fun e _ _ _ hallows hstep ha hc => hstep.offered (hother e hallows) ha.gated hc) hoffered

end Op

/-- In every history whose accepted answers are offered by gates that are still open, every recorded
answer is one that its gate offered, and no answered or cancelled gate changes. -/
theorem run_keepsAnswers (hdb : db.Fresh) (ops : List Op)
    (hops : EachStep (step app) (Op.AnswersOpenly app) db ops) :
    (run app db ops).AnswersOffered ∧ EachStep (step app) (Op.KeepsAnswers app) db ops := by
  have hstart : db.life.Lawful ∧ db.AnswersOffered :=
    ⟨hdb.lawful, fun gate hgate => by rw [hdb.gates] at hgate; cases hgate⟩
  have hend : (run app db ops).life.Lawful ∧ (run app db ops).AnswersOffered :=
    invariant (I := fun db => db.life.Lawful ∧ db.AnswersOffered)
      (fun _ op h hopen => ⟨h.1.step op, hopen.offered h.1 h.2⟩) hstart hops
  exact ⟨hend.2, hops.mono fun _ _ h => h.keeps⟩

/-- The initiation of Apple, with its gate answered by a request of its own. -/
def Op.answerApple : List Op := Op.deliverApple ++ [.ask "answer" (.answerGate 0 "active" none)]

theorem run_keepsAnswers_small :
    (run .small .small Op.answerApple).gates.map (·.answer) = [some "active"] ∧
      (run .small .small Op.answerApple).AnswersOffered ∧
      EachStep (step .small) (Op.KeepsAnswers .small) .small Op.answerApple := by
  refine ⟨by decide +kernel, run_keepsAnswers Db.small_fresh _ ?_⟩
  have hbefore : (run .small .small Op.deliverApple).gates.map
      (fun gate => (gate.state, gate.allowedAnswers)) =
        [(.opened, ["active", "watch", "reject"])] := by
    decide +kernel
  refine eachStep_append.2 ⟨⟨?_, ?_, ?_, trivial⟩, ?_, trivial⟩
  · rintro _ _ _ _ _ _ _ ⟨⟩
  · rintro _ _ _ _ _ _ _ ⟨⟩
  · rintro _ _ _ _ _ _ _ ⟨⟩
  · rintro _ _ g answer _ _ gate ⟨⟩ - hgate
    change (run .small .small Op.deliverApple).gates[0]? = some gate at hgate
    have hmem := List.mem_map_of_mem (f := fun gate => (gate.state, gate.allowedAnswers))
      (List.mem_of_getElem? hgate)
    rw [hbefore, List.mem_singleton, Prod.mk.injEq] at hmem
    exact ⟨hmem.1, by rw [hmem.2]; simp⟩

/-- A second answer to the gate, under a new key, that the gate does not offer. -/
def Op.overwriteApple : List Op := Op.answerApple ++ [.ask "maybe" (.answerGate 0 "maybe" none)]

/-- A second answer overwrites the first, whether the gate offers it or not. -/
theorem not_keepsAnswers_overwritten :
    ¬ (run .small .small Op.overwriteApple).AnswersOffered ∧
      ¬ EachStep (step .small) (Op.KeepsAnswers .small) .small Op.overwriteApple := by
  constructor
  · intro h
    have hafter : (run .small .small Op.overwriteApple).gates[0]?.map
        (fun gate => (gate.state, gate.answer, gate.allowedAnswers)) =
          some (.answered, some "maybe", ["active", "watch", "reject"]) := by
      decide +kernel
    obtain ⟨gate, hgate, hrow⟩ := Option.map_eq_some_iff.1 hafter
    simp only [Prod.mk.injEq] at hrow
    obtain ⟨answer, hanswer, hallowed⟩ := h gate (List.mem_of_getElem? hgate) hrow.1
    obtain rfl : "maybe" = answer := Option.some.inj (hrow.2.1.symm.trans hanswer)
    rw [hrow.2.2] at hallowed
    simp at hallowed
  · intro h
    have hkept := (eachStep_append.1 h).2.1.kept
    have hbefore : (run .small .small Op.answerApple).gates[0]?.map
        (fun gate => (gate.state, gate.answer)) = some (.answered, some "active") := by
      decide +kernel
    obtain ⟨gate, hgate, hrow⟩ := Option.map_eq_some_iff.1 hbefore
    simp only [Prod.mk.injEq] at hrow
    have hafter := congrArg (Option.map (·.answer)) (hkept 0 gate hgate (by rw [hrow.1]; nofun))
    rw [Option.map_some, hrow.2] at hafter
    revert hafter
    decide +kernel

end AiFund
