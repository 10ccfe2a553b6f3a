import AiFund.Concurrent.Requests
import AiFund.Proof.Statements

/-!
# Outlines of requests
-/

namespace AiFund.Concurrent

open ReadCommitted

variable {rely : Rely Db RowKey} {P J : Assertion Db RowKey} {env : Env} {app : App}
  {request : Request} {route : String} {statusCode : Nat} {handler : String → DbScript Handling}

theorem outline_idempotency (stable : Stable rely J) (reads : ∀ s l, P s l → J s (l.saw s)) :
    Outline rely .always P (idempotency env request) fun _ => J := by
  unfold idempotency
  refine .ite (.raise fun _ _ _ => trivial) ?_
  refine .bind (Q := fun _ => J) (.select (fun _ => stable) reads) fun row? => ?_
  cases row? with
  | none => exact .pure fun _ _ h => h
  | some row => exact .ite (.raise fun _ _ _ => trivial) (.pure fun _ _ h => h)

/-- A route replays, having only read its key, or its handler runs and its rows are added. -/
theorem outline_mutation {R : String → Handling → Assertion Db RowKey}
    {Q : Reply → Assertion Db RowKey} (stable : Stable rely J)
    (reads : ∀ s l, P s l → J s (l.saw s)) (replays : ∀ body s l, J s l → Q (.replayed body) s l)
    (handles : ∀ pm, requirePm env app request = .ok pm →
      Outline rely .always J (handler pm) (R pm))
    (audits : ∀ pm handling row, Outline rely .always (R pm handling) (send (.addAudit row))
      fun _ => R pm handling)
    (flushes : ∀ pm handling, Outline rely .always (R pm handling) handling.flush
      fun _ => R pm handling)
    (stores : ∀ pm handling idem, Outline rely .always (R pm handling)
      (storeKey env idem handling.response statusCode route pm)
      fun _ => Q (.performed handling.response)) :
    Outline rely .always P (mutation env app request route statusCode handler) Q := by
  refine outline_ofExcept_bind fun pm hpm => ?_
  refine .bind (outline_idempotency stable reads) fun idem => ?_
  cases idem.replay with
  | some body => exact .pure (replays body)
  | none =>
      refine .bind (handles pm hpm) fun handling => .bind (audits pm handling _) fun _ => ?_
      refine .bind (flushes pm handling) fun _ => .bind (stores pm handling idem) fun _ => ?_
      exact .pure fun _ _ h => h

theorem outline_requireCoverage {slug : String} {Q : Nat × Coverage → Assertion Db RowKey}
    (stable : ∀ found, Stable rely (Q found))
    (reads : ∀ s l covId cov, P s l →
      ((l.visible s).coverages.findIdx? fun cov => cov.dossierSlug = slug) = some covId →
      (l.visible s).coverages[covId]? = some cov → Q (covId, cov) s (l.saw s)) :
    Outline rely .always P (requireCoverage slug) Q := by
  unfold requireCoverage
  refine .bind (Q := fun found s l => ∀ x, found = some x → Q x s l) (.select ?_ ?_) fun found => ?_
  · exact fun found s s' l h hrely x hx => stable x (h x hx) hrely
  · intro s l hs x hx
    obtain ⟨covId, hcovId, hrest⟩ := Option.bind_eq_some_iff.1 hx
    obtain ⟨cov, hcov, hpair⟩ := Option.bind_eq_some_iff.1 hrest
    cases hpair
    exact reads s l covId cov hs hcovId hcov
  · cases found with
    | none => exact .raise fun _ _ _ => trivial
    | some x => exact .pure fun s l h => h x rfl

/-! ## Records -/

variable {covId : Nat} {runId : Option Nat} {requestId : String} {effects : List SideEffect}

theorem outline_effectOutbox
    (h : ∀ row, Outline rely .always P (send (.addOutbox row)) fun _ => P) :
    Outline rely .always P (effects.forM (effectOutbox env covId runId requestId))
      fun _ => P := by
  refine .forM fun effect _ => ?_
  cases effect with
  | outbox kind => exact .ite (.pure fun _ _ h => h) (h _)
  | _ => exact .pure fun _ _ h => h

theorem outline_effectGate (h : .openGateInitiationDecision ∉ effects) :
    Outline rely .always P (effects.forM (effectGate covId runId)) fun _ => P := by
  refine .forM fun effect heffect => ?_
  cases effect with
  | openGateInitiationDecision => exact absurd heffect h
  | _ => exact .pure fun _ _ h => h

/-- A loop of which every round returns the same without a statement. -/
theorem mapM_pure {α β : Type} {f : α → DbScript β} {b : β} {xs : List α}
    (h : ∀ x ∈ xs, f x = pure b) : xs.mapM f = pure (xs.map fun _ => b) := by
  induction xs with
  | nil => rfl
  | cons x xs ih =>
      rw [List.mapM_cons, h x List.mem_cons_self, ih fun y hy => h y (List.mem_cons_of_mem x hy)]
      simp

/-! ## What is written -/

/-- The writes of a transition. -/
inductive CoverageWrite : DbWrite → Prop
  | cancelGates (ids : List Nat) : CoverageWrite (.cancelGates ids)
  | coverage (id : Nat) (f : Coverage → Coverage) : CoverageWrite (.setCoverage id f)
  | gate (id : Nat) (f : PmGate → PmGate) : CoverageWrite (.setGate id f)
  | newGate (row : PmGate) : CoverageWrite (.addGate row)
  | audit (row : AuditLog) : CoverageWrite (.addAudit row)
  | transition (row : CoverageTransition) : CoverageWrite (.addTransition row)
  | outbox (row : Nat → OutboxEvent) : CoverageWrite (.addOutbox row)

/-- The writes that finish a run. -/
inductive FinishWrite : DbWrite → Prop
  | locks (runId : Nat) (ids : List Nat) : FinishWrite (.dropLocks runId ids)
  | outbox (row : Nat → OutboxEvent) : FinishWrite (.addOutbox row)
  | run (runId : Nat) (f : Run → Run) : FinishWrite (.setRun runId f)

section Writes

variable {allowed : DbWrite → Prop} {slug : String} {cov : Coverage} {r : Recorded}
  {gates : List LoadedGate}

theorem writes_requireCoverage : (requireCoverage slug).Writes allowed := by
  refine .bind (.select _) fun found => ?_
  cases found with
  | none => exact .raise
  | some found => exact .pure _

theorem writes_gateOfRun : (gateOfRun env runId gates).Writes allowed := by
  cases runId with
  | none => exact .pure _
  | some r => exact .bind (.select _) fun _ => .pure _

theorem writes_effectNow (effect : SideEffect) :
    (effectNow env runId gates effect).Writes CoverageWrite := by
  cases effect with
  | answerGate => exact .bind writes_gateOfRun fun _ => .pure _
  | cancelOpenGate =>
      refine .bind (.write fun s w hw => ?_) fun _ => .pure _
      obtain rfl := Option.some.inj hw
      exact .cancelGates _
  | setLeadHouse =>
      cases runId with
      | none => exact .pure _
      | some r => exact .bind writes_getRow fun _ => .bind writes_ofExcept fun _ => .pure _
  | _ => exact .pure _

theorem writes_effectOutbox (effect : SideEffect) :
    (effectOutbox env covId runId requestId effect).Writes CoverageWrite := by
  cases effect with
  | outbox kind => exact .ite (.pure _) (writes_send (.outbox _))
  | _ => exact .pure _

theorem writes_effectGate (effect : SideEffect) :
    (effectGate covId runId effect).Writes CoverageWrite := by
  cases effect with
  | openGateInitiationDecision =>
      exact .bind writes_ofExcept fun _ => writes_send (.newGate _)
  | _ => exact .pure _

theorem writes_record {lead : Option String} {sm : Transition} :
    (record env covId cov lead sm r gates).Writes CoverageWrite := by
  refine .bind (.mapM writes_effectNow) fun effects => .bind (writes_send (.audit _)) fun _ => ?_
  refine .bind (.ite (.pure _) (writes_sendChecked (.coverage ..))) fun _ => ?_
  refine .bind (writes_send (.transition _)) fun _ => .bind (writes_send (.outbox _)) fun _ => ?_
  refine .bind (.forM writes_effectOutbox) fun _ => .bind (.forM writes_effectGate) fun _ => ?_
  cases effects.findSome? (·.answered) with
  | none => exact .pure _
  | some gate => exact .bind writes_ofExcept fun _ => writes_send (.gate ..)

theorem writes_transitionCoverage {force : Bool} :
    (transitionCoverage env covId cov r force gates).Writes CoverageWrite := by
  refine .bind (.bind (.select _) fun _ => .ite ?_ ?_) fun known =>
    .bind writes_ofExcept fun _ => .bind writes_record fun _ => .pure _
  · exact .bind writes_gateOfRun fun _ => .pure _
  · exact .bind (.pure _) fun _ => .pure _

theorem writes_setLead {house : String} : (setLead env covId cov house r).Writes CoverageWrite :=
  .bind (.select _) fun _ => .bind writes_ofExcept fun _ => .bind writes_record fun _ => .pure _

theorem writes_finishLoaded {run : Run} {runId : Nat} {status : RunStatus}
    {summary error : Option String} :
    (finishLoaded env runId run status summary error).Writes FinishWrite := by
  refine .bind writes_ofExcept fun action => .bind writes_ofExcept fun sm => ?_
  refine .bind (.forM fun effect => ?_) fun _ => .bind (.forM fun effect => ?_) fun _ =>
    writes_send (.run ..)
  · cases effect with
    | releaseLock =>
        refine .write fun s w hw => ?_
        obtain rfl := Option.some.inj hw
        exact .locks ..
    | _ => exact .pure _
  · cases effect with
    | outboxRunFinished => exact writes_send (.outbox _)
    | _ => exact .pure _

theorem writes_finishRun {runId : Nat} {status : RunStatus} {summary error : Option String} :
    (finishRun env runId status summary error).Writes FinishWrite :=
  .bind writes_getRow fun _ => writes_finishLoaded

end Writes

end AiFund.Concurrent
