import AiFund.Library.Total
import AiFund.Proof.Program

/-!
# Legal writes

What a decision writes, each write on its own: a database that the schema accepts, and whose fresh
dedupe keys were all made in order, is left so.
-/

namespace AiFund

open UnitOfWork Rows

variable {db : Db}

/-- The fresh dedupe keys of the outbox are numbered in order. -/
def Db.Numbered (db : Db) : Prop :=
  ∀ (i : Nat) (event : OutboxEvent), db.outbox[i]? = some event →
    ∃ kind subject, event.dedupeKey = .fresh kind subject i

structure Db.Sound (db : Db) : Prop where
  legal : Schema.violation db = none
  numbered : db.Numbered

theorem Db.legal_of_rules {a b : Db} (ha : Schema.violation a = none)
    (h : ∀ rule ∈ constraints, rule.2 a = true → rule.2 b = true) : Schema.violation b = none :=
  Db.violation_eq_none.2 fun rule hrule => h rule hrule (Db.violation_eq_none.1 ha rule hrule)

theorem all_mono {ρ : Type} {rows : List ρ} {p q : Nat → Bool} (column : ρ → Option Nat)
    (hpq : ∀ id, p id = true → q id = true) (h : (rows.all fun row => (column row).all p) = true) :
    (rows.all fun row => (column row).all q) = true := by
  rw [List.all_eq_true] at h ⊢
  intro row hrow
  have hall := h row hrow
  cases hcolumn : column row with
  | none => rfl
  | some id =>
      rw [hcolumn] at hall
      exact hpq id hall

/-- A new row of a table that another column refers to by key leaves its key new. -/
theorem nodup_concat {ρ κ : Type} {rows : List ρ} {row : ρ} {key : ρ → κ}
    (h : (rows.map key).Nodup) (hnew : ∀ other ∈ rows, key other ≠ key row) :
    ((rows ++ [row]).map key).Nodup := by
  rw [List.map_append, List.map_singleton, ← List.concat_eq_append]
  refine h.concat fun hmem => ?_
  obtain ⟨other, hother, heq⟩ := List.mem_map.1 hmem
  exact hnew other hother heq

theorem Db.Numbered.add {event : OutboxEvent} (h : db.Numbered)
    (hkey : ∃ kind subject, event.dedupeKey = .fresh kind subject db.outbox.length) :
    Numbered { db with outbox := db.outbox ++ [event] } := by
  intro i other hother
  obtain hold | ⟨rfl, rfl⟩ := getElem?_concat_cases hother
  · exact h i other hold
  · exact hkey

namespace Db.Sound

section Writes

variable (h : db.Sound)
include h

theorem addTransition {row : CoverageTransition} (hrun : row.runId.all db.isRun = true) :
    Sound { db with transitions := db.transitions ++ [row] } := by
  refine ⟨legal_of_rules h.legal ?_, h.numbered⟩
  have hruns : Db.isRun { db with transitions := db.transitions ++ [row] } = db.isRun := rfl
  have hhouses : Db.isHouse { db with transitions := db.transitions ++ [row] } = db.isHouse := rfl
  have hcoverages : Db.isCoverage { db with transitions := db.transitions ++ [row] } =
      db.isCoverage := rfl
  simp only [constraints, List.forall_mem_cons, hruns, hhouses, hcoverages, imp_self, true_and]
  refine ⟨fun hall => ?_, nofun⟩
  rw [List.all_append, hall]
  simpa using hrun

theorem addAudit {row : AuditLog} : Sound { db with auditLog := db.auditLog ++ [row] } := by
  refine ⟨legal_of_rules h.legal ?_, h.numbered⟩
  have hruns : Db.isRun { db with auditLog := db.auditLog ++ [row] } = db.isRun := rfl
  have hhouses : Db.isHouse { db with auditLog := db.auditLog ++ [row] } = db.isHouse := rfl
  have hcoverages : Db.isCoverage { db with auditLog := db.auditLog ++ [row] } =
      db.isCoverage := rfl
  simp only [constraints, List.forall_mem_cons, hruns, hhouses, hcoverages, imp_self, true_and]
  exact nofun

theorem addOutbox {event : OutboxEvent} {kind : String} {subject : Nat}
    (hcoverage : event.coverageId.all db.isCoverage = true)
    (hrun : event.runId.all db.isRun = true)
    (hkey : event.dedupeKey = .fresh kind subject db.outbox.length) :
    Sound { db with outbox := db.outbox ++ [event] } := by
  have hnew (other : OutboxEvent) (hother : other ∈ db.outbox) :
      other.dedupeKey ≠ event.dedupeKey := by
    obtain ⟨i, hi⟩ := List.getElem?_of_mem hother
    obtain ⟨kind', subject', hkey'⟩ := h.numbered i other hi
    have hlt := (List.getElem?_eq_some_iff.1 hi).1
    rw [hkey, hkey']
    intro heq
    injection heq
    omega
  constructor
  · refine legal_of_rules h.legal ?_
    have hruns : Db.isRun { db with outbox := db.outbox ++ [event] } = db.isRun := rfl
    have hhouses : Db.isHouse { db with outbox := db.outbox ++ [event] } = db.isHouse := rfl
    have hcoverages : Db.isCoverage { db with outbox := db.outbox ++ [event] } =
        db.isCoverage := rfl
    simp only [constraints, List.forall_mem_cons, hruns, hhouses, hcoverages, imp_self, true_and,
      decide_eq_true_eq]
    refine ⟨fun hall => ?_, fun hall => ?_, fun hnodup => nodup_concat hnodup hnew, nofun⟩
    · rw [List.all_append, hall]
      simpa using hcoverage
    · rw [List.all_append, hall]
      simpa using hrun
  · exact h.numbered.add ⟨kind, subject, hkey⟩

theorem updateGate {g : Nat} {f : PmGate → PmGate} (hrun : ∀ gate, (f gate).runId = gate.runId)
    (hkey : ∀ gate, (f gate).idempotencyKey = gate.idempotencyKey) :
    (db.updateGate g f).Sound := by
  refine ⟨legal_of_rules h.legal ?_, h.numbered⟩
  have hruns : Db.isRun { db with gates := db.gates.modify g f } = db.isRun := rfl
  have hhouses : Db.isHouse { db with gates := db.gates.modify g f } = db.isHouse := rfl
  have hcoverages : Db.isCoverage { db with gates := db.gates.modify g f } = db.isCoverage := rfl
  have hkeys (rows : List PmGate) :
      rows.filterMap (·.idempotencyKey) = (rows.map (·.idempotencyKey)).filterMap id := by
    rw [List.filterMap_map]
    rfl
  unfold Db.updateGate
  simp only [constraints, List.forall_mem_cons, hruns, hhouses, hcoverages, imp_self, true_and,
    decide_eq_true_eq]
  refine ⟨fun hall => ?_, fun hnodup => ?_, nofun⟩
  · rwa [all_congr_of_map (map_modify_of_eq hrun) db.isRun]
  · rwa [hkeys, map_modify_of_eq hkey, ← hkeys]

theorem updateRun {r : Nat} {f : Run → Run}
    (hf : ∀ run, ((f run).coverageId, (f run).type, (f run).triggerRef) =
      (run.coverageId, run.type, run.triggerRef)) : (db.updateRun r f).Sound := by
  refine ⟨legal_of_rules h.legal ?_, h.numbered⟩
  have hrows : (db.runs.modify r f).map (fun run => (run.coverageId, run.type, run.triggerRef)) =
      db.runs.map fun run => (run.coverageId, run.type, run.triggerRef) := map_modify_of_eq hf
  have hruns : Db.isRun { db with runs := db.runs.modify r f } = db.isRun := by
    funext id
    simp [Db.isRun]
  have hhouses : Db.isHouse { db with runs := db.runs.modify r f } = db.isHouse := rfl
  have hcoverages : Db.isCoverage { db with runs := db.runs.modify r f } = db.isCoverage := rfl
  have hkeys (rows : List Run) : rows.filterMap Run.triggerKey =
      (rows.map fun run : Run => (run.coverageId, run.type, run.triggerRef)).filterMap
        fun key => do return (← key.1, key.2.1, ← key.2.2) := by
    rw [List.filterMap_map]
    rfl
  unfold Db.updateRun
  simp only [constraints, List.forall_mem_cons, hruns, hhouses, hcoverages, imp_self, true_and,
    decide_eq_true_eq]
  refine ⟨fun hall => ?_, fun hall => ?_, fun hnodup => ?_, nofun⟩
  · rwa [all_congr_of_map hrows fun key => key.1.all db.isCoverage]
  · rwa [all_congr_of_map hrows fun key => key.1.isSome || key.2.1 = .distillation]
  · rwa [hkeys, hrows, ← hkeys]

theorem updateStage {i : Nat} {f : RunStage → RunStage}
    (hf : ∀ stage, ((f stage).runId, (f stage).seq, (f stage).house) =
      (stage.runId, stage.seq, stage.house)) : (db.updateStage i f).Sound := by
  refine ⟨legal_of_rules h.legal ?_, h.numbered⟩
  have hrows : (db.stages.modify i f).map (fun stage => (stage.runId, stage.seq, stage.house)) =
      db.stages.map fun stage => (stage.runId, stage.seq, stage.house) := map_modify_of_eq hf
  have hruns : Db.isRun { db with stages := db.stages.modify i f } = db.isRun := rfl
  have hhouses : Db.isHouse { db with stages := db.stages.modify i f } = db.isHouse := rfl
  have hcoverages : Db.isCoverage { db with stages := db.stages.modify i f } = db.isCoverage := rfl
  have hkeys (rows : List RunStage) : rows.map (fun stage => (stage.runId, stage.seq)) =
      (rows.map fun stage : RunStage => (stage.runId, stage.seq, stage.house)).map
        fun key => (key.1, key.2.1) := by
    rw [List.map_map]
    rfl
  unfold Db.updateStage
  simp only [constraints, List.forall_mem_cons, hruns, hhouses, hcoverages, imp_self, true_and,
    decide_eq_true_eq]
  refine ⟨fun hall => ?_, fun hall => ?_, fun hnodup => ?_,
    fun _ hrule => absurd hrule List.not_mem_nil⟩
  · rwa [all_congr_of_map hrows fun key => db.isRun key.1]
  · rwa [all_congr_of_map hrows fun key => db.isHouse key.2.2]
  · rwa [hkeys, hrows, ← hkeys]

theorem updateAttempt {id : Nat} {f : StageAttempt → StageAttempt}
    (hf : ∀ attempt, ((f attempt).stageId, (f attempt).attemptNo) =
      (attempt.stageId, attempt.attemptNo)) : (db.updateAttempt id f).Sound := by
  refine ⟨legal_of_rules h.legal ?_, h.numbered⟩
  have hruns : Db.isRun { db with attempts := db.attempts.modify id f } = db.isRun := rfl
  have hhouses : Db.isHouse { db with attempts := db.attempts.modify id f } = db.isHouse := rfl
  have hcoverages : Db.isCoverage { db with attempts := db.attempts.modify id f } =
      db.isCoverage := rfl
  unfold Db.updateAttempt
  simp only [constraints, List.forall_mem_cons, hruns, hhouses, hcoverages, imp_self, true_and,
    decide_eq_true_eq]
  refine ⟨fun hnodup => ?_, fun _ hrule => absurd hrule List.not_mem_nil⟩
  rwa [map_modify_of_eq hf]

theorem close {id : Option Nat} {f : StageAttempt → StageAttempt}
    (hf : ∀ attempt, ((f attempt).stageId, (f attempt).attemptNo) =
      (attempt.stageId, attempt.attemptNo)) : (db.close id f).Sound := by
  cases id with
  | none => exact h
  | some id => exact h.updateAttempt hf

theorem releaseLock {r : Nat} :
    Sound { db with locks := db.locks.filter fun lock => lock.runId ≠ r } := by
  refine ⟨legal_of_rules h.legal ?_, h.numbered⟩
  have hruns : Db.isRun { db with locks := db.locks.filter fun lock => lock.runId ≠ r } =
      db.isRun := rfl
  have hhouses : Db.isHouse { db with locks := db.locks.filter fun lock => lock.runId ≠ r } =
      db.isHouse := rfl
  have hcoverages : Db.isCoverage { db with
      locks := db.locks.filter fun lock => lock.runId ≠ r } = db.isCoverage := rfl
  simp only [constraints, List.forall_mem_cons, hruns, hhouses, hcoverages, imp_self, true_and,
    decide_eq_true_eq]
  exact ⟨fun hnodup => hnodup.sublist (List.filter_sublist.map _),
    fun hnodup => hnodup.sublist (List.filter_sublist.map _), nofun⟩

/-- A coverage may be rewritten to one of the same name, whose lead is a house, and not missing where
it must be there. -/
theorem updateCoverage {covId : Nat} {f : Coverage → Coverage}
    (hkeys : ∀ cov, ((f cov).exchange, (f cov).ticker, (f cov).dossierSlug) =
      (cov.exchange, cov.ticker, cov.dossierSlug))
    (hlead : ∀ cov, db.coverages[covId]? = some cov →
      (!(f cov).state.live || (f cov).leadHouse.isSome) = true ∧
        (f cov).leadHouse.all db.isHouse = true) : (db.updateCoverage covId f).Sound := by
  refine ⟨legal_of_rules h.legal ?_, h.numbered⟩
  have hkept {β : Type} (column : String × String × String → β) :
      (db.coverages.modify covId f).map (fun cov =>
          column (cov.exchange, cov.ticker, cov.dossierSlug)) =
        db.coverages.map fun cov => column (cov.exchange, cov.ticker, cov.dossierSlug) :=
    map_modify_of_eq fun cov => congrArg column (hkeys cov)
  have hcoverages : Db.isCoverage { db with coverages := db.coverages.modify covId f } =
      db.isCoverage := by
    funext id
    simp [Db.isCoverage]
  have hruns : Db.isRun { db with coverages := db.coverages.modify covId f } = db.isRun := rfl
  have hhouses : Db.isHouse { db with coverages := db.coverages.modify covId f } = db.isHouse := rfl
  have hall {p : Coverage → Bool} (hp : ∀ cov, db.coverages[covId]? = some cov → p (f cov) = true)
      (hrows : db.coverages.all p = true) : (db.coverages.modify covId f).all p = true := by
    rw [List.all_eq_true] at hrows ⊢
    intro row hrow
    obtain ⟨i, hi⟩ := List.getElem?_of_mem hrow
    obtain ⟨rfl, old, hold, rfl⟩ | ⟨-, hold⟩ := getElem?_modify_cases hi
    · exact hp old hold
    · exact hrows row (List.mem_of_getElem? hold)
  unfold Db.updateCoverage
  simp only [constraints, List.forall_mem_cons, hruns, hhouses, hcoverages, imp_self, true_and,
    decide_eq_true_eq]
  refine ⟨fun hnodup => ?_, fun hnodup => ?_, hall fun cov hcov => (hlead cov hcov).1,
    hall fun cov hcov => (hlead cov hcov).2, nofun⟩
  · rwa [hkept fun key => (key.1, key.2.1)]
  · rwa [hkept fun key => key.2.2]

/-- A coverage may move to any state that it has the lead for. -/
theorem setState {covId : Nat} {cov : Coverage} {state : CoverageState}
    (hcov : db.coverages[covId]? = some cov)
    (hlead : state.live = true → cov.leadHouse.isSome = true) :
    (db.updateCoverage covId fun cov => { cov with state }).Sound := by
  refine h.updateCoverage (fun _ => rfl) fun old hold => ?_
  obtain rfl : cov = old := Option.some.inj (hcov.symm.trans hold)
  have hrule := Db.violation_eq_none.1 h.legal ("fk_coverage_lead_house_houses",
    fun db => db.coverages.all fun cov => cov.leadHouse.all db.isHouse) (by simp [constraints])
  refine ⟨?_, List.all_eq_true.1 hrule cov (List.mem_of_getElem? hcov)⟩
  cases hlive : state.live with
  | false => rfl
  | true => exact hlead hlive

/-- A run may take the lock of its coverage if it holds no other. -/
theorem insertLock {covId r : Nat} {now : Time}
    (hnone : ∀ lock ∈ db.locks, lock.runId = r → lock.coverageId = covId) :
    (db.insertLock covId r now).Sound := by
  unfold Db.insertLock
  split
  · exact h
  rename_i hfree
  have hunlocked (lock : CoverageRunLock) (hlock : lock ∈ db.locks) : lock.coverageId ≠ covId :=
    fun heq => hfree (List.any_eq_true.2 ⟨lock, hlock, decide_eq_true heq⟩)
  refine ⟨legal_of_rules h.legal ?_, h.numbered⟩
  have hruns : Db.isRun { db with locks := db.locks ++ [⟨covId, r, now⟩] } = db.isRun := rfl
  have hhouses : Db.isHouse { db with locks := db.locks ++ [⟨covId, r, now⟩] } = db.isHouse := rfl
  have hcoverages : Db.isCoverage { db with locks := db.locks ++ [⟨covId, r, now⟩] } =
      db.isCoverage := rfl
  simp only [constraints, List.forall_mem_cons, hruns, hhouses, hcoverages, imp_self, true_and,
    decide_eq_true_eq]
  refine ⟨fun hnodup => nodup_concat hnodup hunlocked, fun hnodup => nodup_concat hnodup ?_, nofun⟩
  exact fun lock hlock heq => hunlocked lock hlock (hnone lock hlock heq)

theorem addGate {gate : PmGate} (hrun : db.isRun gate.runId = true)
    (hkey : gate.idempotencyKey = none) : Sound { db with gates := db.gates ++ [gate] } := by
  refine ⟨legal_of_rules h.legal ?_, h.numbered⟩
  have hruns : Db.isRun { db with gates := db.gates ++ [gate] } = db.isRun := rfl
  have hhouses : Db.isHouse { db with gates := db.gates ++ [gate] } = db.isHouse := rfl
  have hcoverages : Db.isCoverage { db with gates := db.gates ++ [gate] } = db.isCoverage := rfl
  simp only [constraints, List.forall_mem_cons, hruns, hhouses, hcoverages, imp_self, true_and,
    decide_eq_true_eq]
  refine ⟨fun hall => ?_, fun hnodup => ?_, nofun⟩
  · rw [List.all_append, hall]
    simpa using hrun
  · rw [List.filterMap_append]
    simpa [hkey] using hnodup

/-- A stage of a run, of a house and at a new place of its run may be added. -/
theorem addStage {stage : RunStage} (hrun : db.isRun stage.runId = true)
    (hhouse : db.isHouse stage.house = true)
    (hseq : ∀ other ∈ db.stages, other.runId = stage.runId → other.seq ≠ stage.seq) :
    Sound { db with stages := db.stages ++ [stage] } := by
  refine ⟨legal_of_rules h.legal ?_, h.numbered⟩
  have hruns : Db.isRun { db with stages := db.stages ++ [stage] } = db.isRun := rfl
  have hhouses : Db.isHouse { db with stages := db.stages ++ [stage] } = db.isHouse := rfl
  have hcoverages : Db.isCoverage { db with stages := db.stages ++ [stage] } = db.isCoverage := rfl
  simp only [constraints, List.forall_mem_cons, hruns, hhouses, hcoverages, imp_self, true_and,
    decide_eq_true_eq]
  refine ⟨fun hall => ?_, fun hall => ?_, fun hnodup => nodup_concat hnodup ?_, nofun⟩
  · rw [List.all_append, hall]
    simpa using hrun
  · rw [List.all_append, hall]
    simpa using hhouse
  · intro other hother heq
    obtain ⟨hof, hsame⟩ := Prod.mk.inj heq
    exact hseq other hother hof hsame

theorem storeKey {row : IdempotencyKey} (hnew : ∀ other ∈ db.idempotencyKeys, other.key ≠ row.key) :
    Sound { db with idempotencyKeys := db.idempotencyKeys ++ [row] } := by
  refine ⟨legal_of_rules h.legal ?_, h.numbered⟩
  have hruns : Db.isRun { db with idempotencyKeys := db.idempotencyKeys ++ [row] } = db.isRun := rfl
  have hhouses : Db.isHouse { db with idempotencyKeys := db.idempotencyKeys ++ [row] } =
      db.isHouse := rfl
  have hcoverages : Db.isCoverage { db with idempotencyKeys := db.idempotencyKeys ++ [row] } =
      db.isCoverage := rfl
  simp only [constraints, List.forall_mem_cons, hruns, hhouses, hcoverages, imp_self, true_and,
    decide_eq_true_eq]
  exact ⟨fun hnodup => nodup_concat hnodup hnew, nofun⟩

end Writes

end Db.Sound

/-! ## Ending a run -/

/-- The writes of `finish_run` on a run of this coverage keep `J`. -/
structure Finishing (r : Nat) (coverageId : Option Nat) (J : Db → Prop) : Prop where
  legal : ∀ db, J db → Schema.violation db = none
  locks : ∀ db, J db → J { db with locks := db.locks.filter fun lock => lock.runId ≠ r }
  run : ∀ (db : Db) (f : Run → Run),
    (∀ run, ((f run).coverageId, (f run).type, (f run).triggerRef) =
      (run.coverageId, run.type, run.triggerRef)) → J db → J (db.updateRun r f)
  outbox : ∀ (db : Db) (event : OutboxEvent), event.coverageId = coverageId →
    event.runId = some r → event.dedupeKey = .fresh "run.finished" r db.outbox.length → J db →
    J { db with outbox := db.outbox ++ [event] }

/-- A run is finished wherever it may end so. -/
theorem exists_finishRun (env : Env) {r : Nat} {J : Db → Prop} {s : Session Db} {run : Run}
    {status : RunStatus} {action : RunAction} {sm : RunTransition} (summary error : Option String)
    (hJ : Finishing r run.coverageId J) (hstored : J s.stored) (hloaded : J s.loaded)
    (hr : r < s.stored.runs.length) (hrun : s.loaded.runs[r]? = some run)
    (haction : finishAction status = .ok action)
    (hsm : runTransition run.status action {} = .ok sm) :
    ∃ s', Returns (finishRun env r status summary error) s () s' ∧ J s'.stored ∧ J s'.loaded := by
  have heffect (effect : RunEffect) :
      Completes J (applyFinishEffect env r run status effect) := by
    unfold applyFinishEffect
    cases effect with
    | releaseLock => exact .execute hJ.legal hJ.locks
    | outboxRunFinished => exact .assign fun db h => hJ.outbox db _ rfl rfl rfl h
    | _ => exact .pure _
  have hends : Completes J (do
      assign fun db => db.updateRun r fun run =>
        { run with
          status := sm.toState
          finishedAt := some env.now
          summary := summary.orElse fun _ => run.summary
          error := error.orElse fun _ => run.error }
      sm.sideEffects.forM (applyFinishEffect env r run status)
      flush) :=
    .bind (.assign fun db h => hJ.run db _ (fun _ => rfl) h) fun _ =>
      .bind (.forM fun effect _ => heffect effect) fun _ => .flush hJ.legal
  obtain ⟨_, s', h, hafter⟩ := hends s hstored hloaded
  refine ⟨s', returns_getRow_bind.2 ⟨hr, run, hrun, ?_⟩, hafter⟩
  exact returns_ofExcept_bind.2 ⟨action, haction, returns_ofExcept_bind.2 ⟨sm, hsm, h⟩⟩

/-! ## Every reachable database -/

theorem overlooks_numbered : OverlooksRuns Db.Numbered ∧ OverlooksCoverages Db.Numbered := by
  have hwrites : Overlooks Db.Numbered :=
    { stage := fun _ _ _ _ h => h
      cost := fun _ _ _ h => h
      attempts := fun _ _ h => h
      locks := fun _ _ h => h
      levels := fun _ _ h => h
      events := fun _ _ h => h
      newsArticles := fun _ _ h => h
      auditLog := fun _ _ h => h
      idempotencyKeys := fun _ _ h => h
      schedulerJobLogs := fun _ _ h => h }
  have hcoverages : OverlooksCoverages Db.Numbered :=
    { hwrites with
      coverages := fun _ _ h => h
      transitions := fun _ _ h => h
      leadHistory := fun _ _ h => h
      outbox := fun _ _ hkey h => h.add hkey
      effect := fun _ _ _ _ _ _ =>
        upholds_sideEffect (fun _ _ h => h) (fun _ _ h => h) fun _ _ hkey h => h.add hkey }
  refine ⟨?_, hcoverages⟩
  exact
    { hwrites with
      run := fun _ _ _ _ h => h
      gate := fun _ _ _ h => h
      outbox := fun _ _ hkey h => h.add hkey
      predictions := fun _ _ h => h
      crossCheck := fun _ _ _ h => h
      transition := fun _ _ _ _ _ _ _ _ _ _ => hcoverages.transitionCoverage
      decision := fun _ _ _ _ _ _ _ _ _ _ => hcoverages.transitionCoverage }

theorem step_numbered {app : App} (h : db.Numbered) (op : Op) : (step app db op).Numbered := by
  obtain ⟨hruns, hcoverages⟩ := overlooks_numbered
  have horigins : Origins Db.Numbered app.fund := hcoverages.origins fun _ _ _ _ _ _ _ _ =>
    upholds_createRun (fun _ _ h => h) fun _ _ h => h
  exact hruns.step horigins h op fun _ _ _ _ _ _ _ _ => upholds_answerGate fun _ h => h

theorem run_sound {app : App} (hdb : Schema.violation db = none) (houtbox : db.outbox = [])
    (ops : List Op) : (run app db ops).Sound := by
  refine ⟨run_violation hdb ops, ?_⟩
  refine History.invariant_of_forall (I := Db.Numbered) (fun _ op h => step_numbered h op) ?_
  intro i event hevent
  simp [houtbox] at hevent

end AiFund
