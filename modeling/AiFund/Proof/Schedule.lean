import AiFund.Proof.Creation
import AiFund.Proof.EngineErrors
import AiFund.ScheduleSystem

/-!
# What the schedule keeps

A call creates a run for each coverage that it covers and that has none with its reference, one
after the other; what one creation does to the runs is carried through the loop.
-/

namespace AiFund

open UnitOfWork Rows

variable {β : Type} {env : Env} {fund : FundConfig} {leader : Bool} {db db' : Db}
  {s s' : Session Db} {type : RunType} {params : JsonObject} {ref : String} {covId n m : Nat}
  {keys keys' : List Nat} {b : Bool} {error : PyError} {f : Nat → DbTxn Bool} {call : TickCall}

/-- Nothing is pending, and the schema accepts what is stored. -/
structure Steady (s : Session Db) : Prop where
  synced : s.loaded = s.stored
  legal : Schema.violation s.stored = none

/-- `n` runs of a type have been added, for coverages among those given, and nothing has become of
the coverages. -/
structure Adds (type : RunType) (keys : List Nat) (n : Nat) (db db' : Db) : Prop where
  coverages : db'.coverages = db.coverages
  runs : ∃ added, db'.runs = db.runs ++ added ∧ added.length = n ∧
    ∀ run ∈ added, run.type = type ∧ ∃ covId ∈ keys, run.coverageId = some covId

theorem Adds.skip : Adds type keys 0 db db :=
  ⟨rfl, [], (List.append_nil _).symm, rfl, List.forall_mem_nil _⟩

theorem Adds.trans {db₁ : Db} (h : Adds type keys n db db₁) (h' : Adds type keys' m db₁ db') :
    Adds type (keys ++ keys') (n + m) db db' := by
  obtain ⟨added, hruns, hlength, hadded⟩ := h.runs
  obtain ⟨added', hruns', hlength', hadded'⟩ := h'.runs
  refine ⟨h'.coverages.trans h.coverages, added ++ added', ?_, ?_, fun run hrun => ?_⟩
  · rw [hruns', hruns, List.append_assoc]
  · rw [List.length_append, hlength, hlength']
  · rcases List.mem_append.1 hrun with hrun | hrun
    · obtain ⟨htype, covId, hcovId, hrun⟩ := hadded run hrun
      exact ⟨htype, covId, List.mem_append_left _ hcovId, hrun⟩
    · obtain ⟨htype, covId, hcovId, hrun⟩ := hadded' run hrun
      exact ⟨htype, covId, List.mem_append_right _ hcovId, hrun⟩

/-- A run that is there stays there. -/
theorem Adds.hasRun (h : Adds type keys n db db') {type' : RunType}
    (hrun : AiFund.hasRun covId type' ref db = true) :
    AiFund.hasRun covId type' ref db' = true := by
  obtain ⟨added, hruns, -⟩ := h.runs
  unfold AiFund.hasRun at hrun ⊢
  rw [hruns, List.any_append, hrun, Bool.true_or]

/-! ## Keys -/

theorem Run.triggerKey_eq_some {run : Run} : run.triggerKey = some (covId, type, ref) ↔
    run.coverageId = some covId ∧ run.type = type ∧ run.triggerRef = some ref := by
  unfold triggerKey
  cases run.coverageId <;> cases run.triggerRef <;> simp

theorem hasRun_iff : hasRun covId type ref db = true ↔
    (covId, type, ref) ∈ db.runs.filterMap Run.triggerKey := by
  unfold hasRun
  simp only [List.any_eq_true, Bool.and_eq_true, decide_eq_true_eq, List.mem_filterMap,
    Run.triggerKey_eq_some, and_assoc]

/-- Where no two runs share a key, a run that is there is the only one with its key. -/
theorem length_triggered (hkeys : (db.runs.filterMap Run.triggerKey).Nodup)
    (h : hasRun covId type ref db = true) : (db.triggered covId type ref).length = 1 := by
  calc
    (db.triggered covId type ref).length =
        db.runs.countP (fun run => run.triggerKey == some (covId, type, ref)) := by
      rw [Db.triggered, ← List.countP_eq_length_filter]
      refine List.countP_congr fun run _ => ?_
      simp only [Bool.and_eq_true, decide_eq_true_eq, beq_iff_eq, Run.triggerKey_eq_some, and_assoc]
    _ = (db.runs.filterMap Run.triggerKey).count (covId, type, ref) :=
      (List.count_filterMap).symm
    _ = 1 := List.count_eq_one_of_mem hkeys (hasRun_iff.1 h)

/-- The index is violated only where two runs share a key. -/
theorem Db.violation_ne_trigger (h : (db.runs.filterMap Run.triggerKey).Nodup) :
    Schema.violation db ≠ some (.integrityError "uq_runs_trigger_ref") := by
  intro hviolation
  obtain ⟨rule, hfind, hname⟩ :=
    Option.map_eq_some_iff.1 (show db.violation = some _ from hviolation)
  have hrules : ∀ rule ∈ constraints, rule.1 = "uq_runs_trigger_ref" → rule.2 db = true := by
    simp [constraints, h]
  have hrule := hrules rule (List.mem_of_find?_eq_some hfind) (PyError.integrityError.inj hname)
  have hbroken := List.find?_some hfind
  simp [hrule] at hbroken

/-! ## One creation -/

theorem returns_createOnce (hs : Steady s)
    (h : Returns (createOnce env fund type params ref covId) s b s') :
    Steady s' ∧ Adds type [covId] b.toNat s.stored s'.stored ∧
      hasRun covId type ref s'.stored = true := by
  unfold createOnce at h
  rw [returns_select_bind] at h
  split at h
  · rename_i hrun
    obtain ⟨rfl, rfl⟩ := returns_pure.1 h
    exact ⟨hs, .skip, hrun⟩
  · obtain ⟨runId, s₁, hcreate, h⟩ := returns_bind.1 h
    obtain ⟨rfl, rfl⟩ := returns_pure.1 h
    obtain ⟨c, -, hafter, -, rfl⟩ := returns_createRun.1 hcreate
    have hruns : ((s.loaded.addRun (c.run "scheduler" none (some ref))).addStages c.rows).runs =
        s.stored.runs ++ [c.run "scheduler" none (some ref)] := by rw [hs.synced]; rfl
    refine ⟨⟨rfl, hafter⟩, ⟨?_, _, hruns, rfl, ?_⟩, ?_⟩
    · change s.loaded.coverages = s.stored.coverages
      rw [hs.synced]
    · exact List.forall_mem_singleton.2 ⟨c.type_eq, covId, List.mem_cons_self, rfl⟩
    · unfold hasRun
      change (List.any ((s.loaded.addRun _).addStages _).runs _) = true
      rw [hruns, List.any_append, Bool.or_eq_true]
      refine .inr ?_
      simp [Creation.run, newRun, c.type_eq]

/-! ## Clashes -/

/-- Not the clash of two trigger references. -/
def PyError.Unclashing (error : PyError) : Prop := error ≠ .integrityError "uq_runs_trigger_ref"

theorem unclashing_chk (metaHouses : List String) (house : Json) :
    FailsOnly PyError.Unclashing (chk metaHouses house) := by
  unfold chk
  split
  · exact .failed nofun
  · exact .failed nofun
  · exact .ite (.failed nofun) (.ok _)
  · exact .ok _

theorem unclashing_planVerifiers (args : PlanArgs) (n : Json) :
    FailsOnly PyError.Unclashing (planVerifiers args n) := by
  refine .bind ?_ fun _ => .ok _
  unfold sliceBound
  split
  · split
    · exact .ite (.ok _) (.failed nofun)
    · exact .ok _
    · exact .failed nofun
  · split
    · exact .ok _
    · exact .failed nofun

theorem unclashing_planFor {policy : RunPolicy} {lead : Json}
    {contributors metaHouses : List String} :
    FailsOnly PyError.Unclashing
      (Engine.planFor type policy fund params lead contributors metaHouses) := by
  cases type with
  | initiation =>
      refine .bind (unclashing_chk _ _) fun _ => .bind (unclashing_planVerifiers _ _) fun _ => ?_
      refine .bind (.forM (fun c => unclashing_chk _ _) _) fun _ => .ok _
  | deepReview =>
      refine .bind (unclashing_chk _ _) fun _ =>
        .bind (unclashing_planVerifiers _ _) fun verifiers => ?_
      cases verifiers with
      | nil => exact .ok _
      | cons v _ => exact .bind (unclashing_chk _ _) fun _ => .ok _
  | eventAnalysis => exact .bind (unclashing_chk _ _) fun _ => .ok _
  | monitorTick => exact .ok _
  | pmQuery => exact .bind (unclashing_chk _ _) fun _ => .ok _
  | leadReview => exact .failed nofun
  | distillation => exact .failed nofun

theorem unclashing_required {α : Type} (column : String) {x : Option (Option α)}
    (hcolumn : column ≠ "uq_runs_trigger_ref") :
    FailsOnly PyError.Unclashing (required column (bound x)) := by
  cases x with
  | none => exact .failed nofun
  | some found =>
      cases found with
      | none => exact .failed fun h => hcolumn (PyError.integrityError.inj h)
      | some a => exact .ok _

theorem unclashing_defaulted {α : Type} {default : α} {x : Option (Option α)} :
    FailsOnly PyError.Unclashing (defaulted default (bound x)) := by
  cases x with
  | none => exact .failed nofun
  | some found => exact .ok _

theorem unclashing_flush (h : (s.loaded.runs.filterMap Run.triggerKey).Nodup)
    (herror : Raises (flush : DbTxn Unit) s error) : error.Unclashing := by
  rintro rfl
  exact Db.violation_ne_trigger h (raises_flush.1 herror)

theorem unclashing_resolveContributors :
    RaisesOnly PyError.Unclashing (resolveContributors covId) := by
  refine .bind (.lookup _ _) fun cov => .bind (.select _) fun _ => .ite (.pure _)
    (.bind (.select _) fun _ => ?_)
  cases cov with
  | none => exact .throw nofun
  | some cov => exact .pure _

theorem raises_ofExcept_bind {α ε : Type} {wrap : ε → PyError} {x : Except ε α} {g : α → DbTxn β} :
    Raises (ofExcept wrap x >>= g) s error ↔
      (∃ e, x = .error e ∧ error = wrap e) ∨ ∃ a, x = .ok a ∧ Raises (g a) s error := by
  cases x with
  | ok a =>
      change Raises (pure a >>= g) s error ↔ _
      rw [pure_bind]
      simp
  | error e =>
      change Raises (throw (wrap e) >>= g) s error ↔ _
      rw [raises_bind, raises_throw]
      simp

theorem raises_reads_bind {α : Type} {m : DbTxn α} {g : α → DbTxn β} (hm : Reads m)
    (h : Raises (m >>= g) s error) : Raises m s error ∨ ∃ a, Raises (g a) s error := by
  refine (raises_bind.1 h).imp_right ?_
  rintro ⟨a, s₁, hread, h⟩
  rw [hm hread] at h
  exact ⟨a, h⟩

theorem Db.nodup_triggerKeys (h : Schema.violation db = none) :
    (db.runs.filterMap Run.triggerKey).Nodup :=
  of_decide_eq_true (Db.violation_eq_none.1 h
    ("uq_runs_trigger_ref", fun db => (db.runs.filterMap Run.triggerKey).Nodup)
    (by simp [constraints]))

theorem Steady.nodup_triggerKeys (hs : Steady s) :
    (s.loaded.runs.filterMap Run.triggerKey).Nodup := by
  rw [hs.synced]
  exact Db.nodup_triggerKeys hs.legal

/-- The key of the run that is created is not taken, so it is no clash that a creation meets. -/
theorem unclashing_runsRepoCreateRun {priority : Json} {budgetCapUsd : Option ℚ}
    {stages : List StageIn} (hs : Steady s) (hnone : hasRun covId type ref s.stored = false)
    (h : Raises (do
      let runId ← RunsRepo.createRun env (some covId) type "scheduler" params priority budgetCapUsd
        none (some ref)
      addStages env runId stages
      return runId) s error) : error.Unclashing := by
  unfold RunsRepo.createRun at h
  simp only [bind_assoc] at h
  rcases raises_ofExcept_bind.1 h with ⟨_, hpriority, rfl⟩ | ⟨priority, -, h⟩
  · exact unclashing_defaulted _ hpriority
  rw [raises_inspect_bind, raises_assign_bind] at h
  have hnodup : (((s.loaded.addRun (newRun env (some covId) type "scheduler" params priority
      budgetCapUsd none (some ref))).runs).filterMap Run.triggerKey).Nodup := by
    refine Db.nodup_addRun hs.nodup_triggerKeys fun key hkey => ?_
    obtain rfl : (covId, type, ref) = key := Option.some.inj hkey
    rw [hs.synced, ← hasRun_iff, hnone]
    exact Bool.false_ne_true
  rcases raises_bind.1 h with h | ⟨_, s₁, hflush, h⟩
  · exact unclashing_flush hnodup h
  obtain ⟨-, rfl⟩ := returns_flush.1 hflush
  rw [pure_bind] at h
  rcases raises_bind.1 h with h | ⟨_, s₂, -, h⟩
  · unfold addStages at h
    rcases raises_ofExcept_bind.1 h with ⟨_, hrows, rfl⟩ | ⟨rows, -, h⟩
    · refine FailsOnly.mapM (fun stage => ?_) _ _ hrows
      exact (unclashing_required _ (by decide)).bind fun _ => .ok _
    · rw [raises_assign_bind] at h
      refine unclashing_flush ?_ h
      exact hnodup
  · exact absurd h not_raises_pure

theorem unclashing_createRun (hs : Steady s) (hnone : hasRun covId type ref s.stored = false)
    (h : Raises (Engine.createRun env fund [] type.value (some covId) "scheduler" params none
      (some ref)) s error) : error.Unclashing := by
  unfold Engine.createRun at h
  rcases raises_ofExcept_bind.1 h with ⟨_, hpolicy, rfl⟩ | ⟨policy, -, h⟩
  · unfold FundConfig.policy at hpolicy
    split at hpolicy <;> cases hpolicy
    exact nofun
  rcases raises_reads_bind reads_findCoverage h with h | ⟨cov, h⟩
  · exact absurd h not_raises_lookup
  rcases raises_reads_bind reads_contributorsFor h with h | ⟨contributors, h⟩
  · cases cov with
    | none => exact absurd h not_raises_pure
    | some cov => exact unclashing_resolveContributors h
  have hparse : Engine.parseRunType type.value = some type := by cases type <;> rfl
  rw [hparse] at h
  rcases raises_ofExcept_bind.1 h with ⟨_, hplan, rfl⟩ | ⟨plan, -, h⟩
  · exact unclashing_planFor _ hplan
  exact unclashing_runsRepoCreateRun hs hnone h

theorem unclashing_createOnce (hs : Steady s)
    (h : Raises (createOnce env fund type params ref covId) s error) : error.Unclashing := by
  unfold createOnce at h
  rw [raises_select_bind] at h
  split_ifs at h with hrun
  · exact absurd h not_raises_pure
  · rcases raises_bind.1 h with h | ⟨_, _, -, h⟩
    · exact unclashing_createRun hs (Bool.eq_false_iff.2 hrun) h
    · exact absurd h not_raises_pure

/-! ## The loop -/

/-- What a turn of a loop does to a steady session: it adds at most a run for its key, establishes
`P` of the key, and meets no clash. -/
structure Turns (type : RunType) (P : Nat → Db → Prop) (f : Nat → DbTxn Bool) : Prop where
  returns : ∀ {key s b s'}, Steady s → Returns (f key) s b s' →
    Steady s' ∧ Adds type [key] b.toNat s.stored s'.stored ∧ P key s'.stored
  unclashing : ∀ {key s error}, Steady s → Raises (f key) s error → error.Unclashing
  kept : ∀ {key keys n db db'}, Adds type keys n db db' → P key db → P key db'

theorem turns_createOnce : Turns type (fun covId db => hasRun covId type ref db = true)
    (createOnce env fund type params ref) where
  returns := returns_createOnce
  unclashing := unclashing_createOnce
  kept := fun h => h.hasRun

variable {P : Nat → Db → Prop}

/-- The loop adds as many runs as it counts, and establishes `P` of every key. -/
theorem Turns.returns_countM (hf : Turns type P f) (hs : Steady s)
    (h : Returns (countM f keys) s n s') :
    Steady s' ∧ Adds type keys n s.stored s'.stored ∧ ∀ key ∈ keys, P key s'.stored := by
  induction keys generalizing s n with
  | nil =>
      obtain ⟨rfl, rfl⟩ := returns_pure.1 h
      exact ⟨hs, .skip, List.forall_mem_nil _⟩
  | cons key keys ih =>
      obtain ⟨b, s₁, hfirst, h⟩ := returns_bind.1 h
      obtain ⟨m, s₂, hrest, h⟩ := returns_bind.1 h
      obtain ⟨rfl, rfl⟩ := returns_pure.1 h
      obtain ⟨hs₁, hadds₁, hP₁⟩ := hf.returns hs hfirst
      obtain ⟨hs', hadds, hP⟩ := ih hs₁ hrest
      exact ⟨hs', hadds₁.trans hadds, List.forall_mem_cons.2 ⟨hf.kept hadds hP₁, hP⟩⟩

theorem Turns.unclashing_countM (hf : Turns type P f) (hs : Steady s)
    (h : Raises (countM f keys) s error) : error.Unclashing := by
  induction keys generalizing s with
  | nil => exact absurd h not_raises_pure
  | cons key keys ih =>
      rcases raises_bind.1 h with h | ⟨b, s₁, hfirst, h⟩
      · exact hf.unclashing hs h
      rcases raises_bind.1 h with h | ⟨_, _, -, h⟩
      · exact ih (hf.returns hs hfirst).1 h
      · exact absurd h not_raises_pure

/-! ## Calls -/

theorem returns_logJob {jobName status : String} {detail : Option String} {u : Unit} (hs : Steady s)
    (h : Returns (logJob env jobName status n detail) s u s') :
    Steady s' ∧ Adds type [] 0 s.stored s'.stored := by
  unfold logJob at h
  rw [returns_assign_bind, returns_flush] at h
  obtain ⟨hlegal, rfl⟩ := h
  refine ⟨⟨rfl, hlegal⟩, ?_, [], ?_, rfl, List.forall_mem_nil _⟩
  · change s.loaded.coverages = s.stored.coverages
    rw [hs.synced]
  · change s.loaded.runs = s.stored.runs ++ []
    rw [hs.synced, List.append_nil]

theorem unclashing_logJob {jobName status : String} {detail : Option String} (hs : Steady s)
    (h : Raises (logJob env jobName status n detail) s error) : error.Unclashing := by
  unfold logJob at h
  rw [raises_assign_bind] at h
  have hnodup := hs.nodup_triggerKeys
  refine unclashing_flush ?_ h
  exact hnodup

/-- What every call ends with: a turn for each coverage that satisfies `p`, and the log. -/
def turnEach (env : Env) (jobName : String) (p : Coverage → Bool) (f : Nat → DbTxn Bool) :
    DbTxn Nat := do
  let coverages ← select (coveragesWith env p)
  let n ← countM f coverages
  logJob env jobName "succeeded" n none
  return n

theorem Turns.returns_turnEach {jobName : String} {p : Coverage → Bool} (hf : Turns type P f)
    (hs : Steady s) (h : Returns (turnEach env jobName p f) s n s') :
    Steady s' ∧ Adds type (coveragesWith env p s.stored) n s.stored s'.stored ∧
      ∀ covId ∈ coveragesWith env p s.stored, P covId s'.stored := by
  unfold turnEach at h
  rw [returns_select_bind] at h
  obtain ⟨n, s₁, hcount, h⟩ := returns_bind.1 h
  obtain ⟨_, s₂, hlog, h⟩ := returns_bind.1 h
  obtain ⟨rfl, rfl⟩ := returns_pure.1 h
  obtain ⟨hs₁, hadds, hP⟩ := hf.returns_countM hs hcount
  obtain ⟨hs', hlogged⟩ := returns_logJob hs₁ hlog
  have hall : Adds type (coveragesWith env p s.stored) n s.stored s'.stored := by
    simpa only [List.append_nil, Nat.add_zero] using hadds.trans hlogged
  exact ⟨hs', hall, fun covId hcovId => hf.kept hlogged (hP covId hcovId)⟩

theorem Turns.unclashing_turnEach {jobName : String} {p : Coverage → Bool} (hf : Turns type P f)
    (hs : Steady s) (h : Raises (turnEach env jobName p f) s error) : error.Unclashing := by
  unfold turnEach at h
  rw [raises_select_bind] at h
  rcases raises_bind.1 h with h | ⟨n, s₁, hcount, h⟩
  · exact hf.unclashing_countM hs h
  rcases raises_bind.1 h with h | ⟨_, _, -, h⟩
  · exact unclashing_logJob (hf.returns_countM hs hcount).1 h
  · exact absurd h not_raises_pure

/-- The turn of the quarterly sweep for a coverage. -/
def reviewOnce (env : Env) (fund : FundConfig) (cutoff : Time) (covId : Nat) : DbTxn Bool := do
  let recent ← select (recentReview covId cutoff)
  if recent then return false
  else do
    let cov ← getRow Db.coverages covId
    createOnce env fund .deepReview []
      ("quarterly_sweep:" ++ cov.dossierSlug ++ ":" ++ monthOf env.now) covId

theorem turns_reviewOnce {cutoff : Time} :
    Turns .deepReview (fun _ _ => True) (reviewOnce env fund cutoff) where
  returns := by
    intro covId s b s' hs h
    unfold reviewOnce at h
    rw [returns_select_bind] at h
    split_ifs at h
    · obtain ⟨rfl, rfl⟩ := returns_pure.1 h
      exact ⟨hs, .skip, trivial⟩
    · obtain ⟨-, cov, -, h⟩ := returns_getRow_bind.1 h
      obtain ⟨hs', hadds, -⟩ := returns_createOnce hs h
      exact ⟨hs', hadds, trivial⟩
  unclashing := by
    intro covId s error hs h
    unfold reviewOnce at h
    rw [raises_select_bind] at h
    split_ifs at h
    · exact absurd h not_raises_pure
    · rcases raises_bind.1 h with h | ⟨cov, s₁, hget, h⟩
      · exact raisesOnly_getRow nofun h
      · obtain ⟨-, -, hs₁⟩ := returns_getRow.1 hget
        rw [hs₁] at h
        exact unclashing_createOnce hs h
  kept := fun _ _ => trivial

/-- What a call of the leader does where it returns. -/
structure Performs (call : TickCall) (n : Nat) (db db' : Db) : Prop where
  adds : ∃ keys, Adds call.runType keys n db db' ∧
    ∀ covId ∈ keys, ∃ cov, db.coverages[covId]? = some cov ∧ call.covers cov = true
  covered : ∀ ref, call.ref? = some ref → ∀ covId cov, db.coverages[covId]? = some cov →
    call.covers cov = true → hasRun covId .monitorTick ref db' = true

theorem returns_perform (hs : Steady s) (h : Returns (call.perform env fund true) s n s') :
    Steady s' ∧ Performs call n s.stored s'.stored := by
  cases call with
  | sessionTick exchange tradingDate sessionName =>
      obtain ⟨_, s₁, hlog, h⟩ := returns_bind.1 h
      obtain ⟨hs₁, hlogged⟩ := returns_logJob hs hlog
      obtain ⟨hs', hadds, hP⟩ := turns_createOnce.returns_turnEach hs₁ h
      rw [coveragesWith, hlogged.coverages] at hadds hP
      have hall := hlogged.trans hadds
      rw [Nat.zero_add] at hall
      refine ⟨hs', ⟨_, hall, fun covId hcovId => (env.rows .coverages).mem_all.1 hcovId⟩, ?_⟩
      rintro _ ⟨⟩ covId cov hcov hcovers
      exact hP covId ((env.rows .coverages).mem_all.2 ⟨cov, hcov, hcovers⟩)
  | watchTick tradingDate =>
      obtain ⟨hs', hadds, hP⟩ := turns_createOnce.returns_turnEach hs h
      refine ⟨hs', ⟨_, hadds, fun covId hcovId => (env.rows .coverages).mem_all.1 hcovId⟩, ?_⟩
      rintro _ ⟨⟩ covId cov hcov hcovers
      exact hP covId ((env.rows .coverages).mem_all.2 ⟨cov, hcov, hcovers⟩)
  | quarterlySweep staleDays =>
      obtain ⟨cutoff, -, h⟩ := returns_ofExcept_bind.1 h
      obtain ⟨hs', hadds, -⟩ := turns_reviewOnce.returns_turnEach hs h
      refine ⟨hs', ⟨_, hadds, fun covId hcovId => (env.rows .coverages).mem_all.1 hcovId⟩, ?_⟩
      nofun

theorem unclashing_daysBefore {now : Time} {days : Int} :
    FailsOnly PyError.Unclashing (daysBefore now days) := .ite (.ok _) (.failed nofun)

theorem unclashing_perform (hs : Steady s) (h : Raises (call.perform env fund true) s error) :
    error.Unclashing := by
  cases call with
  | sessionTick exchange tradingDate sessionName =>
      rcases raises_bind.1 h with h | ⟨_, s₁, hlog, h⟩
      · exact unclashing_logJob hs h
      · have hlogged : Steady s₁ ∧ Adds .monitorTick [] 0 s.stored s₁.stored :=
          returns_logJob hs hlog
        exact turns_createOnce.unclashing_turnEach hlogged.1 h
  | watchTick tradingDate => exact turns_createOnce.unclashing_turnEach hs h
  | quarterlySweep staleDays =>
      rcases raises_ofExcept_bind.1 h with ⟨_, hcutoff, rfl⟩ | ⟨cutoff, -, h⟩
      · exact unclashing_daysBefore _ hcutoff
      · exact turns_reviewOnce.unclashing_turnEach hs h

/-! ## Histories -/

theorem Steady.clean (hdb : Schema.violation db = none) : Steady (Session.clean db) := ⟨rfl, hdb⟩

theorem exec_follower (hdb : Schema.violation db = none) :
    call.exec env fund false db = ⟨.ok 0, db, [db]⟩ := by
  have hperform : call.perform env fund false = pure 0 := by cases call <;> rfl
  unfold TickCall.exec
  rw [hperform]
  exact commit_of_returns (returns_pure.2 ⟨rfl, rfl⟩) hdb

/-- A call of the leader is undone, or it returned and its session is what it leaves. -/
theorem exec_leader (hdb : Schema.violation db = none) :
    (∃ error, error.Unclashing ∧ call.exec env fund true db = ⟨.error error, db, []⟩) ∨
      ∃ n written after, Performs call n db after ∧
        call.exec env fund true db = ⟨.ok n, after, written⟩ := by
  obtain ⟨error, hcommit⟩ | ⟨n, s, hm, hviolation, hcommit⟩ :=
    commit_cases (call.perform env fund true) db
  · refine .inl ⟨error, ?_, hcommit⟩
    have herror : (commit (call.perform env fund true) db).result = .error error := by rw [hcommit]
    obtain hraises | ⟨n, s, hm, hviolation⟩ := commit_error herror
    · exact unclashing_perform (.clean hdb) hraises
    · obtain ⟨hs, -⟩ := returns_perform (.clean hdb) hm
      rw [hs.synced, hs.legal] at hviolation
      cases hviolation
  · obtain ⟨hs, hperforms⟩ := returns_perform (.clean hdb) hm
    refine .inr ⟨n, _, s.loaded, ?_, hcommit⟩
    rw [hs.synced]
    exact hperforms

theorem Db.runs_append_nil (db : Db) (call : TickCall) : ∃ added, db.runs = db.runs ++ added ∧
    (∀ run ∈ added, run.type = call.runType ∧ ∃ covId cov, run.coverageId = some covId ∧
      db.coverages[covId]? = some cov ∧ call.covers cov = true) ∧ added.length = 0 :=
  ⟨[], (List.append_nil _).symm, List.forall_mem_nil _, rfl⟩

theorem keepsSchedule (hdb : Schema.violation db = none) :
    KeepsSchedule env fund leader db call := by
  have hkeys : ((call.exec env fund leader db).after.runs.filterMap Run.triggerKey).Nodup :=
    Db.nodup_triggerKeys (commit_violation hdb)
  obtain ⟨added, hruns, hadded, hlength⟩ := db.runs_append_nil call
  cases leader with
  | false =>
      have hexec : call.exec env fund false db = ⟨.ok 0, db, [db]⟩ := exec_follower hdb
      refine ⟨?_, hkeys, fun _ _ _ _ h => (nomatch h), ?_, fun _ => ?_⟩
      · rw [hexec]
        nofun
      · rw [hexec]
        exact ⟨added, hruns, hadded, fun n hn => hlength.trans (Except.ok.inj hn)⟩
      · rw [hexec]
  | true =>
      obtain ⟨error, herror, hexec⟩ | ⟨n, written, after, hperforms, hexec⟩ := exec_leader hdb
      · refine ⟨?_, hkeys, ?_, ?_, nofun⟩
        · rw [hexec]
          exact fun h => herror (Except.error.inj h)
        · rw [hexec]
          exact fun _ _ _ _ _ h => nomatch h
        · rw [hexec]
          exact ⟨added, hruns, hadded, fun _ h => nomatch h⟩
      · rw [hexec] at hkeys
        obtain ⟨keys, hadds, hcovers⟩ := hperforms.adds
        obtain ⟨added, hruns, hlength, hadded⟩ := hadds.runs
        refine ⟨?_, ?_, ?_, ?_, nofun⟩
        · rw [hexec]
          nofun
        · rw [hexec]
          exact hkeys
        · rw [hexec]
          intro _ ref covId cov _ _ href hcov hcovers
          rw [hadds.coverages] at hcov
          exact length_triggered hkeys (hperforms.covered ref href covId cov hcov hcovers)
        · rw [hexec]
          refine ⟨added, hruns, fun run hrun => ?_, fun m hm => hlength.trans (Except.ok.inj hm)⟩
          obtain ⟨htype, covId, hkey, hrun⟩ := hadded run hrun
          obtain ⟨cov, hcov⟩ := hcovers covId hkey
          exact ⟨htype, covId, cov, hrun, hcov⟩

theorem TickOp.step_legal (op : TickOp) (hdb : Schema.violation db = none) :
    Schema.violation (TickOp.step db op) = none := by
  cases op with
  | tick env fund leader call => exact commit_violation hdb
  | meanwhile change =>
      unfold step
      dsimp only
      split_ifs with hafter
      · exact hafter
      · exact hdb

/-- Whatever becomes of the coverages between them, no call misses or doubles a run. -/
theorem runTicks_keepsSchedule (hdb : Schema.violation db = none) (ops : List TickOp) :
    History.EachStep TickOp.step TickOp.KeepsSchedule db ops ∧
      ((runTicks db ops).runs.filterMap Run.triggerKey).Nodup := by
  have hstep : ∀ db op, Schema.violation db = none → True →
      Schema.violation (TickOp.step db op) = none := fun db op hdb _ => op.step_legal hdb
  have hall : History.EachStep TickOp.step (fun _ _ => True) db ops :=
    History.eachStep_of_forall fun _ _ => trivial
  constructor
  · refine History.eachStep_of_invariant hstep (fun db op hdb _ => ?_) hdb hall
    cases op with
    | tick env fund leader call => exact keepsSchedule hdb
    | meanwhile change => trivial
  · exact Db.nodup_triggerKeys (History.invariant hstep hdb hall)

/-- Two coverages of one exchange that are both led and active. -/
def Db.listed : Db where
  houses := [{ key := "gpt" }]
  coverages := ["AAPL", "MSFT"].map fun ticker =>
    { ticker, exchange := "US", name := ticker, currency := "USD", state := .active,
      leadHouse := some "gpt", dossierSlug := "us_" ++ ticker }

def FundConfig.monitoring : FundConfig where
  runs := [("monitor_tick", { maxAttempts := 1 })]

/-- A session tick fires twice, one of the coverages is moved to the watch list, and both the next
session tick and the watch tick fire. -/
def TickOp.twoDays : List TickOp :=
  let tick (call : TickCall) : TickOp := .tick (.quiet 0) .monitoring true call
  [tick (.sessionTick "US" "2026-01-05" "open"), tick (.sessionTick "US" "2026-01-05" "open"),
    .meanwhile fun db => db.updateCoverage 0 fun cov => { cov with state := .watch },
    tick (.sessionTick "US" "2026-01-06" "open"), tick (.watchTick "2026-01-06")]

theorem runTicks_keepsSchedule_twoDays :
    (runTicks .listed TickOp.twoDays).runs.map Run.triggerKey =
        [some (0, .monitorTick, "session_tick:US:2026-01-05:open"),
          some (1, .monitorTick, "session_tick:US:2026-01-05:open"),
          some (1, .monitorTick, "session_tick:US:2026-01-06:open"),
          some (0, .monitorTick, "watch_tick:2026-01-06")] ∧
      History.EachStep TickOp.step TickOp.KeepsSchedule .listed TickOp.twoDays ∧
      ((runTicks .listed TickOp.twoDays).runs.filterMap Run.triggerKey).Nodup :=
  ⟨by decide +kernel, runTicks_keepsSchedule (by decide +kernel) TickOp.twoDays⟩

end AiFund
