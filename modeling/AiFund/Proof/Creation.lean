import AiFund.LeadSystem
import AiFund.Proof.Legal
import AiFund.Proof.Plans

/-!
# Creation of runs

What `createRun` reads and adds, and which rows the schema lets it add.
-/

namespace AiFund

open UnitOfWork Rows

variable {env : Env} {fund : FundConfig} {metaHouses : List String} {runType trigger : String}
  {coverageId : Option Nat} {params : JsonObject} {requestedBy triggerRef : Option String}
  {runId : Nat} {u : Unit} {s s' : Session Db} {db : Db}

/-! ## What is added -/

/-- The row of a run as it is created. -/
def newRun (env : Env) (coverageId : Option Nat) (type : RunType) (trigger : String)
    (params : JsonObject) (priority : Int) (budgetCapUsd : Option ℚ)
    (requestedBy triggerRef : Option String) : Run :=
  { coverageId, type, status := .queued, trigger, triggerRef, priority,
    mutatesDossier := type.mutates, requestedBy, params,
    budgetCapUsd := budgetCapUsd.map Numeric.cost.rounded, createdAt := env.now }

def Db.addRun (db : Db) (run : Run) : Db := { db with runs := db.runs ++ [run] }

def Db.addStages (db : Db) (rows : List RunStage) : Db := { db with stages := db.stages ++ rows }

theorem returns_runsRepoCreateRun {type : RunType} {priority : Json} {budgetCapUsd : Option ℚ} :
    Returns (RunsRepo.createRun env coverageId type trigger params priority budgetCapUsd requestedBy
        triggerRef) s runId s' ↔
      ∃ value, defaulted 100 (env.runtime.bindInt priority) = .ok value ∧
        let after := s.loaded.addRun
          (newRun env coverageId type trigger params value budgetCapUsd requestedBy triggerRef)
        Schema.violation after = none ∧ runId = s.loaded.runs.length ∧ s' = s.write after after := by
  unfold RunsRepo.createRun
  rw [returns_ofExcept_bind]
  refine exists_congr fun value => and_congr_right fun _ => ?_
  rw [returns_inspect_bind, returns_assign_bind, returns_flush_bind, returns_pure]
  rfl

theorem returns_addStages {stages : List StageIn} :
    Returns (addStages env runId stages) s u s' ↔
      ∃ rows, stages.mapM (fun stage => stage.toRow env runId) = .ok rows ∧
        Schema.violation (s.loaded.addStages rows) = none ∧
        s' = s.write (s.loaded.addStages rows) (s.loaded.addStages rows) := by
  unfold addStages
  rw [returns_ofExcept_bind]
  refine exists_congr fun rows => and_congr_right fun _ => ?_
  rw [returns_assign_bind, returns_flush]
  rfl

theorem StageIn.of_toRow {stage : StageIn} {row : RunStage} (h : stage.toRow env runId = .ok row) :
    env.runtime.text stage.house = some (some row.house) ∧ row.runId = runId ∧ row.role = stage.role := by
  obtain ⟨house, hhouse, h⟩ := ok_bind_iff.1 h
  cases h
  unfold required Runtime.bindText at hhouse
  split at hhouse <;> cases hhouse
  rename_i hbound
  exact ⟨of_bound hbound, rfl, rfl⟩

/-- The house that a run is planned with, on its coverage. -/
def leadOf (params : JsonObject) (coverage : Option Coverage) : Json :=
  (params.get "lead").orElse (optStr (coverage.bind (·.leadHouse)))

/-- What `createRun` reads and plans on the way to a new run. -/
structure Creation (env : Env) (fund : FundConfig) (metaHouses : List String) (runType : String)
    (coverageId : Option Nat) (params : JsonObject) (s : Session Db) where
  policy : RunPolicy
  coverage : Option Coverage
  contributors : List String
  type : RunType
  plan : List StageIn
  priority : Int
  rows : List RunStage
  configured : fund.policy runType = .ok policy
  found : Returns (Engine.findCoverage coverageId) s coverage s
  resolved : Returns (Engine.contributorsFor coverageId coverage) s contributors s
  parsed : Engine.parseRunType runType = some type
  planned : Engine.planFor type policy fund params (leadOf params coverage) contributors metaHouses =
    .ok plan
  prioritized :
    defaulted 100 (env.runtime.bindInt (Engine.getD params "priority" (.int 100))) = .ok priority
  bound : plan.mapM (fun stage => stage.toRow env s.loaded.runs.length) = .ok rows

namespace Creation

variable (c : Creation env fund metaHouses runType coverageId params s)

def run (trigger : String) (requestedBy triggerRef : Option String) : Run :=
  newRun env coverageId c.type trigger (storedParams params (leadOf params c.coverage)) c.priority
    (some c.policy.budgetCapUsd) requestedBy triggerRef

end Creation

/-- A run is created with the type that its name says. -/
theorem Creation.type_eq {type : RunType}
    (c : Creation env fund metaHouses type.value coverageId params s) : c.type = type := by
  have hparsed := c.parsed
  cases type <;> exact (Option.some.inj hparsed).symm

/-- The creation of a run adds the run, with the params it stores, and the stages planned. -/
theorem returns_createRun :
    Returns (Engine.createRun env fund metaHouses runType coverageId trigger params requestedBy
        triggerRef) s runId s' ↔
      ∃ c : Creation env fund metaHouses runType coverageId params s,
        let withRun := s.loaded.addRun (c.run trigger requestedBy triggerRef)
        let after := withRun.addStages c.rows
        Schema.violation withRun = none ∧ Schema.violation after = none ∧
          runId = s.loaded.runs.length ∧
          s' = (s.write withRun withRun).write after after := by
  unfold Engine.createRun
  constructor
  · intro h
    obtain ⟨policy, hpolicy, h⟩ := returns_ofExcept_bind.1 h
    obtain ⟨cov, s₁, hfind, h⟩ := returns_bind.1 h
    rw [reads_findCoverage hfind] at h hfind
    obtain ⟨contributors, s₂, hcontributors, h⟩ := returns_bind.1 h
    rw [reads_contributorsFor hcontributors] at h hcontributors
    split at h
    · exact absurd h not_returns_raise
    · rename_i type htype
      obtain ⟨plan, hplan, h⟩ := returns_ofExcept_bind.1 h
      obtain ⟨id, s₃, hcreate, h⟩ := returns_bind.1 h
      obtain ⟨priority, hpriority, hrun, rfl, rfl⟩ := returns_runsRepoCreateRun.1 hcreate
      obtain ⟨_, s₄, hstages, h⟩ := returns_bind.1 h
      obtain ⟨rows, hrows, hafter, rfl⟩ := returns_addStages.1 hstages
      obtain ⟨rfl, rfl⟩ := returns_pure.1 h
      exact ⟨⟨policy, cov, contributors, type, plan, priority, rows, hpolicy, hfind, hcontributors,
        htype, hplan, hpriority, hrows⟩, hrun, hafter, rfl, rfl⟩
  · rintro ⟨c, hrun, hafter, rfl, rfl⟩
    refine returns_ofExcept_bind.2 ⟨c.policy, c.configured, returns_bind.2 ⟨_, s, c.found, ?_⟩⟩
    refine returns_bind.2 ⟨_, s, c.resolved, ?_⟩
    rw [c.parsed]
    refine returns_ofExcept_bind.2 ⟨c.plan, c.planned, ?_⟩
    refine returns_bind.2 ⟨_, _, returns_runsRepoCreateRun.2
      ⟨c.priority, c.prioritized, hrun, rfl, rfl⟩, ?_⟩
    refine returns_bind.2 ⟨(), _, returns_addStages.2 ⟨c.rows, c.bound, hafter, rfl⟩, ?_⟩
    exact returns_pure.2 ⟨rfl, rfl⟩

/-! ## Legal rows -/

/-- A run whose key is not taken leaves no two runs with one key. -/
theorem Db.nodup_addRun {run : Run} (h : (db.runs.filterMap Run.triggerKey).Nodup)
    (hfresh : ∀ key, run.triggerKey = some key → key ∉ db.runs.filterMap Run.triggerKey) :
    ((db.addRun run).runs.filterMap Run.triggerKey).Nodup := by
  change ((db.runs ++ [run]).filterMap Run.triggerKey).Nodup
  rw [List.filterMap_append, List.nodup_append_comm]
  cases hkey : run.triggerKey with
  | none =>
      rw [List.filterMap_cons_none hkey]
      exact h
  | some key =>
      rw [List.filterMap_cons_some hkey]
      exact List.nodup_cons.2 ⟨hfresh key hkey, h⟩

/-- A run may be added to a coverage that exists, under a trigger reference that is not taken. -/
theorem Db.legal_addRun {run : Run} (h : Schema.violation db = none)
    (hcoverage : run.coverageId.all db.isCoverage = true)
    (hrequired : (run.coverageId.isSome || run.type = .distillation) = true)
    (hfresh : ∀ key, run.triggerKey = some key → key ∉ db.runs.filterMap Run.triggerKey) :
    Schema.violation (db.addRun run) = none := by
  refine legal_of_rules h ?_
  have hruns : ∀ id, db.isRun id = true → Db.isRun (db.addRun run) id = true := by
    intro id hid
    simp only [Db.isRun, addRun, List.length_append, decide_eq_true_eq] at hid ⊢
    omega
  have hhouses : Db.isHouse (db.addRun run) = db.isHouse := rfl
  have hcoverages : Db.isCoverage (db.addRun run) = db.isCoverage := rfl
  unfold addRun at hhouses hcoverages hruns ⊢
  simp only [constraints, List.forall_mem_cons, hhouses, hcoverages, imp_self, true_and,
    decide_eq_true_eq]
  refine ⟨all_mono _ hruns, fun hall => ?_, fun hall => ?_,
    fun hnodup => nodup_addRun hnodup hfresh, ?_, ?_, ?_, ?_, List.forall_mem_nil _⟩
  · rw [List.all_append, hall]
    simpa using hcoverage
  · rw [List.all_append, hall]
    simpa using hrequired
  · exact all_mono (fun stage : RunStage => some stage.runId) hruns
  · exact all_mono (fun gate : PmGate => some gate.runId) hruns
  · exact all_mono _ hruns
  · exact all_mono _ hruns

/-- Stages may be added to a run that has none, for houses that exist. -/
theorem Db.legal_addStages {rows : List RunStage} (h : Schema.violation db = none)
    (hrun : runId < db.runs.length) (hnone : ∀ stage ∈ db.stages, stage.runId ≠ runId)
    (hrows : ∀ row ∈ rows, row.runId = runId ∧ db.isHouse row.house = true)
    (hseqs : (rows.map (·.seq)).Nodup) : Schema.violation (db.addStages rows) = none := by
  refine legal_of_rules h ?_
  have hruns : Db.isRun (db.addStages rows) = db.isRun := rfl
  have hhouses : Db.isHouse (db.addStages rows) = db.isHouse := rfl
  have hcoverages : Db.isCoverage (db.addStages rows) = db.isCoverage := rfl
  unfold addStages at hhouses hcoverages hruns ⊢
  simp only [constraints, List.forall_mem_cons, hruns, hhouses, hcoverages, imp_self, true_and,
    decide_eq_true_eq]
  refine ⟨fun hall => ?_, fun hall => ?_, fun hnodup => ?_, List.forall_mem_nil _⟩
  · rw [List.all_append, hall, Bool.true_and, List.all_eq_true]
    intro row hrow
    rw [(hrows row hrow).1]
    exact decide_eq_true hrun
  · rw [List.all_append, hall, Bool.true_and, List.all_eq_true]
    exact fun row hrow => (hrows row hrow).2
  · rw [List.map_append]
    refine hnodup.append ?_ ?_
    · have hkeys : rows.map (fun stage => (stage.runId, stage.seq)) =
          (rows.map (·.seq)).map fun seq => (runId, seq) := by
        rw [List.map_map]
        exact List.map_congr_left fun row hrow => congrArg (·, row.seq) (hrows row hrow).1
      rw [hkeys]
      exact hseqs.map fun _ _ hsame => congrArg Prod.snd hsame
    · intro key hold hnew
      obtain ⟨stage, hstage, rfl⟩ := List.mem_map.1 hold
      obtain ⟨row, hrow, hsame⟩ := List.mem_map.1 hnew
      exact hnone stage hstage ((congrArg Prod.fst hsame).symm.trans (hrows row hrow).1)

end AiFund
