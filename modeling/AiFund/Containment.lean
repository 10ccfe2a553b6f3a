import AiFund.Library.Turns
import AiFund.PredictionSystem
import AiFund.Safety

/-!
# Containment

A tick without some of the runs, what a database shows of a run, and what the turn of a run relies
on so as not to raise.
-/

namespace AiFund

open UnitOfWork Rows

namespace Engine

def queuedRuns (env : Env) (db : Db) : List Nat :=
  (env.rows .queuedRuns).all (fun run => run.status = .queued) db.runs

def runningRuns (env : Env) (db : Db) : List Nat :=
  (env.rows .runningRuns).all (fun run => run.status = .running) db.runs

/-- The turn of a queued run. -/
def promoteEach (env : Env) (runId : Nat) : DbTxn Unit := do
  let _ ← promoteRun env runId

/-- The tick where the runs `bad` are absent: neither of its loops comes to them. -/
def tickWithout (bad : List Nat) (env : Env) (fund : FundConfig) (runner : Runner) :
    DbTxn Unit := do
  let queued ← select (queuedRuns env)
  (queued.filter (· ∉ bad)).forM (promoteEach env)
  let running ← select (runningRuns env)
  (running.filter (· ∉ bad)).forM (advanceRun env fund runner)

/-- Without the runs `bad` the tick comes to run `k`, and promoting or advancing it raises. -/
inductive TripsOn (env : Env) (fund : FundConfig) (runner : Runner) (bad : List Nat) (k : Nat)
    (db : Db) : Prop
  | promoting (h : RaisesAt (promoteEach env) ((queuedRuns env db).filter (· ∉ bad)) k
      (Session.clean db))
  | advancing {s : Session Db}
      (hpromoted : Returns (((queuedRuns env db).filter (· ∉ bad)).forM (promoteEach env))
        (Session.clean db) () s)
      (h : RaisesAt (advanceRun env fund runner) ((runningRuns env s.stored).filter (· ∉ bad)) k s)

/-- The tick raises on one of the runs, without that one on the next, and so on. -/
inductive Trips (env : Env) (fund : FundConfig) (runner : Runner) (db : Db) : List Nat → Prop
  | nil : Trips env fund runner db []
  | cons {bad : List Nat} {k : Nat} (h : Trips env fund runner db bad)
      (htrips : TripsOn env fund runner bad k db) : Trips env fund runner db (k :: bad)

end Engine

/-- What a database shows of a run. -/
structure RunView where
  run : Option Run
  coverage : Option Coverage
  stages : List RunStage
  locks : List CoverageRunLock
  gates : List PmGate
  predictions : List Prediction

def Db.shown (j : Nat) (db : Db) : RunView where
  run := db.runs[j]?
  coverage := db.runs[j]?.bind fun run => run.coverageId.bind fun covId => db.coverages[covId]?
  stages := db.stages.filter (·.runId = j)
  locks := db.locks.filter (·.runId = j)
  gates := db.gates.filter (·.runId = j)
  predictions := db.predictions.filter (·.runId = j)

/-- Whichever runs raise, the tick promotes and advances all others as if these were absent. -/
def TickContained (env : Env) (fund : FundConfig) (runner : Engine.Runner) (db : Db) : Prop :=
  ∀ bad, Engine.Trips env fund runner db bad → (∀ k, ¬ Engine.TripsOn env fund runner bad k db) →
    ∀ j ∉ bad, (commit (Engine.tick env fund runner) db).after.shown j =
      (commit (Engine.tickWithout bad env fund runner) db).after.shown j

/-! ## What a turn relies on -/

/-- The rows of the entries, one after another, can be bound, and each of them passes the checks of
its table or finds its key taken. -/
def Db.Admits (env : Env) (stageId : Nat) (stage : RunStage) (run : Run) :
    List PredictionIn → Db → Prop
  | [], _ => True
  | entry :: entries, db => ∃ row, entry.toRow env stageId stage run = .ok row ∧
      (row.passes = true ∨ ∃ other ∈ db.predictions, other.idempotencyKey = row.idempotencyKey) ∧
      Db.Admits env stageId stage run entries (db.insertPrediction row)

instance decidableAdmits (env : Env) (stageId : Nat) (stage : RunStage) (run : Run) :
    ∀ entries db, Decidable (Db.Admits env stageId stage run entries db)
  | [], _ => isTrue trivial
  | entry :: entries, db =>
      have := decidableAdmits env stageId stage run entries
      inferInstanceAs (Decidable (∃ row, entry.toRow env stageId stage run = .ok row ∧
        (row.passes = true ∨
          ∃ other ∈ db.predictions, other.idempotencyKey = row.idempotencyKey) ∧
        Db.Admits env stageId stage run entries (db.insertPrediction row)))

namespace Engine

/-- An initiation that gets its lock while its coverage is proposed names a house as its lead, in a
text that can be bound, or none. -/
def CanBegin (env : Env) (runId : Nat) (db : Db) : Prop :=
  ∀ (run : Run) (covId : Nat) (cov : Coverage), db.runs[runId]? = some run →
    run.status = .queued → run.initiates covId → db.coverages[covId]? = some cov →
    cov.state = .proposed →
    (run.mutatesDossier = true → ∀ owner, db.lockOwner covId = some owner → owner = runId) →
    ∃ house, env.runtime.text (run.params.get "lead_house") = some house ∧
      house.all db.isHouse = true

/-- The result of a stage that has succeeded can be read, the rows of its entries can be stored, and
there is a policy for the cross-check that it calls for. -/
def CanDigest (env : Env) (fund : FundConfig) (run : Run) (stageId : Nat) (db : Db) : Prop :=
  ∀ (stage : RunStage) (result : JsonObject), db.stages[stageId]? = some stage →
    stage.status = .succeeded → stage.result = some result → result ≠ [] →
    (∃ entries, parsePredictions result = .ok entries ∧
      db.Admits env stageId stage run entries) ∧
    (run.type = .eventAnalysis → stage.role = .author → ∃ fires,
      autoCrossCheck result (lastTargetPrice env run.coverageId db) none none
          fund.autoCrossCheck = .ok fires ∧
        (fires = true →
          (∀ other ∈ db.stages, other.runId = stage.runId → other.role ≠ .crossCheck) →
          ∃ policy, fund.policy run.type.value = .ok policy))

/-- If all stages of an initiation are done and its cap is kept, then its coverage is initiating and
has a lead. -/
def CanSettle (runId : Nat) (stages : List RunStage) (db : Db) : Prop :=
  ∀ (run : Run) (covId : Nat) (cov : Coverage), db.runs[runId]? = some run → run.initiates covId →
    db.coverages[covId]? = some cov →
    (∀ stage ∈ stages, stage.runId = runId →
      stage.status = .succeeded ∨ stage.status = .skipped) →
    runOverBudget run = false → cov.state = .initiating ∧ cov.leadHouse.isSome = true

/-- A stage that is completed is stored and running, and so is one that fails and is to be tried
again. Nothing is asked of the other calls. -/
def CanCall (db : Db) : QueueCall → Prop
  | .complete stageId _ _ => ∃ stage, db.stages[stageId]? = some stage ∧ stage.status = .running
  | .fail stageId _ retryable _ => ∃ stage, db.stages[stageId]? = some stage ∧
      (retryable = true → stage.attempts < stage.maxAttempts → stage.status = .running)
  | _ => True

/-- If the run is running, then its runner makes calls that can be made, and what these leave of its
stages can be digested, one stage after another, and settled. -/
def CanAdvance (env : Env) (fund : FundConfig) (runner : Runner) (runId : Nat)
    (s : Session Db) : Prop :=
  ∀ run, s.loaded.runs[runId]? = some run → run.status = .running →
    EachTurn (fun call => call.2.perform call.1) (fun call s => CanCall s.stored call.2)
      (runner.calls runId) s ∧
    ∀ s₁, Returns (runner.drain runId) s () s₁ →
      EachTurn (digestStage env fund runId run) (fun id s => CanDigest env fund run id s.loaded)
        (stagesOfRun env runId s₁.stored) s₁ ∧
      ∀ s₂, Returns ((stagesOfRun env runId s₁.stored).forM (digestStage env fund runId run))
        s₁ ⟨⟩ s₂ → CanSettle runId s₂.stored.stages s₂.loaded

/-- Each queued run can begin at its turn, and after that each running run can be advanced at its
turn. -/
structure CanTick (env : Env) (fund : FundConfig) (runner : Runner) (db : Db) : Prop where
  promotes : EachTurn (promoteEach env) (fun runId s => CanBegin env runId s.loaded)
    (queuedRuns env db) (Session.clean db)
  advances : ∀ s, Returns ((queuedRuns env db).forM (promoteEach env)) (Session.clean db) ⟨⟩ s →
    EachTurn (advanceRun env fund runner) (CanAdvance env fund runner) (runningRuns env s.stored) s

/-! ### Evaluation on a concrete database -/

variable {env : Env} {fund : FundConfig} {runner : Runner} {run : Run} {runId stageId : Nat}
  {stages : List RunStage} {db : Db} {s : Session Db}

instance decidableCanCall : ∀ call, Decidable (CanCall db call)
  | .complete stageId _ _ =>
      inferInstanceAs (Decidable (∃ stage ∈ db.stages[stageId]?, stage.status = .running))
  | .fail stageId _ retryable _ => inferInstanceAs (Decidable (∃ stage ∈ db.stages[stageId]?,
      (retryable = true → stage.attempts < stage.maxAttempts → stage.status = .running)))
  | .claim .. | .heartbeat .. | .reap .. => isTrue trivial

instance decidableCanBegin : Decidable (CanBegin env runId db) :=
  decidable_of_iff (∀ run ∈ db.runs[runId]?, run.status = .queued → run.type = .initiation →
    ∀ covId ∈ run.coverageId, ∀ cov ∈ db.coverages[covId]?, cov.state = .proposed →
      (run.mutatesDossier = true → ∀ owner ∈ db.lockOwner covId, owner = runId) →
      ∃ house ∈ env.runtime.text (run.params.get "lead_house"), house.all db.isHouse = true)
    ⟨fun h run covId cov hrun hqueued hinitiates => h run hrun hqueued hinitiates.1 covId
        hinitiates.2 cov,
      fun h run hrun hqueued htype covId hcovId cov => h run covId cov hrun hqueued ⟨htype, hcovId⟩⟩

instance decidableCanDigest : Decidable (CanDigest env fund run stageId db) :=
  have (stage : RunStage) (fires : Bool) : Decidable (fires = true →
      (∀ other ∈ db.stages, other.runId = stage.runId → other.role ≠ .crossCheck) →
        ∃ policy, fund.policy run.type.value = .ok policy) := inferInstance
  decidable_of_iff (∀ stage ∈ db.stages[stageId]?, stage.status = .succeeded →
    ∀ result ∈ stage.result, result ≠ [] →
    (∃ entries, parsePredictions result = .ok entries ∧
      db.Admits env stageId stage run entries) ∧
    (run.type = .eventAnalysis → stage.role = .author → ∃ fires,
      autoCrossCheck result (lastTargetPrice env run.coverageId db) none none
          fund.autoCrossCheck = .ok fires ∧
        (fires = true →
          (∀ other ∈ db.stages, other.runId = stage.runId → other.role ≠ .crossCheck) →
          ∃ policy, fund.policy run.type.value = .ok policy)))
    ⟨fun h stage result hstage hstatus hresult => h stage hstage hstatus result hresult,
      fun h stage hstage hstatus result hresult => h stage result hstage hstatus hresult⟩

instance decidableCanSettle : Decidable (CanSettle runId stages db) :=
  have (run : Run) (cov : Coverage) : Decidable ((∀ stage ∈ stages, stage.runId = runId →
      stage.status = .succeeded ∨ stage.status = .skipped) → runOverBudget run = false →
        cov.state = .initiating ∧ cov.leadHouse.isSome = true) := inferInstance
  decidable_of_iff (∀ run ∈ db.runs[runId]?, run.type = .initiation →
    ∀ covId ∈ run.coverageId, ∀ cov ∈ db.coverages[covId]?,
    (∀ stage ∈ stages, stage.runId = runId →
      stage.status = .succeeded ∨ stage.status = .skipped) →
    runOverBudget run = false → cov.state = .initiating ∧ cov.leadHouse.isSome = true)
    ⟨fun h run covId cov hrun hinitiates => h run hrun hinitiates.1 covId hinitiates.2 cov,
      fun h run hrun htype covId hcovId cov => h run covId cov hrun ⟨htype, hcovId⟩⟩

instance decidableCanAdvance : Decidable (CanAdvance env fund runner runId s) :=
  inferInstanceAs (Decidable (∀ run ∈ s.loaded.runs[runId]?, run.status = .running →
    EachTurn (fun call => call.2.perform call.1) (fun call s => CanCall s.stored call.2)
      (runner.calls runId) s ∧
    ∀ s₁, Returns (runner.drain runId) s () s₁ →
      EachTurn (digestStage env fund runId run) (fun id s => CanDigest env fund run id s.loaded)
        (stagesOfRun env runId s₁.stored) s₁ ∧
      ∀ s₂, Returns ((stagesOfRun env runId s₁.stored).forM (digestStage env fund runId run))
        s₁ ⟨⟩ s₂ → CanSettle runId s₂.stored.stages s₂.loaded))

instance decidableCanTick : Decidable (CanTick env fund runner db) :=
  decidable_of_iff
    (EachTurn (promoteEach env) (fun runId s => CanBegin env runId s.loaded) (queuedRuns env db)
        (Session.clean db) ∧
      ∀ s, Returns ((queuedRuns env db).forM (promoteEach env)) (Session.clean db) ⟨⟩ s →
        EachTurn (advanceRun env fund runner) (CanAdvance env fund runner)
          (runningRuns env s.stored) s)
    ⟨fun h => ⟨h.1, h.2⟩, fun h => ⟨h.promotes, h.advances⟩⟩

end Engine

end AiFund
