import AiFund.Orchestrator.Engine

/-!
# The fake runner

The runner that stands in for the real one: when it is drained it claims stage after stage, without
a filter, and completes or fails each of them until none can be claimed.
-/

namespace AiFund

open UnitOfWork

def StageRole.value : StageRole → String
  | .author => "author"
  | .verifier => "verifier"
  | .dataChecker => "data_checker"
  | .finalizer => "finalizer"
  | .monitor => "monitor"
  | .crossCheck => "cross_check"
  | .leadReview => "lead_review"
  | .distiller => "distiller"
  | .pmQuery => "pm_query"

def defaultResult (role : StageRole) : JsonObject :=
  let completed : String × Json := ("status", .str "completed")
  match role with
  | .author =>
      [completed, ("changes", .arr [.str "author pass"]),
        ("predictions", .arr
          [.obj
            [("kind", .str "target_price"), ("value", .int 2900), ("currency", .str "JPY"),
              ("horizon_date", .str "2027-01-01"), ("confidence", .float "0.6")]])]
  | .verifier =>
      [completed, ("changes", .arr [.str "verifier pass"]), ("corrections", .arr [])]
  | .finalizer => [completed, ("changes", .arr [.str "finalized"]), ("predictions", .arr [])]
  | role => [completed, ("changes", .arr [.str (role.value ++ " pass")])]

structure FakeRunner where
  results : List (StageRole × JsonObject) := []
  failRole : Option StageRole := none
  failTimes : Nat := 0
  hangRoles : List StageRole := []
  costUsd : ℚ := 1 / 100
  backoff : BackoffPolicy := ⟨0, 0, 0⟩

/-- The attempts that a stage has left, of which a queued one always has one. -/
def RunStage.attemptsLeft (stage : RunStage) : Nat :=
  if stage.status = .queued then max 1 (stage.maxAttempts - stage.attempts).toNat else 0

/-- No more rounds than this can claim a stage. -/
def Db.attemptsLeft (db : Db) : Nat := (db.stages.map RunStage.attemptsLeft).sum

namespace FakeRunner

/-- What the runner remembers: how often it has failed `failRole`, and what it has claimed. -/
structure Memory where
  failures : Nat := 0
  claimed : List Nat := []

inductive Round where
  /-- No stage could be claimed. -/
  | idle
  /-- The stage that was claimed is left running. -/
  | hung
  | reported (memory : Memory)

variable (runner : FakeRunner)

/-- `self.results.get(role) or _default_result(role)`. -/
def resultOf (role : StageRole) : JsonObject :=
  match List.lookup role runner.results with
  | some (field :: fields) => field :: fields
  | _ => defaultResult role

/-- What the runner does with a stage that it has claimed. -/
def process (reported : Env) (workerId : String) (memory : Memory) (stageId : Nat) :
    DbTxn Round := do
  let stage ← getRow Db.stages stageId
  if stage.role ∈ runner.hangRoles then do
    flush
    return .hung
  else do
    let attempt : AttemptIn := { workerId, costUsd := runner.costUsd }
    let claimed := memory.claimed ++ [stageId]
    if runner.failRole = some stage.role ∧ memory.failures < runner.failTimes then do
      failStage reported stageId attempt true runner.backoff
      return .reported ⟨memory.failures + 1, claimed⟩
    else do
      completeStage reported stageId attempt (runner.resultOf stage.role)
      return .reported { memory with claimed }

/-- One claim, at `claimed`, and the report on the stage, at `reported`. -/
def round (claimed reported : Env) (workerId : String) (leaseSeconds : ℚ) (memory : Memory) :
    DbTxn Round := do
  match ← claimStage claimed workerId [] [] leaseSeconds with
  | none => return .idle
  | some stageId => runner.process reported workerId memory stageId

/-- At most `fuel` rounds, the round `n` at the times `2 * n` and `2 * n + 1` of the clock; `none` if
the last of them has reported on a stage. -/
def rounds (clock : Nat → Env) (workerId : String) (leaseSeconds : ℚ) :
    Nat → Memory → Nat → DbTxn (Option (Memory × Nat))
  | 0, _, _ => return none
  | fuel + 1, memory, n => do
      match ← runner.round (clock (2 * n)) (clock (2 * n + 1)) workerId leaseSeconds memory with
      | .idle | .hung => return some (memory, n)
      | .reported memory => rounds clock workerId leaseSeconds fuel memory (n + 1)

/-- Claim and process every stage that can be claimed; returns the number of stages. -/
def drain (clock : Nat → Env) (workerId : String) (leaseSeconds : ℚ) (memory : Memory) :
    DbTxn (Option (Memory × Nat)) := do
  let attempts ← select Db.attemptsLeft
  runner.rounds clock workerId leaseSeconds (attempts + 1) memory 0

/-- A drain by a caller that does not ask for the number. -/
def drained (clock : Nat → Env) (workerId : String) (leaseSeconds : ℚ) (memory : Memory) :
    DbTxn Memory := do
  let drained ← runner.drain clock workerId leaseSeconds memory
  return (drained.map (·.1)).getD memory

end FakeRunner

namespace Engine

variable {M : Type}

/-- `advanceRun` with a runner that looks at what it drains, and keeps something in mind. -/
def advanceWith (env : Env) (fund : FundConfig) (drain : M → DbTxn M) (memory : M) (runId : Nat) :
    DbTxn M := do
  let run ← getRow Db.runs runId
  if run.status ≠ .running then return memory
  else do
    let memory ← drain memory
    let stageIds ← select (stagesOfRun env runId)
    stageIds.forM (digestStage env fund runId run)
    settleRun env runId
    return memory

/-- `tick` with such a runner, which is drained at other times for each run. -/
def tickWith (env : Env) (fund : FundConfig) (drain : Nat → M → DbTxn M) (memory : M) :
    DbTxn M := do
  let queued ← select fun db => (env.rows .queuedRuns).all
    (fun run => run.status = .queued) db.runs
  queued.forM fun runId => do
    let _ ← promoteRun env runId
  let running ← select fun db => (env.rows .runningRuns).all
    (fun run => run.status = .running) db.runs
  running.foldlM (fun memory runId => advanceWith env fund (drain runId) memory runId) memory

end Engine

end AiFund
