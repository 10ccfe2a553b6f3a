import AiFund.System

/-!
# Safety of the lifecycle

What the runs, locks, gates and coverages of the database have to do with one another, and the
steps after which they no longer agree.
-/

namespace AiFund

open UnitOfWork Rows

/-! ## Serialization -/

/-- A run that works on its dossier or waits for the PM. -/
def RunStatus.live : RunStatus → Bool
  | .running | .waitingPm => true
  | _ => false

/-- Queued again after a transient failure. -/
def Run.requeued (run : Run) : Prop :=
  run.status = .queued ∧ run.startedAt.isSome = true ∧ run.error = some Engine.transientError

/-- At most one mutating run works on a coverage, and it owns the coverage's lock. -/
structure Db.Serialized (db : Db) : Prop where
  one : ∀ (r r' : Nat) (run run' : Run) (covId : Nat), db.runs[r]? = some run →
    db.runs[r']? = some run' → run.mutatesDossier = true → run'.mutatesDossier = true →
    run.coverageId = some covId → run'.coverageId = some covId → run.status.live = true →
    run'.status.live = true → r = r'
  owns : ∀ (r : Nat) (run : Run) (covId : Nat), db.runs[r]? = some run →
    run.mutatesDossier = true → run.coverageId = some covId → run.status.live = true →
    db.lockOwner covId = some r
  held : ∀ lock ∈ db.locks, ∃ run, db.runs[lock.runId]? = some run ∧
    (run.status.live = true ∨ run.requeued)
  ended : ∀ (r : Nat) (run : Run), db.runs[r]? = some run → run.status.terminal = true →
    ∀ lock ∈ db.locks, lock.runId ≠ r

/-- What one write does to the runs: statuses follow the edges of the state machine, the terminal
ones absorb, and a mutating run starts only while it owns the lock. -/
structure Db.Follows (a b : Db) : Prop where
  edge : ∀ (r : Nat) (run : Run), a.runs[r]? = some run → ∃ run', b.runs[r]? = some run' ∧
    (run'.status = run.status ∨ RunEdge run.status run'.status)
  absorbing : ∀ (r : Nat) (run run' : Run), a.runs[r]? = some run → b.runs[r]? = some run' →
    run.status.terminal = true → run'.status = run.status
  start : ∀ (r : Nat) (run run' : Run) (covId : Nat), a.runs[r]? = some run →
    b.runs[r]? = some run' → run.mutatesDossier = true → run.coverageId = some covId →
    run.status = .queued → run'.status = .running → a.lockOwner covId = some r

/-- The states that an operation writes follow one another from its start to its end. -/
def Op.Follows (app : App) (db : Db) (op : Op) : Prop :=
  (db :: (op.exec app db).written).IsChain Db.Follows ∧
    (db :: (op.exec app db).written).getLast? = some (step app db op)

/-! ## Adoption -/

/-- A coverage that the fund has adopted. -/
def CoverageState.adopted : CoverageState → Bool
  | .active | .watch => true
  | _ => false

/-- The request carries the core token and the identity of an allow-listed PM. -/
structure App.Authorizes (app : App) (env : Env) (request : Request) (pm : String) : Prop where
  token : bearerToken env.runtime.lower request.authorization = some app.coreApiToken
  secret : app.coreApiToken ≠ ""
  caller : request.xPmUser = some pm
  listed : pm ∈ app.pmUserIds

/-- The operation is a decision of an authorized PM on the coverage, made at an open gate of the
coverage that allows it and that it answers. -/
def Op.Decides (app : App) (db : Db) (op : Op) (covId : Nat) : Prop :=
  ∃ (env : Env) (request : Request) (slug decision : String) (notes : Option String) (pm : String),
    op = .api env request (.decide slug decision notes) ∧ app.Authorizes env request pm ∧
    (∃ cov cov' : Coverage, db.coverages[covId]? = some cov ∧ cov.dossierSlug = slug ∧
      cov.state = .decisionPending ∧
      (step app db op).coverages[covId]? = some cov' ∧ cov'.state.value = decision) ∧
    ∃ (g : Nat) (gate gate' : PmGate), db.gates[g]? = some gate ∧
      gate.coverageId = some covId ∧ gate.state = .opened ∧ decision ∈ gate.allowedAnswers ∧
      (step app db op).gates[g]? = some gate' ∧ gate'.state = .answered ∧
      gate'.answer = some decision

/-- Whatever coverage the operation adopts, it adopts by a decision. -/
def Op.AdoptsByDecision (app : App) (db : Db) (op : Op) : Prop :=
  ∀ (covId : Nat) (cov' : Coverage), (step app db op).coverages[covId]? = some cov' →
    cov'.state.adopted = true →
    (∀ cov, db.coverages[covId]? = some cov → cov.state.adopted = false) →
    op.Decides app db covId

/-! ## Requests that break the correspondence -/

/-- A request that reaches its handler: authorized, and not a replay. -/
structure App.Accepts (app : App) (env : Env) (db : Db) (request : Request) (pm : String) :
    Prop where
  authorized : requirePm env app request = .ok pm
  keyed : request.idempotencyKey.getD "" ≠ ""
  new : db.idempotencyKeys.find? (fun row => row.key = request.idempotencyKey.getD "") = none

/-- An accepted request to cancel the run. -/
def Op.Cancels (app : App) (db : Db) (op : Op) (r : Nat) : Prop :=
  ∃ env request notes pm, op = .api env request (.cancelRun r notes) ∧
    app.Accepts env db request pm

/-- An accepted request to answer the gate. -/
def Op.Answers (app : App) (db : Db) (op : Op) (g : Nat) : Prop :=
  ∃ env request answer notes pm, op = .api env request (.answerGate g answer notes) ∧
    app.Accepts env db request pm

/-! ## Gates -/

/-- A run waits exactly at the one gate that is open for it. -/
structure Db.GatesMatch (db : Db) : Prop where
  waiting : ∀ (r : Nat) (run : Run), db.runs[r]? = some run → run.status = .waitingPm →
    db.gates.countP (fun gate => gate.runId = r ∧ gate.state = .opened) = 1
  ended : ∀ (r : Nat) (run : Run), db.runs[r]? = some run → run.status.terminal = true →
    db.gates.countP (fun gate => gate.runId = r ∧ gate.state = .opened) = 0

/-- The operation neither cancels a waiting run nor answers an open gate on its own. -/
structure Op.SparesGates (app : App) (db : Db) (op : Op) : Prop where
  cancel : ∀ (r : Nat) (run : Run), op.Cancels app db r → db.runs[r]? = some run →
    run.status ≠ .waitingPm
  answer : ∀ (g : Nat) (gate : PmGate), op.Answers app db g → db.gates[g]? = some gate →
    gate.state ≠ .opened

/-! ## Answers -/

/-- The answer of every answered gate is one that the gate offered. -/
def Db.AnswersOffered (db : Db) : Prop :=
  ∀ gate ∈ db.gates, gate.state = .answered →
    ∃ answer, gate.answer = some answer ∧ answer ∈ gate.allowedAnswers

/-- The operation leaves the gates that are answered or cancelled as they are, and a request to
answer one of them is refused or replayed. -/
structure Op.KeepsAnswers (app : App) (db : Db) (op : Op) : Prop where
  kept : ∀ (g : Nat) (gate : PmGate), db.gates[g]? = some gate → gate.state ≠ .opened →
    (step app db op).gates[g]? = some gate
  refused : ∀ (env : Env) (request : Request) (g : Nat) (answer : String) (notes : Option String)
    (gate : PmGate), op = .api env request (.answerGate g answer notes) →
    db.gates[g]? = some gate → gate.state ≠ .opened →
    step app db op = db ∧ ((∃ error, (op.exec app db).result = .error error) ∨
      ∃ row ∈ db.idempotencyKeys, row.key = request.idempotencyKey.getD "" ∧
        (commit ((ApiCall.answerGate g answer notes).perform env app request) db).result =
          .ok row.response.body)

/-- An accepted answer is one that its gate, still open, offers. -/
def Op.AnswersOpenly (app : App) (db : Db) (op : Op) : Prop :=
  ∀ (env : Env) (request : Request) (g : Nat) (answer : String) (notes : Option String)
    (pm : String) (gate : PmGate), op = .api env request (.answerGate g answer notes) →
    app.Accepts env db request pm → db.gates[g]? = some gate →
    gate.state = .opened ∧ answer ∈ gate.allowedAnswers

/-! ## Initiations -/

/-- The run is an initiation of the coverage. -/
def Run.initiates (run : Run) (covId : Nat) : Prop :=
  run.type = .initiation ∧ run.coverageId = some covId

/-- Every coverage under initiation or decision has the run that will move it on. -/
structure Db.Attended (db : Db) : Prop where
  initiating : ∀ (covId : Nat) (cov : Coverage), db.coverages[covId]? = some cov →
    cov.state = .initiating → ∃ (r : Nat) (run : Run), db.runs[r]? = some run ∧
      run.initiates covId ∧ (run.status = .queued ∨ run.status = .running ∨ run.status = .waitingPm)
  pending : ∀ (covId : Nat) (cov : Coverage), db.coverages[covId]? = some cov →
    cov.state = .decisionPending → ∃ (r : Nat) (run : Run), db.runs[r]? = some run ∧
      run.initiates covId ∧ run.status = .waitingPm ∧ ∃ gate ∈ db.gates, gate.runId = r ∧
        gate.kind = .initiationDecision ∧ gate.state = .opened

/-- The operation does not cancel the last open initiation of an initiating coverage nor the
waiting initiation of one that awaits its decision, and answers no decision gate on its own. -/
structure Op.SparesCoverages (app : App) (db : Db) (op : Op) : Prop where
  cancel : ∀ (r covId : Nat) (run : Run) (cov : Coverage), op.Cancels app db r →
    db.runs[r]? = some run → run.initiates covId → db.coverages[covId]? = some cov →
    (cov.state = .initiating → ∃ (r' : Nat) (run' : Run), r' ≠ r ∧ db.runs[r']? = some run' ∧
      run'.initiates covId ∧ run'.status.terminal = false) ∧
    (cov.state = .decisionPending → run.status ≠ .waitingPm)
  answer : ∀ (g covId : Nat) (gate : PmGate) (cov : Coverage), op.Answers app db g →
    db.gates[g]? = some gate → gate.kind = .initiationDecision → gate.state = .opened →
    gate.coverageId = some covId → db.coverages[covId]? = some cov →
    cov.state ≠ .decisionPending

/-! ## Pending decisions -/

/-- The coverage awaits its decision, at the open gate of its waiting initiation. -/
structure Db.Awaits (db : Db) (covId r g : Nat) : Prop where
  pending : ∃ cov, db.coverages[covId]? = some cov ∧ cov.state = .decisionPending
  waiting : ∃ run, db.runs[r]? = some run ∧ run.initiates covId ∧ run.status = .waitingPm
  asked : ∃ gate, db.gates[g]? = some gate ∧ gate.runId = r ∧
    gate.kind = .initiationDecision ∧ gate.state = .opened

/-- The state that a decision is to lead to. -/
def decidedState : String → Option CoverageState
  | "active" => some .active
  | "watch" => some .watch
  | "reject" => some .rejected
  | _ => none

/-- The operation succeeds, and with it the decision, on the coverage, the gate, the run and the
run's lock. -/
structure Op.Settles (app : App) (db : Db) (op : Op) (decision : String) (covId r g : Nat) :
    Prop where
  succeeds : (op.exec app db).result = .ok ()
  moved : ∃ cov, (step app db op).coverages[covId]? = some cov ∧
    some cov.state = decidedState decision
  answered : ∃ gate, (step app db op).gates[g]? = some gate ∧ gate.state = .answered ∧
    gate.answer = some decision
  ended : ∃ run, (step app db op).runs[r]? = some run ∧ run.status = .succeeded
  released : ∀ lock ∈ (step app db op).locks, lock.runId ≠ r

/-- Every running initiation has its coverage in the state that it will move on from. -/
def Db.Coupled (db : Db) : Prop :=
  ∀ (r : Nat) (run : Run), db.runs[r]? = some run → run.type = .initiation →
    run.status = .running → ∃ (covId : Nat) (cov : Coverage), run.coverageId = some covId ∧
      db.coverages[covId]? = some cov ∧ cov.state = .initiating

/-- An operation of the orchestrator on runs that exist. -/
def Op.orchestrates : Op → Bool
  | .promoteRun .. | .advanceRun .. | .tick .. => true
  | _ => false

/-- The orchestrator is refused no coverage transition. -/
def Op.AdvancesLegally (app : App) (db : Db) (op : Op) : Prop :=
  op.orchestrates = true → ∀ transition,
    (op.exec app db).result ≠ .error (.illegalTransition transition)

/-- A promotion of the queued run gets the lock of its coverage: the lock is the run's, or it is
free and no run of `before`, which are promoted first, takes it. -/
def Db.Startable (db : Db) (before : List Nat) (r covId : Nat) : Prop :=
  db.lockOwner covId = some r ∨
    (db.lockOwner covId = none ∧ ∀ r' ∈ before, ∀ run', db.runs[r']? = some run' →
      run'.mutatesDossier = true → run'.coverageId ≠ some covId)

/-- The coverages of the initiations that a promotion would start have not moved on. -/
def Op.StartsFresh (db : Db) : Op → Prop
  | .promoteRun _ r => ∀ (run : Run) (covId : Nat) (cov : Coverage), db.runs[r]? = some run →
      run.status = .queued → run.initiates covId → db.coverages[covId]? = some cov →
      db.Startable [] r covId → cov.state = .proposed ∨ cov.state = .initiating
  | .tick env _ => ∀ (before after : List Nat) (r : Nat) (run : Run) (covId : Nat)
      (cov : Coverage),
      (env.rows .queuedRuns).all (fun run => run.status = .queued) db.runs = before ++ r :: after →
      db.runs[r]? = some run → run.initiates covId → db.coverages[covId]? = some cov →
      db.Startable before r covId → cov.state = .proposed ∨ cov.state = .initiating
  | _ => True

end AiFund
