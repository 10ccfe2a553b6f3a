import AiFund.Safety

/-!
# Lifecycle

The coverages, runs, gates and locks of the database without the rest of their rows, and the steps
that they take. A step is what one call of the engine or one PM request does as a whole.
-/

namespace AiFund

open UnitOfWork Rows

structure RunLife where
  coverageId : Option Nat
  type : RunType
  mutates : Bool
  status : RunStatus
  started : Bool
  /-- The last error of the run is the one that a transient requeue records. -/
  transient : Bool

structure GateLife where
  runId : Nat
  coverageId : Option Nat
  kind : GateKind
  state : GateState
  allowed : List String
  answer : Option String

structure LockLife where
  coverageId : Nat
  runId : Nat

structure Life where
  coverages : List CoverageState
  runs : List RunLife
  gates : List GateLife
  locks : List LockLife

def Run.life (run : Run) : RunLife :=
  ⟨run.coverageId, run.type, run.mutatesDossier, run.status, run.startedAt.isSome,
    run.error = some Engine.transientError⟩

def PmGate.life (gate : PmGate) : GateLife :=
  ⟨gate.runId, gate.coverageId, gate.kind, gate.state, gate.allowedAnswers, gate.answer⟩

def Db.life (db : Db) : Life where
  coverages := db.coverages.map (·.state)
  runs := db.runs.map Run.life
  gates := db.gates.map PmGate.life
  locks := db.locks.map fun lock => ⟨lock.coverageId, lock.runId⟩

/-- A run whose gate, if it ever opened one, has been opened. -/
def RunStatus.gated : RunStatus → Bool
  | .queued | .running => false
  | _ => true

/-- The coverage whose lock a run needs. -/
def RunLife.locked (run : RunLife) : Option Nat := if run.mutates then run.coverageId else none

/-- A run that may own a lock: live, or queued after a transient requeue. -/
def RunLife.holds (run : RunLife) : Prop :=
  run.status.live = true ∨ (run.status = .queued ∧ run.started = true ∧ run.transient = true)

/-- A run after it has started. -/
def RunLife.begun (run : RunLife) : RunLife := { run with status := .running, started := true }

/-- A run after a transient failure has put it back in the queue. -/
def RunLife.requeued (run : RunLife) : RunLife := { run with status := .queued, transient := true }

/-- A run after it has ended, with a new last error or with the old one. -/
def RunLife.ended (run : RunLife) (status : RunStatus) (error : Option String) : RunLife :=
  { run with status, transient := error.elim run.transient (· = Engine.transientError) }

namespace Life

variable (c : Life)

def setRun (r : Nat) (f : RunLife → RunLife) : Life := { c with runs := c.runs.modify r f }

def setStatus (r : Nat) (status : RunStatus) : Life := c.setRun r fun run => { run with status }

def setCoverage (covId : Nat) (state : CoverageState) : Life :=
  { c with coverages := c.coverages.modify covId fun _ => state }

def addGate (gate : GateLife) : Life := { c with gates := c.gates ++ [gate] }

def answer (g : Nat) (answer : String) : Life :=
  { c with
    gates := c.gates.modify g fun gate =>
      { gate with state := .answered, answer := some answer } }

def owner (covId : Nat) : Option Nat :=
  (c.locks.find? fun lock => lock.coverageId = covId).map (·.runId)

def acquire (covId r : Nat) : Life :=
  if c.locks.any fun lock => lock.coverageId = covId then c
  else { c with locks := c.locks ++ [⟨covId, r⟩] }

def acquireFor (run : RunLife) (r : Nat) : Life := run.locked.elim c fun covId => c.acquire covId r

def release (r : Nat) : Life := { c with locks := c.locks.filter fun lock => lock.runId ≠ r }

def finish (r : Nat) (status : RunStatus) (error : Option String) : Life :=
  (c.setRun r fun run => run.ended status error).release r

/-- The coverage of an initiation run, with its state. -/
def initiationOf (run : RunLife) : Option (Nat × CoverageState) := do
  let covId ← run.coverageId
  if run.type = .initiation then
    return (covId, ← c.coverages[covId]?)
  else none

/-- The coverage write of a run that begins: proposed to initiating. -/
def begin (run : RunLife) : Life :=
  match c.initiationOf run with
  | some (covId, .proposed) => c.setCoverage covId .initiating
  | _ => c

/-- The coverage write of a run that fails: initiating to failed. -/
def abort (run : RunLife) : Life :=
  match c.initiationOf run with
  | some (covId, .initiating) => c.setCoverage covId .failed
  | _ => c

end Life

inductive LifeEvent where
  | propose
  | create
  | start (r : Nat)
  | requeue (r : Nat)
  | pause (r : Nat)
  | deliver (r : Nat)
  | succeed (r : Nat)
  | fail (r : Nat)
  | cancel (r : Nat)
  | decide (covId r g : Nat) (action : Action)
  | answer (g : Nat)
  | shift (covId : Nat) (action : Action)

def initiationGate (r : Nat) (covId : Option Nat) : GateLife :=
  ⟨r, covId, .initiationDecision, .opened, ["active", "watch", "reject"], none⟩

def budgetGate (r : Nat) (covId : Option Nat) : GateLife :=
  ⟨r, covId, .budgetCap, .opened, ["raise_cap", "cancel"], none⟩

/-- The PM's transitions of a coverage that no run or gate takes part in. -/
def Action.shifts : Action → Bool
  | .promote | .demote | .exit | .rePropose => true
  | _ => false

inductive LifeStep : LifeEvent → Life → Life → Prop where
  | propose {c : Life} :
      LifeStep .propose c { c with coverages := c.coverages ++ [.proposed] }
  | create {c : Life} {coverageId : Option Nat} {type : RunType}
      (hcoverage : ∀ covId, coverageId = some covId → covId < c.coverages.length)
      (hrequired : coverageId = none → type = .distillation) :
      LifeStep .create c
        { c with runs := c.runs ++ [⟨coverageId, type, type.mutates, .queued, false, false⟩] }
  | start {c : Life} {r : Nat} {run : RunLife} (hrun : c.runs[r]? = some run)
      (hqueued : run.status = .queued)
      (hlock : ∀ covId, run.locked = some covId → (c.acquire covId r).owner covId = some r) :
      LifeStep (.start r) c
        (((c.acquireFor run r).setRun r RunLife.begun).begin run)
  | requeue {c : Life} {r : Nat} {run : RunLife} (hrun : c.runs[r]? = some run)
      (hrunning : run.status = .running) :
      LifeStep (.requeue r) c
        (c.setRun r RunLife.requeued)
  | pause {c : Life} {r : Nat} {run : RunLife} (hrun : c.runs[r]? = some run)
      (hrunning : run.status = .running) :
      LifeStep (.pause r) c
        ((c.addGate (budgetGate r run.coverageId)).setStatus r .waitingPm)
  | deliver {c : Life} {r covId : Nat} {run : RunLife} (hrun : c.runs[r]? = some run)
      (hrunning : run.status = .running)
      (hinitiation : c.initiationOf run = some (covId, .initiating)) :
      LifeStep (.deliver r) c
        (((c.setCoverage covId .decisionPending).addGate (initiationGate r (some covId))).setStatus
          r .waitingPm)
  | succeed {c : Life} {r : Nat} {run : RunLife} (hrun : c.runs[r]? = some run)
      (hrunning : run.status = .running) (hinitiation : c.initiationOf run = none) :
      LifeStep (.succeed r) c (c.finish r .succeeded none)
  | fail {c : Life} {r : Nat} {run : RunLife} {error : Option String}
      (hrun : c.runs[r]? = some run) (hrunning : run.status = .running) :
      LifeStep (.fail r) c ((c.abort run).finish r .failed error)
  | cancel {c : Life} {r : Nat} {run : RunLife} {error : Option String}
      (hrun : c.runs[r]? = some run) (hopen : run.status.terminal = false) :
      LifeStep (.cancel r) c (c.finish r .cancelled error)
  | decide {c : Life} {covId r g : Nat} {action : Action} {run : RunLife} {sm : Transition}
      {found asked gate : GateLife} {answer : String} (hrun : c.runs[r]? = some run)
      (hlive : run.status.live = true) (hpending : c.coverages[covId]? = some .decisionPending)
      (hentry : entries (some .decisionPending) action = some sm)
      (hanswer : decisionAnswer action = some answer)
      (hfound : found ∈ c.gates ∧ found.coverageId = some covId ∧ found.runId = r ∧
        found.state = .opened)
      (hasked : asked ∈ c.gates ∧ asked.runId = r ∧ asked.state = .opened ∧
        answer ∈ asked.allowed)
      (hgate : c.gates[g]? = some gate ∧ gate.runId = r ∧ gate.state = .opened) :
      LifeStep (.decide covId r g action) c
        (((c.setCoverage covId sm.toState).answer g answer).finish r .succeeded none)
  | answer {c : Life} {g : Nat} {gate : GateLife} {answer : String}
      (hgate : c.gates[g]? = some gate) :
      LifeStep (.answer g) c (c.answer g answer)
  | shift {c : Life} {covId : Nat} {action : Action} {state : CoverageState} {sm : Transition}
      (hstate : c.coverages[covId]? = some state) (hshift : action.shifts = true)
      (hentry : entries (some state) action = some sm) :
      LifeStep (.shift covId action) c (c.setCoverage covId sm.toState)

end AiFund
