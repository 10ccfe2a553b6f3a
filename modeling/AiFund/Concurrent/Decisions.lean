import AiFund.Concurrent.Requests
import AiFund.Safety

/-!
# Decisions on one coverage

Any number of decide requests for one coverage, and what the one that wins leaves.
-/

namespace AiFund

open ReadCommitted

/-- The tables that show a decision. -/
structure Desk where
  coverages : List Coverage
  gates : List PmGate
  runs : List Run

def Db.desk (db : Db) : Desk := ⟨db.coverages, db.gates, db.runs⟩

namespace Concurrent

structure Decision where
  covId : Nat
  gateId : Nat
  runId : Nat
  state : CoverageState
  answer : String
  actorId : String
  now : Time

namespace Decision

variable (d : Decision)

def apply (desk : Desk) : Desk where
  coverages := desk.coverages.modify d.covId fun cov => { cov with state := d.state }
  gates := desk.gates.modify d.gateId fun gate =>
    { gate with
      state := .answered
      answer := some d.answer
      answeredBy := some d.actorId
      answeredAt := some d.now }
  runs := desk.runs.modify d.runId fun run =>
    { run with status := .succeeded, finishedAt := some d.now }

/-- The decision is the one that the request asks for, on an open gate of `db` whose run is live. -/
structure Of (app : App) (slug : String) (db : Db) (asked : Asked DecideCall) : Prop where
  slug : (db.coverages.findIdx? fun cov => cov.dossierSlug = slug) = some d.covId
  action : ∃ action sm, decisionAction asked.call.decision = some action ∧
    entries (some .decisionPending) action = some sm ∧ sm.toState = d.state ∧
    decisionAnswer action = some d.answer
  actor : requirePm asked.env app asked.request = .ok d.actorId
  now : asked.env.now = d.now
  gate : ∃ gate, db.gates[d.gateId]? = some gate ∧ gate.coverageId = some d.covId ∧
    gate.runId = d.runId ∧ gate.state = .opened ∧ d.answer ∈ gate.allowedAnswers
  run : ∃ run, db.runs[d.runId]? = some run ∧ run.status.live = true

/-- The coverage, the gate and the run are as the decision leaves them. -/
structure Shows (s : Db) : Prop where
  coverage : ∃ cov, s.coverages[d.covId]? = some cov ∧ cov.state = d.state
  gate : ∃ gate, s.gates[d.gateId]? = some gate ∧ gate.state = .answered ∧
    gate.answer = some d.answer ∧ gate.answeredBy = some d.actorId
  run : ∃ run, s.runs[d.runId]? = some run ∧ run.status = .succeeded

end Decision

def deciders (app : App) (slug : String) (db : Db) (calls : List (Asked DecideCall)) :
    RequestWorld :=
  .start db (calls.map fun asked => asked.decide app slug)

/-- Transaction `i` has committed with the response of its route. -/
def Performed (w : RequestWorld) (i : Nat) : Prop := ∃ body, w.result i = some (.performed body)

/-- At most one request has decided, and the coverage, the gate and the run are as it has left them;
if none has, they are as they were. -/
structure OneDecides (app : App) (slug : String) (db : Db) (calls : List (Asked DecideCall))
    (w : RequestWorld) : Prop where
  unique : ∀ i j, Performed w i → Performed w j → i = j
  decided : ∀ (i : Nat) (asked : Asked DecideCall), calls[i]? = some asked → Performed w i →
    ∃ d : Decision, d.Of app slug db asked ∧ w.store.desk = d.apply db.desk ∧ d.Shows w.store
  undecided : (∀ i, ¬ Performed w i) → w.store.desk = db.desk

end Concurrent

end AiFund
