import AiFund.Library.Walks
import AiFund.System

/-!
# The ledger

What the tables say of the states of the coverages: the state that each is in, and the rows that
record how it came there.
-/

namespace AiFund

structure Ledger where
  /-- The slug and the state of each coverage. -/
  coverages : List (String × CoverageState)
  transitions : List CoverageTransition

def Db.ledger (db : Db) : Ledger :=
  ⟨db.coverages.map fun cov => (cov.dossierSlug, cov.state), db.transitions⟩

namespace Ledger

variable (ledger : Ledger) (covId : Nat)

def state : Option CoverageState := ledger.coverages[covId]?.map (·.2)

def rowsOf : List CoverageTransition :=
  ledger.transitions.filter fun row => row.coverageId = covId

/-- The rows of the coverage, in the order of their creation, lead to the state it is in. -/
def Traced : Prop :=
  ∃ state, ledger.state covId = some state ∧
    Walks.Reaches (·.fromState) (·.toState) (ledger.rowsOf covId) state

/-- The rows of the coverage can be put in an order in which each starts from the state where the
one before it arrives, and the last one arrives in the state that the coverage is in. -/
def Orderly : Prop :=
  ∃ state, ledger.state covId = some state ∧
    Walks.Orderable (·.fromState) (·.toState) (ledger.rowsOf covId) state

/-- Every coverage is traced, and every row is that of a coverage. -/
structure Kept : Prop where
  owned : ∀ row ∈ ledger.transitions, row.coverageId < ledger.coverages.length
  traced : ∀ covId < ledger.coverages.length, ledger.Traced covId

end Ledger

/-- The events that tell of a transition. -/
def Db.stateChanges (db : Db) : List OutboxEvent :=
  db.outbox.filter fun event => event.kind = "coverage.state_changed"

/-- The audit row and the event tell of the transition, under one request id. -/
structure Recorded (row : CoverageTransition) (audit : AuditLog) (event : OutboxEvent) : Prop where
  target : audit.target = some ("coverage:" ++ toString row.coverageId)
  coverage : event.coverageId = some row.coverageId
  audited : audit.afterState = .obj [("state", .str row.toState.value)]
  told : event.payload.get "to_state" = .str row.toState.value
  request : ∃ requestId, audit.requestId = some requestId ∧
    event.payload.get "request_id" = .str requestId

/-- The ledger with what is audited and told of it. -/
structure Journal where
  ledger : Ledger
  audits : List AuditLog
  changes : List OutboxEvent

def Db.journal (db : Db) : Journal := ⟨db.ledger, db.auditLog, db.stateChanges⟩

/-- The step is from one state to another of the transition table. -/
def CoverageTransition.Edge (row : CoverageTransition) : Prop :=
  ∃ action entry, entries row.fromState action = some entry ∧ entry.toState = row.toState

/-- What the journal says after a proposal, or after a transition of a coverage. -/
inductive Journal.Next (journal : Journal) : Journal → Prop
  | propose {slug : String} {row : CoverageTransition} {audit : AuditLog} {event : OutboxEvent}
      (hcov : row.coverageId = journal.ledger.coverages.length) (hfrom : row.fromState = none)
      (hto : row.toState = .proposed) (hedge : row.Edge) (hrecorded : Recorded row audit event) :
      Next journal
        ⟨⟨journal.ledger.coverages ++ [(slug, .proposed)], journal.ledger.transitions ++ [row]⟩,
          journal.audits ++ [audit], journal.changes ++ [event]⟩
  | move {covId : Nat} {state : CoverageState} {row : CoverageTransition} {audit : AuditLog}
      {event : OutboxEvent} (hstate : journal.ledger.state covId = some state)
      (hcov : row.coverageId = covId) (hfrom : row.fromState = some state) (hedge : row.Edge)
      (hrecorded : Recorded row audit event) :
      Next journal
        ⟨⟨journal.ledger.coverages.modify covId fun cov => (cov.1, row.toState),
            journal.ledger.transitions ++ [row]⟩,
          journal.audits ++ [audit], journal.changes ++ [event]⟩

end AiFund
