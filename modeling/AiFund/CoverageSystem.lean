import AiFund.Ledger

/-!
# The coverage repository on its own

Histories of proposals, transitions and changes of the lead, each in a transaction of its own, and
what they write beside the states of the coverages.
-/

namespace AiFund

open UnitOfWork

inductive CoverageCall where
  | propose (ticker exchange name currency actorId : String) (notes isin requestId : Option String)
  | transition (covId : Nat) (action : Action) (actorType : ActorType) (actorId : String)
      (runId : Option Nat) (force : Bool) (notes requestId : Option String)
  | setLead (covId : Nat) (house actorId : String) (runId : Option Nat) (rationale : Option String)

/-- A call, and what has become of the tables that it is about no row of when it starts. -/
structure CoverageOp where
  env : Env
  meanwhile : Db → Db := fun db => db
  call : CoverageCall

namespace CoverageOp

def perform (op : CoverageOp) : DbTxn Unit :=
  match op.call with
  | .propose ticker exchange name currency actorId notes isin requestId => do
      let _ ← AiFund.propose op.env ticker exchange name currency actorId notes isin requestId
  | .transition covId action actorType actorId runId force notes requestId =>
      transitionCoverage op.env covId action actorType actorId runId force notes requestId
  | .setLead covId house actorId runId rationale =>
      AiFund.setLead op.env covId house actorId runId rationale

/-- The database in which the operation starts. -/
def surround (op : CoverageOp) (db : Db) : Db :=
  { op.meanwhile db with
    coverages := db.coverages, transitions := db.transitions, auditLog := db.auditLog,
    outbox := db.outbox }

def exec (db : Db) (op : CoverageOp) : Outcome Db PyError Unit :=
  commit op.perform (op.surround db)

def step (db : Db) (op : CoverageOp) : Db := (op.exec db).after

end CoverageOp

def runCoverages (db : Db) (ops : List CoverageOp) : Db := History.run CoverageOp.step db ops

/-- The rows of each coverage tell how it came to its state, and each row is audited and told of
once. -/
structure AuditChain (db : Db) : Prop where
  starts : ∀ covId < db.coverages.length,
    (db.ledger.rowsOf covId).head?.map (fun row => (row.fromState, row.toState)) =
      some (none, .proposed)
  chained : ∀ covId < db.coverages.length,
    (db.ledger.rowsOf covId).IsChain fun row next => next.fromState = some row.toState
  arrives : ∀ (covId : Nat) (cov : Coverage), db.coverages[covId]? = some cov →
    (db.ledger.rowsOf covId).getLast?.map (·.toState) = some cov.state
  edges : ∀ row ∈ db.transitions, row.Edge
  audits : db.auditLog.length = db.transitions.length
  changes : db.stateChanges.length = db.transitions.length
  recorded : ∀ (i : Nat) (row : CoverageTransition), db.transitions[i]? = some row →
    ∃ audit event, db.auditLog[i]? = some audit ∧ db.stateChanges[i]? = some event ∧
      Recorded row audit event

/-- What one operation writes: all of a transition, its audit row and its event, or none of them.
It refuses a transition before it touches its session. -/
structure CoverageOp.WritesTogether (db : Db) (op : CoverageOp) : Prop where
  rows : ((op.step db).transitions = db.transitions ∧ (op.step db).auditLog = db.auditLog ∧
      (op.step db).stateChanges = db.stateChanges) ∨
    ∃ row audit event, (op.step db).transitions = db.transitions ++ [row] ∧
      (op.step db).auditLog = db.auditLog ++ [audit] ∧
      (op.step db).stateChanges = db.stateChanges ++ [event] ∧ Recorded row audit event
  refused : ∀ (s s' : Session Db) (illegal : IllegalTransition),
    op.perform.run s = .error (.illegalTransition illegal) s' → s' = s

end AiFund
