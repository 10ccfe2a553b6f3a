import AiFund.Db.Schema
import AiFund.Library.ReadCommitted

/-!
# Statements

The statements that the session sends to the database, one by one, and the rows that they change.
An UPDATE goes by primary key and sets the columns whose values differ from the loaded ones.
-/

namespace AiFund

open ReadCommitted Rows

inductive RowKey where
  | coverage (id : Nat)
  | run (id : Nat)
  | stage (id : Nat)
  | attempt (id : Nat)
  | gate (id : Nat)
  | lock (coverageId : Nat)
  | idempotencyKey (key : String)
  deriving DecidableEq

/-- The row is still there as it was; a lock or an idempotency key that is not there stays out. -/
def RowKey.Keeps : RowKey → Db → Db → Prop
  | .coverage id, a, b => ∀ row, a.coverages[id]? = some row → b.coverages[id]? = some row
  | .run id, a, b => ∀ row, a.runs[id]? = some row → b.runs[id]? = some row
  | .stage id, a, b => ∀ row, a.stages[id]? = some row → b.stages[id]? = some row
  | .attempt id, a, b => ∀ row, a.attempts[id]? = some row → b.attempts[id]? = some row
  | .gate id, a, b => ∀ row, a.gates[id]? = some row → b.gates[id]? = some row
  | .lock covId, a, b =>
      (b.locks.filter fun lock => lock.coverageId = covId) =
        a.locks.filter fun lock => lock.coverageId = covId
  | .idempotencyKey key, a, b =>
      (b.idempotencyKeys.find? fun row => row.key = key) =
        a.idempotencyKeys.find? fun row => row.key = key

instance : RowStore Db RowKey where
  Keeps := RowKey.Keeps
  refl k db := by
    cases k with
    | lock covId => rfl
    | idempotencyKey key => rfl
    | _ => exact fun _ h => h
  trans k a b c hab hbc := by
    cases k with
    | lock covId => exact Eq.trans hbc hab
    | idempotencyKey key => exact Eq.trans hbc hab
    | _ => exact fun row h => hbc row (hab row h)

/-- The tables whose rows have keys to contend for. -/
def Db.keyed (db : Db) :=
  (db.coverages, db.runs, db.stages, db.attempts, db.gates, db.locks, db.idempotencyKeys)

theorem RowKey.Keeps.of_untouched {k : RowKey} {a b : Db} (h : b.keyed = a.keyed) :
    k.Keeps a b := by
  simp only [Db.keyed, Prod.mk.injEq] at h
  obtain ⟨hcoverages, hruns, hstages, hattempts, hgates, hlocks, hkeys⟩ := h
  cases k <;> simp [RowKey.Keeps, *]

abbrev DbScript := Script Db RowKey

abbrev DbWrite := Write Db RowKey

/-- The value that an UPDATE leaves in a column: it sets the column only if the new value differs
from the loaded one. -/
def put {α : Type} [DecidableEq α] (loaded new current : α) : α :=
  if new = loaded then current else new

@[simp] theorem put_self {α : Type} [DecidableEq α] (loaded new : α) :
    put loaded new loaded = new := by
  unfold put
  split_ifs with h
  · exact h.symm
  · rfl

theorem put_of_ne {α : Type} [DecidableEq α] {loaded new : α} (h : new ≠ loaded) (current : α) :
    put loaded new current = new :=
  if_neg h

namespace DbWrite

/-! ## Updates by primary key -/

theorem keeps_of_ne {ρ : Type} {rows : List ρ} {id k : Nat} {f : ρ → ρ} (h : k ≠ id) :
    ∀ row, rows[k]? = some row → (rows.modify id f)[k]? = some row :=
  fun _ hrow => (getElem?_modify_of_ne h).trans hrow

def setCoverage (id : Nat) (f : Coverage → Coverage) : DbWrite where
  takes := [.coverage id]
  apply := fun db => db.updateCoverage id f
  frame k hk db := by
    cases k with
    | coverage k => exact keeps_of_ne fun h => hk (by simp [h])
    | lock covId => rfl
    | idempotencyKey key => rfl
    | _ => exact fun _ h => h

def setRun (id : Nat) (f : Run → Run) : DbWrite where
  takes := [.run id]
  apply := fun db => db.updateRun id f
  frame k hk db := by
    cases k with
    | run k => exact keeps_of_ne fun h => hk (by simp [h])
    | lock covId => rfl
    | idempotencyKey key => rfl
    | _ => exact fun _ h => h

def setStage (id : Nat) (f : RunStage → RunStage) : DbWrite where
  takes := [.stage id]
  apply := fun db => db.updateStage id f
  frame k hk db := by
    cases k with
    | stage k => exact keeps_of_ne fun h => hk (by simp [h])
    | lock covId => rfl
    | idempotencyKey key => rfl
    | _ => exact fun _ h => h

def setAttempt (id : Nat) (f : StageAttempt → StageAttempt) : DbWrite where
  takes := [.attempt id]
  apply := fun db => db.updateAttempt id f
  frame k hk db := by
    cases k with
    | attempt k => exact keeps_of_ne fun h => hk (by simp [h])
    | lock covId => rfl
    | idempotencyKey key => rfl
    | _ => exact fun _ h => h

def setGate (id : Nat) (f : PmGate → PmGate) : DbWrite where
  takes := [.gate id]
  apply := fun db => db.updateGate id f
  frame k hk db := by
    cases k with
    | gate k => exact keeps_of_ne fun h => hk (by simp [h])
    | lock covId => rfl
    | idempotencyKey key => rfl
    | _ => exact fun _ h => h

/-! ## Inserts -/

/-- An insert into a table whose rows nothing else contends for. -/
def append (f : Db → Db) (h : ∀ (k : RowKey) (db : Db), k.Keeps db (f db)) : DbWrite where
  takes := []
  apply := f
  frame k _ db := h k db

def addAudit (row : AuditLog) : DbWrite :=
  .append (fun db => { db with auditLog := db.auditLog ++ [row] }) fun _ _ =>
    .of_untouched rfl

def addTransition (row : CoverageTransition) : DbWrite :=
  .append (fun db => { db with transitions := db.transitions ++ [row] }) fun _ _ =>
    .of_untouched rfl

def addLeadHistory (row : CoverageLeadHistory) : DbWrite :=
  .append (fun db => { db with leadHistory := db.leadHistory ++ [row] }) fun _ _ =>
    .of_untouched rfl

/-- The dedupe key of an outbox row is made unique as the row is stored. -/
def addOutbox (row : Nat → OutboxEvent) : DbWrite :=
  .append (fun db => { db with outbox := db.outbox ++ [row db.outbox.length] }) fun _ _ =>
    .of_untouched rfl

def addGate (row : PmGate) : DbWrite :=
  .append (fun db => { db with gates := db.gates ++ [row] }) fun k _ => by
    cases k with
    | gate id => exact fun _ h => getElem?_append_of_some h
    | lock covId => rfl
    | idempotencyKey key => rfl
    | _ => exact fun _ h => h

/-- An insert waits for an uncommitted insert of the same key. -/
def addIdempotencyKey (row : IdempotencyKey) : DbWrite where
  takes := [.idempotencyKey row.key]
  apply := fun db => { db with idempotencyKeys := db.idempotencyKeys ++ [row] }
  frame k hk db := by
    cases k with
    | idempotencyKey key =>
        have hne : row.key ≠ key := fun h => hk (by simp [h])
        simp [RowStore.Keeps, RowKey.Keeps, hne]
    | lock covId => rfl
    | _ => exact fun _ h => h

/-! ## Locks -/

def addLock (coverageId runId : Nat) (acquiredAt : Time) : DbWrite where
  takes := [.lock coverageId]
  apply := fun db => { db with locks := db.locks ++ [⟨coverageId, runId, acquiredAt⟩] }
  frame k hk db := by
    cases k with
    | lock covId =>
        have hne : coverageId ≠ covId := fun h => hk (by simp [h])
        simp [RowStore.Keeps, RowKey.Keeps, hne]
    | idempotencyKey key => rfl
    | _ => exact fun _ h => h

/-- An insert that found its row: it has waited for that row and changes nothing. -/
def skipLock (coverageId : Nat) : DbWrite where
  waits := [.lock coverageId]
  takes := []
  apply := id
  frame k _ db := RowStore.refl k db

/-- Delete the locks of a run on the coverages given, which are those that the statement found. -/
def dropLocks (runId : Nat) (coverageIds : List Nat) : DbWrite where
  takes := coverageIds.map .lock
  apply := fun db =>
    { db with
      locks := db.locks.filter fun lock =>
        ¬ (lock.runId = runId ∧ lock.coverageId ∈ coverageIds) }
  frame k hk db := by
    cases k with
    | lock covId =>
        have hmem : covId ∉ coverageIds := fun h => hk (List.mem_map_of_mem h)
        simp only [RowStore.Keeps, RowKey.Keeps, List.filter_filter]
        refine List.filter_congr fun lock _ => ?_
        by_cases hlock : lock.coverageId = covId
        · simp [hlock, hmem]
        · simp [hlock]
    | idempotencyKey key => rfl
    | _ => exact fun _ h => h

end DbWrite

namespace Concurrent

/-- `session.get` of a row, followed by an attribute access that raises on `None`. -/
def getRow {ρ : Type} (table : Db → List ρ) (id : Nat) : DbScript ρ := do
  match ← Script.select fun db => (table db)[id]? with
  | some row => return row
  | none => Script.raise

def send (w : DbWrite) : DbScript Unit := Script.write fun _ => some w

/-- An UPDATE of a row none of whose columns has changed is not sent. -/
def sendUnless (unchanged : Prop) [Decidable unchanged] (w : DbWrite) : DbScript Unit :=
  if unchanged then pure () else send w

/-- A write that the constraints refuse where `legal` fails. -/
def sendChecked (legal : Db → Bool) (w : DbWrite) : DbScript Unit :=
  Script.write fun db => if legal db then some w else none

def ofExcept {ε α : Type} : Except ε α → DbScript α
  | .ok a => return a
  | .error _ => Script.raise

end Concurrent

end AiFund
