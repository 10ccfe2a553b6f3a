import AiFund.Db.Schema

/-!
# Outbox repository

Events are published once for each dedupe key. Workers consume them under a lease, and acknowledge
them or hand them back.
-/

namespace AiFund

open UnitOfWork Rows

def Db.updateEvent (db : Db) (id : Nat) (f : OutboxEvent → OutboxEvent) : Db :=
  { db with outbox := db.outbox.modify id f }

def publish (env : Env) (kind : String) (payload : JsonObject) (coverageId runId : Option Nat)
    (dedupeKey : String) : DbTxn Unit := do
  let existing ← select fun db => db.outbox.find? fun event => event.dedupeKey = .named dedupeKey
  if existing.isSome then pure ()
  else do
    assign fun db => { db with outbox := db.outbox ++
      [{ kind, coverageId, runId, payload, dedupeKey := .named dedupeKey,
         availableAt := env.now }] }
    flush

/-- The conditions of the consume query. -/
def OutboxEvent.deliverable (event : OutboxEvent) (now : Time) : Bool :=
  event.deliveredAt.isNone && event.availableAt ≤ now &&
    event.leaseExpiresAt.all fun lease => lease < now

/-- `ORDER BY available_at`. -/
def availableBefore (db : Db) (a b : Nat) : Bool :=
  (db.outbox[a]?.map (·.availableAt)).getD 0 ≤ (db.outbox[b]?.map (·.availableAt)).getD 0

/-- The rows that the consume query returns; it skips those that other transactions have locked. -/
def consumable (env : Env) (locked : List Nat) (limit : Nat) (db : Db) : List Nat :=
  ((((env.rows .pendingEvents).all (·.deliverable env.now) db.outbox).filter fun id =>
    id ∉ locked).insertionSort fun a b => availableBefore db a b).take limit

def OutboxEvent.consumedBy (event : OutboxEvent) (workerId : String) (leaseExpiresAt : Time) :
    OutboxEvent :=
  { event with
    claimedBy := some workerId
    leaseExpiresAt := some leaseExpiresAt
    attempts := event.attempts + 1 }

def consume (env : Env) (locked : List Nat) (workerId : String) (limit : Int) (leaseSeconds : ℚ) :
    DbTxn (List Nat) := do
  if limit < 0 then raise .dataError
  else do
    let rows ← select (consumable env locked limit.toNat)
    rows.forM fun id => assign fun db => db.updateEvent id fun event =>
      event.consumedBy workerId (env.now + leaseSeconds)
    flush
    return rows

def OutboxEvent.acked (event : OutboxEvent) (now : Time) : OutboxEvent :=
  { event with deliveredAt := some now, claimedBy := none, leaseExpiresAt := none }

def ack (env : Env) (eventId : Nat) : DbTxn Unit := do
  let _ ← getRow Db.outbox eventId
  assign fun db => db.updateEvent eventId fun event => event.acked env.now
  flush

def OutboxEvent.nacked (event : OutboxEvent) (error : String) (availableAt : Time) : OutboxEvent :=
  { event with
    lastError := some error
    availableAt
    claimedBy := none
    leaseExpiresAt := none }

def nack (env : Env) (eventId : Nat) (error : String) (backoffSeconds : ℚ) : DbTxn Unit := do
  let _ ← getRow Db.outbox eventId
  assign fun db => db.updateEvent eventId fun event =>
    event.nacked error (env.now + backoffSeconds)
  flush

end AiFund
