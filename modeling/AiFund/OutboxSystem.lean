import AiFund.Db.Outbox
import AiFund.Library.History

/-!
# The outbox on its own

Histories of publications and of the workers' calls, each in a transaction of its own, and what they
promise of the events.
-/

namespace AiFund

open UnitOfWork

inductive OutboxCall where
  | publish (kind : String) (payload : JsonObject) (coverageId runId : Option Nat)
      (dedupeKey : String)
  | consume (locked : List Nat) (limit : Int) (leaseSeconds : ℚ)
  | ack (eventId : Nat)
  | nack (eventId : Nat) (error : String) (backoffSeconds : ℚ)

/-- The event that the call acknowledges or hands back. -/
def OutboxCall.settles : OutboxCall → Option Nat
  | .ack eventId | .nack eventId .. => some eventId
  | _ => none

def OutboxCall.nacks : OutboxCall → Option Nat
  | .nack eventId .. => some eventId
  | _ => none

/-- A call and who makes it. -/
structure OutboxOp where
  env : Env
  workerId : String
  call : OutboxCall

namespace OutboxOp

/-- Returns the events that are handed out. -/
def perform (op : OutboxOp) : DbTxn (List Nat) :=
  match op.call with
  | .publish kind payload coverageId runId dedupeKey => do
      AiFund.publish op.env kind payload coverageId runId dedupeKey
      return []
  | .consume locked limit leaseSeconds =>
      AiFund.consume op.env locked op.workerId limit leaseSeconds
  | .ack eventId => do
      AiFund.ack op.env eventId
      return []
  | .nack eventId error backoffSeconds => do
      AiFund.nack op.env eventId error backoffSeconds
      return []

def exec (db : Db) (op : OutboxOp) : Outcome Db PyError (List Nat) := commit op.perform db

def step (db : Db) (op : OutboxOp) : Db := (op.exec db).after

def handsOut (db : Db) (op : OutboxOp) : List Nat :=
  match (op.exec db).result with
  | .ok ids => ids
  | .error _ => []

/-- The end of the lease under which a call hands out events. -/
def leaseEnd (op : OutboxOp) : Time :=
  match op.call with
  | .consume _ _ leaseSeconds => op.env.now + leaseSeconds
  | _ => op.env.now

/-- The key, kind and payload of a publication that returns. -/
def publishes (db : Db) (op : OutboxOp) : Option (String × String × JsonObject) :=
  match op.call, (op.exec db).result with
  | .publish kind payload _ _ dedupeKey, .ok _ => some (dedupeKey, kind, payload)
  | _, _ => none

/-- The event that an acknowledgement that returns concerns. -/
def acks (db : Db) (op : OutboxOp) : Option Nat :=
  match op.call, (op.exec db).result with
  | .ack eventId, .ok _ => some eventId
  | _, _ => none

end OutboxOp

def runOutbox (db : Db) (ops : List OutboxOp) : Db := History.run OutboxOp.step db ops

def publications (db : Db) (ops : List OutboxOp) : List (String × String × JsonObject) :=
  History.trace OutboxOp.step (fun db op => (op.publishes db).toList) db ops

def acknowledged (db : Db) (ops : List OutboxOp) : List Nat :=
  History.trace OutboxOp.step (fun db op => (op.acks db).toList) db ops

def handovers (db : Db) (ops : List OutboxOp) : List (List Nat) :=
  History.trace OutboxOp.step (fun db op => [op.handsOut db]) db ops

/-- The number of calls that have handed out an event. -/
def deliveries (eventId : Nat) (db : Db) (ops : List OutboxOp) : Nat :=
  (handovers db ops).countP fun handed => eventId ∈ handed

/-- A row that the system has added and no worker has seen. -/
structure OutboxEvent.Unseen (event : OutboxEvent) : Prop where
  unnamed : ∀ key, event.dedupeKey ≠ .named key
  undelivered : event.deliveredAt = none
  attempts : event.attempts = 0

/-- What a history of publications, consumptions, acknowledgements and returns keeps. -/
structure KeepsEvents (db : Db) (ops : List OutboxOp) : Prop where
  /-- A published key has one row, with the kind and payload of its first publication. -/
  published : ∀ key kind payload,
    (publications db ops).find? (fun publication => publication.1 = key) =
        some (key, kind, payload) →
      ∃ row, (runOutbox db ops).outbox.filter (fun event => event.dedupeKey = .named key) = [row] ∧
        row.kind = kind ∧ row.payload = payload
  /-- Whatever comes next hands out undelivered, available events whose lease is over. -/
  sound : ∀ (op : OutboxOp) (id : Nat), id ∈ op.handsOut (runOutbox db ops) →
    ∃ row, (runOutbox db ops).outbox[id]? = some row ∧ row.deliveredAt = none ∧
      row.availableAt ≤ op.env.now ∧ ∀ lease, row.leaseExpiresAt = some lease → lease < op.env.now
  acked : ∀ (op : OutboxOp) (id : Nat), id ∈ acknowledged db ops →
    id ∉ op.handsOut (runOutbox db ops)
  /-- An event that has not been acknowledged goes to the next worker that asks for all there is,
  once it is available and its lease is over. -/
  eligible : ∀ (op : OutboxOp) (id : Nat) (row : OutboxEvent) (locked : List Nat) (limit : Int)
    (leaseSeconds : ℚ), (runOutbox db ops).outbox[id]? = some row → id ∉ acknowledged db ops →
    op.call = .consume locked limit leaseSeconds → id ∉ locked →
    (runOutbox db ops).outbox.length ≤ limit → row.availableAt ≤ op.env.now →
    (∀ lease, row.leaseExpiresAt = some lease → lease < op.env.now) →
    id ∈ op.handsOut (runOutbox db ops)
  attempts : ∀ (id : Nat) (row : OutboxEvent), (runOutbox db ops).outbox[id]? = some row →
    row.attempts = deliveries id db ops

/-! ## Leases -/

def Clocked (ops : List OutboxOp) : Prop := ops.Pairwise fun a b => a.env.now ≤ b.env.now

/-- Workers acknowledge and hand back only events that they have been handed; `handed` names the
workers and events of the handovers so far. -/
def entitled : Db → List (String × Nat) → List OutboxOp → Bool
  | _, _, [] => true
  | db, handed, op :: ops =>
      op.call.settles.all (fun id => (op.workerId, id) ∈ handed) &&
        entitled (op.step db) (handed ++ (op.handsOut db).map fun id => (op.workerId, id)) ops

/-- No event is handed out before the end of the lease under which it was handed out before, unless
its holder has handed it back. -/
def ExclusiveLeases (db : Db) (ops : List OutboxOp) : Prop :=
  ∀ (before between after : List OutboxOp) (op op' : OutboxOp) (id : Nat),
    ops = before ++ op :: (between ++ op' :: after) →
    id ∈ op.handsOut (runOutbox db before) →
    id ∈ op'.handsOut (runOutbox db (before ++ op :: between)) →
    op.leaseEnd ≤ op'.env.now ∨
      ∃ back ∈ between, back.workerId = op.workerId ∧ back.call.nacks = some id

/-- The call does not hand back an undelivered event whose lease is another worker's and still
runs. -/
def OutboxOp.SparesLeases (db : Db) (op : OutboxOp) : Prop :=
  ∀ (id : Nat) (row : OutboxEvent) (lease : Time), op.call.nacks = some id →
    db.outbox[id]? = some row → row.deliveredAt = none → row.leaseExpiresAt = some lease →
    op.env.now < lease → row.claimedBy = some op.workerId

end AiFund
