import AiFund.Concurrent.Decisions
import AiFund.Library.Outline

/-!
# Requests that share an idempotency key

Any number of mutating requests of any routes. Of a route's handler nothing is assumed but that its
statements leave the table of idempotency keys alone.
-/

namespace AiFund.Concurrent

open ReadCommitted

def KeepsKeys (w : DbWrite) : Prop := ∀ db, (w.apply db).idempotencyKeys = db.idempotencyKeys

/-- No statement of the handler, nor of the rows that it leaves to be flushed, writes a key. -/
def HandlesAside : DbScript Handling → Prop
  | .done handling => handling.flush.Writes KeepsKeys
  | .fail => True
  | .query next => ∀ s, HandlesAside (next s)
  | .exec statement next => (∀ s w, statement s = some w → KeepsKeys w) ∧ HandlesAside next

/-- A mutating request as it arrives, with its route's name, status code and handler. -/
structure Posted where
  env : Env
  request : Request
  route : String
  statusCode : Nat
  handler : String → DbScript Handling

namespace Posted

variable (p : Posted)

def key : String := p.request.idempotencyKey.getD ""

def bodyHash : String := p.env.runtime.sha256 p.request.rawBody

def script (app : App) : DbScript Reply :=
  mutation p.env app p.request p.route p.statusCode p.handler

/-- What is left of the request once it has found its key unused. -/
def performs (pm : String) : DbScript Reply := do
  let handling ← p.handler pm
  send (.addAudit
    { action := p.route, actorType := .pm, actorId := pm, target := some handling.target,
      afterState := handling.after, requestId := some p.request.requestId })
  handling.flush
  storeKey p.env ⟨p.key, p.bodyHash, none⟩ handling.response p.statusCode p.route pm
  return .performed handling.response

end Posted

/-- The requests, none of which has begun. -/
def posts (app : App) (db : Db) (requests : List Posted) : RequestWorld :=
  .start db (requests.map fun p => p.script app)

/-- The request has arrived from a PM and has not begun. -/
def Awaits (app : App) (requests : List Posted) (w : RequestWorld) (j : Nat) (q : Posted)
    (pm : String) : Prop :=
  requests[j]? = some q ∧ requirePm q.env app q.request = .ok pm ∧
    w.parties[j]? = some (.active (q.script app) .start)

/-- The effects of one request at most for each key, and what becomes of the others. -/
structure OncePerKey (app : App) (db : Db) (requests : List Posted) (w : RequestWorld) : Prop where
  once : ∀ (i j : Nat) (p q : Posted), requests[i]? = some p → requests[j]? = some q →
    p.key = q.key → Performed w i → Performed w j → i = j
  /-- Only the commit of a request that is performed changes the database. -/
  writes : ∀ i, (w.step i).store ≠ w.store → ¬ Performed w i ∧ Performed (w.step i) i
  stored : ∀ (i : Nat) (p : Posted) (body : JsonObject), requests[i]? = some p →
    w.result i = some (.performed body) → ∃ row ∈ w.store.idempotencyKeys,
      row.key = p.key ∧ row.response.body = body ∧ row.response.bodyHash = p.bodyHash
  /-- A later request with the same body returns the stored body and writes nothing. -/
  replays : ∀ (i j : Nat) (p q : Posted) (body : JsonObject) (pm : String),
    requests[i]? = some p → w.result i = some (.performed body) → Awaits app requests w j q pm →
    q.key = p.key → q.bodyHash = p.bodyHash → ∀ later : List Nat,
      ((w.run later).step j).store = (w.run later).store ∧
      (w.run later).parties[j]? ≠ some .rolledBack ∧
      (∀ reply, (w.run later).result j = some reply → reply = .replayed body) ∧
      (2 ≤ later.count j → (w.run later).result j = some (.replayed body))
  /-- A key under which no request has been performed is not stored, and the next request that uses
  it gets to its handler. -/
  reusable : ∀ key : String, key ≠ "" → (∀ row ∈ db.idempotencyKeys, row.key ≠ key) →
    (∀ (i : Nat) (p : Posted), requests[i]? = some p → p.key = key → ¬ Performed w i) →
    (∀ row ∈ w.store.idempotencyKeys, row.key ≠ key) ∧
    ∀ (j : Nat) (q : Posted) (pm : String), Awaits app requests w j q pm → q.key = key →
      (w.step j).parties[j]? = some (.active (q.performs pm) (Local.start.saw w.store))

end AiFund.Concurrent
