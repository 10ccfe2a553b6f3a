import AiFund.Concurrent.Requests
import AiFund.Ledger

/-!
# Moves of one coverage

Any number of requests that promote, demote, exit or re-propose one coverage or change its lead,
and when none of them acts on a state that the coverage has left.
-/

namespace AiFund.Concurrent

open ReadCommitted

def movers (app : App) (slug : String) (db : Db) (calls : List (Asked CoverageCall)) :
    RequestWorld :=
  .start db (calls.map fun asked => asked.script app slug)

/-- The state in which a request has read its coverage: its first query is that of the key, its
second that of the coverage. -/
def stateRead (slug : String) (l : Local Db RowKey) : Option CoverageState := do
  let seen ← l.seen[1]?
  let cov ← seen.coverages.find? fun cov => cov.dossierSlug = slug
  return cov.state

/-- Request `i` changes the state of the coverage, and its commit comes next. -/
def Shifts (calls : List (Asked CoverageCall)) (w : RequestWorld) (i : Nat) : Prop :=
  ∃ (asked : Asked CoverageCall) (body : JsonObject) (l : Local Db RowKey),
    calls[i]? = some asked ∧ asked.call.action.isSome ∧
      w.parties[i]? = some (.active (.done (.performed body)) l)

/-- Request `j`, which is still at work, has read the coverage in a state that its action leads on
from. -/
def HasRead (slug : String) (calls : List (Asked CoverageCall)) (w : RequestWorld) (j : Nat) :
    Prop :=
  ∃ (asked : Asked CoverageCall) (action : Action) (script : DbScript Reply)
    (l : Local Db RowKey) (state : CoverageState),
    calls[j]? = some asked ∧ asked.call.action = some action ∧
      w.parties[j]? = some (.active script l) ∧ stateRead slug l = some state ∧
      (entries (some state) action).isSome

/-- If the next step changes the state of the coverage, no other request is about to change it from
the state that it had. -/
def SparesReaders (slug : String) (calls : List (Asked CoverageCall)) (w : RequestWorld) (i : Nat) :
    Prop :=
  Shifts calls w i → ∀ j, j ≠ i → ¬ HasRead slug calls w j

end AiFund.Concurrent
