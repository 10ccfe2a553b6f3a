import AiFund.Db.CoverageRepo
import AiFund.Library.History

/-!
# Coverage levels

Histories of calls that set levels, each followed by a commit, and what they promise: one active
level for each kind, the last one given, and a history that is kept.
-/

namespace AiFund

open UnitOfWork

structure LevelsCall where
  env : Env
  covId : Nat
  levels : List LevelIn
  setBy : String
  runId : Option Nat := none

namespace LevelsCall

def exec (db : Db) (call : LevelsCall) : Outcome Db PyError Unit :=
  commit (setLevels call.env call.covId call.levels call.setBy call.runId) db

def step (db : Db) (call : LevelsCall) : Db := (call.exec db).after

/-- The row that a level of the call adds. -/
def newLevel (call : LevelsCall) (level : LevelIn) : CoverageLevel :=
  { coverageId := call.covId, kind := level.kind, value := Numeric.price.stored level.value,
    currency := level.currency, direction := level.direction, setBy := call.setBy,
    setByRunId := call.runId }

/-- The levels of one kind, in the order in which the call gives them. -/
def ofKind (kind : String) (call : LevelsCall) : List LevelIn :=
  call.levels.filter (·.kind = kind)

def sets (covId : Nat) (kind : String) (call : LevelsCall) : Bool :=
  call.covId = covId && !(call.ofKind kind).isEmpty

end LevelsCall

def runLevels (db : Db) (calls : List LevelsCall) : Db := History.run LevelsCall.step db calls

/-- The calls of a history that are not rolled back. -/
def committed : Db → List LevelsCall → List LevelsCall
  | _, [] => []
  | db, call :: calls =>
      if (call.exec db).result.isOk then call :: committed (call.step db) calls
      else committed (call.step db) calls

def lastSetting (covId : Nat) (kind : String) (calls : List LevelsCall) : Option LevelsCall :=
  calls.reverse.find? (·.sets covId kind)

/-- The rows of a coverage and a kind. -/
def levelsOf (covId : Nat) (kind : String) (rows : List CoverageLevel) : List CoverageLevel :=
  rows.filter fun row => row.coverageId = covId && row.kind = kind

def CoverageLevel.retire (time : Time) (row : CoverageLevel) : CoverageLevel :=
  { row with active := false, supersededAt := some time }

structure LevelsKept (db : Db) (calls : List LevelsCall) : Prop where
  /-- The one active row of a kind that was set is that of the last level given, and holds its value. -/
  one : ∀ (covId : Nat) (kind : String) (call : LevelsCall) (level : LevelIn),
    lastSetting covId kind (committed db calls) = some call →
    (call.ofKind kind).getLast? = some level →
    (levelsOf covId kind (runLevels db calls).levels).filter (·.active) = [call.newLevel level] ∧
      (call.newLevel level).value.worth = level.value.worth
  /-- Every row stays, but for its retirement. -/
  kept : ∀ (earlier later : List LevelsCall) (id : Nat) (row : CoverageLevel),
    calls = earlier ++ later → (runLevels db earlier).levels[id]? = some row →
    ∃ row', (runLevels db calls).levels[id]? = some row' ∧
      (row' = row ∨ ∃ time, row' = row.retire time)
  /-- The rows of the kinds and coverages that no call sets are the same. -/
  others : ∀ (covId : Nat) (kind : String),
    lastSetting covId kind (committed db calls) = none →
    levelsOf covId kind (runLevels db calls).levels = levelsOf covId kind db.levels

end AiFund
