import AiFund.Db.RunsRepo

/-!
# Predictions repository

Registration is idempotent on a key made from the stage and the typed fields of an entry, and only
the scored and superseded columns are mutable. The columns that come from a model unchecked are
still JSON in a `PredictionIn`.
-/

namespace AiFund

open UnitOfWork Rows

structure PredictionIn where
  kind : Json
  horizonDate : Date
  value : Option Decimal := none
  currency : Json := .null
  stance : Json := .null
  scenarioLabel : Json := .null
  scenarioProb : Option Decimal := none
  scenarioGroup : Option Nat := none
  confidence : Option Decimal := none
  rationaleRef : Option String := none
  direction : Json := .null
  pinnedPrice : Option Decimal := none

/-- The text whose hash is the idempotency key. -/
def PredictionIn.keyText (entry : PredictionIn) (stageId : Nat) : String :=
  let label := if entry.scenarioLabel.truthy then entry.scenarioLabel.pyStr else ""
  let value := (entry.value.filter Decimal.truthy).elim "" Decimal.pyStr
  toString stageId ++ "|" ++ entry.kind.pyStr ++ "|" ++ label ++ "|" ++ value ++ "|" ++
    entry.horizonDate.isoFormat

def PredictionIn.toRow (entry : PredictionIn) (env : Env) (stageId : Nat) (stage : RunStage)
    (run : Run) : Except PyError Prediction := do
  let coverageId ← required "predictions.coverage_id" (.ok run.coverageId)
  let kind ← required "predictions.kind" (env.runtime.bindText entry.kind)
  return {
    coverageId, runId := stage.runId, stageId, house := stage.house, kind
    value := entry.value.map Numeric.price.stored
    currency := ← env.runtime.bindText entry.currency
    stance := ← env.runtime.bindText entry.stance
    scenarioLabel := ← env.runtime.bindText entry.scenarioLabel
    scenarioProb := entry.scenarioProb.map Numeric.prob.stored
    scenarioGroup := entry.scenarioGroup, horizonDate := entry.horizonDate
    confidence := entry.confidence.map Numeric.prob.stored
    rationaleRef := entry.rationaleRef,
    direction := ← env.runtime.bindText entry.direction
    pinnedPrice := entry.pinnedPrice.map Numeric.price.stored
    idempotencyKey := env.runtime.sha256 (entry.keyText stageId), createdAt := env.now }

/-- `INSERT ... ON CONFLICT (idempotency_key) DO NOTHING`. -/
def Db.insertPrediction (db : Db) (row : Prediction) : Db :=
  if db.predictions.any fun p => p.idempotencyKey = row.idempotencyKey then db
  else { db with predictions := db.predictions ++ [row] }

def registerEntry (env : Env) (stageId : Nat) (stage : RunStage) (run : Run)
    (entry : PredictionIn) : DbTxn (Option Prediction) := do
  let row ← ofExcept id (entry.toRow env stageId stage run)
  execute fun db => db.insertPrediction row
  select fun db => db.predictions.find? fun p => p.idempotencyKey = row.idempotencyKey

def registerFromStage (env : Env) (stageId : Nat) (entries : List PredictionIn) :
    DbTxn (List (Option Prediction)) := do
  let stage ← getRow Db.stages stageId
  let run ← getRow Db.runs stage.runId
  let rows ← entries.mapM (registerEntry env stageId stage run)
  flush
  return rows

/-! ## Scoring and superseding -/

inductive MutableColumn where
  | status | supersededById | supersededRunId | scoredAt | realizedPrice | realizedReturn | errorPct
  | outcomeNotes
  deriving DecidableEq

def MutableColumn.ofName? : String → Option MutableColumn
  | "status" => some .status
  | "superseded_by_id" => some .supersededById
  | "superseded_run_id" => some .supersededRunId
  | "scored_at" => some .scoredAt
  | "realized_price" => some .realizedPrice
  | "realized_return" => some .realizedReturn
  | "error_pct" => some .errorPct
  | "outcome_notes" => some .outcomeNotes
  | _ => none

/-- What the driver makes of a Python object in a column of each type: `none` if it refuses the
object, `some none` for NULL. -/
structure PyValue where
  text : Option (Option String) := none
  uuid : Option (Option Nat) := none
  datetime : Option (Option Time) := none
  numeric : Option (Option Decimal) := none

def PyValue.str (text : String) : PyValue := { text := some (some text) }

def PyValue.at (time : Time) : PyValue := { datetime := some (some time) }

/-- A status must be there, and one that the column's check admits. -/
def storedStatus (value : Option String) : Except PyError PredictionStatus := do
  let text ← required "predictions.status" (.ok value)
  match PredictionStatus.ofValue? text with
  | some status => return status
  | none => .error (.integrityError "ck_predictions_status")

/-- `setattr`, with what the next flush makes of the value. -/
def Prediction.setattr (row : Prediction) (column : MutableColumn) (value : PyValue) :
    Except PyError Prediction :=
  match column with
  | .status => do return { row with status := ← storedStatus (← bound value.text) }
  | .supersededById => do return { row with supersededById := ← bound value.uuid }
  | .supersededRunId => do return { row with supersededRunId := ← bound value.uuid }
  | .scoredAt => do return { row with scoredAt := ← bound value.datetime }
  | .realizedPrice => do
      return { row with realizedPrice := (← bound value.numeric).map Numeric.price.stored }
  | .realizedReturn => do
      return { row with realizedReturn := (← bound value.numeric).map Numeric.ratio.stored }
  | .errorPct => do
      return { row with errorPct := (← bound value.numeric).map Numeric.ratio.stored }
  | .outcomeNotes => do return { row with outcomeNotes := ← bound value.text }

def Prediction.setattrs (row : Prediction) (fields : List (MutableColumn × PyValue)) :
    Except PyError Prediction :=
  fields.foldlM (fun row field => row.setattr field.1 field.2) row

def Db.updatePrediction (db : Db) (id : Nat) (f : Prediction → Prediction) : Db :=
  { db with predictions := db.predictions.modify id f }

/-- The columns among `fields` that an update must not name. -/
def immutableColumns (fields : List (String × PyValue)) : List String :=
  ((fields.map (·.1)).filter fun name => (MutableColumn.ofName? name).isNone).dedup.insertionSort
    (· ≤ ·)

def mutableFields (fields : List (String × PyValue)) : List (MutableColumn × PyValue) :=
  fields.filterMap fun field => (MutableColumn.ofName? field.1).map (·, field.2)

def updatePrediction (predictionId : Nat) (fields : List (String × PyValue)) :
    DbTxn (Option Prediction) := do
  if immutableColumns fields ≠ [] then raise (.immutableColumnError (immutableColumns fields))
  else match ← lookup Db.predictions predictionId with
    | none => do
        if fields.isEmpty then pure () else raise .attributeError
        flush
        return none
    | some row => do
        let updated ← ofExcept id (row.setattrs (mutableFields fields))
        assign fun db => db.updatePrediction predictionId fun _ => updated
        flush
        return some updated

def supersede (predictionId byPredictionId runId : Nat) : DbTxn Unit := do
  let _ ← getRow Db.predictions predictionId
  assign fun db => db.updatePrediction predictionId fun row =>
    { row with
      status := .superseded
      supersededById := some byPredictionId
      supersededRunId := some runId }
  flush

def score (env : Env) (predictionId : Nat) (status : String)
    (realizedPrice realizedReturn errorPct : Option PyValue) (outcomeNotes : Option String) :
    DbTxn Unit := do
  let row ← getRow Db.predictions predictionId
  let scored ← ofExcept id (row.setattrs
    ([(.status, .str status), (.scoredAt, .at env.now)] ++
      (realizedPrice.map (MutableColumn.realizedPrice, ·)).toList ++
      (realizedReturn.map (MutableColumn.realizedReturn, ·)).toList ++
      (errorPct.map (MutableColumn.errorPct, ·)).toList ++
      (outcomeNotes.map (MutableColumn.outcomeNotes, PyValue.str ·)).toList))
  assign fun db => db.updatePrediction predictionId fun _ => scored
  flush

/-- The value of the coverage's newest registered target price. -/
def lastTargetPrice (env : Env) (coverageId : Option Nat) (db : Db) : Option Decimal := do
  let found := (env.rows .targetPrices).all
    (fun row => some row.coverageId = coverageId && row.kind = "target_price") db.predictions
  let newest := found.insertionSort fun a b =>
    (db.predictions[b]?.map (·.createdAt)).getD 0 ≤ (db.predictions[a]?.map (·.createdAt)).getD 0
  let row ← db.predictions[← newest.head?]?
  row.value

end AiFund
