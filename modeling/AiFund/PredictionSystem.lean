import AiFund.Db.PredictionsRepo
import AiFund.Library.History

/-!
# The prediction ledger on its own

Histories of registrations, updates, scores and supersessions, each in a transaction of its own, and
what they promise of the predictions.
-/

namespace AiFund

open UnitOfWork

inductive PredictionCall where
  | registerFromStage (stageId : Nat) (entries : List PredictionIn)
  | updatePrediction (predictionId : Nat) (fields : List (String × PyValue))
  | supersede (predictionId byPredictionId runId : Nat)
  | score (predictionId : Nat) (status : String)
      (realizedPrice realizedReturn errorPct : Option PyValue) (outcomeNotes : Option String)

structure PredictionOp where
  env : Env
  call : PredictionCall

namespace PredictionOp

/-- Returns the rows that the call returns. All calls run on the same library code. -/
def perform (runtime : Runtime) (op : PredictionOp) : DbTxn (List (Option Prediction)) :=
  match op.call with
  | .registerFromStage stageId entries =>
      AiFund.registerFromStage { op.env with runtime } stageId entries
  | .updatePrediction predictionId fields => do
      let row ← AiFund.updatePrediction predictionId fields
      return [row]
  | .supersede predictionId byPredictionId runId => do
      AiFund.supersede predictionId byPredictionId runId
      return []
  | .score predictionId status realizedPrice realizedReturn errorPct outcomeNotes => do
      AiFund.score { op.env with runtime } predictionId status realizedPrice realizedReturn errorPct
        outcomeNotes
      return []

def exec (runtime : Runtime) (db : Db) (op : PredictionOp) :
    Outcome Db PyError (List (Option Prediction)) :=
  commit (op.perform runtime) db

def step (runtime : Runtime) (db : Db) (op : PredictionOp) : Db := (op.exec runtime db).after

end PredictionOp

def runPredictions (runtime : Runtime) (db : Db) (ops : List PredictionOp) : Db :=
  History.run (PredictionOp.step runtime) db ops

/-- The row passes the checks of its table. -/
def Prediction.passes (row : Prediction) : Bool :=
  row.kind ∈ ["target_price", "entry_point", "scenario", "event_forecast", "stance"] &&
    row.value.all Numeric.price.holds && row.pinnedPrice.all Numeric.price.holds &&
    row.confidence.all Decimal.isProb && row.scenarioProb.all Decimal.isProb &&
    (row.kind ≠ "target_price" || (row.value.isSome && row.currency.isSome))

/-- The columns that a prediction keeps: all but the scored and superseded ones, which are reset
to what they are at registration. -/
def Prediction.inserted (row : Prediction) : Prediction :=
  { row with
    status := .opened, supersededById := none, supersededRunId := none, scoredAt := none,
    realizedPrice := none, realizedReturn := none, errorPct := none, outcomeNotes := none }

/-- The row's house, run and coverage are those of its stage. -/
def Db.Owns (db : Db) (row : Prediction) : Prop :=
  ∃ stage run, db.stages[row.stageId]? = some stage ∧ row.house = stage.house ∧
    row.runId = stage.runId ∧ db.runs[stage.runId]? = some run ∧ run.coverageId = row.coverageId

/-- A row returned in `db` and one returned in `db'` are the same row of the ledger. -/
def SameRow (db db' : Db) (found found' : Option Prediction) : Prop :=
  ∃ (id : Nat) (row row' : Prediction), found = some row ∧ db.predictions[id]? = some row ∧
    found' = some row' ∧ db'.predictions[id]? = some row'

/-- What a history of registrations, updates, scores and supersessions keeps. -/
structure KeepsPredictions (runtime : Runtime) (db : Db) (ops : List PredictionOp) : Prop where
  /-- No row is removed, and the immutable columns keep their values. -/
  immutable : ∀ (earlier later : List PredictionOp) (id : Nat) (row : Prediction),
    ops = earlier ++ later → (runPredictions runtime db earlier).predictions[id]? = some row →
      ∃ row', (runPredictions runtime db ops).predictions[id]? = some row' ∧
        row'.inserted = row.inserted
  /-- An update that names another column raises and changes nothing, not even in the session. -/
  refused : ∀ (predictionId : Nat) (fields : List (String × PyValue)) (s : Session Db),
    (∃ field ∈ fields, MutableColumn.ofName? field.1 = none) →
      (updatePrediction predictionId fields).run s =
        .error (.immutableColumnError (immutableColumns fields)) s
  keys : ((runPredictions runtime db ops).predictions.map (·.idempotencyKey)).Nodup
  owned : ∀ row ∈ (runPredictions runtime db ops).predictions,
    (runPredictions runtime db ops).Owns row
  /-- What has been registered once is registered again without a new row, and found again. -/
  repeated : ∀ (earlier between : List PredictionOp) (env env' : Env) (stageId : Nat)
    (entries : List PredictionIn) (found : List (Option Prediction)),
    ops = earlier ++ ⟨env, .registerFromStage stageId entries⟩ :: between →
    (PredictionOp.exec runtime (runPredictions runtime db earlier)
      ⟨env, .registerFromStage stageId entries⟩).result = .ok found →
    ∃ found', (PredictionOp.exec runtime (runPredictions runtime db ops)
        ⟨env', .registerFromStage stageId entries⟩).result = .ok found' ∧
      (runPredictions runtime db (ops ++ [⟨env', .registerFromStage stageId entries⟩])).predictions =
        (runPredictions runtime db ops).predictions ∧
      found'.length = entries.length ∧
      List.Forall₂ (SameRow
        (runPredictions runtime db (earlier ++ [⟨env, .registerFromStage stageId entries⟩]))
        (runPredictions runtime db ops)) found found'

end AiFund
