import AiFund.Db.PredictionsRepo
import AiFund.Orchestrator.Planner

/-!
# Stage results

How a stage result, an unvalidated JSON dict, is read: the prediction entries it registers and the
rule that asks for a cross-check.
-/

namespace AiFund

/-- `for p in value`, for a JSON value. -/
def Json.iter : Json → Except PyError (List Json)
  | .arr items => .ok items
  | .obj fields => .ok (fields.map fun field => .str field.1)
  | .str s => .ok (s.toList.map fun c => .str (String.singleton c))
  | _ => .error .typeError

/-- The receiver of a `.get(...)`. -/
def Json.asDict : Json → Except PyError JsonObject
  | .obj fields => .ok fields
  | _ => .error .attributeError

/-- `result.get("predictions", []) or []`. -/
def predictionEntries (result : JsonObject) : Except PyError (List Json) :=
  ((result.get "predictions").orElse (.arr [])).iter

/-- `Decimal(str(value))`. -/
def toDecimal (value : Json) : Except PyError Decimal :=
  match Decimal.parse value.pyStr with
  | some d => .ok d
  | none => .error .invalidOperation

/-- `Decimal(str(p[key])) if p.get(key) is not None else None`. -/
def optDecimal (p : JsonObject) (key : String) : Except PyError (Option Decimal) :=
  match p.get key with
  | .null => .ok none
  | value => (toDecimal value).map some

/-- `p[key]`. -/
def JsonObject.item (p : JsonObject) (key : String) : Except PyError Json :=
  match List.lookup key p with
  | some value => .ok value
  | none => .error (.keyError key)

/-- `date.fromisoformat(str(value))`. -/
def toDate (value : Json) : Except PyError Date :=
  match Date.fromIsoFormat value.pyStr with
  | some date => .ok date
  | none => .error .valueError

/-- One entry of a result's predictions; an entry without a kind is skipped. -/
def parseEntry (entry : Json) : Except PyError (Option PredictionIn) := do
  let p ← entry.asDict
  if !(p.get "kind").truthy then
    return none
  else do
    let horizonDate ← toDate (← p.item "horizon_date")
    let value ← optDecimal p "value"
    let scenarioProb ← optDecimal p "scenario_prob"
    let confidence ← optDecimal p "confidence"
    let pinnedPrice ← optDecimal p "pinned_price"
    return some {
      kind := p.get "kind", horizonDate, value, currency := p.get "currency",
      stance := p.get "stance", scenarioLabel := p.get "scenario_label", scenarioProb,
      confidence, direction := p.get "direction", pinnedPrice }

def parsePredictions (result : JsonObject) : Except PyError (List PredictionIn) := do
  let entries ← (← predictionEntries result).mapM parseEntry
  return entries.reduceOption

/-! ## Auto cross-check -/

def firstTargetPrice : List Json → Except PyError (Option Decimal)
  | [] => .ok none
  | entry :: rest => do
      let p ← entry.asDict
      match p.get "kind", p.get "value" with
      | .str "target_price", .null => firstTargetPrice rest
      | .str "target_price", value => (toDecimal value).map some
      | _, _ => firstTargetPrice rest

def extractTargetPrice (result : JsonObject) : Except PyError (Option Decimal) := do
  firstTargetPrice (← predictionEntries result)

def firstStance : List Json → Except PyError (Option Json)
  | [] => .ok none
  | entry :: rest => do
      let p ← entry.asDict
      match p.get "kind" with
      | .str "stance" => if (p.get "stance").truthy then return p.get "stance" else firstStance rest
      | _ => firstStance rest

def extractStance (result : JsonObject) : Except PyError Json := do
  return (← firstStance (← predictionEntries result)).getD (result.get "stance")

/-- Whether `new` is further than `pct` percent from a known non-zero `last`. Ordering a NaN, or
dividing two infinities, raises `InvalidOperation`. -/
def targetPriceMoved (new last : Option Decimal) (pct : ℚ) : Except PyError Bool :=
  match new, last with
  | some new, some last =>
      if !last.truthy then .ok false
      else
        match new, new.toRat?, last.toRat? with
        | _, some n, some l => .ok (pct < |n - l| / |l| * 100)
        | .infinity _, none, some _ => .ok true
        | _, _, _ => .error .invalidOperation
  | _, _ => .ok false

def stanceMoved (rule : AutoCrossCheck) (result : JsonObject) (lastStance : Option String) :
    Except PyError Bool := do
  if !rule.stanceChange then return false
  else do
    let newStance ← extractStance result
    return newStance.truthy && lastStance.any fun last =>
      last ≠ "" && (match newStance with | .str new => new ≠ last | _ => true)

def autoCrossCheck (result : JsonObject) (lastTp : Option Decimal)
    (lastStance eventSeverity : Option String) (rule : AutoCrossCheck) : Except PyError Bool := do
  if eventSeverity = some "thesis" ∧ rule.thesisTripwire then return true
  else do
    let moved ← targetPriceMoved (← extractTargetPrice result) lastTp rule.tpChangePct
    if moved then return true else stanceMoved rule result lastStance

end AiFund
