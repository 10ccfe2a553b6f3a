import AiFund.Db.Models
import AiFund.Library.UnitOfWork
import Mathlib.Data.List.Find

/-!
# Schema

The constraints of the tables, the errors the code raises, and what a call takes from outside: the
clock, randomness, the order of unordered queries and the database driver.
-/

namespace AiFund

open UnitOfWork Rows

inductive PyError where
  | illegalTransition (error : IllegalTransition)
  | illegalStateChange (error : IllegalStateChange)
  | attributeError
  | typeError
  | keyError (key : String)
  | valueError
  | overflowError
  | invalidOperation
  | integrityError (constraint : String)
  | immutableColumnError (columns : List String)
  /-- The driver cannot bind a value to the column. -/
  | bindError
  /-- The database refuses a value in a query. -/
  | dataError
  | planError (message : String)
  | engineError (message : String)
  | apiError (code message : String) (status : Nat)
  | notImplemented (spec : String)
  deriving DecidableEq

namespace Db

variable (db : Db)

def isHouse (key : String) : Bool := db.houses.any fun house => house.key = key

def isCoverage (id : Nat) : Bool := id < db.coverages.length

def isRun (id : Nat) : Bool := id < db.runs.length

end Db

/-- The states in which a coverage must have a lead. -/
def CoverageState.live : CoverageState → Bool
  | .active | .watch | .decisionPending => true
  | _ => false

/-- A NaN compares greater than every number. -/
def Decimal.positive : Decimal → Bool
  | .finite coeff _ => 0 < coeff
  | .infinity negative => !negative
  | .nan => true

def Decimal.isProb (d : Decimal) : Bool := d.toRat?.any fun q => 0 ≤ q ∧ q ≤ 1

def Run.triggerKey (run : Run) : Option (Nat × RunType × String) := do
  return (← run.coverageId, run.type, ← run.triggerRef)

def constraints : List (String × (Db → Bool)) :=
  [("uq_coverage_exchange_ticker", fun db =>
      (db.coverages.map fun cov => (cov.exchange, cov.ticker)).Nodup),
    ("uq_coverage_dossier_slug", fun db => (db.coverages.map (·.dossierSlug)).Nodup),
    ("ck_coverage_lead_required_when_live", fun db =>
      db.coverages.all fun cov => !cov.state.live || cov.leadHouse.isSome),
    ("fk_coverage_lead_house_houses", fun db =>
      db.coverages.all fun cov => cov.leadHouse.all db.isHouse),
    ("fk_coverage_contributors_coverage_id_coverage", fun db =>
      db.contributors.all fun row => db.isCoverage row.coverageId),
    ("fk_coverage_contributors_house_houses", fun db =>
      db.contributors.all fun row => db.isHouse row.house),
    ("fk_coverage_levels_coverage_id_coverage", fun db =>
      db.levels.all fun level => db.isCoverage level.coverageId),
    ("ck_coverage_levels_kind", fun db =>
      db.levels.all fun level => level.kind ∈ ["entry", "target", "stop", "review"]),
    ("ck_coverage_levels_direction", fun db =>
      db.levels.all fun level => level.direction ∈ ["below", "above"]),
    ("ck_coverage_levels_value_positive", fun db =>
      db.levels.all fun level => level.value.positive && Numeric.price.holds level.value),
    ("fk_coverage_transitions_run_id_runs", fun db =>
      db.transitions.all fun row => row.runId.all db.isRun),
    ("fk_coverage_lead_history_to_house_houses", fun db =>
      db.leadHistory.all fun row => db.isHouse row.toHouse),
    ("fk_runs_coverage_id_coverage", fun db =>
      db.runs.all fun run => run.coverageId.all db.isCoverage),
    ("ck_runs_coverage_required", fun db =>
      db.runs.all fun run => run.coverageId.isSome || run.type = .distillation),
    ("uq_runs_trigger_ref", fun db => (db.runs.filterMap Run.triggerKey).Nodup),
    ("fk_run_stages_run_id_runs", fun db => db.stages.all fun stage => db.isRun stage.runId),
    ("fk_run_stages_house_houses", fun db => db.stages.all fun stage => db.isHouse stage.house),
    ("uq_run_stages_run_seq", fun db =>
      (db.stages.map fun stage => (stage.runId, stage.seq)).Nodup),
    ("uq_stage_attempts_stage_no", fun db =>
      (db.attempts.map fun attempt => (attempt.stageId, attempt.attemptNo)).Nodup),
    ("pk_coverage_run_locks", fun db => (db.locks.map (·.coverageId)).Nodup),
    ("uq_coverage_run_locks_run_id", fun db => (db.locks.map (·.runId)).Nodup),
    ("fk_pm_gates_run_id_runs", fun db => db.gates.all fun gate => db.isRun gate.runId),
    ("uq_pm_gates_idempotency_key", fun db => (db.gates.filterMap (·.idempotencyKey)).Nodup),
    ("fk_predictions_house_houses", fun db => db.predictions.all fun row => db.isHouse row.house),
    ("ck_predictions_kind", fun db =>
      db.predictions.all fun row =>
        row.kind ∈ ["target_price", "entry_point", "scenario", "event_forecast", "stance"]),
    ("numeric_predictions_value", fun db =>
      db.predictions.all fun row => row.value.all Numeric.price.holds &&
        row.pinnedPrice.all Numeric.price.holds && row.realizedPrice.all Numeric.price.holds &&
        row.realizedReturn.all Numeric.ratio.holds && row.errorPct.all Numeric.ratio.holds),
    ("ck_predictions_confidence", fun db =>
      db.predictions.all fun row => row.confidence.all Decimal.isProb),
    ("ck_predictions_scenario_prob", fun db =>
      db.predictions.all fun row => row.scenarioProb.all Decimal.isProb),
    ("ck_predictions_target_price_requires_value", fun db =>
      db.predictions.all fun row =>
        row.kind ≠ "target_price" || (row.value.isSome && row.currency.isSome)),
    ("fk_predictions_superseded_by_id_predictions", fun db =>
      db.predictions.all fun row => row.supersededById.all (· < db.predictions.length)),
    ("fk_predictions_superseded_run_id_runs", fun db =>
      db.predictions.all fun row => row.supersededRunId.all db.isRun),
    ("uq_predictions_idempotency_key", fun db => (db.predictions.map (·.idempotencyKey)).Nodup),
    ("pk_news_articles", fun db => (db.newsArticles.map (·.id)).Nodup),
    ("fk_events_news_article_id_news_articles", fun db =>
      db.events.all fun event => event.newsArticleId.all fun id =>
        db.newsArticles.any fun article => article.id = id),
    ("fk_outbox_events_coverage_id_coverage", fun db =>
      db.outbox.all fun event => event.coverageId.all db.isCoverage),
    ("fk_outbox_events_run_id_runs", fun db =>
      db.outbox.all fun event => event.runId.all db.isRun),
    ("uq_outbox_events_dedupe_key", fun db => (db.outbox.map (·.dedupeKey)).Nodup),
    ("pk_idempotency_keys", fun db => (db.idempotencyKeys.map (·.key)).Nodup)]

/-- The first constraint that `db` breaks. -/
def Db.violation (db : Db) : Option PyError :=
  (constraints.find? fun rule => !rule.2 db).map fun rule => .integrityError rule.1

instance : Schema Db PyError := ⟨Db.violation⟩

theorem Db.violation_eq_none {db : Db} :
    Schema.violation db = none ↔ ∀ rule ∈ constraints, rule.2 db = true := by
  change db.violation = none ↔ _
  simp [violation, Option.map_eq_none_iff, List.find?_eq_none]

/-- Databases that break the same rules are refused with the same error. -/
theorem Db.violation_of_rules {a b : Db} (h : ∀ rule ∈ constraints, rule.2 a = rule.2 b) :
    Schema.violation a = Schema.violation b := by
  change a.violation = b.violation
  unfold violation
  congr 1
  exact List.find?_congr fun rule hrule => by rw [h rule hrule]

/-! ## Surroundings -/

/-- Library code that the model takes as given. `text` and `integer` are the driver's conversions
of a Python value for a text and an integer column: `none` if it refuses the value, `some none` for
NULL. -/
structure Runtime where
  sha256 : String → String
  lower : String → String
  text : Json → Option (Option String)
  integer : Json → Option (Option Int)

/-- A value that the driver refuses raises. -/
def bound {α : Type} : Option α → Except PyError α
  | some value => .ok value
  | none => .error .bindError

theorem of_bound {α : Type} {x : Option α} {value : α} (h : bound x = .ok value) :
    x = some value := by
  cases x with
  | none => cases h
  | some found =>
      cases h
      rfl

def Runtime.bindText (runtime : Runtime) (value : Json) : Except PyError (Option String) :=
  bound (runtime.text value)

def Runtime.bindInt (runtime : Runtime) (value : Json) : Except PyError (Option Int) :=
  bound (runtime.integer value)

/-- The queries of the code that name no order. -/
inductive Scan where
  | claimable | openAttempt | expired | runStages | queuedRuns | runningRuns | crossCheckStage
  | targetPrices | gateOfRun | gateOfCoverage | coverages | levels | runs | pendingEvents
  deriving DecidableEq

abbrev Jitter := { q : ℚ // -1 ≤ q ∧ q ≤ 1 }

/-- What one call meets: the clock, `random.uniform(-1, 1)` for a stage, the order in which the
store returns the rows of a query, and the hex digits of the `n`-th `uuid4`. -/
structure Env where
  runtime : Runtime
  now : Time
  rows : Scan → RowOrder
  jitter : Nat → Jitter
  uuidHex : Nat → String

/-- A driver that converts nothing, for concrete runs. -/
def Runtime.strict : Runtime where
  sha256 := id
  lower := fun text => String.ofList (text.toList.map Char.toLower)
  text
    | .null => some none
    | .str text => some (some text)
    | _ => none
  integer
    | .null => some none
    | .int n => some (some n)
    | _ => none

/-- A call at a given time that meets no jitter and reads tables in key order. -/
def Env.quiet (now : Time) : Env where
  runtime := .strict
  now
  rows := fun _ => .byKey
  jitter := fun _ => ⟨0, by decide +kernel⟩
  uuidHex := fun n => "uuid-" ++ toString n

abbrev DbTxn := Txn Db PyError

def raise {α : Type} (error : PyError) : DbTxn α := throw error

def ofExcept {ε α : Type} (wrap : ε → PyError) : Except ε α → DbTxn α
  | .ok a => return a
  | .error error => raise (wrap error)

/-- `session.get` followed by an attribute access, which raises on `None`. -/
def getRow {ρ : Type} (table : Db → List ρ) (id : Nat) : DbTxn ρ := do
  match ← lookup table id with
  | some row => return row
  | none => raise .attributeError

section Returns

variable {α ε ρ : Type} {s s' : Session Db} {a : α}

@[simp] theorem not_returns_raise {error : PyError} : ¬ Returns (raise error : DbTxn α) s a s' :=
  not_returns_throw

@[simp] theorem returns_ofExcept {wrap : ε → PyError} {r : Except ε α} :
    Returns (ofExcept wrap r) s a s' ↔ r = .ok a ∧ s' = s := by
  cases r with
  | ok b =>
      simp only [ofExcept, returns_pure, Except.ok.injEq]
      exact and_congr_left' eq_comm
  | error error => simp [ofExcept]

@[simp] theorem returns_getRow {table : Db → List ρ} {id : Nat} {row : ρ} :
    Returns (getRow table id) s row s' ↔
      id < (table s.stored).length ∧ (table s.loaded)[id]? = some row ∧ s' = s := by
  simp only [getRow, returns_bind, returns_lookup]
  constructor
  · rintro ⟨found, s₁, ⟨rfl, rfl⟩, h⟩
    split at h
    · rename_i row' hrow
      split_ifs at hrow with hid
      obtain ⟨rfl, rfl⟩ := returns_pure.1 h
      exact ⟨hid, hrow, rfl⟩
    · exact absurd h not_returns_raise
  · rintro ⟨hid, hrow, rfl⟩
    exact ⟨_, _, ⟨rfl, rfl⟩, by simp [hid, hrow]⟩

theorem returns_ofExcept_bind {β : Type} {b : β} {wrap : ε → PyError} {r : Except ε α}
    {f : α → DbTxn β} :
    Returns (ofExcept wrap r >>= f) s b s' ↔ ∃ a, r = .ok a ∧ Returns (f a) s b s' := by
  simp

theorem returns_getRow_bind {β : Type} {b : β} {table : Db → List ρ} {id : Nat}
    {f : ρ → DbTxn β} :
    Returns (getRow table id >>= f) s b s' ↔
      id < (table s.stored).length ∧
        ∃ row, (table s.loaded)[id]? = some row ∧ Returns (f row) s b s' := by
  simp only [returns_bind, returns_getRow]
  constructor
  · rintro ⟨row, _, ⟨hid, hrow, rfl⟩, h⟩
    exact ⟨hid, row, hrow, h⟩
  · rintro ⟨hid, row, hrow, h⟩
    exact ⟨row, s, ⟨hid, hrow, rfl⟩, h⟩

end Returns

end AiFund
