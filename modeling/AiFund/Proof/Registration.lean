import AiFund.Containment
import AiFund.Proof.Legal
import AiFund.Proof.Predictions

/-!
# What a registration records

Entries are registered exactly if their rows can be bound, and each passes its checks or finds its key
taken. The row that an entry then finds is one with its key. It agrees with the entry exactly if no
other entry of the list has the same key and says something else.
-/

namespace AiFund

open UnitOfWork Rows

variable {runtime : Runtime} {env : Env} {db db' : Db} {s s' : Session Db} {stageId : Nat}
  {stage : RunStage} {run run' : Run} {entry : PredictionIn} {entries : List PredictionIn}
  {row : Prediction} {op : PredictionOp}

/-! ## Keys -/

/-- What stands before the first separator. -/
theorem eq_of_append_separator {α : Type} {sep : α} {first first' rest rest' : List α}
    (hfirst : sep ∉ first) (hfirst' : sep ∉ first')
    (h : first ++ sep :: rest = first' ++ sep :: rest') : first = first' := by
  induction first generalizing first' with
  | nil =>
      cases first' with
      | nil => rfl
      | cons x xs =>
          obtain ⟨rfl, -⟩ := List.cons.inj h
          exact absurd List.mem_cons_self hfirst'
  | cons x xs ih =>
      cases first' with
      | nil =>
          obtain ⟨rfl, -⟩ := List.cons.inj h
          exact absurd List.mem_cons_self hfirst
      | cons y ys =>
          obtain ⟨rfl, htail⟩ := List.cons.inj h
          rw [ih (fun hmem => hfirst (List.mem_cons_of_mem _ hmem))
            (fun hmem => hfirst' (List.mem_cons_of_mem _ hmem)) htail]

theorem bar_not_mem_toString (n : Nat) : '|' ∉ (toString n).toList := by
  intro hmem
  have hdigits : '|' ∈ Nat.toDigits 10 n := by
    rw [← Nat.toList_repr]
    exact hmem
  have hdigit := Nat.isDigit_of_mem_toDigits (by decide) (by decide) hdigits
  exact absurd hdigit (by decide)

/-- Entries of different stages have different keys. -/
theorem PredictionIn.stage_of_keyText {first second : PredictionIn} {stageId' : Nat}
    (h : first.keyText stageId = second.keyText stageId') : stageId = stageId' := by
  have hlist := congrArg String.toList h
  simp only [keyText, String.toList_append, List.append_assoc] at hlist
  have hstages : (Nat.repr stageId).toList = (Nat.repr stageId').toList :=
    eq_of_append_separator (bar_not_mem_toString stageId) (bar_not_mem_toString stageId') hlist
  rw [Nat.toList_repr, Nat.toList_repr] at hstages
  calc
    stageId = Nat.ofDigitChars 10 (Nat.toDigits 10 stageId) 0 := Nat.ofDigitChars_ten_toDigits.symm
    _ = Nat.ofDigitChars 10 (Nat.toDigits 10 stageId') 0 := by rw [hstages]
    _ = stageId' := Nat.ofDigitChars_ten_toDigits

/-- Every row was registered by an entry of its stage. -/
def Db.Keyed (runtime : Runtime) (db : Db) : Prop :=
  ∀ row ∈ db.predictions, ∃ entry : PredictionIn, row.idempotencyKey = entry.key runtime row.stageId

theorem PredictionOp.step_keyed (hdb : db.Keyed runtime) : (op.step runtime db).Keyed runtime := by
  unfold step exec
  refine commit_after hdb fun found s h => ?_
  obtain ⟨stageId, entries, stage, run, -, -, -, hregisters⟩ | ⟨id, f, hafter, hf⟩ := op.moves h
  · obtain ⟨rows, hafter, hrows⟩ := hregisters.grows
    rw [hafter]
    intro row hrow
    rcases List.mem_append.1 hrow with hold | hnew
    · exact hdb row hold
    · obtain ⟨entry, -, hregistered⟩ := hrows row hnew
      exact ⟨entry, hregistered.ofStage ▸ hregistered.key⟩
  · rw [hafter]
    intro row hrow
    obtain ⟨id', hid'⟩ := List.getElem?_of_mem hrow
    obtain ⟨rfl, old, hold, rfl⟩ | ⟨-, hold⟩ := getElem?_modify_cases hid'
    · obtain ⟨entry, hkey⟩ := hdb old (List.mem_of_getElem? hold)
      refine ⟨entry, ?_⟩
      rw [Prediction.eq_of_inserted (hf old hold) (·.idempotencyKey) fun _ => rfl, hkey,
        Prediction.eq_of_inserted (hf old hold) (·.stageId) fun _ => rfl]
    · exact hdb row (List.mem_of_getElem? hold)

theorem runPredictions_keyed (hdb : db.Keyed runtime) (ops : List PredictionOp) :
    (runPredictions runtime db ops).Keyed runtime :=
  History.invariant_of_forall (I := fun db : Db => db.Keyed runtime)
    (fun _ _ h => PredictionOp.step_keyed h) hdb

/-! ## Registration succeeds -/

/-- A row as `toRow` leaves it: nothing of it has been scored or superseded. -/
structure Prediction.New (row : Prediction) : Prop where
  realizedPrice : row.realizedPrice = none
  realizedReturn : row.realizedReturn = none
  errorPct : row.errorPct = none
  supersededById : row.supersededById = none
  supersededRunId : row.supersededRunId = none

theorem PredictionIn.new_toRow (h : entry.toRow env stageId stage run = .ok row) : row.New := by
  simp only [toRow, ok_bind_iff] at h
  obtain ⟨coverageId, -, kind, -, currency, -, stance, -, label, -, direction, -, hrow⟩ := h
  cases hrow
  exact ⟨rfl, rfl, rfl, rfl, rfl⟩

theorem Db.isHouse_of_stage (hdb : Schema.violation db = none)
    (hstage : db.stages[stageId]? = some stage) : db.isHouse stage.house = true := by
  have hrule := Db.violation_eq_none.1 hdb ("fk_run_stages_house_houses",
    fun db => db.stages.all fun stage => db.isHouse stage.house) (by simp [constraints])
  exact List.all_eq_true.1 hrule stage (List.mem_of_getElem? hstage)

/-- A new row of a house that passes its checks is inserted, or another has its key. -/
theorem Db.legal_insertPrediction (hdb : Schema.violation db = none)
    (hhouse : db.isHouse row.house = true) (hpasses : row.passes = true) (hnew : row.New) :
    Schema.violation (db.insertPrediction row) = none := by
  unfold insertPrediction
  split
  · exact hdb
  rename_i hkey
  refine legal_of_rules hdb ?_
  have hhouses : Db.isHouse { db with predictions := db.predictions ++ [row] } = db.isHouse := rfl
  have hruns : Db.isRun { db with predictions := db.predictions ++ [row] } = db.isRun := rfl
  have hcoverages : Db.isCoverage { db with predictions := db.predictions ++ [row] } =
      db.isCoverage := rfl
  simp only [Prediction.passes, Bool.and_eq_true] at hpasses
  obtain ⟨⟨⟨⟨⟨hkind, hvalue⟩, hpinned⟩, hconfidence⟩, hscenario⟩, hpriced⟩ := hpasses
  simp only [constraints, List.forall_mem_cons, hhouses, hruns, hcoverages, imp_self, true_and,
    decide_eq_true_eq, List.all_append, Bool.and_eq_true, List.all_cons, List.all_nil, and_true]
  refine ⟨fun h => ⟨h, hhouse⟩, fun h => ⟨h, of_decide_eq_true hkind⟩, fun h => ⟨h, ?_⟩,
    fun h => ⟨h, hconfidence⟩, fun h => ⟨h, hscenario⟩, fun h => ⟨h, hpriced⟩,
    fun h => ⟨?_, ?_⟩, fun h => ⟨h, ?_⟩, fun h => ?_, List.forall_mem_nil _⟩
  · simp [hvalue, hpinned, hnew.realizedPrice, hnew.realizedReturn, hnew.errorPct]
  · refine all_mono (fun row : Prediction => row.supersededById) (fun id hid => ?_) h
    simp only [decide_eq_true_eq, List.length_append, List.length_cons, List.length_nil] at hid ⊢
    omega
  · simp [hnew.supersededById]
  · simp [hnew.supersededRunId]
  · refine nodup_concat h fun other hother hsame => hkey ?_
    exact List.any_eq_true.2 ⟨other, hother, decide_eq_true hsame⟩

/-- A new row of a house is taken exactly if it passes its checks or another has its key. -/
theorem Db.legal_insertPrediction_iff (hdb : Schema.violation db = none)
    (hhouse : db.isHouse row.house = true) (hnew : row.New) :
    Schema.violation (db.insertPrediction row) = none ↔
      row.passes = true ∨ ∃ other ∈ db.predictions, other.idempotencyKey = row.idempotencyKey := by
  by_cases htaken : ∃ other ∈ db.predictions, other.idempotencyKey = row.idempotencyKey
  · obtain ⟨other, hother, hkey⟩ := htaken
    have hkept : db.insertPrediction row = db :=
      if_pos (List.any_eq_true.2 ⟨other, hother, decide_eq_true hkey⟩)
    rw [hkept]
    exact iff_of_true hdb (.inr ⟨other, hother, hkey⟩)
  refine ⟨fun h => .inl ?_, fun h => Db.legal_insertPrediction hdb hhouse
    (h.resolve_right htaken) hnew⟩
  have hinserted : db.insertPrediction row = { db with predictions := db.predictions ++ [row] } := by
    refine if_neg fun hany => htaken ?_
    obtain ⟨other, hother, hkey⟩ := List.any_eq_true.1 hany
    exact ⟨other, hother, of_decide_eq_true hkey⟩
  rw [hinserted, Db.violation_eq_none] at h
  have hcheck (check : Prediction → Bool) (name : String)
      (hmem : (name, fun db : Db => db.predictions.all check) ∈ constraints) : check row = true :=
    List.all_eq_true.1 (h _ hmem) row (by simp)
  have hnumeric := hcheck (fun row => row.value.all Numeric.price.holds &&
    row.pinnedPrice.all Numeric.price.holds && row.realizedPrice.all Numeric.price.holds &&
    row.realizedReturn.all Numeric.ratio.holds && row.errorPct.all Numeric.ratio.holds)
    "numeric_predictions_value" (by simp [constraints])
  simp only [Bool.and_eq_true] at hnumeric
  simp only [Prediction.passes, Bool.and_eq_true]
  refine ⟨⟨⟨⟨⟨?_, hnumeric.1.1.1.1⟩, hnumeric.1.1.1.2⟩, ?_⟩, ?_⟩, ?_⟩
  · exact hcheck (fun row => row.kind ∈
      ["target_price", "entry_point", "scenario", "event_forecast", "stance"])
      "ck_predictions_kind" (by simp [constraints])
  · exact hcheck (fun row => row.confidence.all Decimal.isProb)
      "ck_predictions_confidence" (by simp [constraints])
  · exact hcheck (fun row => row.scenarioProb.all Decimal.isProb)
      "ck_predictions_scenario_prob" (by simp [constraints])
  · exact hcheck (fun row => row.kind ≠ "target_price" ||
      (row.value.isSome && row.currency.isSome))
      "ck_predictions_target_price_requires_value" (by simp [constraints])

theorem Db.predictions_insertPrediction (h : db.predictions = db'.predictions) :
    (db.insertPrediction row).predictions = (db'.insertPrediction row).predictions := by
  unfold insertPrediction
  rw [h]
  split
  · exact h
  · rfl

theorem Db.houses_insertPrediction : (db.insertPrediction row).isHouse = db.isHouse := by
  unfold insertPrediction
  split <;> rfl

/-- Of the run a row takes the coverage only. -/
theorem PredictionIn.toRow_congr {entry : PredictionIn} (hrun : run.coverageId = run'.coverageId) :
    entry.toRow env stageId stage run = entry.toRow env stageId stage run' := by
  unfold toRow
  rw [hrun]

theorem Db.admits_congr (hrun : run.coverageId = run'.coverageId)
    (h : db.predictions = db'.predictions) :
    Db.Admits env stageId stage run entries db ↔ Db.Admits env stageId stage run' entries db' := by
  induction entries generalizing db db' with
  | nil => exact Iff.rfl
  | cons entry entries ih =>
      simp only [Db.Admits]
      refine exists_congr fun row => ?_
      rw [PredictionIn.toRow_congr hrun, h, ih (Db.predictions_insertPrediction h)]

/-- The entries are registered, and leave a database that the schema accepts, exactly if it admits
them. -/
theorem registerEntries_iff (hstored : Schema.violation s.stored = none)
    (hloaded : Schema.violation s.loaded = none)
    (hsynced : s.loaded.predictions = s.stored.predictions)
    (hhouse : s.stored.isHouse stage.house = true) (hhouse' : s.loaded.isHouse stage.house = true) :
    Db.Admits env stageId stage run entries s.stored ↔
      ∃ found s', Returns (entries.mapM (registerEntry env stageId stage run)) s found s' ∧
        Schema.violation s'.loaded = none := by
  induction entries generalizing s with
  | nil =>
      rw [List.mapM_nil]
      exact iff_of_true trivial ⟨[], s, returns_pure.2 ⟨rfl, rfl⟩, hloaded⟩
  | cons entry entries ih =>
      have hnext {row : Prediction} (hrow : entry.toRow env stageId stage run = .ok row)
          (hadmitted : row.passes = true ∨
            ∃ other ∈ s.stored.predictions, other.idempotencyKey = row.idempotencyKey) :
          Schema.violation (s.stored.insertPrediction row) = none ∧
            (Db.Admits env stageId stage run entries (s.stored.insertPrediction row) ↔
              ∃ found s', Returns (entries.mapM (registerEntry env stageId stage run))
                (s.write (s.stored.insertPrediction row) (s.loaded.insertPrediction row)) found s' ∧
                  Schema.violation s'.loaded = none) := by
        have hof := (entry.registeredBy_toRow hrow).house
        have hlegal := (Db.legal_insertPrediction_iff hstored (hof ▸ hhouse)
          (entry.new_toRow hrow)).2 hadmitted
        refine ⟨hlegal, ih (s := s.write _ _) hlegal ?_ (Db.predictions_insertPrediction hsynced)
          ?_ ?_⟩
        · exact (Db.legal_insertPrediction_iff hloaded (hof ▸ hhouse') (entry.new_toRow hrow)).2
            (hsynced ▸ hadmitted)
        · change (s.stored.insertPrediction row).isHouse stage.house = true
          rwa [Db.houses_insertPrediction]
        · change (s.loaded.insertPrediction row).isHouse stage.house = true
          rwa [Db.houses_insertPrediction]
      constructor
      · rintro ⟨row, hrow, hadmitted, hrest⟩
        obtain ⟨hlegal, hiff⟩ := hnext hrow hadmitted
        obtain ⟨found, s', hreturns, hs'⟩ := hiff.1 hrest
        have hfirst := returns_registerEntry.2 ⟨row, hrow, hlegal, rfl, rfl⟩
        rw [List.mapM_cons]
        exact ⟨_, s', returns_bind.2 ⟨_, _, hfirst,
          returns_bind.2 ⟨_, _, hreturns, returns_pure.2 ⟨rfl, rfl⟩⟩⟩, hs'⟩
      · rintro ⟨found, s', h, hs'⟩
        rw [List.mapM_cons] at h
        obtain ⟨first, s₁, hfirst, h⟩ := returns_bind.1 h
        obtain ⟨rest, s₂, hrest, hpure⟩ := returns_bind.1 h
        obtain ⟨row, hrow, hlegal, -, rfl⟩ := returns_registerEntry.1 hfirst
        obtain ⟨-, rfl⟩ := returns_pure.1 hpure
        have hadmitted := (Db.legal_insertPrediction_iff hstored
          ((entry.registeredBy_toRow hrow).house ▸ hhouse) (entry.new_toRow hrow)).1 hlegal
        exact ⟨row, hrow, hadmitted, (hnext hrow hadmitted).2.2 ⟨rest, _, hrest, hs'⟩⟩

/-- The table takes the entry. -/
def PredictionIn.Stores (env : Env) (stageId : Nat) (stage : RunStage) (run : Run)
    (entry : PredictionIn) : Prop :=
  ∃ row, entry.toRow env stageId stage run = .ok row ∧ row.passes = true

theorem Db.admits_of_stores (hentries : ∀ entry ∈ entries, entry.Stores env stageId stage run) :
    Db.Admits env stageId stage run entries db := by
  induction entries generalizing db with
  | nil => trivial
  | cons entry entries ih =>
      obtain ⟨⟨row, hrow, hpasses⟩, hrest⟩ := List.forall_mem_cons.1 hentries
      exact ⟨row, hrow, .inl hpasses, ih hrest⟩

/-- Entries that the table takes are registered. -/
theorem commit_registerFromStage (hdb : Schema.violation db = none)
    (hstage : db.stages[stageId]? = some stage) (hrun : db.runs[stage.runId]? = some run)
    (hentries : ∀ entry ∈ entries, entry.Stores env stageId stage run) :
    ∃ found db', (commit (registerFromStage env stageId entries) db).result = .ok found ∧
      Registers env stageId stage run db db' entries found := by
  have hhouse := Db.isHouse_of_stage hdb hstage
  obtain ⟨found, s', hrows, hlegal⟩ := (registerEntries_iff (s := Session.clean db) hdb hdb rfl hhouse
    hhouse).1 (Db.admits_of_stores hentries)
  have hregisters := (returns_registerEntries (s := Session.clean db) rfl hrows).2
  have hreturns : Returns (registerFromStage env stageId entries) (Session.clean db) found
      (s'.write s'.loaded s'.loaded) := by
    refine returns_getRow_bind.2 ⟨(List.getElem?_eq_some_iff.1 hstage).1, stage, hstage, ?_⟩
    refine returns_getRow_bind.2 ⟨(List.getElem?_eq_some_iff.1 hrun).1, run, hrun, ?_⟩
    refine returns_bind.2 ⟨_, s', hrows, returns_flush_bind.2 ⟨hlegal, ?_⟩⟩
    exact returns_pure.2 ⟨rfl, rfl⟩
  exact ⟨found, s'.stored, by rw [commit_of_returns hreturns hlegal], hregisters⟩

/-! ## What an entry and a row say -/

structure Saying where
  kind : Option (Option String)
  value : Option (ℚ ⊕ Decimal)
  currency : Option (Option String)
  stance : Option (Option String)
  scenarioLabel : Option (Option String)
  horizonDate : Date
  deriving DecidableEq

/-- What an entry says, as the driver binds it. -/
def PredictionIn.said (runtime : Runtime) (entry : PredictionIn) : Saying where
  kind := runtime.text entry.kind
  value := entry.value.map Decimal.worth
  currency := runtime.text entry.currency
  stance := runtime.text entry.stance
  scenarioLabel := runtime.text entry.scenarioLabel
  horizonDate := entry.horizonDate

def Prediction.said (row : Prediction) : Saying where
  kind := some (some row.kind)
  value := row.value.map Decimal.worth
  currency := some row.currency
  stance := some row.stance
  scenarioLabel := some row.scenarioLabel
  horizonDate := row.horizonDate

/-- What a row has of it: the value in the digits of its column. -/
def Saying.recorded (saying : Saying) : Saying :=
  { saying with value := saying.value.map (Sum.map Numeric.price.rounded id) }

/-- The value of the entry has no more digits after the point than its column. -/
def PredictionIn.Exact (entry : PredictionIn) : Prop := ∀ d ∈ entry.value, Numeric.price.Keeps d

theorem PredictionIn.exact_iff :
    (entry.said runtime).recorded = entry.said runtime ↔ entry.Exact := by
  have hvalue : (entry.said runtime).recorded = entry.said runtime ↔
      (entry.value.map Decimal.worth).map (Sum.map Numeric.price.rounded id) =
        entry.value.map Decimal.worth :=
    ⟨congrArg Saying.value, fun h => by unfold Saying.recorded; rw [said, h]⟩
  rw [hvalue]
  unfold Exact
  cases entry.value with
  | none => simp
  | some d => simp [Numeric.worth_stored_eq_iff]

theorem of_bindText {value : Json} {text : Option String}
    (h : runtime.bindText value = .ok text) : runtime.text value = some text :=
  of_bound h

theorem PredictionIn.said_toRow (h : entry.toRow env stageId stage run = .ok row) :
    row.said = (entry.said env.runtime).recorded := by
  simp only [toRow, ok_bind_iff] at h
  obtain ⟨coverageId, -, kind, hkind, currency, hcurrency, stance, hstance, label, hlabel,
    direction, -, hrow⟩ := h
  cases hrow
  have hkind' : env.runtime.text entry.kind = some (some kind) := by
    unfold required at hkind
    split at hkind
    all_goals cases hkind
    exact of_bindText ‹_›
  have hvalue : (entry.value.map Numeric.price.stored).map Decimal.worth =
      (entry.value.map Decimal.worth).map (Sum.map Numeric.price.rounded id) := by
    rw [Option.map_map, Option.map_map]
    exact congrFun (congrArg Option.map (funext Numeric.price.worth_stored)) entry.value
  simp only [Prediction.said, said, Saying.recorded, hkind', of_bindText hcurrency,
    of_bindText hstance, of_bindText hlabel, hvalue]

/-- One row is returned for each entry, and says what the entry says. -/
def SaysWhat (runtime : Runtime) (found : List (Option Prediction)) (entries : List PredictionIn) :
    Prop :=
  found.map (·.map Prediction.said) = entries.map fun entry => some (entry.said runtime)

/-- The row that the key of an entry finds is one of an entry with this key. -/
theorem Registers.said_of_key {found : List (Option Prediction)} {key : String}
    (h : Registers env stageId stage run db db' entries found)
    (hfresh : db.predictionOf key = none) (hfound : db'.predictionOf key = some row) :
    ∃ entry ∈ entries, entry.key env.runtime stageId = key ∧
      row.said = (entry.said env.runtime).recorded := by
  obtain ⟨rows, rfl, hrows⟩ := h.grows
  have hmem : row ∈ rows := by
    rcases List.mem_append.1 (List.mem_of_find?_eq_some hfound) with hold | hnew
    · have hnot := List.find?_eq_none.1 hfresh row hold
      exact absurd (List.find?_some hfound) hnot
    · exact hnew
  have hkey : row.idempotencyKey = key := by simpa using List.find?_some hfound
  obtain ⟨entry, hentry, hregistered⟩ := hrows row hmem
  have hsaid := entry.said_toRow (hregistered.again env rfl)
  exact ⟨entry, hentry, hregistered.key.symm.trans hkey, hsaid⟩

/-- A ledger without a row of the stage has none of its keys. -/
theorem Db.Keyed.predictionOf_eq_none (hdb : db.Keyed runtime)
    (hsha : Function.Injective runtime.sha256)
    (hfresh : ∀ row ∈ db.predictions, row.stageId ≠ stageId) :
    db.predictionOf (entry.key runtime stageId) = none := by
  refine List.find?_eq_none.2 fun row hrow hkey => ?_
  obtain ⟨entry', hkey'⟩ := hdb row hrow
  have hsame : entry'.key runtime row.stageId = entry.key runtime stageId :=
    hkey'.symm.trans (of_decide_eq_true hkey)
  exact hfresh row hrow (PredictionIn.stage_of_keyText (hsha hsame))

/-- Each entry gets a row that says what it says exactly if entries with one key say the same and no
value has more digits than its column. -/
theorem registerFromStage_says_iff (hsha : Function.Injective env.runtime.sha256)
    (hdb : Schema.violation db = none) (hkeyed : db.Keyed env.runtime)
    (hfresh : ∀ row ∈ db.predictions, row.stageId ≠ stageId)
    (hstage : db.stages[stageId]? = some stage) (hrun : db.runs[stage.runId]? = some run)
    (hentries : ∀ entry ∈ entries, entry.Stores env stageId stage run) :
    (∃ found, (commit (registerFromStage env stageId entries) db).result = .ok found ∧
        SaysWhat env.runtime found entries) ↔
      (∀ first ∈ entries, ∀ second ∈ entries, first.keyText stageId = second.keyText stageId →
        first.said env.runtime = second.said env.runtime) ∧ ∀ entry ∈ entries, entry.Exact := by
  obtain ⟨found, db', hcommit, hregisters⟩ :=
    commit_registerFromStage hdb hstage hrun hentries
  have hsaid (entry : PredictionIn) (hentry : entry ∈ entries) :
      ∃ row, db'.predictionOf (entry.key env.runtime stageId) = some row ∧
        ∃ other ∈ entries, other.keyText stageId = entry.keyText stageId ∧
          row.said = (other.said env.runtime).recorded := by
    obtain ⟨row, hrow⟩ := Option.isSome_iff_exists.1 (hregisters.present entry hentry).1
    obtain ⟨other, hother, hkey, hagrees⟩ :=
      hregisters.said_of_key (hkeyed.predictionOf_eq_none hsha hfresh) hrow
    exact ⟨row, hrow, other, hother, hsha hkey, hagrees⟩
  have hagrees : SaysWhat env.runtime found entries ↔ ∀ entry ∈ entries,
      (db'.predictionOf (entry.key env.runtime stageId)).map Prediction.said =
        some (entry.said env.runtime) := by
    rw [SaysWhat, hregisters.finds, List.map_map, List.map_inj_left]
    rfl
  constructor
  · rintro ⟨found', hresult, hagree⟩
    obtain rfl : found' = found := Except.ok.inj (hresult.symm.trans hcommit)
    have hrow := hagrees.1 hagree
    have hkeys : ∀ first ∈ entries, ∀ second ∈ entries,
        first.keyText stageId = second.keyText stageId →
          first.said env.runtime = second.said env.runtime := by
      intro first hfirst second hsecond hkey
      have hsame : first.key env.runtime stageId = second.key env.runtime stageId :=
        congrArg env.runtime.sha256 hkey
      have hfirstRow := hrow first hfirst
      rw [hsame] at hfirstRow
      exact Option.some.inj (hfirstRow.symm.trans (hrow second hsecond))
    refine ⟨hkeys, fun entry hentry => ?_⟩
    -- The row is that of another entry with the key, which says the same.
    obtain ⟨row, hfound, other, hother, hkey, hrecorded⟩ := hsaid entry hentry
    have hrecords : (entry.said env.runtime).recorded = entry.said env.runtime := by
      have hentryRow := hrow entry hentry
      rw [hfound, Option.map_some, hrecorded, hkeys other hother entry hentry hkey] at hentryRow
      exact Option.some.inj hentryRow
    exact PredictionIn.exact_iff.1 hrecords
  · rintro ⟨hkeys, hexact⟩
    refine ⟨found, hcommit, hagrees.2 fun entry hentry => ?_⟩
    obtain ⟨row, hrow, other, hother, hkey, hrecorded⟩ := hsaid entry hentry
    rw [hrow, Option.map_some, hrecorded, hkeys other hother entry hentry hkey,
      PredictionIn.exact_iff.2 (hexact entry hentry)]

def PredictionIn.view (label stance : Json) : PredictionIn :=
  { kind := .str "stance", horizonDate := ⟨2027, 1, 1⟩, scenarioLabel := label, stance }

/-- The author stage of `Db.authored` and its run. -/
def RunStage.author : RunStage :=
  { runId := 0, seq := 1, role := .author, house := "claude", substrate := .harness,
    availableAt := 0, maxAttempts := 3 }

def Run.initiating : Run :=
  { coverageId := some 0, type := .initiation, status := .running, trigger := "pm",
    mutatesDossier := true, createdAt := 0 }

theorem PredictionIn.stores_view {label stance : String} :
    (view (.str label) (.str stance)).Stores (.quiet 0) 0 .author .initiating :=
  ⟨_, rfl, rfl⟩

theorem Db.authored_keyed : Db.authored.Keyed (Env.quiet 0).runtime := by
  have hempty : Db.authored.predictions = [] := rfl
  unfold Db.Keyed
  rw [hempty]
  exact List.forall_mem_nil _

theorem Db.authored_fresh : ∀ row ∈ Db.authored.predictions, row.stageId ≠ 0 := by
  have hempty : Db.authored.predictions = [] := rfl
  rw [hempty]
  exact List.forall_mem_nil _

/-- Two views under labels of their own get rows of their own. -/
theorem registerFromStage_says_views :
    ∃ found, (commit (registerFromStage (.quiet 0) 0
        [.view (.str "bull") (.str "buy"), .view (.str "bear") (.str "sell")]) .authored).result =
          .ok found ∧
      SaysWhat (Env.quiet 0).runtime found
        [.view (.str "bull") (.str "buy"), .view (.str "bear") (.str "sell")] := by
  have hsha : Function.Injective (Env.quiet 0).runtime.sha256 := Function.injective_id
  have hlegal : Schema.violation Db.authored = none := by decide +kernel
  have hstage : Db.authored.stages[0]? = some .author := rfl
  have hrun : Db.authored.runs[RunStage.author.runId]? = some .initiating := rfl
  refine (registerFromStage_says_iff hsha hlegal Db.authored_keyed Db.authored_fresh hstage hrun
    ?_).2 ?_
  · refine List.forall_mem_cons.2 ⟨PredictionIn.stores_view, List.forall_mem_cons.2 ⟨?_, ?_⟩⟩
    · exact PredictionIn.stores_view
    · exact List.forall_mem_nil _
  · have hkeys : (PredictionIn.view (.str "bull") (.str "buy")).keyText 0 ≠
        (PredictionIn.view (.str "bear") (.str "sell")).keyText 0 := by decide +kernel
    refine ⟨fun first hfirst second hsecond hkey => ?_, List.forall_mem_cons.2 ⟨by rintro d ⟨⟩,
      List.forall_mem_cons.2 ⟨by rintro d ⟨⟩, List.forall_mem_nil _⟩⟩⟩
    simp only [List.mem_cons, List.not_mem_nil, or_false] at hfirst hsecond
    obtain rfl | rfl := hfirst <;> obtain rfl | rfl := hsecond
    · rfl
    · exact absurd hkey hkeys
    · exact absurd hkey.symm hkeys
    · rfl

/-- Two stances under one label share the row of the first, and the second is dropped. -/
theorem not_registerFromStage_says_stances :
    ¬ ∀ (env : Env) (db : Db) (stageId : Nat) (stage : RunStage) (run : Run)
      (entries : List PredictionIn), Function.Injective env.runtime.sha256 →
      Schema.violation db = none → db.Keyed env.runtime →
      (∀ row ∈ db.predictions, row.stageId ≠ stageId) → db.stages[stageId]? = some stage →
      db.runs[stage.runId]? = some run →
      (∀ entry ∈ entries, entry.Stores env stageId stage run) →
      ∃ found, (commit (registerFromStage env stageId entries) db).result = .ok found ∧
        SaysWhat env.runtime found entries := by
  intro hclaim
  obtain ⟨found, hresult, hagrees⟩ := hclaim (.quiet 0) .authored 0 .author .initiating
    [.view (.str "bull") (.str "buy"), .view (.str "bull") (.str "sell")] Function.injective_id
    (by decide +kernel) Db.authored_keyed Db.authored_fresh rfl rfl
    (List.forall_mem_cons.2 ⟨PredictionIn.stores_view,
      List.forall_mem_cons.2 ⟨PredictionIn.stores_view, List.forall_mem_nil _⟩⟩)
  have hrows : (commit (registerFromStage (.quiet 0) 0
      [.view (.str "bull") (.str "buy"), .view (.str "bull") (.str "sell")]) .authored).result.map
        (·.map (·.map (·.stance))) = .ok [some (some "buy"), some (some "buy")] := by decide +kernel
  rw [hresult] at hrows
  have hbuys : found.map (·.map (·.stance)) = [some (some "buy"), some (some "buy")] :=
    Except.ok.inj hrows
  have hstances : (found.map (·.map Prediction.said)).map (·.map Saying.stance) =
      (found.map (·.map (·.stance))).map (·.map some) := by
    rw [List.map_map, List.map_map]
    exact List.map_congr_left fun row _ => by cases row <;> rfl
  rw [hagrees, hbuys] at hstances
  exact absurd hstances (by decide +kernel)

end AiFund
