import AiFund.Library.Errors
import AiFund.PredictionSystem
import Mathlib.Data.List.Dedup

/-!
# What the prediction ledger keeps

What one operation does to the predictions, and from it what every history keeps of them.
-/

namespace AiFund

open UnitOfWork Rows

variable {runtime : Runtime} {env env' : Env} {db db' : Db} {s s' : Session Db} {stageId : Nat}
  {stage : RunStage} {run : Run} {entry : PredictionIn} {entries : List PredictionIn}
  {row row' : Prediction} {op : PredictionOp}

/-! ## Rows -/

theorem Prediction.inserted_setattr {column : MutableColumn} {value : PyValue}
    (h : row.setattr column value = .ok row') : row'.inserted = row.inserted := by
  unfold setattr at h
  cases column with
  | status =>
      cases htext : bound value.text with
      | error error => simp [htext, bind, Except.bind] at h
      | ok text =>
          cases hstatus : storedStatus text with
          | error error => simp [htext, hstatus, bind, Except.bind] at h
          | ok status =>
              simp only [htext, hstatus, bind, Except.bind, pure, Except.pure] at h
              cases h
              rfl
  | supersededById | supersededRunId | scoredAt | realizedPrice | realizedReturn | errorPct |
      outcomeNotes =>
      simp only [bind, Except.bind] at h
      split at h
      · cases h
      · cases h
        rfl

theorem Prediction.inserted_setattrs {fields : List (MutableColumn × PyValue)}
    (h : row.setattrs fields = .ok row') : row'.inserted = row.inserted := by
  induction fields generalizing row with
  | nil =>
      cases h
      rfl
  | cons field fields ih =>
      change (row.setattr field.1 field.2 >>= fun row => row.setattrs fields) = .ok row' at h
      cases hfirst : row.setattr field.1 field.2 with
      | error error =>
          rw [hfirst] at h
          cases h
      | ok row₁ =>
          rw [hfirst] at h
          exact (ih h).trans (inserted_setattr hfirst)

/-- Rows with the same immutable columns agree on each of them. -/
theorem Prediction.eq_of_inserted {β : Type} (h : row'.inserted = row.inserted)
    (column : Prediction → β) (hcolumn : ∀ row, column row.inserted = column row) :
    column row' = column row := by
  calc
    column row' = column row'.inserted := (hcolumn row').symm
    _ = column row.inserted := by rw [h]
    _ = column row := hcolumn row

def PredictionIn.key (runtime : Runtime) (stageId : Nat) (entry : PredictionIn) : String :=
  runtime.sha256 (entry.keyText stageId)

/-- A row as an entry of a stage registers it. -/
structure Prediction.RegisteredBy (row : Prediction) (env : Env) (stageId : Nat) (stage : RunStage)
    (run : Run) (entry : PredictionIn) : Prop where
  key : row.idempotencyKey = entry.key env.runtime stageId
  ofStage : row.stageId = stageId
  house : row.house = stage.house
  runId : row.runId = stage.runId
  coverageId : run.coverageId = some row.coverageId
  /-- The clock enters the row as its creation time only. -/
  again : ∀ env', env'.runtime = env.runtime →
    entry.toRow env' stageId stage run = .ok { row with createdAt := env'.now }

theorem PredictionIn.registeredBy_toRow (h : entry.toRow env stageId stage run = .ok row) :
    row.RegisteredBy env stageId stage run entry := by
  simp only [toRow, ok_bind_iff] at h
  obtain ⟨coverageId, hcoverage, kind, hkind, currency, hcurrency, stance, hstance, label, hlabel,
    direction, hdirection, hrow⟩ := h
  cases hrow
  cases hrun : run.coverageId with
  | none => simp [hrun, required] at hcoverage
  | some found =>
      rw [hrun] at hcoverage
      cases hcoverage
      refine ⟨rfl, rfl, rfl, rfl, hrun, fun env' hruntime => ?_⟩
      simp only [toRow, ok_bind_iff, hruntime, hrun]
      exact ⟨coverageId, rfl, kind, hkind, currency, hcurrency, stance, hstance, label, hlabel,
        direction, hdirection, rfl⟩

/-! ## Registration -/

/-- The row that a key finds. -/
def Db.predictionOf (db : Db) (key : String) : Option Prediction :=
  db.predictions.find? fun row => row.idempotencyKey = key

theorem Db.insertPrediction_of_found (hrow : row' ∈ db.predictions)
    (hkey : row'.idempotencyKey = row.idempotencyKey) : db.insertPrediction row = db := by
  unfold insertPrediction
  rw [if_pos]
  simpa using ⟨row', hrow, hkey⟩

theorem Db.insertPrediction_grows (db : Db) (row : Prediction) :
    ∃ rows, db.insertPrediction row = { db with predictions := db.predictions ++ rows } ∧
      (∀ new ∈ rows, new = row) ∧
      ((db.insertPrediction row).predictionOf row.idempotencyKey).isSome := by
  unfold insertPrediction predictionOf
  split
  · rename_i hany
    refine ⟨[], by simp, List.forall_mem_nil _, ?_⟩
    rwa [List.find?_isSome, ← List.any_eq_true]
  · rename_i hany
    refine ⟨[row], rfl, by simp, ?_⟩
    simp

/-- A row that a key finds stays the one it finds when rows are added. -/
theorem Db.predictionOf_append {rows : List Prediction} {key : String}
    (h : (db.predictionOf key).isSome) :
    ({ db with predictions := db.predictions ++ rows } : Db).predictionOf key =
      db.predictionOf key := by
  obtain ⟨found, hfound⟩ := Option.isSome_iff_exists.1 h
  unfold predictionOf at hfound ⊢
  simp [List.find?_append, hfound]

theorem returns_registerEntry {found : Option Prediction} :
    Returns (registerEntry env stageId stage run entry) s found s' ↔
      ∃ row, entry.toRow env stageId stage run = .ok row ∧
        Schema.violation (s.stored.insertPrediction row) = none ∧
        found = (s.stored.insertPrediction row).predictionOf row.idempotencyKey ∧
        s' = s.write (s.stored.insertPrediction row) (s.loaded.insertPrediction row) := by
  unfold registerEntry
  simp only [returns_ofExcept_bind, returns_execute_bind, returns_select]
  rfl

/-- The rows of `entries` after their registration in `db`. -/
structure Registers (env : Env) (stageId : Nat) (stage : RunStage) (run : Run) (db db' : Db)
    (entries : List PredictionIn) (found : List (Option Prediction)) : Prop where
  grows : ∃ rows, db' = { db with predictions := db.predictions ++ rows } ∧
    ∀ row ∈ rows, ∃ entry ∈ entries, row.RegisteredBy env stageId stage run entry
  present : ∀ entry ∈ entries, (db'.predictionOf (entry.key env.runtime stageId)).isSome ∧
    ∃ row, entry.toRow env stageId stage run = .ok row
  finds : found = entries.map fun entry => db'.predictionOf (entry.key env.runtime stageId)

theorem returns_registerEntries {found : List (Option Prediction)} (hs : s.loaded = s.stored)
    (h : Returns (entries.mapM (registerEntry env stageId stage run)) s found s') :
    s'.loaded = s'.stored ∧ Registers env stageId stage run s.stored s'.stored entries found := by
  induction entries generalizing s found with
  | nil =>
      rw [List.mapM_nil] at h
      obtain ⟨rfl, rfl⟩ := returns_pure.1 h
      exact ⟨hs, ⟨[], by simp, List.forall_mem_nil _⟩, List.forall_mem_nil _, rfl⟩
  | cons entry entries ih =>
      rw [List.mapM_cons] at h
      obtain ⟨first, s₁, hfirst, h⟩ := returns_bind.1 h
      obtain ⟨rest, s₂, hrest, hpure⟩ := returns_bind.1 h
      obtain ⟨rfl, rfl⟩ := returns_pure.1 hpure
      obtain ⟨row, hrow, -, rfl, rfl⟩ := returns_registerEntry.1 hfirst
      have hregistered := entry.registeredBy_toRow hrow
      obtain ⟨hsynced, ⟨rows, hrows, howned⟩, hpresent, rfl⟩ :=
        ih (by simp [Session.write, hs]) hrest
      obtain ⟨new, hgrown, hnew, hsome⟩ := s.stored.insertPrediction_grows row
      have hkept : s'.stored.predictionOf (entry.key env.runtime stageId) =
          (s.stored.insertPrediction row).predictionOf (entry.key env.runtime stageId) := by
        rw [hrows, ← hregistered.key]
        exact Db.predictionOf_append hsome
      rw [hregistered.key] at hsome ⊢
      refine ⟨hsynced, ⟨new ++ rows, ?_, ?_⟩, List.forall_mem_cons.2 ⟨⟨?_, row, hrow⟩, hpresent⟩, ?_⟩
      · rw [hrows]
        simp [Session.write, hgrown]
      · intro other hother
        rcases List.mem_append.1 hother with hmem | hmem
        · obtain rfl := hnew other hmem
          exact ⟨entry, List.mem_cons_self, hregistered⟩
        · obtain ⟨entry', hentry', hother⟩ := howned other hmem
          exact ⟨entry', List.mem_cons_of_mem _ hentry', hother⟩
      · rw [hkept]
        exact hsome
      · rw [List.map_cons, hkept]

theorem returns_registerFromStage {found : List (Option Prediction)}
    (h : Returns (registerFromStage env stageId entries) (Session.clean db) found s') :
    ∃ stage run, db.stages[stageId]? = some stage ∧ db.runs[stage.runId]? = some run ∧
      Registers env stageId stage run db s'.loaded entries found := by
  obtain ⟨-, stage, hstage, h⟩ := returns_getRow_bind.1 h
  obtain ⟨-, run, hrun, h⟩ := returns_getRow_bind.1 h
  obtain ⟨rows, s₁, hrows, h⟩ := returns_bind.1 h
  obtain ⟨-, h⟩ := returns_flush_bind.1 h
  obtain ⟨rfl, rfl⟩ := returns_pure.1 h
  obtain ⟨hsynced, hregisters⟩ := returns_registerEntries rfl hrows
  refine ⟨stage, run, hstage, hrun, ?_⟩
  simp only [Session.write, hsynced]
  exact hregisters

/-! ## Scoring and superseding -/

/-- A row is rewritten in its mutable columns, if there is one. -/
def Rewrites (db db' : Db) : Prop :=
  ∃ (id : Nat) (f : Prediction → Prediction), db' = db.updatePrediction id f ∧
    ∀ row, db.predictions[id]? = some row → (f row).inserted = row.inserted

theorem rewrites_self : Rewrites db db := by
  refine ⟨0, fun row => row, ?_, fun _ _ => rfl⟩
  have hmodify : db.predictions.modify 0 (fun row => row) = db.predictions := List.modify_id _ _
  rw [Db.updatePrediction, hmodify]

theorem returns_updatePrediction {predictionId : Nat} {fields : List (String × PyValue)}
    {found : Option Prediction}
    (h : Returns (updatePrediction predictionId fields) (Session.clean db) found s') :
    Rewrites db s'.loaded := by
  unfold updatePrediction at h
  split at h
  · exact absurd h not_returns_raise
  rw [returns_lookup_bind] at h
  split at h
  · split at h
    · obtain ⟨-, h⟩ := returns_flush_bind.1 h
      obtain ⟨-, rfl⟩ := returns_pure.1 h
      exact rewrites_self
    · obtain ⟨_, _, h, -⟩ := returns_bind.1 h
      exact absurd h not_returns_raise
  · rename_i row hlookup
    split_ifs at hlookup with hid
    obtain ⟨updated, hupdated, h⟩ := returns_ofExcept_bind.1 h
    obtain ⟨-, h⟩ := returns_flush_bind.1 (returns_assign_bind.1 h)
    obtain ⟨-, rfl⟩ := returns_pure.1 h
    refine ⟨predictionId, fun _ => updated, rfl, fun row' hrow' => ?_⟩
    cases hlookup.symm.trans hrow'
    exact Prediction.inserted_setattrs hupdated

theorem returns_supersede {predictionId byPredictionId runId : Nat} {u : Unit}
    (h : Returns (supersede predictionId byPredictionId runId) (Session.clean db) u s') :
    Rewrites db s'.loaded := by
  obtain ⟨-, row, -, h⟩ := returns_getRow_bind.1 h
  obtain ⟨-, rfl⟩ := returns_flush.1 (returns_assign_bind.1 h)
  exact ⟨predictionId, _, rfl, fun _ _ => rfl⟩

theorem returns_score {predictionId : Nat} {status : String}
    {realizedPrice realizedReturn errorPct : Option PyValue} {outcomeNotes : Option String} {u : Unit}
    (h : Returns (score env predictionId status realizedPrice realizedReturn errorPct outcomeNotes)
      (Session.clean db) u s') : Rewrites db s'.loaded := by
  obtain ⟨-, row, hrow, h⟩ := returns_getRow_bind.1 h
  obtain ⟨scored, hscored, h⟩ := returns_ofExcept_bind.1 h
  obtain ⟨-, rfl⟩ := returns_flush.1 (returns_assign_bind.1 h)
  refine ⟨predictionId, fun _ => scored, rfl, fun row' hrow' => ?_⟩
  cases hrow.symm.trans hrow'
  exact Prediction.inserted_setattrs hscored

/-! ## One operation -/

theorem PredictionOp.moves {found : List (Option Prediction)}
    (h : Returns (op.perform runtime) (Session.clean db) found s') :
    (∃ stageId entries stage run, op.call = .registerFromStage stageId entries ∧
      db.stages[stageId]? = some stage ∧ db.runs[stage.runId]? = some run ∧
      Registers { op.env with runtime } stageId stage run db s'.loaded entries found) ∨
    Rewrites db s'.loaded := by
  unfold perform at h
  split at h
  · rename_i hcall
    obtain ⟨stage, run, hstage, hrun, hregisters⟩ := returns_registerFromStage h
    exact .inl ⟨_, _, stage, run, hcall, hstage, hrun, hregisters⟩
  · obtain ⟨_, s₁, hupdate, hpure⟩ := returns_bind.1 h
    obtain ⟨rfl, rfl⟩ := returns_pure.1 hpure
    exact .inr (returns_updatePrediction hupdate)
  · obtain ⟨_, s₁, hsupersede, hpure⟩ := returns_bind.1 h
    obtain ⟨rfl, rfl⟩ := returns_pure.1 hpure
    exact .inr (returns_supersede hsupersede)
  · obtain ⟨_, s₁, hscore, hpure⟩ := returns_bind.1 h
    obtain ⟨rfl, rfl⟩ := returns_pure.1 hpure
    exact .inr (returns_score hscore)

/-- Rows are added to the ledger of `db`, and its rows keep their immutable columns. -/
structure Db.Grows (db db' : Db) : Prop where
  stages : db'.stages = db.stages
  runs : db'.runs = db.runs
  kept : ∀ (id : Nat) (row : Prediction), db.predictions[id]? = some row →
    ∃ row', db'.predictions[id]? = some row' ∧ row'.inserted = row.inserted

theorem Db.Grows.refl (db : Db) : db.Grows db := ⟨rfl, rfl, fun _ row hrow => ⟨row, hrow, rfl⟩⟩

theorem Db.Grows.trans {db₁ : Db} (h : db.Grows db₁) (h' : db₁.Grows db') : db.Grows db' := by
  refine ⟨h'.stages.trans h.stages, h'.runs.trans h.runs, fun id row hrow => ?_⟩
  obtain ⟨row₁, hrow₁, hinserted⟩ := h.kept id row hrow
  obtain ⟨row', hrow', hinserted'⟩ := h'.kept id row₁ hrow₁
  exact ⟨row', hrow', hinserted'.trans hinserted⟩

theorem Rewrites.grows (h : Rewrites db db') : db.Grows db' := by
  obtain ⟨changed, f, rfl, hf⟩ := h
  refine ⟨rfl, rfl, fun id row hrow => ?_⟩
  change ∃ row', (db.predictions.modify changed f)[id]? = some row' ∧ _
  rcases eq_or_ne id changed with rfl | hid
  · exact ⟨f row, getElem?_modify_self hrow, hf row hrow⟩
  · exact ⟨row, (getElem?_modify_of_ne hid).trans hrow, rfl⟩

theorem Registers.grows_db {found : List (Option Prediction)}
    (h : Registers env stageId stage run db db' entries found) : db.Grows db' := by
  obtain ⟨rows, rfl, -⟩ := h.grows
  exact ⟨rfl, rfl, fun id row hrow => ⟨row, getElem?_append_of_some hrow, rfl⟩⟩

def Db.Owned (db : Db) : Prop := ∀ row ∈ db.predictions, db.Owns row

theorem Db.Owns.of_inserted (h : db.Owns row) (hinserted : row'.inserted = row.inserted)
    (hstages : db'.stages = db.stages) (hruns : db'.runs = db.runs) : db'.Owns row' := by
  obtain ⟨stage, run, hstage, hhouse, hrunId, hrun, hcoverage⟩ := h
  have hstageId := Prediction.eq_of_inserted hinserted (·.stageId) fun _ => rfl
  have hhouse' := Prediction.eq_of_inserted hinserted (·.house) fun _ => rfl
  have hrunId' := Prediction.eq_of_inserted hinserted (·.runId) fun _ => rfl
  have hcoverage' := Prediction.eq_of_inserted hinserted (·.coverageId) fun _ => rfl
  refine ⟨stage, run, ?_, hhouse'.trans hhouse, hrunId'.trans hrunId, ?_, ?_⟩
  · rw [hstages, hstageId]
    exact hstage
  · rw [hruns]
    exact hrun
  · rw [hcoverage, hcoverage']

theorem Rewrites.owned (h : Rewrites db db') (hdb : db.Owned) : db'.Owned := by
  obtain ⟨changed, f, rfl, hf⟩ := h
  intro row hrow
  obtain ⟨id, hid⟩ := List.getElem?_of_mem hrow
  change (db.predictions.modify changed f)[id]? = some row at hid
  obtain ⟨rfl, old, hold, rfl⟩ | ⟨-, hold⟩ := getElem?_modify_cases hid
  · exact (hdb old (List.mem_of_getElem? hold)).of_inserted (hf old hold) rfl rfl
  · exact (hdb row (List.mem_of_getElem? hold)).of_inserted rfl rfl rfl

theorem Registers.owned {found : List (Option Prediction)}
    (h : Registers env stageId stage run db db' entries found)
    (hstage : db.stages[stageId]? = some stage) (hrun : db.runs[stage.runId]? = some run)
    (hdb : db.Owned) : db'.Owned := by
  obtain ⟨rows, rfl, hrows⟩ := h.grows
  intro row hrow
  rcases List.mem_append.1 hrow with hold | hnew
  · exact (hdb row hold).of_inserted rfl rfl rfl
  · obtain ⟨entry, -, hregistered⟩ := hrows row hnew
    exact ⟨stage, run, by rw [hregistered.ofStage]; exact hstage, hregistered.house,
      hregistered.runId, hrun, hregistered.coverageId⟩

/-! ## Every history -/

theorem PredictionOp.step_keeps (runtime : Runtime) (op : PredictionOp) (hdb : db.Owned) :
    db.Grows (op.step runtime db) ∧ (op.step runtime db).Owned := by
  unfold step exec
  obtain ⟨error, hcommit⟩ | ⟨found, s, h, -, hcommit⟩ := commit_cases (op.perform runtime) db
  · rw [hcommit]
    exact ⟨.refl db, hdb⟩
  rw [hcommit]
  obtain ⟨stageId, entries, stage, run, -, hstage, hrun, hregisters⟩ | hrewrites := op.moves h
  · exact ⟨hregisters.grows_db, hregisters.owned hstage hrun hdb⟩
  · exact ⟨hrewrites.grows, hrewrites.owned hdb⟩

theorem runPredictions_keeps (runtime : Runtime) (hdb : db.Owned) (ops : List PredictionOp) :
    db.Grows (runPredictions runtime db ops) ∧ (runPredictions runtime db ops).Owned := by
  refine History.invariant_of_forall (I := fun db' : Db => db.Grows db' ∧ db'.Owned)
    (fun db' op h => ?_) ⟨.refl db, hdb⟩
  obtain ⟨hgrows, howned⟩ := op.step_keeps runtime h.2
  exact ⟨h.1.trans hgrows, howned⟩

theorem runPredictions_violation (hdb : Schema.violation db = none) (ops : List PredictionOp) :
    Schema.violation (runPredictions runtime db ops) = none :=
  History.invariant_of_forall (I := fun db : Db => Schema.violation db = none)
    (fun _ _ h => commit_violation h) hdb

theorem nodup_predictionKeys (hdb : Schema.violation db = none) :
    (db.predictions.map (·.idempotencyKey)).Nodup := by
  have hrule := Db.violation_eq_none.1 hdb ("uq_predictions_idempotency_key",
    fun db => (db.predictions.map (·.idempotencyKey)).Nodup) (by simp [constraints])
  exact of_decide_eq_true hrule

theorem Db.predictionOf_eq {id : Nat} (hdb : Schema.violation db = none)
    (hrow : db.predictions[id]? = some row) :
    db.predictionOf row.idempotencyKey = some row := by
  have hmem := List.mem_of_getElem? hrow
  cases hfound : db.predictionOf row.idempotencyKey with
  | none =>
      have hnone := List.find?_eq_none.1 hfound row hmem
      simp at hnone
  | some found =>
      have hkey : found.idempotencyKey = row.idempotencyKey := by
        simpa using List.find?_some hfound
      have hinj := List.inj_on_of_nodup_map (nodup_predictionKeys hdb)
      rw [hinj (List.mem_of_find?_eq_some hfound) hmem hkey]

/-! ## Registering again -/

/-- A key that finds a row finds the same row in a ledger that has grown. -/
theorem Db.Grows.sameRow {key : String} (h : db.Grows db') (hdb' : Schema.violation db' = none)
    (hfound : (db.predictionOf key).isSome) :
    SameRow db db' (db.predictionOf key) (db'.predictionOf key) := by
  obtain ⟨row, hrow⟩ := Option.isSome_iff_exists.1 hfound
  obtain ⟨id, hid⟩ := List.getElem?_of_mem (List.mem_of_find?_eq_some hrow)
  have hkey : row.idempotencyKey = key := by simpa using List.find?_some hrow
  obtain ⟨row', hid', hinserted⟩ := h.kept id row hid
  have hkey' : row'.idempotencyKey = key :=
    (Prediction.eq_of_inserted hinserted (·.idempotencyKey) fun _ => rfl).trans hkey
  refine ⟨id, row, row', hrow, hid, ?_, hid'⟩
  rw [← hkey']
  exact Db.predictionOf_eq hdb' hid'

theorem returns_registerEntries_again (hdb : Schema.violation db = none)
    (hentries : ∀ entry ∈ entries, (db.predictionOf (entry.key env.runtime stageId)).isSome ∧
      ∃ row, entry.toRow env stageId stage run = .ok row)
    (hstored : s.stored = db) (hloaded : s.loaded = db) :
    ∃ s', Returns (entries.mapM (registerEntry env stageId stage run)) s
      (entries.map fun entry => db.predictionOf (entry.key env.runtime stageId)) s' ∧
      s'.stored = db ∧ s'.loaded = db := by
  induction entries generalizing s with
  | nil =>
      rw [List.mapM_nil]
      exact ⟨s, returns_pure.2 ⟨rfl, rfl⟩, hstored, hloaded⟩
  | cons entry entries ih =>
      obtain ⟨hfound, row, hrow⟩ := hentries entry List.mem_cons_self
      have hkey := (entry.registeredBy_toRow hrow).key
      obtain ⟨old, hold⟩ := Option.isSome_iff_exists.1 hfound
      have holdKey : old.idempotencyKey = row.idempotencyKey := by
        rw [hkey]
        simpa using List.find?_some hold
      have hsame : db.insertPrediction row = db :=
        Db.insertPrediction_of_found (List.mem_of_find?_eq_some hold) holdKey
      have hfirst : Returns (registerEntry env stageId stage run entry) s
          (db.predictionOf (entry.key env.runtime stageId)) (s.write db db) := by
        refine returns_registerEntry.2 ⟨row, hrow, ?_, ?_, ?_⟩ <;>
          simp only [hstored, hloaded, hsame, hdb, hkey]
      obtain ⟨s', hrest, hstored', hloaded'⟩ :=
        ih (fun entry hentry => hentries entry (List.mem_cons_of_mem _ hentry))
          (s := s.write db db) rfl rfl
      refine ⟨s', ?_, hstored', hloaded'⟩
      rw [List.mapM_cons, List.map_cons]
      exact returns_bind.2 ⟨_, _, hfirst, returns_bind.2 ⟨_, _, hrest, returns_pure.2 ⟨rfl, rfl⟩⟩⟩

/-- Entries whose keys are registered are registered again without a change. -/
theorem commit_registerFromStage_again (env : Env) (hdb : Schema.violation db = none)
    (hstage : db.stages[stageId]? = some stage) (hrun : db.runs[stage.runId]? = some run)
    (hentries : ∀ entry ∈ entries, (db.predictionOf (entry.key env.runtime stageId)).isSome ∧
      ∃ row, entry.toRow env stageId stage run = .ok row) :
    (commit (registerFromStage env stageId entries) db).result =
        .ok (entries.map fun entry => db.predictionOf (entry.key env.runtime stageId)) ∧
      (commit (registerFromStage env stageId entries) db).after = db := by
  obtain ⟨s', hrows, hstored, hloaded⟩ :=
    returns_registerEntries_again hdb hentries (s := Session.clean db) rfl rfl
  have hreturns : Returns (registerFromStage env stageId entries) (Session.clean db)
      (entries.map fun entry => db.predictionOf (entry.key env.runtime stageId))
      (s'.write db db) := by
    refine returns_getRow_bind.2 ⟨(List.getElem?_eq_some_iff.1 hstage).1, stage, hstage, ?_⟩
    refine returns_getRow_bind.2 ⟨(List.getElem?_eq_some_iff.1 hrun).1, run, hrun, ?_⟩
    refine returns_bind.2 ⟨_, s', hrows, returns_flush_bind.2 ⟨by rw [hloaded]; exact hdb, ?_⟩⟩
    rw [hloaded]
    exact returns_pure.2 ⟨rfl, rfl⟩
  rw [commit_of_returns hreturns hdb]
  exact ⟨rfl, rfl⟩

theorem PredictionOp.registers_again (env' : Env) {found : List (Option Prediction)}
    (hfirst : (exec runtime db ⟨env, .registerFromStage stageId entries⟩).result = .ok found)
    (hgrows : (step runtime db ⟨env, .registerFromStage stageId entries⟩).Grows db')
    (hdb' : Schema.violation db' = none) :
    ∃ found', (exec runtime db' ⟨env', .registerFromStage stageId entries⟩).result = .ok found' ∧
      step runtime db' ⟨env', .registerFromStage stageId entries⟩ = db' ∧
      found'.length = entries.length ∧
      List.Forall₂ (SameRow (step runtime db ⟨env, .registerFromStage stageId entries⟩) db') found
        found' := by
  obtain ⟨s, hreturns, -, hafter⟩ := commit_result hfirst
  obtain ⟨stage, run, hstage, hrun, hregisters⟩ := returns_registerFromStage hreturns
  have hdb₁ : step runtime db ⟨env, .registerFromStage stageId entries⟩ = s.loaded := hafter
  rw [hdb₁] at hgrows ⊢
  obtain ⟨rows, hrows, -⟩ := hregisters.grows
  have hfinds := hregisters.finds
  have hentries : ∀ entry ∈ entries, (db'.predictionOf (entry.key runtime stageId)).isSome ∧
      ∃ row, entry.toRow { env' with runtime } stageId stage run = .ok row := by
    intro entry hentry
    obtain ⟨hfound, row, hrow⟩ := hregisters.present entry hentry
    obtain ⟨_, _, row', -, -, hfound', -⟩ := hgrows.sameRow hdb' hfound
    refine ⟨Option.isSome_iff_exists.2 ⟨row', hfound'⟩, { row with createdAt := env'.now }, ?_⟩
    exact (entry.registeredBy_toRow hrow).again { env' with runtime } rfl
  have hstage' : db'.stages[stageId]? = some stage := by
    rw [hgrows.stages, hregisters.grows_db.stages]
    exact hstage
  have hrun' : db'.runs[stage.runId]? = some run := by
    rw [hgrows.runs, hregisters.grows_db.runs]
    exact hrun
  have hagain :=
    commit_registerFromStage_again { env' with runtime } hdb' hstage' hrun' hentries
  refine ⟨_, hagain.1, hagain.2, List.length_map _, ?_⟩
  rw [hregisters.finds, List.forall₂_map_left_iff, List.forall₂_map_right_iff, List.forall₂_same]
  exact fun entry hentry => hgrows.sameRow hdb' (hregisters.present entry hentry).1

/-- Whatever is registered, scored and superseded in whatever order, the ledger keeps its rows. -/
theorem keepsPredictions (runtime : Runtime) (hdb : Schema.violation db = none) (howned : db.Owned)
    (ops : List PredictionOp) : KeepsPredictions runtime db ops := by
  constructor
  · rintro earlier later id row rfl hrow
    have hlater := (runPredictions_keeps runtime
      (runPredictions_keeps runtime howned earlier).2 later).1
    unfold runPredictions
    rw [History.run_append]
    exact hlater.kept id row hrow
  · rintro predictionId fields s ⟨field, hfield, hcolumn⟩
    have hmem : field.1 ∈ immutableColumns fields := by
      unfold immutableColumns
      rw [List.mem_insertionSort, List.mem_dedup, List.mem_filter]
      exact ⟨List.mem_map_of_mem hfield, by simp [hcolumn]⟩
    unfold updatePrediction
    rw [if_pos (List.ne_nil_of_mem hmem)]
    rfl
  · exact nodup_predictionKeys (runPredictions_violation hdb ops)
  · exact (runPredictions_keeps runtime howned ops).2
  · rintro earlier between env env' stageId entries found rfl hfirst
    let first : PredictionOp := ⟨env, .registerFromStage stageId entries⟩
    have hrun (ops : List PredictionOp) : runPredictions runtime db (earlier ++ first :: ops) =
        runPredictions runtime (first.step runtime (runPredictions runtime db earlier)) ops :=
      History.run_append _
    have hfirstOwned := (first.step_keeps runtime
      (runPredictions_keeps runtime howned earlier).2).2
    have hgrows := (runPredictions_keeps runtime hfirstOwned between).1
    rw [← hrun] at hgrows
    obtain ⟨found', hresult, hsame, hlength, hrows⟩ := PredictionOp.registers_again env'
      hfirst hgrows (runPredictions_violation hdb _)
    refine ⟨found', hresult, ?_, hlength, ?_⟩
    · rw [runPredictions, History.run_append]
      exact congrArg Db.predictions hsame
    · rw [hrun]
      exact hrows

/-- A coverage whose run has an author stage. -/
def Db.authored : Db where
  houses := [{ key := "claude" }]
  coverages :=
    [{ ticker := "7203", exchange := "TSE", name := "Toyota", currency := "JPY",
       state := .initiating, dossierSlug := "tse-7203" }]
  runs :=
    [{ coverageId := some 0, type := .initiation, status := .running, trigger := "pm",
       mutatesDossier := true, createdAt := 0 }]
  stages :=
    [{ runId := 0, seq := 1, role := .author, house := "claude", substrate := .harness,
       availableAt := 0, maxAttempts := 3 }]

/-- Two entries, one of them twice, that are scored and superseded after their registration. -/
def PredictionOp.scored : List PredictionOp :=
  let stance (label : String) : PredictionIn :=
    { kind := .str "stance", horizonDate := ⟨2027, 1, 1⟩, scenarioLabel := .str label }
  [⟨.quiet 0, .registerFromStage 0 [stance "bull", stance "bear", stance "bull"]⟩,
    ⟨.quiet 1, .score 0 "hit" none none none (some "reached")⟩,
    ⟨.quiet 2, .updatePrediction 0 [("house", .str "gemini")]⟩,
    ⟨.quiet 3, .supersede 0 1 0⟩,
    ⟨.quiet 4, .registerFromStage 0 [stance "bear", stance "bull"]⟩]

theorem keepsPredictions_scored :
    ((runPredictions .strict .authored PredictionOp.scored).predictions.map fun row =>
        (row.status, row.scoredAt)) = [(.superseded, some 1), (.opened, none)] ∧
      KeepsPredictions .strict .authored PredictionOp.scored :=
  have howned : Db.authored.Owned := List.forall_mem_nil _
  ⟨by decide +kernel, keepsPredictions .strict (by decide +kernel) howned _⟩

end AiFund
