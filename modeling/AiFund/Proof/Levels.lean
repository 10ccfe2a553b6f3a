import AiFund.LevelSystem
import AiFund.Library.Rows

/-!
# What setting levels keeps

A call retires the active rows that are stored of each of its kinds and adds a row for each level.
It does not see the rows that it has just added, so a kind that it names twice gets two active rows.
-/

namespace AiFund

open UnitOfWork Rows

variable {db : Db} {call : LevelsCall} {calls : List LevelsCall} {rows : List CoverageLevel}
  {row : CoverageLevel} {covId : Nat} {kind : String} {s s' : Session Db}

/-! ## One call -/

/-- What a call that names the kinds makes of a stored row. -/
def LevelsCall.supersedes (call : LevelsCall) (levels : List LevelIn) (row : CoverageLevel) :
    CoverageLevel :=
  if row.coverageId = call.covId ∧ (∃ level ∈ levels, level.kind = row.kind) ∧ row.active = true then
    row.retire call.env.now
  else row

/-- The table after the call. -/
def LevelsCall.applied (call : LevelsCall) (rows : List CoverageLevel) : List CoverageLevel :=
  rows.map (call.supersedes call.levels) ++ call.levels.map call.newLevel

theorem returns_forM_updateLevel {ids : List Nat} {f : CoverageLevel → CoverageLevel} {u : Unit} :
    Returns (ids.forM fun id => assign fun db =>
        { db with levels := db.levels.modify id f } : DbTxn Unit) s u s' ↔
      s' = { s with
        loaded :=
          { s.loaded with
            levels := ids.foldl (fun rows id => rows.modify id f) s.loaded.levels } } := by
  have hlevels : ids.foldl (fun db id => { db with levels := db.levels.modify id f }) s.loaded =
      { s.loaded with levels := ids.foldl (fun rows id => rows.modify id f) s.loaded.levels } :=
    List.foldl_hom (fun rows => { s.loaded with levels := rows }) fun _ _ => rfl
  rw [returns_forM_assign, hlevels]

def LevelsCall.meets (call : LevelsCall) (level : LevelIn) (row : CoverageLevel) : Bool :=
  row.coverageId = call.covId && row.kind = level.kind && row.active

theorem LevelsCall.supersedes_concat {levels : List LevelIn} {level : LevelIn} :
    call.supersedes (levels ++ [level]) row =
      if call.meets level row then (call.supersedes levels row).retire call.env.now
      else call.supersedes levels row := by
  by_cases hmatches : call.meets level row = true
  · rw [if_pos hmatches]
    simp only [meets, Bool.and_eq_true, decide_eq_true_eq] at hmatches
    obtain ⟨⟨hcov, hkind⟩, hactive⟩ := hmatches
    have hnew : ∃ other ∈ levels ++ [level], other.kind = row.kind :=
      ⟨level, List.mem_append_right _ List.mem_cons_self, hkind.symm⟩
    unfold supersedes
    rw [if_pos ⟨hcov, hnew, hactive⟩]
    split <;> rfl
  · rw [if_neg hmatches]
    unfold supersedes
    refine if_congr ⟨?_, ?_⟩ rfl rfl
    · rintro ⟨hcov, ⟨other, hother, hkind⟩, hactive⟩
      refine ⟨hcov, ⟨other, ?_, hkind⟩, hactive⟩
      rcases List.mem_append.1 hother with hold | hnew
      · exact hold
      · obtain rfl := List.mem_singleton.1 hnew
        exact absurd (by simp [meets, hcov, hkind, hactive]) hmatches
    · rintro ⟨hcov, ⟨other, hother, hkind⟩, hactive⟩
      exact ⟨hcov, ⟨other, List.mem_append_left _ hother, hkind⟩, hactive⟩

/-- Retiring the stored rows of one more kind. -/
theorem LevelsCall.foldl_retire {level : LevelIn} {ids : List Nat} (levels : List LevelIn)
    (added : List CoverageLevel) (hnodup : ids.Nodup)
    (hids : ∀ id, id ∈ ids ↔ ∃ row, rows[id]? = some row ∧ call.meets level row = true) :
    ids.foldl (fun rows id => rows.modify id (CoverageLevel.retire call.env.now))
        (rows.map (call.supersedes levels) ++ added) =
      rows.map (call.supersedes (levels ++ [level])) ++ added := by
  refine List.ext_getElem? fun id => ?_
  rw [getElem?_foldl_modify hnodup, List.getElem?_append, List.getElem?_append, List.length_map,
    List.length_map, List.getElem?_map, List.getElem?_map]
  cases hrow : rows[id]? with
  | none =>
      have hnot : id ∉ ids := by
        rw [hids, hrow]
        rintro ⟨row, hnone, -⟩
        cases hnone
      rw [if_neg hnot]
      rfl
  | some row =>
      have hlt : id < rows.length := (List.getElem?_eq_some_iff.1 hrow).1
      simp only [hlt, if_true, Option.map_some, supersedes_concat]
      have hmem : id ∈ ids ↔ call.meets level row = true := by
        rw [hids, hrow]
        simp
      by_cases hmatches : call.meets level row = true
      · rw [if_pos (hmem.2 hmatches), if_pos hmatches]
      · rw [if_neg (mt hmem.1 hmatches), if_neg hmatches]

theorem returns_setLevel {level : LevelIn} {levels : List LevelIn} {u : Unit} (hstored : s.stored = db)
    (hloaded : s.loaded =
      { db with
        levels := db.levels.map (call.supersedes levels) ++ levels.map call.newLevel })
    (h : Returns (setLevel call.env call.covId call.setBy call.runId level) s u s') :
    s'.stored = db ∧ s'.loaded =
      { db with
        levels := db.levels.map (call.supersedes (levels ++ [level])) ++
          (levels ++ [level]).map call.newLevel } := by
  unfold setLevel at h
  rw [returns_select_bind] at h
  obtain ⟨_, s₁, hretire, hadd⟩ := returns_bind.1 h
  obtain rfl := returns_forM_updateLevel.1 hretire
  obtain rfl := returns_assign.1 hadd
  refine ⟨hstored, ?_⟩
  have hmatching (id : Nat) : id ∈ (call.env.rows .levels).all (fun row =>
      row.coverageId = call.covId && row.kind = level.kind && row.active) s.stored.levels ↔
      ∃ row, db.levels[id]? = some row ∧ call.meets level row = true := by
    rw [RowOrder.mem_all, hstored]
    rfl
  have hretired := LevelsCall.foldl_retire levels (levels.map call.newLevel)
    (RowOrder.nodup_all _) hmatching
  simp only [hloaded, List.map_append, List.map_singleton, ← List.append_assoc]
  rw [← hretired]
  rfl

theorem returns_setLevels {rest : List LevelIn} {u : Unit} (levels : List LevelIn) (hstored : s.stored = db)
    (hloaded : s.loaded =
      { db with
        levels := db.levels.map (call.supersedes levels) ++ levels.map call.newLevel })
    (h : Returns (rest.forM (setLevel call.env call.covId call.setBy call.runId)) s u s') :
    s'.loaded =
      { db with
        levels := db.levels.map (call.supersedes (levels ++ rest)) ++
          (levels ++ rest).map call.newLevel } := by
  induction rest generalizing s levels with
  | nil =>
      obtain rfl := returns_forM_nil.1 h
      rw [List.append_nil]
      exact hloaded
  | cons level rest ih =>
      obtain ⟨s₁, hlevel, hrest⟩ := returns_forM_cons.1 h
      obtain ⟨hstored₁, hloaded₁⟩ := returns_setLevel hstored hloaded hlevel
      rw [List.append_cons]
      exact ih _ hstored₁ hloaded₁ hrest

theorem LevelsCall.step_cases (db : Db) (call : LevelsCall) :
    ((call.exec db).result.isOk = true ∧ (call.step db).levels = call.applied db.levels) ∨
      ((call.exec db).result.isOk = false ∧ call.step db = db) := by
  unfold step exec
  obtain ⟨error, hcommit⟩ | ⟨u, s, h, -, hcommit⟩ :=
    commit_cases (setLevels call.env call.covId call.levels call.setBy call.runId) db
  · rw [hcommit]
    exact .inr ⟨rfl, rfl⟩
  · rw [hcommit]
    have hnone : call.supersedes [] = fun row => row := by
      funext row
      unfold supersedes
      rw [if_neg]
      rintro ⟨-, ⟨level, hlevel, -⟩, -⟩
      cases hlevel
    have hstart : (Session.clean db).loaded =
        { db with
          levels := db.levels.map (call.supersedes []) ++ List.map call.newLevel [] } := by
      rw [hnone, List.map_id', List.map_nil, List.append_nil]
      rfl
    have hloaded := returns_setLevels [] rfl hstart h
    exact .inl ⟨rfl, congrArg Db.levels hloaded⟩

theorem runLevels_levels (db : Db) (calls : List LevelsCall) :
    (runLevels db calls).levels =
      (committed db calls).foldl (fun rows call => call.applied rows) db.levels := by
  induction calls generalizing db with
  | nil => rfl
  | cons call calls ih =>
      have hrest : runLevels db (call :: calls) = runLevels (call.step db) calls := rfl
      rw [hrest, ih, committed]
      obtain ⟨hok, hlevels⟩ | ⟨herror, hsame⟩ := call.step_cases db
      · rw [if_pos hok, List.foldl_cons, hlevels]
      · rw [if_neg (by rw [herror]; decide), hsame]

/-! ## The rows of a kind -/

theorem LevelsCall.supersedes_key {levels : List LevelIn} :
    (call.supersedes levels row).coverageId = row.coverageId ∧
      (call.supersedes levels row).kind = row.kind := by
  unfold supersedes
  split <;> exact ⟨rfl, rfl⟩

/-- The rows that a call adds to a kind of its coverage. -/
theorem LevelsCall.levelsOf_added (covId : Nat) (kind : String) :
    levelsOf covId kind (call.levels.map call.newLevel) =
      if call.covId = covId then (call.ofKind kind).map call.newLevel else [] := by
  unfold levelsOf ofKind
  rw [List.filter_map]
  by_cases hcov : call.covId = covId
  · rw [if_pos hcov]
    congr 1
    exact List.filter_congr fun level _ => by simp [newLevel, hcov]
  · rw [if_neg hcov, List.filter_eq_nil_iff.2 fun level _ => by simp [newLevel, hcov]]
    rfl

theorem LevelsCall.active_applied (hsets : call.sets covId kind = true) :
    (levelsOf covId kind (call.applied rows)).filter (·.active) =
      (call.ofKind kind).map call.newLevel := by
  simp only [sets, Bool.and_eq_true, decide_eq_true_eq, Bool.not_eq_true',
    List.isEmpty_eq_false_iff] at hsets
  obtain ⟨hcov, hgiven⟩ := hsets
  obtain ⟨level, hlevel⟩ := List.exists_mem_of_ne_nil _ hgiven
  obtain ⟨hlevel, hkind⟩ := List.mem_filter.1 hlevel
  have hold : (levelsOf covId kind (rows.map (call.supersedes call.levels))).filter (·.active) =
      [] := by
    rw [levelsOf, List.filter_filter, List.filter_eq_nil_iff]
    intro row hrow hactive
    obtain ⟨old, -, rfl⟩ := List.mem_map.1 hrow
    simp only [Bool.and_eq_true, decide_eq_true_eq, supersedes_key.1, supersedes_key.2] at hactive
    obtain ⟨hactive, holdCov, holdKind⟩ := hactive
    unfold supersedes at hactive
    split at hactive
    · cases hactive
    · rename_i hspared
      refine hspared ⟨holdCov.trans hcov.symm, ⟨level, hlevel, ?_⟩, hactive⟩
      exact (of_decide_eq_true hkind).trans holdKind.symm
  have hadded : levelsOf covId kind (call.levels.map call.newLevel) =
      if call.covId = covId then (call.ofKind kind).map call.newLevel else [] :=
    levelsOf_added covId kind
  rw [if_pos hcov] at hadded
  have hnew : (levelsOf covId kind (call.levels.map call.newLevel)).filter (·.active) =
      (call.ofKind kind).map call.newLevel := by
    rw [hadded, List.filter_eq_self]
    intro row hrow
    obtain ⟨level, -, rfl⟩ := List.mem_map.1 hrow
    rfl
  calc
    (levelsOf covId kind (call.applied rows)).filter (·.active)
      = (levelsOf covId kind (rows.map (call.supersedes call.levels))).filter (·.active) ++
          (levelsOf covId kind (call.levels.map call.newLevel)).filter (·.active) := by
        rw [applied, levelsOf, List.filter_append, List.filter_append]
        rfl
    _ = (call.ofKind kind).map call.newLevel := by rw [hold, hnew, List.nil_append]

theorem LevelsCall.levelsOf_applied (hsets : call.sets covId kind = false) :
    levelsOf covId kind (call.applied rows) = levelsOf covId kind rows := by
  have hnot (row : CoverageLevel) (hcov : row.coverageId = covId) (hkind : row.kind = kind) :
      call.supersedes call.levels row = row := by
    unfold supersedes
    rw [if_neg]
    rintro ⟨hcall, ⟨level, hlevel, hsame⟩, -⟩
    have hgiven : level ∈ call.ofKind kind :=
      List.mem_filter.2 ⟨hlevel, decide_eq_true (hsame.trans hkind)⟩
    have htrue : call.sets covId kind = true := by
      simp only [sets, Bool.and_eq_true, decide_eq_true_eq, Bool.not_eq_true',
        List.isEmpty_eq_false_iff]
      exact ⟨hcall.symm.trans hcov, List.ne_nil_of_mem hgiven⟩
    rw [hsets] at htrue
    cases htrue
  have hold : levelsOf covId kind (rows.map (call.supersedes call.levels)) =
      levelsOf covId kind rows := by
    unfold levelsOf
    rw [List.filter_map]
    have hsame : ((fun row : CoverageLevel => decide (row.coverageId = covId) &&
        decide (row.kind = kind)) ∘ call.supersedes call.levels) =
        fun row => decide (row.coverageId = covId) && decide (row.kind = kind) := by
      funext row
      simp only [Function.comp, supersedes_key.1, supersedes_key.2]
    rw [hsame]
    calc
      (rows.filter fun row => decide (row.coverageId = covId) && decide (row.kind = kind)).map
          (call.supersedes call.levels)
        = (rows.filter fun row => decide (row.coverageId = covId) && decide (row.kind = kind)).map
            id := by
          refine List.map_congr_left fun row hrow => ?_
          have hmatch := (List.mem_filter.1 hrow).2
          simp only [Bool.and_eq_true, decide_eq_true_eq] at hmatch
          exact hnot row hmatch.1 hmatch.2
      _ = rows.filter fun row => decide (row.coverageId = covId) && decide (row.kind = kind) :=
          List.map_id _
  have hadded : levelsOf covId kind (call.levels.map call.newLevel) = [] := by
    rw [levelsOf_added]
    split
    · rename_i hcov
      simp only [sets, hcov, decide_true, Bool.true_and, Bool.not_eq_false', List.isEmpty_iff]
        at hsets
      rw [hsets]
      rfl
    · rfl
  calc
    levelsOf covId kind (call.applied rows)
      = levelsOf covId kind (rows.map (call.supersedes call.levels)) ++
          levelsOf covId kind (call.levels.map call.newLevel) := List.filter_append ..
    _ = levelsOf covId kind rows := by rw [hold, hadded, List.append_nil]

/-! ## Histories -/

/-- The table after the calls of a history that are committed. -/
def appliedAll (calls : List LevelsCall) (rows : List CoverageLevel) : List CoverageLevel :=
  calls.foldl (fun rows call => call.applied rows) rows

theorem lastSetting_concat :
    lastSetting covId kind (calls ++ [call]) =
      if call.sets covId kind then some call else lastSetting covId kind calls := by
  rw [lastSetting, List.reverse_append, List.reverse_singleton, List.singleton_append,
    List.find?_cons]
  cases call.sets covId kind <;> rfl

theorem appliedAll_concat :
    appliedAll (calls ++ [call]) rows = call.applied (appliedAll calls rows) := by
  rw [appliedAll, List.foldl_append]
  rfl

/-- The active rows of a kind are the ones that the last call to set it has added. -/
theorem active_appliedAll (hlast : lastSetting covId kind calls = some call) :
    (levelsOf covId kind (appliedAll calls rows)).filter (·.active) =
      (call.ofKind kind).map call.newLevel := by
  induction calls using List.reverseRecOn with
  | nil => cases hlast
  | append_singleton calls last ih =>
      rw [lastSetting_concat] at hlast
      rw [appliedAll_concat]
      cases hsets : last.sets covId kind with
      | true =>
          rw [hsets] at hlast
          cases hlast
          exact LevelsCall.active_applied hsets
      | false =>
          rw [hsets] at hlast
          rw [LevelsCall.levelsOf_applied hsets]
          exact ih hlast

theorem levelsOf_appliedAll (hlast : lastSetting covId kind calls = none) :
    levelsOf covId kind (appliedAll calls rows) = levelsOf covId kind rows := by
  induction calls using List.reverseRecOn with
  | nil => rfl
  | append_singleton calls last ih =>
      rw [lastSetting_concat] at hlast
      rw [appliedAll_concat]
      cases hsets : last.sets covId kind with
      | true =>
          rw [hsets] at hlast
          cases hlast
      | false =>
          rw [hsets] at hlast
          rw [LevelsCall.levelsOf_applied hsets]
          exact ih hlast

theorem getElem?_appliedAll {id : Nat} (hrow : rows[id]? = some row) :
    ∃ row', (appliedAll calls rows)[id]? = some row' ∧
      (row' = row ∨ ∃ time, row' = row.retire time) := by
  induction calls using List.reverseRecOn with
  | nil => exact ⟨row, hrow, .inl rfl⟩
  | append_singleton calls last ih =>
      obtain ⟨row', hrow', hretired⟩ := ih
      refine ⟨last.supersedes last.levels row', ?_, ?_⟩
      · rw [appliedAll_concat]
        refine getElem?_append_of_some ?_
        rw [List.getElem?_map, hrow', Option.map_some]
      · unfold LevelsCall.supersedes
        split
        · obtain rfl | ⟨time, rfl⟩ := hretired
          · exact .inr ⟨_, rfl⟩
          · exact .inr ⟨_, rfl⟩
        · exact hretired

/-- The history is kept, and the other kinds and coverages are left alone, whatever is set. One
level of each kind is active, with the value given, exactly if the last call to set the kind names it
once, with no more digits than its column has. -/
theorem levelsKept_iff (db : Db) (calls : List LevelsCall) :
    LevelsKept db calls ↔ ∀ (covId : Nat) (kind : String) (call : LevelsCall),
      lastSetting covId kind (committed db calls) = some call →
        ∃ level, call.ofKind kind = [level] ∧ Numeric.price.Keeps level.value := by
  have hactive (covId : Nat) (kind : String) (call : LevelsCall)
      (hlast : lastSetting covId kind (committed db calls) = some call) :
      (levelsOf covId kind (runLevels db calls).levels).filter (·.active) =
        (call.ofKind kind).map call.newLevel := by
    rw [runLevels_levels]
    exact active_appliedAll hlast
  have hworth (call : LevelsCall) (level : LevelIn) :
      (call.newLevel level).value.worth = level.value.worth ↔ Numeric.price.Keeps level.value := by
    rw [← Numeric.worth_stored_eq_iff, ← Numeric.worth_stored]
    rfl
  constructor
  · intro hkept covId kind call hlast
    have hsets : call.sets covId kind = true := List.find?_some hlast
    simp only [LevelsCall.sets, Bool.and_eq_true, Bool.not_eq_true', List.isEmpty_eq_false_iff]
      at hsets
    have hgiven := List.getLast?_eq_some_getLast hsets.2
    obtain ⟨hone, hvalue⟩ := hkept.one covId kind call _ hlast hgiven
    rw [hactive covId kind call hlast] at hone
    have hlength := congrArg List.length hone
    rw [List.length_map] at hlength
    obtain ⟨level, honly⟩ := List.length_eq_one_iff.1 hlength
    simp only [honly, List.getLast_singleton] at hvalue
    exact ⟨level, honly, (hworth call level).1 hvalue⟩
  · intro hones
    constructor
    · intro covId kind call level hlast hgiven
      obtain ⟨only, honly, hkeeps⟩ := hones covId kind call hlast
      rw [hactive covId kind call hlast, honly]
      rw [honly] at hgiven
      cases hgiven
      exact ⟨rfl, (hworth call only).2 hkeeps⟩
    · rintro earlier later id row rfl hrow
      have hrun : runLevels db (earlier ++ later) = runLevels (runLevels db earlier) later :=
        History.run_append later
      rw [hrun, runLevels_levels]
      exact getElem?_appliedAll hrow
    · intro covId kind hlast
      rw [runLevels_levels]
      exact levelsOf_appliedAll hlast

def Db.apple : Db where
  coverages := [{ ticker := "AAPL", exchange := "US", name := "Apple", currency := "USD",
                  state := .proposed, dossierSlug := "us_aapl" }]

def LevelsCall.twoTargets : LevelsCall where
  env := .quiet 0
  covId := 0
  levels := [⟨"target", .finite 100 0, "USD", "above"⟩, ⟨"target", .finite 120 0, "USD", "above"⟩]
  setBy := "pm"

/-- A target that is given twice in one call is active twice. -/
theorem not_levelsKept_twoTargets : ¬ LevelsKept .apple [.twoTargets] := by
  intro hkept
  have hcommits : (LevelsCall.twoTargets.exec .apple).result.isOk = true := by decide +kernel
  have hlast : lastSetting 0 "target" (committed .apple [.twoTargets]) =
      some LevelsCall.twoTargets := by
    rw [committed, if_pos hcommits]
    rfl
  have hone := congrArg List.length (hkept.one 0 "target" _ _ hlast rfl).1
  have htwo : ((levelsOf 0 "target" (runLevels .apple [.twoTargets]).levels).filter
      (·.active)).length = 2 := by decide +kernel
  rw [htwo] at hone
  cases hone

end AiFund
