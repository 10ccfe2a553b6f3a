import AiFund.Proof.CrossChecks
import AiFund.Proof.Digests
import AiFund.Proof.Houses
import AiFund.Proof.Registration
import AiFund.Proof.Turns

/-!
# The turn of a stage

A stage that has succeeded is digested exactly if its result can be read, the rows of its entries can
be stored, and the policy for the cross-check that it calls for is found.
-/

namespace AiFund

open UnitOfWork Rows

variable {env : Env} {fund : FundConfig} {r stageId : Nat} {u : Unit} {s s₁ s' : Session Db}
  {db : Db} {stage : RunStage} {run run' : Run} {entries : List PredictionIn} {result : JsonObject}

/-! ## Registration -/

theorem registerFromStage_iff (hs : Orderly s) (hstage : s.stored.stages[stageId]? = some stage)
    (hrun : s.loaded.runs[stage.runId]? = some run) :
    Db.Admits env stageId stage run entries s.loaded ↔
      ∃ found s', Returns (registerFromStage env stageId entries) s found s' := by
  have hstage' : s.loaded.stages[stageId]? = some stage := getElem?_of_grown hs.stages hstage
  have hid : stageId < s.stored.stages.length := (List.getElem?_eq_some_iff.1 hstage).1
  have hrunId : stage.runId < s.stored.runs.length := by
    rw [← hs.runs]
    exact (List.getElem?_eq_some_iff.1 hrun).1
  rw [Db.admits_congr rfl hs.predictions, registerEntries_iff hs.stored.legal hs.loaded.legal
    hs.predictions (Db.isHouse_of_stage hs.stored.legal hstage)
    (Db.isHouse_of_stage hs.loaded.legal hstage')]
  unfold registerFromStage
  simp only [returns_getRow_bind, hid, hrunId, hstage', hrun, true_and, Option.some.injEq,
    exists_eq_left']
  constructor
  · rintro ⟨found, s₁, h, hlegal⟩
    exact ⟨found, _, returns_bind.2 ⟨found, s₁, h,
      returns_flush_bind.2 ⟨hlegal, returns_pure.2 ⟨rfl, rfl⟩⟩⟩⟩
  · rintro ⟨found, s', h⟩
    obtain ⟨found', s₁, h, hflush⟩ := returns_bind.1 h
    exact ⟨found', s₁, h, (returns_flush_bind.1 hflush).1⟩

/-- The result of a stage is registered exactly if it can be read and its entries are admitted. -/
theorem registerPredictions_iff (env : Env) (result : JsonObject) (hs : Orderly s)
    (hstage : s.stored.stages[stageId]? = some stage) (hrun : s.loaded.runs[stage.runId]? = some run) :
    (∃ entries, parsePredictions result = .ok entries ∧
        Db.Admits env stageId stage run entries s.loaded) ↔
      ∃ s', Returns (Engine.registerPredictions env stageId result) s () s' := by
  unfold Engine.registerPredictions
  simp only [returns_ofExcept_bind]
  constructor
  · rintro ⟨entries, hparse, hadmits⟩
    cases hempty : entries.isEmpty with
    | true => exact ⟨s, entries, hparse, by rw [if_pos hempty]; exact returns_pure.2 ⟨rfl, rfl⟩⟩
    | false =>
        obtain ⟨found, s', h⟩ := (registerFromStage_iff hs hstage hrun).1 hadmits
        refine ⟨s', entries, hparse, ?_⟩
        rw [hempty, if_neg Bool.false_ne_true]
        exact returns_bind.2 ⟨found, s', h, returns_pure.2 ⟨rfl, rfl⟩⟩
  · rintro ⟨s', entries, hparse, h⟩
    refine ⟨entries, hparse, ?_⟩
    split_ifs at h with hempty
    · rw [List.isEmpty_iff.1 hempty]
      trivial
    · obtain ⟨found, s₁, h, -⟩ := returns_bind.1 h
      exact (registerFromStage_iff hs hstage hrun).2 ⟨found, s₁, h⟩

/-! ## The cross-check -/

/-- Every contributor of a coverage is a house. -/
theorem Db.isHouse_contributor {covId : Nat} {cov : Coverage} {house : String}
    (hdb : Schema.violation db = none) (h : house ∈ db.contributorsOf covId cov) :
    db.isHouse house = true := by
  unfold contributorsOf at h
  dsimp only at h
  split at h
  · obtain ⟨info, hinfo, -, rfl⟩ := mem_resolveDefault.1 h
    obtain ⟨found, hfound, rfl⟩ := List.mem_map.1 hinfo
    exact List.any_eq_true.2 ⟨found, hfound, decide_eq_true rfl⟩
  · rw [sorted, List.mem_insertionSort, List.mem_map] at h
    obtain ⟨row, hrow, rfl⟩ := h
    have hrule := Db.violation_eq_none.1 hdb ("fk_coverage_contributors_house_houses",
      fun db => db.contributors.all fun row => db.isHouse row.house) (by simp [constraints])
    exact List.all_eq_true.1 hrule row (List.mem_filter.1 hrow).1

/-- An author of an event analysis may call for a cross-check exactly if the rule can be evaluated
and, where it asks for one, the policy is found. -/
theorem maybeAppendCrossCheck_iff {lastTp : Option Decimal} (hs : Orderly s)
    (hrun : s.loaded.runs[r]? = some run') (hcoverage : run.coverageId = run'.coverageId)
    (htype : run'.type = .eventAnalysis) :
    (∃ fires, autoCrossCheck result lastTp none none fund.autoCrossCheck = .ok fires ∧
        (fires = true → s.stored.Unchecked r →
          ∃ policy, fund.policy run.type.value = .ok policy)) ↔
      ∃ s', Returns (Engine.maybeAppendCrossCheck env fund r run stage result lastTp) s () s' := by
  unfold Engine.maybeAppendCrossCheck
  simp only [returns_ofExcept_bind]
  rw [exists_comm]
  refine exists_congr fun fires => ?_
  rw [exists_and_left]
  refine and_congr_right fun _ => ?_
  cases fires with
  | false => exact iff_of_true nofun ⟨s, returns_pure.2 ⟨rfl, rfl⟩⟩
  | true =>
      rw [Bool.not_true, if_neg Bool.false_ne_true]
      simp only [returns_select_bind, true_imp_iff, ← existingCheck_eq_none env]
      cases (env.rows .crossCheckStage).first (fun row => row.runId = r && row.role = .crossCheck)
          s.stored.stages with
      | some id => exact iff_of_true nofun ⟨s, returns_pure.2 ⟨rfl, rfl⟩⟩
      | none =>
          rw [Option.isSome_none, if_neg Bool.false_ne_true]
          obtain ⟨hcovered, hrequired⟩ :=
            runs_of_violation hs.loaded.legal (List.mem_of_getElem? hrun)
          cases hcovId : run.coverageId with
          | none =>
              have hnone := hrequired (hcoverage ▸ hcovId)
              rw [htype] at hnone
              cases hnone
          | some covId =>
              have hid := hcovered covId (hcoverage ▸ hcovId)
              have hcontributors := (returns_contributorsOf (List.getElem?_eq_getElem hid)
                (hs.coverages ▸ hid)).2 ⟨rfl, rfl⟩
              constructor
              · intro hpolicy
                obtain ⟨policy, hpolicy⟩ := hpolicy rfl
                exact ⟨_, returns_bind.2 ⟨_, s, hcontributors, returns_select_bind.2
                  (returns_ofExcept_bind.2 ⟨policy, hpolicy, returns_assign.2 rfl⟩)⟩⟩
              · rintro ⟨s', h⟩ -
                obtain ⟨contributors, s₁, -, h⟩ := returns_bind.1 h
                rw [returns_select_bind] at h
                obtain ⟨policy, hpolicy, -⟩ := returns_ofExcept_bind.1 h
                exact ⟨policy, hpolicy⟩

/-- A cross-check that is added where all stages are stored leaves the session orderly. -/
theorem Orderly.appendCrossCheck {lastTp : Option Decimal} (hs : Orderly s)
    (hsaved : s.stored.stages = s.loaded.stages) (hrun : s.loaded.runs[r]? = some run')
    (hcoverage : run.coverageId = run'.coverageId) (hstage : s.loaded.isHouse stage.house = true)
    (h : Returns (Engine.maybeAppendCrossCheck env fund r run stage result lastTp) s u s') :
    Orderly s' := by
  obtain rfl | ⟨row, hplan, hafter⟩ := returns_maybeAppendCrossCheck h
  · exact hs
  have hadded : row ∈ s'.loaded.stages.drop s.loaded.stages.length := by
    rw [hafter, List.drop_left]
    exact List.mem_singleton_self row
  obtain ⟨covId, contributors, policy, hcovId, hcontributors, -, -, -, hhouse, -⟩ :=
    of_appended h hadded
  simp only [RunStage.plan, Prod.mk.injEq] at hplan
  have hknown : s.loaded.isHouse row.house = true := by
    rw [hhouse]
    cases hhead : contributors.head? with
    | none => exact hstage
    | some house =>
        have hid : covId < s.loaded.coverages.length :=
          (runs_of_violation hs.loaded.legal (List.mem_of_getElem? hrun)).1 covId
            (hcoverage ▸ hcovId)
        have hfound := (returns_contributorsOf (List.getElem?_eq_getElem hid)
          (hs.coverages ▸ hid)).1 hcontributors
        have hmem : house ∈ s.stored.contributorsOf covId s.loaded.coverages[covId] :=
          hfound.1 ▸ List.mem_of_head? hhead
        rw [show s.loaded.isHouse = s.stored.isHouse from hs.view_eq fun _ _ => rfl]
        exact Db.isHouse_contributor hs.stored.legal hmem
  have hfresh (other : RunStage) (hother : other ∈ s.loaded.stages) (hof : other.runId = row.runId) :
      other.seq ≠ row.seq := by
    have hle := le_maxSeq (hsaved ▸ hother) (hof.trans hplan.1)
    omega
  subst hafter
  obtain ⟨added, hpending⟩ := hs.pending
  refine ⟨⟨added ++ [row], ?_⟩, hs.stored, hs.loaded.addStage ?_ hknown hfresh, hs.lawful⟩
  · rw [hpending, List.append_assoc]
  · rw [hplan.1]
    exact decide_eq_true (List.getElem?_eq_some_iff.1 hrun).1

/-- A result that calls for a cross-check has entries. -/
theorem ne_nil_of_fires {lastTp : Option Decimal} {rule : AutoCrossCheck}
    (hparse : parsePredictions result = .ok entries)
    (hfires : autoCrossCheck result lastTp none none rule = .ok true) : entries ≠ [] := by
  rintro rfl
  rw [autoCrossCheck_eq hparse (fun h => by cases h.1)] at hfires
  have hnone (stated : Json) : rule.stanceFires none stated = false := by
    simp [AutoCrossCheck.stanceFires]
  rw [hnone] at hfires
  cases hfires

/-! ## The turn -/

/-- What a registration leaves: all is stored if there was an entry. -/
structure Registered (result : JsonObject) (s s₁ : Session Db) : Prop where
  orderly : Orderly s₁
  runs : s₁.loaded.runs = s.loaded.runs
  stages : s₁.loaded.stages = s.loaded.stages
  houses : s₁.loaded.houses = s.loaded.houses
  stored : ∃ entries, parsePredictions result = .ok entries ∧
    (entries ≠ [] → s₁.stored = s₁.loaded)

theorem registered (hs : Orderly s)
    (h : Returns (Engine.registerPredictions env stageId result) s u s₁) :
    Registered result s s₁ := by
  obtain ⟨entries, hparse, h⟩ := returns_ofExcept_bind.1 h
  split_ifs at h with hempty
  · obtain ⟨-, rfl⟩ := returns_pure.1 h
    exact ⟨hs, rfl, rfl, rfl, entries, hparse, fun hne => absurd (List.isEmpty_iff.1 hempty) hne⟩
  · obtain ⟨found, s₂, h, hpure⟩ := returns_bind.1 h
    obtain ⟨-, rfl⟩ := returns_pure.1 hpure
    have hlegal := (flushes_registerFromStage h).2
    obtain ⟨_, _, rows, -, -, -, hstored, hloaded⟩ := returns_registerFromStage_rows h
    obtain ⟨predictions, hall⟩ := s.loaded.foldl_insertPrediction rows
    rw [hall] at hloaded
    rw [hstored] at hlegal
    have hsound : s₁.loaded.Sound := ⟨hlegal, by rw [hloaded]; exact hs.loaded.numbered⟩
    refine ⟨⟨⟨[], by rw [List.append_nil, hstored]⟩, hstored ▸ hsound, hsound, ?_⟩, by rw [hloaded],
      by rw [hloaded], by rw [hloaded], entries, hparse, fun _ => hstored⟩
    rw [hloaded]
    exact hs.lawful

/-- The rows `ids` of the store are stages of the run that is advanced. -/
structure Digests (r : Nat) (run : Run) (ids : List Nat) (s : Session Db) : Prop where
  orderly : Orderly s
  run : ∃ run', s.loaded.runs[r]? = some run' ∧ run.coverageId = run'.coverageId ∧
    run.type = run'.type
  stages : ∀ id ∈ ids, ∃ stage, s.stored.stages[id]? = some stage ∧ stage.runId = r

theorem canDigest_iff (hstage : db.stages[stageId]? = some stage)
    (hstatus : stage.status = .succeeded) (hresult : stage.result = some result)
    (hne : result ≠ []) :
    Engine.CanDigest env fund run stageId db ↔
      (∃ entries, parsePredictions result = .ok entries ∧
        Db.Admits env stageId stage run entries db) ∧
      (run.type = .eventAnalysis → stage.role = .author → ∃ fires,
        autoCrossCheck result (lastTargetPrice env run.coverageId db) none none
            fund.autoCrossCheck = .ok fires ∧
          (fires = true → db.Unchecked stage.runId →
            ∃ policy, fund.policy run.type.value = .ok policy)) := by
  refine ⟨fun h => h stage result hstage hstatus hresult hne, fun h => ?_⟩
  intro stage' result' hstage' _ hresult' _
  obtain rfl : stage = stage' := Option.some.inj (hstage.symm.trans hstage')
  obtain rfl : result = result' := Option.some.inj (hresult.symm.trans hresult')
  exact h

/-- The turn of a stage returns exactly if the stage can be digested. -/
theorem digestStage_iff {ids : List Nat} (hs : Digests r run ids s) (hid : stageId ∈ ids) :
    Engine.CanDigest env fund run stageId s.loaded ↔
      ∃ s', Returns (Engine.digestStage env fund r run stageId) s () s' := by
  obtain ⟨stage, hstage, hof⟩ := hs.stages stageId hid
  obtain ⟨run', hrun', hcoverage, htype⟩ := hs.run
  have hlt : stageId < s.stored.stages.length := (List.getElem?_eq_some_iff.1 hstage).1
  have hstage' : s.loaded.stages[stageId]? = some stage :=
    getElem?_of_grown hs.orderly.stages hstage
  unfold Engine.digestStage
  simp only [returns_getRow_bind, hlt, hstage', true_and, Option.some.injEq, exists_eq_left']
  split
  · rename_i field fields hstatus hresult
    have hlast : lastTargetPrice env run.coverageId s.loaded =
        lastTargetPrice env run.coverageId s.stored := hs.orderly.view_eq fun _ _ => rfl
    have hadmits := registerPredictions_iff env (field :: fields) hs.orderly hstage (hof ▸ hrun')
    rw [canDigest_iff hstage' hstatus hresult (List.cons_ne_nil _ _), hlast]
    simp only [Db.admits_congr hcoverage rfl]
    rw [hadmits]
    simp only [returns_select_bind]
    simp only [returns_bind]
    -- Where the rule fires, the entries are registered in a flush, and the query finds all stages.
    have hcheck {s₁ : Session Db}
        (hregister : Returns (Engine.registerPredictions env stageId (field :: fields)) s () s₁)
        (hauthor : run.type = .eventAnalysis ∧ stage.role = .author) :
        (∃ fires, autoCrossCheck (field :: fields) (lastTargetPrice env run.coverageId s.stored)
            none none fund.autoCrossCheck = .ok fires ∧
          (fires = true → s.loaded.Unchecked stage.runId →
            ∃ policy, fund.policy run.type.value = .ok policy)) ↔
          ∃ s', Returns (Engine.maybeAppendCrossCheck env fund r run stage (field :: fields)
            (lastTargetPrice env run.coverageId s.stored)) s₁ () s' := by
      have hafter := registered hs.orderly hregister
      obtain ⟨entries, hparse, hstored⟩ := hafter.stored
      rw [← maybeAppendCrossCheck_iff hafter.orderly (hafter.runs ▸ hrun') hcoverage
        (htype ▸ hauthor.1)]
      refine exists_congr fun fires => and_congr_right fun hfires => ?_
      refine forall_congr' fun htrue => ?_
      have hne := ne_nil_of_fires hparse (htrue ▸ hfires)
      have hsame : s₁.stored.stages = s.loaded.stages := by rw [hstored hne, hafter.stages]
      rw [Db.Unchecked, Db.Unchecked, hsame, hof]
    constructor
    · rintro ⟨⟨s₁, hregister⟩, hcan⟩
      by_cases hauthor : run.type = .eventAnalysis ∧ stage.role = .author
      · obtain ⟨s', happend⟩ := (hcheck hregister hauthor).1 (hcan hauthor.1 hauthor.2)
        refine ⟨s', (), s₁, hregister, ?_⟩
        simpa [hauthor] using happend
      · refine ⟨s₁, (), s₁, hregister, ?_⟩
        rw [decide_eq_false hauthor, if_neg Bool.false_ne_true]
        exact returns_pure.2 ⟨rfl, rfl⟩
    · rintro ⟨s', _, s₁, hregister, happend⟩
      refine ⟨⟨s₁, hregister⟩, fun htype hrole => (hcheck hregister ⟨htype, hrole⟩).2 ⟨s', ?_⟩⟩
      simpa [htype, hrole] using happend
  · rename_i hother
    refine iff_of_true (fun stage₁ result hfound hstatus hresult hne => ?_)
      ⟨s, returns_pure.2 ⟨rfl, rfl⟩⟩
    obtain rfl : stage = stage₁ := Option.some.inj (hstage'.symm.trans hfound)
    cases result with
    | nil => exact absurd rfl hne
    | cons field fields => exact absurd hresult (hother field fields hstatus)

/-- A cross-check is added only where all stages have been stored. -/
theorem Orderly.digestStage {ids : List Nat} (hs : Digests r run ids s) (hid : stageId ∈ ids)
    (h : Returns (Engine.digestStage env fund r run stageId) s u s') : Orderly s' := by
  obtain ⟨stage, hstage, -⟩ := hs.stages stageId hid
  obtain ⟨run', hrun', hcoverage, -⟩ := hs.run
  unfold Engine.digestStage at h
  obtain ⟨-, stage', hstage', h⟩ := returns_getRow_bind.1 h
  obtain rfl : stage = stage' :=
    Option.some.inj ((getElem?_of_grown hs.orderly.stages hstage).symm.trans hstage')
  split at h
  · rw [returns_select_bind] at h
    obtain ⟨_, s₁, hregister, h⟩ := returns_bind.1 h
    have hafter := registered hs.orderly hregister
    obtain ⟨entries, hparse, hstored⟩ := hafter.stored
    split_ifs at h
    · obtain ⟨hfires, -⟩ | ⟨-, rfl⟩ := appends_crossCheck h
      · have hsaved := hstored (ne_nil_of_fires hparse (eq_ok_of_toOption hfires))
        refine hafter.orderly.appendCrossCheck (by rw [hsaved]) (hafter.runs ▸ hrun') hcoverage ?_ h
        rw [show s₁.loaded.isHouse = s.loaded.isHouse by unfold Db.isHouse; rw [hafter.houses]]
        exact Db.isHouse_of_stage hs.orderly.loaded.legal hstage'
      · exact hafter.orderly
    · obtain ⟨-, rfl⟩ := returns_pure.1 h
      exact hafter.orderly
  · obtain ⟨-, rfl⟩ := returns_pure.1 h
    exact hs.orderly

theorem Digests.digestStage {ids : List Nat} (hid : stageId ∈ ids) :
    Maintains (Digests r run ids) (Engine.digestStage env fund r run stageId) := by
  intro s u s' h hs
  have hafter := digested_digestStage h
  obtain ⟨run', hrun', hsame⟩ := hs.run
  refine ⟨Orderly.digestStage hs hid h, ⟨run', hafter.runs ▸ hrun', hsame⟩, fun id hid' => ?_⟩
  obtain ⟨stage, hstage, hof⟩ := hs.stages id hid'
  obtain ⟨checks, -, -, hkept | ⟨shown, -, hshown⟩⟩ := hafter.stages
  · exact ⟨stage, hkept ▸ hstage, hof⟩
  · refine ⟨stage, ?_, hof⟩
    rw [hshown]
    exact getElem?_append_of_some (getElem?_of_grown hs.orderly.stages hstage)

end AiFund
