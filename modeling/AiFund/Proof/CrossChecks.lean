import AiFund.Library.Errors
import AiFund.Orchestrator.CrossCheck
import Mathlib.Data.List.ReduceOption

/-!
# The automatic cross-check

The rule reads the list that the registration reads, but only its first target price: a later one is
registered and moves nothing.
-/

namespace AiFund

open UnitOfWork

variable {result : JsonObject} {items : List Json} {item : Json} {parsed : List (Option PredictionIn)}
  {entries : List PredictionIn} {entry : PredictionIn} {rule : AutoCrossCheck} {last : Decimal}
  {l pct : ℚ}

/-! ## What the registration reads -/

/-- The value that an entry registers as a target price. -/
def PredictionIn.targetPrice? (entry : PredictionIn) : Option Decimal :=
  match entry.kind with
  | .str "target_price" => entry.value
  | _ => none

def PredictionIn.stance? (entry : PredictionIn) : Option Json :=
  match entry.kind with
  | .str "stance" => if entry.stance.truthy then some entry.stance else none
  | _ => none

/-- The target prices that are registered, in order. -/
def targetPrices (entries : List PredictionIn) : List Decimal :=
  entries.filterMap PredictionIn.targetPrice?

/-- The first stance that is registered, else the one of the result. -/
def statedStance (result : JsonObject) (entries : List PredictionIn) : Json :=
  (entries.filterMap PredictionIn.stance?).head?.getD (result.get "stance")

/-- The columns of an entry that the rule reads as well. -/
theorem parseEntry_some (h : parseEntry item = .ok (some entry)) :
    ∃ p, item.asDict = .ok p ∧ p.get "kind" = entry.kind ∧ p.get "stance" = entry.stance ∧
      optDecimal p "value" = .ok entry.value := by
  obtain ⟨p, hp, h⟩ := ok_bind_iff.1 h
  split at h
  · cases h
  simp only [ok_bind_iff] at h
  obtain ⟨date, -, horizon, -, value, hvalue, prob, -, confidence, -, pinned, -, hentry⟩ := h
  cases hentry
  exact ⟨p, hp, rfl, rfl, hvalue⟩

theorem parseEntry_none (h : parseEntry item = .ok none) :
    ∃ p, item.asDict = .ok p ∧ (p.get "kind").truthy = false := by
  obtain ⟨p, hp, h⟩ := ok_bind_iff.1 h
  split at h
  · rename_i hkind
    exact ⟨p, hp, by simpa using hkind⟩
  · simp only [ok_bind_iff] at h
    obtain ⟨date, -, horizon, -, value, -, prob, -, confidence, -, pinned, -, hentry⟩ := h
    cases hentry

theorem mem_targetPrices {v : Decimal} :
    v ∈ targetPrices entries ↔
      ∃ entry ∈ entries, entry.kind = .str "target_price" ∧ entry.value = some v := by
  unfold targetPrices PredictionIn.targetPrice?
  rw [List.mem_filterMap]
  refine exists_congr fun entry => and_congr_right fun _ => ?_
  split
  · rename_i hkind
    rw [hkind]
    exact (and_iff_right rfl).symm
  · rename_i hkind
    exact ⟨nofun, fun h => absurd h.1 hkind⟩

theorem firstTargetPrice_of_ne {p : JsonObject} (hp : item.asDict = .ok p)
    (hkind : p.get "kind" ≠ .str "target_price") :
    firstTargetPrice (item :: items) = firstTargetPrice items := by
  rw [firstTargetPrice, hp]
  dsimp only [bind, Except.bind]
  split
  · rfl
  · rename_i htarget _
    exact absurd htarget hkind
  · rfl

theorem firstTargetPrice_of_kind {p : JsonObject} {value : Option Decimal}
    (hp : item.asDict = .ok p) (hkind : p.get "kind" = .str "target_price")
    (hvalue : optDecimal p "value" = .ok value) :
    firstTargetPrice (item :: items) =
      value.elim (firstTargetPrice items) fun v => .ok (some v) := by
  rw [firstTargetPrice, hp]
  dsimp only [bind, Except.bind]
  rw [hkind]
  unfold optDecimal at hvalue
  split at hvalue
  · rename_i hnull
    cases hvalue
    rw [hnull]
    rfl
  · rename_i hnot
    cases hdecimal : toDecimal (p.get "value") with
    | error error =>
        rw [hdecimal] at hvalue
        cases hvalue
    | ok v =>
        rw [hdecimal] at hvalue
        cases hvalue
        split
        · rename_i hnull
          exact absurd hnull hnot
        · rw [hdecimal]
          rfl
        · rename_i hother _
          exact (hother rfl).elim

theorem firstStance_of_ne {p : JsonObject} (hp : item.asDict = .ok p)
    (hkind : p.get "kind" ≠ .str "stance") : firstStance (item :: items) = firstStance items := by
  rw [firstStance, hp]
  change (match p.get "kind" with
    | .str "stance" =>
        if (p.get "stance").truthy then .ok (some (p.get "stance")) else firstStance items
    | _ => firstStance items) = firstStance items
  split
  · rename_i hstance
    exact absurd hstance hkind
  · rfl

theorem firstStance_of_kind {p : JsonObject} (hp : item.asDict = .ok p)
    (hkind : p.get "kind" = .str "stance") :
    firstStance (item :: items) =
      if (p.get "stance").truthy then .ok (some (p.get "stance")) else firstStance items := by
  rw [firstStance, hp]
  change (match p.get "kind" with
    | .str "stance" =>
        if (p.get "stance").truthy then Except.ok (some (p.get "stance")) else firstStance items
    | _ => firstStance items) = _
  rw [hkind]
  rfl

theorem PredictionIn.targetPrice?_of_ne (h : entry.kind ≠ .str "target_price") :
    entry.targetPrice? = none := by
  unfold targetPrice?
  split
  · rename_i hkind
    exact absurd hkind h
  · rfl

theorem PredictionIn.stance?_of_ne (h : entry.kind ≠ .str "stance") : entry.stance? = none := by
  unfold stance?
  split
  · rename_i hkind
    exact absurd hkind h
  · rfl

theorem ne_of_not_truthy {value : Json} {text : String} (h : value.truthy = false)
    (htext : text ≠ "") : value ≠ .str text := by
  rintro rfl
  simp [Json.truthy, htext] at h

/-- What both readers make of the list, entry by entry. -/
theorem readers_agree (h : items.mapM parseEntry = .ok parsed) :
    firstTargetPrice items = .ok (targetPrices parsed.reduceOption).head? ∧
      firstStance items = .ok (parsed.reduceOption.filterMap PredictionIn.stance?).head? := by
  induction items generalizing parsed with
  | nil =>
      cases h
      exact ⟨rfl, rfl⟩
  | cons item items ih =>
      rw [List.mapM_cons] at h
      obtain ⟨first, hfirst, h⟩ := ok_bind_iff.1 h
      obtain ⟨rest, hrest, h⟩ := ok_bind_iff.1 h
      cases h
      obtain ⟨hprices, hstances⟩ := ih hrest
      cases first with
      | none =>
          obtain ⟨p, hp, hkind⟩ := parseEntry_none hfirst
          rw [List.reduceOption_cons_of_none,
            firstTargetPrice_of_ne hp (ne_of_not_truthy hkind (by decide)),
            firstStance_of_ne hp (ne_of_not_truthy hkind (by decide))]
          exact ⟨hprices, hstances⟩
      | some entry =>
          obtain ⟨p, hp, hkind, hstance, hvalue⟩ := parseEntry_some hfirst
          rw [List.reduceOption_cons_of_some]
          constructor
          · by_cases htarget : entry.kind = .str "target_price"
            · rw [firstTargetPrice_of_kind hp (hkind.trans htarget) hvalue, targetPrices,
                List.filterMap_cons, PredictionIn.targetPrice?, htarget]
              cases entry.value with
              | none => exact hprices
              | some v => rfl
            · rw [firstTargetPrice_of_ne hp (hkind.trans_ne htarget), targetPrices,
                List.filterMap_cons, PredictionIn.targetPrice?_of_ne htarget]
              exact hprices
          · by_cases hstate : entry.kind = .str "stance"
            · rw [firstStance_of_kind hp (hkind.trans hstate), hstance, List.filterMap_cons,
                PredictionIn.stance?, hstate]
              cases entry.stance.truthy with
              | false => exact hstances
              | true => rfl
            · rw [firstStance_of_ne hp (hkind.trans_ne hstate), List.filterMap_cons,
                PredictionIn.stance?_of_ne hstate]
              exact hstances

theorem extracts (h : parsePredictions result = .ok entries) :
    extractTargetPrice result = .ok (targetPrices entries).head? ∧
      extractStance result = .ok (statedStance result entries) := by
  obtain ⟨items, hitems, h⟩ := ok_bind_iff.1 h
  obtain ⟨parsed, hparsed, h⟩ := ok_bind_iff.1 h
  cases h
  obtain ⟨hprices, hstances⟩ := readers_agree hparsed
  constructor
  · exact ok_bind_iff.2 ⟨items, hitems, hprices⟩
  · exact ok_bind_iff.2 ⟨items, hitems, ok_bind_iff.2 ⟨_, hstances, rfl⟩⟩

/-! ## The rule -/

/-- `abs(v - l) / abs(l) * 100 > pct`, where it can be compared. -/
def Decimal.movedFrom (v : Decimal) (l pct : ℚ) : Bool :=
  v.toRat?.elim (v ≠ .nan) fun n => pct < |n - l| / |l| * 100

def AutoCrossCheck.stanceFires (rule : AutoCrossCheck) (lastStance : Option String)
    (stated : Json) : Bool :=
  rule.stanceChange && stated.truthy && lastStance.any fun last =>
    last ≠ "" && (match stated with | .str new => new ≠ last | _ => true)

theorem Decimal.truthy_of_ne_zero (h : last.toRat? = some l) (hl : l ≠ 0) :
    last.truthy = true := by
  cases last with
  | finite coeff exp =>
      refine decide_eq_true fun hcoeff => hl ?_
      cases h
      simp [hcoeff]
  | infinity negative => rfl
  | nan => rfl

theorem targetPriceMoved_some {v : Decimal} (hlast : last.toRat? = some l) (hl : l ≠ 0) :
    targetPriceMoved (some v) (some last) pct =
      if v = .nan then .error .invalidOperation else .ok (v.movedFrom l pct) := by
  unfold targetPriceMoved
  simp only [Decimal.truthy_of_ne_zero hlast hl, hlast, Bool.not_true, Bool.false_eq_true, if_false]
  cases v <;> rfl

theorem stanceMoved_eq {lastStance : Option String} (h : parsePredictions result = .ok entries) :
    stanceMoved rule result lastStance =
      .ok (rule.stanceFires lastStance (statedStance result entries)) := by
  unfold stanceMoved AutoCrossCheck.stanceFires
  cases rule.stanceChange with
  | false => rfl
  | true =>
      rw [(extracts h).2]
      rfl

theorem autoCrossCheck_eq {lastTp : Option Decimal} {lastStance severity : Option String}
    (hparse : parsePredictions result = .ok entries)
    (hsevere : ¬ (severity = some "thesis" ∧ rule.thesisTripwire = true)) :
    autoCrossCheck result lastTp lastStance severity rule =
      targetPriceMoved (targetPrices entries).head? lastTp rule.tpChangePct >>= fun moved =>
        .ok (moved || rule.stanceFires lastStance (statedStance result entries)) := by
  unfold autoCrossCheck
  rw [if_neg hsevere, (extracts hparse).1]
  change (targetPriceMoved _ _ _ >>= fun moved => if moved then pure true else
    stanceMoved rule result lastStance) = _
  refine bind_congr fun moved => ?_
  cases moved with
  | false => exact stanceMoved_eq hparse
  | true => rfl

/-- Every registered target price that moved asks for a cross-check exactly if the thesis tripwire
does, or none moved, or the first one is a number and moved or comes with a changed stance. -/
theorem autoCrossCheck_moved_iff {lastStance severity : Option String}
    (hparse : parsePredictions result = .ok entries) (hlast : last.toRat? = some l) (hl : l ≠ 0) :
    ((∃ entry ∈ entries, entry.kind = .str "target_price" ∧
          ∃ v, entry.value = some v ∧ v.movedFrom l rule.tpChangePct = true) →
        autoCrossCheck result (some last) lastStance severity rule = .ok true) ↔
      (severity = some "thesis" ∧ rule.thesisTripwire = true) ∨
        (∀ v ∈ targetPrices entries, v.movedFrom l rule.tpChangePct = false) ∨
        ∃ first, (targetPrices entries).head? = some first ∧ first ≠ .nan ∧
          (first.movedFrom l rule.tpChangePct = true ∨
            rule.stanceFires lastStance (statedStance result entries) = true) := by
  have hmoved : (∃ entry ∈ entries, entry.kind = .str "target_price" ∧
      ∃ v, entry.value = some v ∧ v.movedFrom l rule.tpChangePct = true) ↔
      ∃ v ∈ targetPrices entries, v.movedFrom l rule.tpChangePct = true := by
    simp only [mem_targetPrices]
    constructor
    · rintro ⟨entry, hentry, hkind, v, hv, hmoved⟩
      exact ⟨v, ⟨entry, hentry, hkind, hv⟩, hmoved⟩
    · rintro ⟨v, ⟨entry, hentry, hkind, hv⟩, hmoved⟩
      exact ⟨entry, hentry, hkind, v, hv, hmoved⟩
  have hnone : (∀ v ∈ targetPrices entries, v.movedFrom l rule.tpChangePct = false) ↔
      ¬ ∃ v ∈ targetPrices entries, v.movedFrom l rule.tpChangePct = true := by
    simp
  rw [hmoved, hnone]
  by_cases hthesis : severity = some "thesis" ∧ rule.thesisTripwire = true
  · unfold autoCrossCheck
    rw [if_pos hthesis]
    exact ⟨fun _ => .inl hthesis, fun _ _ => rfl⟩
  rw [autoCrossCheck_eq hparse hthesis]
  cases hprices : targetPrices entries with
  | nil =>
      refine ⟨fun _ => .inr (.inl (by simp)), fun _ h => ?_⟩
      obtain ⟨v, hv, -⟩ := h
      exact absurd hv List.not_mem_nil
  | cons first rest =>
      rw [List.head?_cons, targetPriceMoved_some hlast hl]
      by_cases hnan : first = .nan
      · rw [if_pos hnan]
        constructor
        · exact fun h => .inr (.inl fun hmoved => nomatch h hmoved)
        · rintro (hsevere | hstill | ⟨v, hv, hnumber, -⟩)
          · exact absurd hsevere hthesis
          · exact fun hmoved => absurd hmoved hstill
          · cases hv
            exact absurd hnan hnumber
      · rw [if_neg hnan]
        have hfires : ((Except.ok (first.movedFrom l rule.tpChangePct) >>= fun moved =>
            .ok (moved || rule.stanceFires lastStance (statedStance result entries)) :
              Except PyError Bool) = .ok true) ↔
            first.movedFrom l rule.tpChangePct = true ∨
              rule.stanceFires lastStance (statedStance result entries) = true := by
          change Except.ok _ = Except.ok true ↔ _
          rw [Except.ok.injEq, Bool.or_eq_true]
        rw [hfires]
        constructor
        · intro h
          by_cases hmoved : ∃ v ∈ first :: rest, v.movedFrom l rule.tpChangePct = true
          · exact .inr (.inr ⟨first, rfl, hnan, h hmoved⟩)
          · exact .inr (.inl hmoved)
        · rintro (hsevere | hstill | ⟨v, hv, -, hfires⟩) hmoved
          · exact absurd hsevere hthesis
          · exact absurd hmoved hstill
          · cases hv
            exact hfires

/-- A target price of a result, and what is registered of it. -/
def Json.yen (value : Int) : Json :=
  .obj [("kind", .str "target_price"), ("value", .int value), ("currency", .str "JPY"),
    ("horizon_date", .str "2027-01-01")]

def PredictionIn.yen (value : Int) : PredictionIn :=
  { kind := .str "target_price", horizonDate := ⟨2027, 1, 1⟩, value := some (.finite value 0),
    currency := .str "JPY" }

/-- A target price that doubled comes first, and a cross-check is asked for. -/
theorem autoCrossCheck_moved_yen :
    autoCrossCheck [("predictions", .arr [.yen 200, .yen 100])] (some (.finite 100 0)) none none {} =
      .ok true := by
  have hparse : parsePredictions [("predictions", .arr [.yen 200, .yen 100])] =
      .ok [PredictionIn.yen 200, PredictionIn.yen 100] := rfl
  refine (autoCrossCheck_moved_iff hparse (l := 100) (by decide +kernel) (by decide +kernel)).2
    (.inr (.inr ⟨.finite 200 0, rfl, nofun, .inl (by decide +kernel)⟩)) ?_
  exact ⟨.yen 200, List.mem_cons_self, rfl, .finite 200 0, rfl, by decide +kernel⟩

/-- It comes second: it is registered, and no cross-check is asked for. -/
theorem not_autoCrossCheck_moved_yen :
    ¬ ∀ (result : JsonObject) (entries : List PredictionIn) (last : Decimal) (l : ℚ)
      (lastStance severity : Option String) (rule : AutoCrossCheck),
      parsePredictions result = .ok entries → last.toRat? = some l → l ≠ 0 →
      0 ≤ rule.tpChangePct →
      (∃ entry ∈ entries, entry.kind = .str "target_price" ∧
        ∃ v, entry.value = some v ∧ v.movedFrom l rule.tpChangePct = true) →
      autoCrossCheck result (some last) lastStance severity rule = .ok true := by
  intro hclaim
  have htrue := hclaim [("predictions", .arr [.yen 100, .yen 200])]
    [PredictionIn.yen 100, PredictionIn.yen 200] (.finite 100 0) 100 none none {} rfl
    (by decide +kernel) (by decide +kernel) (by decide +kernel)
    ⟨.yen 200, List.mem_cons_of_mem _ List.mem_cons_self, rfl, .finite 200 0, rfl,
      by decide +kernel⟩
  have hfalse : autoCrossCheck [("predictions", .arr [.yen 100, .yen 200])] (some (.finite 100 0))
      none none {} = .ok false := by decide +kernel
  exact absurd (htrue.symm.trans hfalse) (by decide)

end AiFund
