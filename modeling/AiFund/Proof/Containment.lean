import AiFund.Proof.CallTurn
import AiFund.Proof.DigestTurn
import AiFund.Proof.Reliable
import AiFund.Proof.SettleTurn

/-!
# Runs that raise in a tick

A tick is one session: what promoting or advancing one run raises rolls back what the tick has done
for all others. It raises exactly if some run cannot begin, be worked on, be digested or be settled
at its turn.
-/

namespace AiFund

open UnitOfWork Rows

variable {env : Env} {fund : FundConfig} {runner : Engine.Runner} {db : Db} {r k n : Nat}
  {bad : List Nat} {s s' : Session Db} {u : Unit}

/-! ## The turn of a running run -/

/-- What a drained session begins to digest. -/
theorem Orderly.digests (env : Env) {run : Run} (hs : Orderly s)
    (hrun : s.loaded.runs[r]? = some run) (hrunning : run.status = .running) {s₁ : Session Db}
    (hdrain : Returns (runner.drain r) s u s₁) :
    Digests r run (Engine.stagesOfRun env r s₁.stored) s₁ ∧
      ∃ run₁, s₁.loaded.runs[r]? = some run₁ ∧ run₁.status = .running := by
  have hstill : Still s s₁ := keeps_drain runner r hdrain hs.synced
  have hlife : s₁.loaded.life.runs[r]? = some run.life := by
    rw [hstill.synced, hstill.life_eq]
    exact life_run hs.synced hrun
  obtain ⟨run₁, hrun₁, hsame⟩ := Db.life_runs_eq_some.1 hlife
  refine ⟨⟨hs.drain hdrain, ⟨run₁, hrun₁, (congrArg RunLife.coverageId hsame).symm,
    (congrArg RunLife.type hsame).symm⟩, fun id hid => ?_⟩,
    run₁, hrun₁, (congrArg RunLife.status hsame).trans hrunning⟩
  obtain ⟨stage, hstage, hof⟩ := (env.rows .runStages).mem_all.1 hid
  exact ⟨stage, hstage, of_decide_eq_true hof⟩

/-- A runner comes to its end exactly if its calls can be made, one after another. -/
theorem drain_iff (hs : Orderly s) (hbooked : Booked s) :
    EachTurn (fun call => call.2.perform call.1) (fun call s => Engine.CanCall s.stored call.2)
        (runner.calls r) s ↔
      ∃ s', Returns (runner.drain r) s ⟨⟩ s' :=
  eachTurn_iff (I := fun s => Orderly s ∧ Booked s)
    (fun call _ _ _ _ h hs => ⟨hs.1.queueCall h, Booked.queueCall call.2 h hs.2⟩)
    (fun _ _ _ hs => queueCall_iff hs.1 hs.2.kept) ⟨hs, hbooked⟩

/-- The turn of a running run returns exactly if the run can be advanced. -/
theorem advanceRun_iff (hs : Orderly s) (hbooked : Booked s) (hr : r < s.stored.runs.length) :
    Engine.CanAdvance env fund runner r s ↔
      ∃ s', Returns (Engine.advanceRun env fund runner r) s () s' := by
  obtain ⟨run, hrun⟩ : ∃ run, s.loaded.runs[r]? = some run :=
    ⟨_, List.getElem?_eq_getElem (hs.runs ▸ hr)⟩
  unfold Engine.advanceRun
  simp only [returns_getRow_bind, hr, hrun, true_and, Option.some.injEq, exists_eq_left']
  by_cases hrunning : run.status = .running
  · rw [if_neg (not_not.2 hrunning)]
    have hdigest {s₁ : Session Db} (hdrain : Returns (runner.drain r) s () s₁) :=
      hs.digests env hrun hrunning hdrain
    have hturns {s₁ : Session Db} (hdrain : Returns (runner.drain r) s () s₁) :=
      eachTurn_iff (f := Engine.digestStage env fund r run)
        (P := fun id s => Engine.CanDigest env fund run id s.loaded)
        (fun id hid => Digests.digestStage hid) (fun id hid s hs => digestStage_iff hs hid)
        (hdigest hdrain).1
    have hsettles {s₁ s₂ : Session Db} (hdrain : Returns (runner.drain r) s () s₁)
        (hdigested : Returns ((Engine.stagesOfRun env r s₁.stored).forM
          (Engine.digestStage env fund r run)) s₁ ⟨⟩ s₂) :
        Engine.CanSettle r s₂.stored.stages s₂.loaded ↔
          ∃ s', Returns (Engine.settleRun env r) s₂ () s' := by
      obtain ⟨hbegins, run₁, hrun₁, hrunning₁⟩ := hdigest hdrain
      have hends := Maintains.forM (fun id hid => Digests.digestStage hid) hdigested hbegins
      exact settleRun_iff hends.orderly ((digested_forM hdigested).runs ▸ hrun₁) hrunning₁
    constructor
    · intro hcan
      obtain ⟨hcalls, hrest⟩ := hcan run hrun hrunning
      obtain ⟨s₁, hdrain⟩ := (drain_iff hs hbooked).1 hcalls
      obtain ⟨hdigests, hsettle⟩ := hrest s₁ hdrain
      obtain ⟨s₂, hdigested⟩ := (hturns hdrain).1 hdigests
      obtain ⟨s', h⟩ := (hsettles hdrain hdigested).1 (hsettle s₂ hdigested)
      exact ⟨s', returns_bind.2 ⟨(), s₁, hdrain, returns_select_bind.2
        (returns_bind.2 ⟨⟨⟩, s₂, hdigested, h⟩)⟩⟩
    · rintro ⟨s', h⟩ row hrow -
      obtain rfl : run = row := Option.some.inj (hrun.symm.trans hrow)
      obtain ⟨_, s₁, hdrain, h⟩ := returns_bind.1 h
      rw [returns_select_bind] at h
      obtain ⟨_, s₂, hdigested, h⟩ := returns_bind.1 h
      refine ⟨(drain_iff hs hbooked).2 ⟨s₁, hdrain⟩, fun s₁' hdrain' => ?_⟩
      obtain rfl := (hdrain.unique hdrain').2
      refine ⟨(hturns hdrain).2 ⟨s₂, hdigested⟩, fun s₂' hdigested' => ?_⟩
      obtain rfl := (hdigested.unique hdigested').2
      exact (hsettles hdrain hdigested).2 ⟨s', h⟩
  · rw [if_pos hrunning]
    refine iff_of_true (fun row hrow hstatus => ?_) ⟨s, returns_pure.2 ⟨rfl, rfl⟩⟩
    obtain rfl : run = row := Option.some.inj (hrun.symm.trans hrow)
    exact absurd hstatus hrunning

theorem Orderly.advanceRun (hs : Orderly s)
    (h : Returns (Engine.advanceRun env fund runner r) s u s') : Orderly s' := by
  obtain ⟨-, run, hrun, h⟩ := returns_getRow_bind.1 h
  split_ifs at h with hrunning
  · obtain ⟨-, rfl⟩ := returns_pure.1 h
    exact hs
  · obtain ⟨_, s₁, hdrain, h⟩ := returns_bind.1 h
    rw [returns_select_bind] at h
    obtain ⟨_, s₂, hdigested, h⟩ := returns_bind.1 h
    obtain ⟨hbegins, run₁, hrun₁, hrunning₁⟩ :=
      hs.digests env hrun (not_not.1 hrunning) hdrain
    have hends := Maintains.forM (fun id hid => Digests.digestStage hid) hdigested hbegins
    exact hends.orderly.settleRun ((digested_forM hdigested).runs ▸ hrun₁) hrunning₁ h

/-! ## The tick -/

/-- An orderly session with `n` runs, whose books are kept. -/
structure Between (n : Nat) (s : Session Db) : Prop where
  orderly : Orderly s
  booked : Booked s
  length : (s.stored.leads 0).1.length = n ∧ (s.loaded.leads 0).1.length = n

theorem overlooksRuns_length : OverlooksRuns fun db => (db.leads 0).1.length = n :=
  overlooksRuns_leads fun leads => leads.1.length = n

theorem Between.promoteEach : Maintains (Between n) (Engine.promoteEach env r) := by
  intro s u s' h hs
  have horderly := hs.orderly.promoteEach h
  obtain ⟨started, s₁, hpromote, hpure⟩ := returns_bind.1 h
  obtain ⟨-, rfl⟩ := returns_pure.1 hpure
  exact ⟨horderly, Booked.of_fixes fixes_promoteRun hpromote hs.booked,
    overlooksRuns_length.promoteRun hpromote hs.length⟩

theorem Between.advanceRun : Maintains (Between n) (Engine.advanceRun env fund runner r) := by
  intro s u s' h hs
  refine ⟨hs.orderly.advanceRun h, Booked.advanceRun h hs.booked, ?_⟩
  exact upholds_advanceRun overlooksRuns_length.toOverlooks
    (fun _ _ _ => overlooksRuns_length.digestStage) (fun _ => overlooksRuns_length.settleRun) r h
    hs.length

theorem Between.runs (hs : Between n s) : s.stored.runs.length = n := by
  have hlength := hs.length.1
  simpa [Db.leads] using hlength

/-- The tick returns exactly if every run can have its turn. -/
theorem canTick_iff (hdb : db.Sound) (hlawful : db.life.Lawful) (hkept : AttemptInv db) :
    Engine.CanTick env fund runner db ↔
      ∃ s', Returns (Engine.tick env fund runner) (Session.clean db) () s' := by
  have hstart : Between db.runs.length (Session.clean db) :=
    ⟨.clean hdb hlawful, .clean hkept, by simp [Db.leads, Session.clean],
      by simp [Db.leads, Session.clean]⟩
  have hqueued (r : Nat) (hr : r ∈ Engine.queuedRuns env db) : r < db.runs.length := by
    obtain ⟨run, hrun, -⟩ := (env.rows .queuedRuns).mem_all.1 hr
    exact (List.getElem?_eq_some_iff.1 hrun).1
  have hpromotes := eachTurn_iff (f := Engine.promoteEach env)
    (P := fun runId s => Engine.CanBegin env runId s.loaded) (l := Engine.queuedRuns env db)
    (fun _ _ => Between.promoteEach)
    (fun r hr s hs => promoteEach_iff hs.orderly (hs.runs ▸ hqueued r hr)) hstart
  have hadvances {s : Session Db} (hpromoted : Returns ((Engine.queuedRuns env db).forM
      (Engine.promoteEach env)) (Session.clean db) ⟨⟩ s) :
      EachTurn (Engine.advanceRun env fund runner) (Engine.CanAdvance env fund runner)
          (Engine.runningRuns env s.stored) s ↔
        ∃ s', Returns ((Engine.runningRuns env s.stored).forM
          (Engine.advanceRun env fund runner)) s ⟨⟩ s' := by
    have hs := Maintains.forM (fun _ _ => Between.promoteEach) hpromoted hstart
    refine eachTurn_iff (I := Between db.runs.length) (fun _ _ => Between.advanceRun)
      (fun r hr s' hs' => advanceRun_iff hs'.orderly hs'.booked ?_) hs
    obtain ⟨run, hrun, -⟩ := (env.rows .runningRuns).mem_all.1 hr
    rw [hs'.runs, ← hs.runs]
    exact (List.getElem?_eq_some_iff.1 hrun).1
  constructor
  · rintro ⟨hpromote, hadvance⟩
    obtain ⟨s, hpromoted⟩ := hpromotes.1 hpromote
    obtain ⟨s', h⟩ := (hadvances hpromoted).1 (hadvance s hpromoted)
    exact ⟨s', returns_select_bind.2 (returns_bind.2 ⟨⟨⟩, s, hpromoted, returns_select_bind.2 h⟩)⟩
  · rintro ⟨s', h⟩
    unfold Engine.tick at h
    rw [returns_select_bind] at h
    obtain ⟨_, s, hpromoted, h⟩ := returns_bind.1 h
    rw [returns_select_bind] at h
    refine ⟨hpromotes.2 ⟨s, hpromoted⟩, fun s₁ hpromoted₁ => ?_⟩
    obtain rfl := (hpromoted.unique hpromoted₁).2
    exact (hadvances hpromoted).2 ⟨s', h⟩

/-- What a tick leaves is accepted by the schema. -/
theorem Orderly.tick (hdb : db.Sound) (hlawful : db.life.Lawful)
    (h : Returns (Engine.tick env fund runner) (Session.clean db) u s') : Orderly s' := by
  have hkeeps : Maintains Orderly (Engine.tick env fund runner) := by
    intro s u s' h hs
    unfold Engine.tick at h
    rw [returns_select_bind] at h
    obtain ⟨_, s₁, hpromoted, h⟩ := returns_bind.1 h
    rw [returns_select_bind] at h
    have hs₁ := Maintains.forM
      (fun _ _ s u s' (h : Returns (Engine.promoteEach env _) s u s') hs => hs.promoteEach h)
      hpromoted hs
    exact Maintains.forM (fun _ _ _ _ _ h hs => hs.advanceRun h) h hs₁
  exact hkeeps h (.clean hdb hlawful)

/-! ## Runs that raise -/

/-- The tick without the runs `bad` raises exactly if it trips on some run. -/
theorem raises_tickWithout_iff :
    (∃ error, Raises (Engine.tickWithout bad env fund runner) (Session.clean db) error) ↔
      ∃ k, Engine.TripsOn env fund runner bad k db := by
  constructor
  · rintro ⟨error, h⟩
    unfold Engine.tickWithout at h
    rw [raises_select_bind, raises_bind] at h
    obtain h | ⟨_, s, hpromoted, h⟩ := h
    · obtain ⟨k, hk⟩ := raises_forM_iff.1 ⟨error, h⟩
      exact ⟨k, .promoting hk⟩
    · rw [raises_select_bind] at h
      obtain ⟨k, hk⟩ := raises_forM_iff.1 ⟨error, h⟩
      exact ⟨k, .advancing hpromoted hk⟩
  · rintro ⟨k, hk⟩
    unfold Engine.tickWithout
    cases hk with
    | promoting h =>
        obtain ⟨error, herror⟩ := raises_forM_iff.2 ⟨k, h⟩
        exact ⟨error, raises_select_bind.2 (raises_bind.2 (.inl herror))⟩
    | advancing hpromoted h =>
        obtain ⟨error, herror⟩ := raises_forM_iff.2 ⟨k, h⟩
        exact ⟨error, raises_select_bind.2
          (raises_bind.2 (.inr ⟨_, _, hpromoted, raises_select_bind.2 herror⟩))⟩

theorem tickWithout_nil : Engine.tickWithout [] env fund runner = Engine.tick env fund runner := by
  have hall (l : List Nat) : l.filter (· ∉ ([] : List Nat)) = l := by simp
  unfold Engine.tickWithout
  simp only [hall]
  rfl

/-- In a tick that returns no run is bad. -/
theorem Engine.Trips.eq_nil (h : Engine.Trips env fund runner db bad)
    (hreturns : Returns (Engine.tick env fund runner) (Session.clean db) () s') : bad = [] := by
  induction h with
  | nil => rfl
  | cons h htrips ih =>
      subst ih
      obtain ⟨error, hraises⟩ := raises_tickWithout_iff.2 ⟨_, htrips⟩
      rw [tickWithout_nil] at hraises
      exact absurd ⟨(), s', hreturns⟩ (not_exists_returns_iff.2 ⟨error, hraises⟩)

/-- A prediction without its date. -/
def JsonObject.undated : JsonObject :=
  [("predictions", .arr [.obj [("kind", .str "target_price")]])]

/-- Apple and Microsoft are both delivered, Apple with the given result of its author. -/
def Op.deliverBoth (result : JsonObject) : List Op :=
  Op.initiateApple ++
    [.ask "propose Microsoft" (.propose "MSFT" "US" "Microsoft" "USD" none none),
      .ask "initiate Microsoft" (.initiate "us_msft" (some "gpt") (some 0)), .tickWith []] ++
    (QueueCall.succeeds 0 result ++ QueueCall.succeeds 2 [] ++ QueueCall.succeeds 1 [] ++
      QueueCall.succeeds 3 []).map (.queue (.quiet 0))

def JsonObject.dated : JsonObject :=
  [("predictions", .arr [.obj [("kind", .str "target_price"), ("value", .int 200),
    ("currency", .str "USD"), ("horizon_date", .str "2027-01-01")]])]

/-- The runner has the last stage of Microsoft's run to do. -/
def Engine.Runner.closing : Engine.Runner where
  calls runId := if runId = 1 then (QueueCall.succeeds 3 []).map fun call => (.quiet 0, call) else []

/-- All but the last stage of Microsoft's run is delivered. -/
def Op.deliverMost : List Op := (Op.deliverBoth .dated).dropLast.dropLast

example : ¬ Engine.CanTick (.quiet 0) App.small.fund ⟨fun _ => []⟩
    (run .small .small (Op.deliverBoth .undated)) := by decide +kernel

end AiFund
