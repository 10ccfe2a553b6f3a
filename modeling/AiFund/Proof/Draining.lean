import AiFund.Orchestrator.FakeRunner
import AiFund.Proof.Claims
import AiFund.Proof.EngineSteps
import AiFund.Proof.Reports
import AiFund.Proof.StageTables

/-!
# Draining ends

Every round of a drain uses up an attempt that was left, so the runner comes to a round in which it
finds nothing to claim or hangs. No round raises, and none of them touches more than the queue.
-/

namespace AiFund

open UnitOfWork Rows

variable {runner : FakeRunner} {memory : FakeRunner.Memory} {env : Env} {db : Db} {id : Nat}
  {stage : RunStage} {workerId : String} {leaseSeconds : ℚ}

/-! ## Attempts left -/

theorem sum_map_modify {ρ : Type} {rows : List ρ} {row : ρ} {f : ρ → ρ} {g : ρ → Nat}
    (hrow : rows[id]? = some row) :
    ((rows.modify id f).map g).sum + g row = (rows.map g).sum + g (f row) := by
  induction rows generalizing id with
  | nil => simp at hrow
  | cons first rest ih =>
      cases id with
      | zero =>
          obtain rfl : first = row := by simpa using hrow
          simp only [List.modify_zero_cons, List.map_cons, List.sum_cons]
          omega
      | succ id =>
          have hrest := @ih id hrow
          simp only [List.modify_succ_cons, List.map_cons, List.sum_cons]
          omega

theorem RunStage.attemptsLeft_of_ne (h : stage.status ≠ .queued) : stage.attemptsLeft = 0 := if_neg h

theorem RunStage.attemptsLeft_pos (h : stage.status = .queued) : 0 < stage.attemptsLeft := by
  rw [attemptsLeft, if_pos h]
  omega

/-- A claim and a failure cost a stage at least one of its attempts. -/
theorem RunStage.attemptsLeft_failedWith {lease : Time} {attempt : AttemptIn} {retryable : Bool}
    {backoff : BackoffPolicy} {reported : Env} (hqueued : stage.status = .queued) :
    ((stage.claimedFor workerId env.now lease).failedWith reported id attempt retryable
      backoff).attemptsLeft < stage.attemptsLeft := by
  by_cases hretry : retryable = true ∧
      ((stage.claimedFor workerId env.now lease).attempts : Int) <
        (stage.claimedFor workerId env.now lease).maxAttempts
  · rw [failedWith, if_pos hretry]
    simp only [claimedFor] at hretry
    simp only [attemptsLeft, releaseClaim, claimedFor, hqueued, if_true]
    omega
  · rw [failedWith, if_neg hretry, attemptsLeft_of_ne (by simp [releaseClaim])]
    exact attemptsLeft_pos hqueued

theorem Db.claimed_stage (hstage : db.stages[id]? = some stage) :
    (db.claimed env id stage workerId leaseSeconds).stages[id]? =
      some (stage.claimedFor workerId env.now (env.now + leaseSeconds)) :=
  getElem?_modify_self hstage

theorem Db.attemptsLeft_claimed (hstage : db.stages[id]? = some stage) :
    (db.claimed env id stage workerId leaseSeconds).attemptsLeft + stage.attemptsLeft =
      db.attemptsLeft := by
  have hsum := sum_map_modify (f := fun stage => stage.claimedFor workerId env.now
    (env.now + leaseSeconds)) (g := RunStage.attemptsLeft) hstage
  have hrunning : (stage.claimedFor workerId env.now (env.now + leaseSeconds)).status ≠ .queued := by
    simp [RunStage.claimedFor]
  rw [RunStage.attemptsLeft_of_ne hrunning] at hsum
  exact hsum

theorem Db.attemptsLeft_reported {runId : Nat} {f : StageAttempt → StageAttempt}
    {g : RunStage → RunStage} (hstage : db.stages[id]? = some stage) :
    (db.reported env id runId f g).attemptsLeft + stage.attemptsLeft =
      db.attemptsLeft + (g stage).attemptsLeft := by
  rw [Db.reported_eq]
  exact sum_map_modify hstage

/-! ## What the runner does to the store -/

/-- What the runner makes of a stage that it claims. -/
inductive FakeRunner.Leaves (runner : FakeRunner) (workerId : String) (stage : RunStage) : Prop where
  | succeeded (hstatus : stage.status = .succeeded)
  | queued (hstatus : stage.status = .queued) (hrole : runner.failRole = some stage.role)
  | failed (hstatus : stage.status = .failed) (hrole : runner.failRole = some stage.role)
      (hspent : stage.maxAttempts ≤ stage.attempts)
  | hangs (hstatus : stage.status = .running) (hholder : stage.claimedBy = some workerId)
      (hrole : stage.role ∈ runner.hangRoles)

/-- The runner keeps the books, and changes nothing but stages that are queued. -/
structure FakeRunner.Works (runner : FakeRunner) (workerId : String) (db db' : Db) : Prop where
  attempts : AttemptInv db'
  legal : Schema.violation db' = none
  plans : db'.plans = db.plans
  life : db'.life = db.life
  stages : ∀ (id : Nat) (stage : RunStage), db'.stages[id]? = some stage →
    db.stages[id]? = some stage ∨ ∃ before : RunStage, db.stages[id]? = some before ∧
      before.status = .queued ∧ runner.Leaves workerId stage

/-- What the runner comes upon when it stops. -/
def FakeRunner.Stops (runner : FakeRunner) (workerId : String) (now : Time) (db : Db) : Prop :=
  (∀ stage ∈ db.stages, claimable db now [] [] stage = false) ∨
    ∃ stage ∈ db.stages, stage.status = .running ∧ stage.claimedBy = some workerId ∧
      stage.role ∈ runner.hangRoles

namespace FakeRunner

theorem Works.refl (hattempts : AttemptInv db) (hdb : Schema.violation db = none) :
    runner.Works workerId db db :=
  ⟨hattempts, hdb, rfl, rfl, fun _ _ hstage => .inl hstage⟩

theorem Works.trans {db₁ db' : Db} (h : runner.Works workerId db db₁)
    (h' : runner.Works workerId db₁ db') : runner.Works workerId db db' := by
  refine ⟨h'.attempts, h'.legal, h'.plans.trans h.plans, h'.life.trans h.life, ?_⟩
  intro id stage hstage
  obtain hkept | ⟨before, hbefore, hqueued, hleaves⟩ := h'.stages id stage hstage
  · exact h.stages id stage hkept
  · obtain hsame | ⟨before', hbefore', hqueued', -⟩ := h.stages id before hbefore
    · exact .inr ⟨before, hsame, hqueued, hleaves⟩
    · exact .inr ⟨before', hbefore', hqueued', hleaves⟩

/-- A write to one queued stage is what the runner may do, if the rest stays as it was. -/
theorem Works.of_modify {db' : Db} {f : RunStage → RunStage} (hattempts : AttemptInv db')
    (hdb : Schema.violation db' = none) (hlife : db'.life = db.life)
    (hstages : db'.stages = db.stages.modify id f) (hstage : db.stages[id]? = some stage)
    (hqueued : stage.status = .queued) (hplan : ∀ stage, (f stage).plan = stage.plan)
    (hleaves : runner.Leaves workerId (f stage)) : runner.Works workerId db db' := by
  refine ⟨hattempts, hdb, ?_, hlife, ?_⟩
  · rw [Db.plans, hstages]
    exact map_modify_of_eq hplan
  · intro key row hrow
    rw [hstages] at hrow
    obtain ⟨rfl, before, hbefore, rfl⟩ | ⟨-, hrow⟩ := getElem?_modify_cases hrow
    · obtain rfl := Option.some.inj (hstage.symm.trans hbefore)
      exact .inr ⟨stage, hstage, hqueued, hleaves⟩
    · exact .inl hrow

theorem life_reported {runId : Nat} {f : StageAttempt → StageAttempt} {g : RunStage → RunStage} :
    (db.reported env id runId f g).life = db.life := by
  unfold Db.reported
  rw [Db.life_updateRun_of_eq]
  · cases openAttempt env id db <;> rfl
  · exact fun _ => rfl

/-! ## One round -/

/-- What a round does to the books, and that it uses up an attempt. -/
structure Ends (runner : FakeRunner) (claimed : Env) (workerId : String) (memory : Memory)
    (round : Round) (db db' : Db) : Prop where
  works : runner.Works workerId db db'
  left : ∀ memory', round = .reported memory' → db'.attemptsLeft < db.attemptsLeft ∧
    memory'.claimed.length = memory.claimed.length + 1
  stops : (∀ memory', round ≠ .reported memory') → runner.Stops workerId claimed.now db' ∧
    db'.attemptsLeft ≤ db.attemptsLeft

variable {claimed reported : Env} {written : List Db}

theorem ends_idle (hattempts : AttemptInv db) (hdb : Schema.violation db = none)
    (hcandidate : claimCandidate claimed [] [] db = none) :
    runner.Ends claimed workerId memory .idle db db := by
  refine ⟨.refl hattempts hdb, fun _ hround => ?_, fun _ => ⟨?_, le_rfl⟩⟩
  · cases hround
  · exact .inl (claimCandidate_eq_none hcandidate)

/-- The stage, queued in `db`, is `row` in `db₁`, after the runner has claimed it. -/
structure Holds (claimed : Env) (workerId : String) (leaseSeconds : ℚ) (db : Db) (id : Nat)
    (stage row : RunStage) (db₁ : Db) : Prop where
  attempts : AttemptInv db
  queued : db.stages[id]? = some stage ∧ stage.status = .queued
  after : db₁ = db.claimed claimed id stage workerId leaseSeconds
  legal : Schema.violation db₁ = none
  row : row = stage.claimedFor workerId claimed.now (claimed.now + leaseSeconds)

section Holds

variable {row : RunStage} {db₁ : Db}

theorem Holds.found (h : Holds claimed workerId leaseSeconds db id stage row db₁) :
    db₁.stages[id]? = some row := by
  rw [h.after, h.row]
  exact Db.claimed_stage h.queued.1

theorem Holds.running (h : Holds claimed workerId leaseSeconds db id stage row db₁) :
    row.status = .running := by
  rw [h.row]
  rfl

theorem ends_hung (h : Holds claimed workerId leaseSeconds db id stage row db₁)
    (hrole : row.role ∈ runner.hangRoles) :
    runner.Ends claimed workerId memory .hung db db₁ := by
  have hholder : row.claimedBy = some workerId := by
    rw [h.row]
    rfl
  refine ⟨?_, fun _ hround => ?_, fun _ => ⟨.inr ?_, ?_⟩⟩
  · obtain ⟨hattempts, ⟨hstage, hqueued⟩, rfl, hlegal, rfl⟩ := h
    exact .of_modify (hattempts.claimed hstage hqueued) hlegal rfl rfl hstage hqueued
      (fun _ => rfl) (.hangs rfl rfl hrole)
  · cases hround
  · exact ⟨row, List.mem_of_getElem? h.found, h.running, hholder, hrole⟩
  · have hleft : db₁.attemptsLeft + stage.attemptsLeft = db.attemptsLeft :=
      h.after ▸ Db.attemptsLeft_claimed h.queued.1
    omega

/-- A report on the stage is one more write to it. -/
theorem ends_reported (memory : Memory) (failures : Nat) {f : StageAttempt → StageAttempt}
    {g : RunStage → RunStage} {db' : Db}
    (h : Holds claimed workerId leaseSeconds db id stage row db₁)
    (hdb' : db' = db₁.reported reported id row.runId f g) (hlegal : Schema.violation db' = none)
    (hf : ClosesAttempt f) (hg : ∀ stage, Closes stage (g stage))
    (hplan : ∀ stage, (g stage).plan = stage.plan) (hleaves : runner.Leaves workerId (g row))
    (hleft : (g row).attemptsLeft < stage.attemptsLeft) :
    runner.Ends claimed workerId memory (.reported ⟨failures, memory.claimed ++ [id]⟩) db db' := by
  have hreport : db'.attemptsLeft + row.attemptsLeft =
      db₁.attemptsLeft + (g row).attemptsLeft := hdb' ▸ Db.attemptsLeft_reported h.found
  rw [RunStage.attemptsLeft_of_ne (by rw [h.running]; decide)] at hreport
  obtain ⟨hattempts, ⟨hstage, hqueued⟩, rfl, -, rfl⟩ := h
  have hclaim : (db.claimed claimed id stage workerId leaseSeconds).attemptsLeft +
      stage.attemptsLeft = db.attemptsLeft := Db.attemptsLeft_claimed hstage
  refine ⟨?_, fun memory' hmemory' => ?_, fun h => absurd rfl (h _)⟩
  · refine .of_modify (f := fun stage => g (stage.claimedFor workerId claimed.now
      (claimed.now + leaseSeconds))) ?_ hlegal ?_ ?_ hstage hqueued (fun _ => hplan _) hleaves
    · rw [hdb']
      exact (hattempts.claimed hstage hqueued).reported hf hg
    · rw [hdb', life_reported]
      rfl
    · rw [hdb', Db.reported_eq]
      exact List.modify_modify_eq ..
  · obtain rfl := Round.reported.inj hmemory'
    rw [List.length_append, List.length_singleton]
    omega

theorem leaves_failedWith {attempt : AttemptIn} (hrole : runner.failRole = some stage.role) :
    runner.Leaves workerId (stage.failedWith env id attempt true runner.backoff) := by
  unfold RunStage.failedWith
  split_ifs with hretry
  · exact .queued rfl hrole
  · exact .failed rfl hrole (not_lt.1 fun hlt => hretry ⟨rfl, hlt⟩)

theorem failStage_ends (memory : Memory) (failures : Nat) {attempt : AttemptIn}
    (h : Holds claimed workerId leaseSeconds db id stage row db₁)
    (hrole : runner.failRole = some row.role) :
    ∃ written' db', Returns (failStage reported id attempt true runner.backoff)
        ⟨db₁, db₁, written⟩ () ⟨db', db', written'⟩ ∧
      runner.Ends claimed workerId memory (.reported ⟨failures, memory.claimed ++ [id]⟩) db db' := by
  obtain ⟨hlegal, hreturns⟩ := failStage_returns written h.legal h.found (fun _ => h.running) rfl
  refine ⟨_, _, hreturns, ends_reported memory failures h rfl hlegal
    (closesAttempt_closed (by decide)) (fun _ => RunStage.closes_failedWith) (fun stage => ?_)
    (leaves_failedWith hrole) ?_⟩
  · unfold RunStage.failedWith
    split_ifs <;> rfl
  · rw [h.row]
    exact RunStage.attemptsLeft_failedWith h.queued.2

theorem completeStage_ends (memory : Memory) (failures : Nat) {attempt : AttemptIn}
    {result : JsonObject} (h : Holds claimed workerId leaseSeconds db id stage row db₁) :
    ∃ written' db', Returns (completeStage reported id attempt result)
        ⟨db₁, db₁, written⟩ () ⟨db', db', written'⟩ ∧
      runner.Ends claimed workerId memory (.reported ⟨failures, memory.claimed ++ [id]⟩) db db' := by
  obtain ⟨hlegal, hreturns⟩ := completeStage_returns written h.legal h.found h.running rfl
  refine ⟨_, _, hreturns, ends_reported memory failures h rfl hlegal
    (closesAttempt_closed (by decide)) (fun _ => RunStage.closes_completed) (fun _ => rfl)
    (.succeeded rfl) ?_⟩
  rw [RunStage.attemptsLeft_of_ne (by simp [RunStage.completed, RunStage.releaseClaim])]
  exact RunStage.attemptsLeft_pos h.queued.2

/-- Whatever the runner makes of the stage, it comes to its end. -/
theorem process_ends (h : Holds claimed workerId leaseSeconds db id stage row db₁) :
    ∃ round written' db',
      Returns (runner.process reported workerId memory id) ⟨db₁, db₁, written⟩ round
        ⟨db', db', written'⟩ ∧ runner.Ends claimed workerId memory round db db' := by
  have hlt := (List.getElem?_eq_some_iff.1 h.found).1
  by_cases hhangs : row.role ∈ runner.hangRoles
  · refine ⟨.hung, written ++ [db₁], db₁, returns_getRow_bind.2 ⟨hlt, row, h.found, ?_⟩,
      ends_hung h hhangs⟩
    rw [if_pos hhangs]
    exact returns_flush_bind.2 ⟨h.legal, returns_pure.2 ⟨rfl, rfl⟩⟩
  by_cases hfails : runner.failRole = some row.role ∧ memory.failures < runner.failTimes
  · obtain ⟨written', db', hfail, hends⟩ := failStage_ends memory (memory.failures + 1) h hfails.1
    refine ⟨_, written', db', returns_getRow_bind.2 ⟨hlt, row, h.found, ?_⟩, hends⟩
    rw [if_neg hhangs, if_pos hfails]
    exact returns_bind.2 ⟨(), _, hfail, returns_pure.2 ⟨rfl, rfl⟩⟩
  · obtain ⟨written', db', hcomplete, hends⟩ := completeStage_ends memory memory.failures h
    refine ⟨_, written', db', returns_getRow_bind.2 ⟨hlt, row, h.found, ?_⟩, hends⟩
    rw [if_neg hhangs, if_neg hfails]
    exact returns_bind.2 ⟨(), _, hcomplete, returns_pure.2 ⟨rfl, rfl⟩⟩

end Holds

/-- Every round comes to its end, whatever the store holds. -/
theorem round_ends (hattempts : AttemptInv db) (hdb : Schema.violation db = none) :
    ∃ round written' db',
      Returns (runner.round claimed reported workerId leaseSeconds memory) ⟨db, db, written⟩ round
        ⟨db', db', written'⟩ ∧ runner.Ends claimed workerId memory round db db' := by
  cases hcandidate : claimCandidate claimed [] [] db with
  | none =>
      refine ⟨.idle, written, db, ?_, ends_idle hattempts hdb hcandidate⟩
      exact returns_bind.2 ⟨none, _, claimStage_none written hcandidate, returns_pure.2 ⟨rfl, rfl⟩⟩
  | some id =>
      obtain ⟨stage, hstage, hok⟩ := claimCandidate_eq_some hcandidate
      simp only [claimable, Bool.and_eq_true, decide_eq_true_eq] at hok
      obtain ⟨hlegal, hclaim⟩ := claimStage_some written hattempts hdb hstage hcandidate rfl
      obtain ⟨round, written', db', hprocess, hends⟩ := process_ends
        ⟨hattempts, ⟨hstage, hok.1.1.1.1.1⟩, rfl, hlegal, rfl⟩
      exact ⟨round, written', db', returns_bind.2 ⟨some id, _, hclaim, hprocess⟩, hends⟩

/-! ## All rounds -/

/-- A drain that has come to its end after `n` rounds. -/
structure Drains (runner : FakeRunner) (last : Env) (workerId : String) (memory memory' : Memory)
    (n : Nat) (db db' : Db) : Prop where
  works : runner.Works workerId db db'
  stops : runner.Stops workerId last.now db'
  left : n + db'.attemptsLeft ≤ db.attemptsLeft
  claimed : memory'.claimed.length = memory.claimed.length + n

theorem rounds_end {clock : Nat → Env} {fuel : Nat} (memory : Memory) (written : List Db)
    (n : Nat) (hattempts : AttemptInv db) (hdb : Schema.violation db = none) (hfuel : db.attemptsLeft < fuel) :
    ∃ memory' m written' db',
      Returns (runner.rounds clock workerId leaseSeconds fuel memory n) ⟨db, db, written⟩
        (some (memory', n + m)) ⟨db', db', written'⟩ ∧
      runner.Drains (clock (2 * (n + m))) workerId memory memory' m db db' := by
  induction fuel generalizing db memory n written with
  | zero => omega
  | succ fuel ih =>
      obtain ⟨round, written₁, db₁, hround, hends⟩ := round_ends hattempts hdb
      cases round with
      | idle =>
          obtain ⟨hstops, hleft⟩ := hends.stops fun _ hround => by cases hround
          refine ⟨memory, 0, written₁, db₁, returns_bind.2 ⟨.idle, _, hround, ?_⟩,
            hends.works, hstops, by omega, rfl⟩
          exact returns_pure.2 ⟨rfl, rfl⟩
      | hung =>
          obtain ⟨hstops, hleft⟩ := hends.stops fun _ hround => by cases hround
          refine ⟨memory, 0, written₁, db₁, returns_bind.2 ⟨.hung, _, hround, ?_⟩,
            hends.works, hstops, by omega, rfl⟩
          exact returns_pure.2 ⟨rfl, rfl⟩
      | reported memory₁ =>
          obtain ⟨hleft, hclaimed⟩ := hends.left memory₁ rfl
          obtain ⟨memory', m, written', db', hrest, hdrains⟩ := ih memory₁ written₁ (n + 1)
            hends.works.attempts hends.works.legal (by omega)
          refine ⟨memory', m + 1, written', db', returns_bind.2 ⟨.reported memory₁, _, hround, ?_⟩,
            hends.works.trans hdrains.works, ?_, ?_, ?_⟩
          · rw [show n + (m + 1) = n + 1 + m by omega]
            exact hrest
          · rw [show n + (m + 1) = n + 1 + m by omega]
            exact hdrains.stops
          · have := hdrains.left
            omega
          · rw [hdrains.claimed, hclaimed]
            omega

/-- A drain in a session without pending writes ends, and leaves none. -/
theorem drain_drains (runner : FakeRunner) (clock : Nat → Env) (memory : Memory)
    (workerId : String) (leaseSeconds : ℚ) (written : List Db) (hattempts : AttemptInv db)
    (hdb : Schema.violation db = none) :
    ∃ memory' n written' db',
      Returns (runner.drain clock workerId leaseSeconds memory) ⟨db, db, written⟩
        (some (memory', n)) ⟨db', db', written'⟩ ∧
      runner.Drains (clock (2 * n)) workerId memory memory' n db db' := by
  obtain ⟨memory', n, written', db', hrounds, hdrains⟩ :=
    rounds_end memory written 0 hattempts hdb (Nat.lt_succ_self _)
  rw [Nat.zero_add] at hrounds hdrains
  exact ⟨memory', n, written', db', returns_select_bind.2 hrounds, hdrains⟩

/-- A drain comes to its end in every database whose books are kept. It returns, after no more rounds
than there are attempts left, the books are kept, nothing but queued stages has changed, and nothing
can be claimed then, or the runner hangs. -/
theorem drain_ends (runner : FakeRunner) (clock : Nat → Env) (memory : Memory) (workerId : String)
    (leaseSeconds : ℚ) (hattempts : AttemptInv db) (hdb : Schema.violation db = none) :
    ∃ memory' n,
      (commit (runner.drain clock workerId leaseSeconds memory) db).result = .ok (some (memory', n)) ∧
      n ≤ db.attemptsLeft ∧ runner.Drains (clock (2 * n)) workerId memory memory' n db
        (commit (runner.drain clock workerId leaseSeconds memory) db).after := by
  obtain ⟨memory', n, written', db', hreturns, hdrains⟩ :=
    drain_drains runner clock memory workerId leaseSeconds [] hattempts hdb
  have hcommit := commit_of_returns hreturns hdrains.works.legal
  refine ⟨memory', n, congrArg Outcome.result hcommit, ?_, ?_⟩
  · have := hdrains.left
    omega
  · rw [congrArg Outcome.after hcommit]
    exact hdrains

/-- A clock that has moved on by a second whenever it is read. -/
def everySecond (n : Nat) : Env := .quiet (n + 1)

/-- The runner fails one of the two stages once. -/
theorem drain_ends_twoStages :
    let runner : FakeRunner := { failRole := some .pmQuery, failTimes := 1 }
    ∃ memory' n,
      (commit (runner.drain everySecond "fake-runner" 300 {}) .twoStages).result =
        .ok (some (memory', n)) ∧
      n ≤ Db.twoStages.attemptsLeft ∧ runner.Drains (everySecond (2 * n)) "fake-runner" {} memory' n
        .twoStages (commit (runner.drain everySecond "fake-runner" 300 {}) .twoStages).after :=
  drain_ends _ _ _ _ _ attemptInv_twoStages (by decide +kernel)

end FakeRunner

end AiFund
