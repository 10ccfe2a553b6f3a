import AiFund.Concurrent.Queue
import AiFund.Proof.Statements
import AiFund.System

/-!
# A worker's success and the reaper

The outlines of a completion, a heartbeat and the reaper, and what survives when they interleave.
-/

namespace AiFund.Concurrent

open ReadCommitted Rows History UnitOfWork

variable {db : Db} {stageId : Nat} {env : Env} {now : Time} {backoff : BackoffPolicy}
  {l : Local Db RowKey} {w : QueueWorld} {i : Nat}

/-- The transaction removes and adds no stage. -/
def KeepsStages (l : Local Db RowKey) : Prop :=
  ∀ db : Db, (l.pending db).stages.length = db.stages.length

theorem KeepsStages.wrote {w : DbWrite} (h : KeepsStages l)
    (hw : ∀ db : Db, (w.apply db).stages.length = db.stages.length) : KeepsStages (l.wrote w) :=
  fun db => (hw _).trans (h db)

theorem KeepsStages.getElem? (h : KeepsStages l) (hdb : stageId < db.stages.length) :
    ∃ row, (l.pending db).stages[stageId]? = some row :=
  ⟨_, List.getElem?_eq_getElem ((h db).symm ▸ hdb)⟩

/-! ## The reaper -/

/-- Between the reaper's query, which listed `expired`, and its commit: what it lists is still
expired, and the stages that it holds are listed and no longer running. -/
structure Reaping (now : Time) (stageId : Nat) (expired : List (Nat × RunStage)) (s : Db)
    (l : Local Db RowKey) : Prop where
  started : l.seen ≠ []
  running : ∀ entry ∈ expired, entry.2.status = .running
  length : KeepsStages l
  names : sawExpired now stageId l = true ↔ stageId ∈ expired.map (·.1)
  expired : sawExpired now stageId l = true → ∀ row, s.stages[stageId]? = some row →
    leaseExpired now row = true
  held : RowKey.stage stageId ∈ l.held → sawExpired now stageId l = true ∧
    ∀ (db : Db) (row : RunStage), (l.pending db).stages[stageId]? = some row →
      row.status ≠ .running

/-- While the reaper has listed the stage, nobody else changes it. -/
def reaperRely (now : Time) (stageId : Nat) : Rely Db RowKey := fun l s s' =>
  sawExpired now stageId l = true → ∀ row, s'.stages[stageId]? = some row →
    s.stages[stageId]? = some row

/-- What the reaper's commit does with the stage. -/
structure Reaped (now : Time) (stageId : Nat) (stageIds : List Nat) (s : Db)
    (l : Local Db RowKey) : Prop where
  length : KeepsStages l
  taken : stageId ∈ stageIds → sawExpired now stageId l = true ∧
    (∀ row, s.stages[stageId]? = some row → leaseExpired now row = true) ∧
    ∀ row, (l.pending s).stages[stageId]? = some row → row.status ≠ .running
  kept : stageId ∉ stageIds → ∀ row, s.stages[stageId]? = some row →
    (l.pending s).stages[stageId]? = some row

theorem mem_expiredRows :
    stageId ∈ (expiredRows env now db).map (·.1) ↔
      db.stages[stageId]?.any (leaseExpired now) = true := by
  simp only [expiredRows, List.mem_map, List.mem_filterMap, RowOrder.mem_all,
    Option.map_eq_some_iff, Option.any_eq_true]
  constructor
  · rintro ⟨⟨_, _⟩, ⟨id, ⟨row, hrow, hexpired⟩, row', hrow', heq⟩, rfl⟩
    obtain ⟨rfl, rfl⟩ := Prod.mk.inj heq
    exact ⟨row, hrow, hexpired⟩
  · rintro ⟨row, hrow, hexpired⟩
    exact ⟨(stageId, row), ⟨stageId, ⟨row, hrow, hexpired⟩, row, hrow, rfl⟩, rfl⟩

theorem sawExpired_saw {s : Db} (h : l.seen ≠ []) :
    sawExpired now stageId (l.saw s) = sawExpired now stageId l := by
  obtain ⟨v, rest, hseen⟩ := List.exists_cons_of_ne_nil h
  simp [sawExpired, Local.saw, hseen]

theorem running_of_mem_expiredRows {entry : Nat × RunStage} (h : entry ∈ expiredRows env now db) :
    entry.2.status = .running := by
  simp only [expiredRows, List.mem_filterMap, RowOrder.mem_all, Option.map_eq_some_iff] at h
  obtain ⟨id, ⟨row, hrow, hexpired⟩, row', hrow', rfl⟩ := h
  obtain rfl := Option.some.inj (hrow.symm.trans hrow')
  simp only [leaseExpired, Bool.and_eq_true, decide_eq_true_eq] at hexpired
  exact hexpired.1

theorem RunStage.reaped_status_ne (stage : RunStage) :
    (stage.reaped env stageId backoff).status ≠ .running := by
  unfold RunStage.reaped
  split_ifs <;> nofun

section Reaping

variable {expired : List (Nat × RunStage)} {s : Db}

theorem stable_reaping : Stable (reaperRely now stageId) (Reaping now stageId expired) := by
  intro s s' l h hrely
  exact ⟨h.started, h.running, h.length, h.names, fun hsaw row hrow =>
    h.expired hsaw row (hrely hsaw row hrow), h.held⟩

theorem Reaping.saw (h : Reaping now stageId expired s l) :
    Reaping now stageId expired s (l.saw s) := by
  have hsaw : sawExpired now stageId (l.saw s) = sawExpired now stageId l :=
    sawExpired_saw h.started
  refine ⟨by simp [Local.saw], h.running, h.length, ?_, ?_, ?_⟩ <;> rw [hsaw]
  · exact h.names
  · exact h.expired
  · exact h.held

theorem Reaping.rewrote {entry : Nat × RunStage} (h : Reaping now stageId expired s l)
    (hentry : entry ∈ expired) : Reaping now stageId expired s
      (l.wrote (DbWrite.setStage entry.1 (entry.2.writeReaped env entry.1 backoff))) := by
  refine ⟨h.started, h.running, h.length.wrote fun _ => List.length_modify .., h.names, h.expired,
    fun hheld => ?_⟩
  have hlisted : sawExpired now stageId l = true := by
    rcases List.mem_append.1 hheld with htaken | hold
    · obtain rfl : stageId = entry.1 := by simpa [DbWrite.setStage] using htaken
      exact h.names.2 (List.mem_map_of_mem hentry)
    · exact (h.held hold).1
  refine ⟨hlisted, fun db row hrow => ?_⟩
  change ((l.pending db).stages.modify entry.1 _)[stageId]? = some row at hrow
  obtain ⟨-, old, -, rfl⟩ | ⟨hne, hold⟩ := getElem?_modify_cases hrow
  · have hnew : (entry.2.reaped env entry.1 backoff).status ≠ .running :=
      RunStage.reaped_status_ne entry.2
    change put entry.2.status _ old.status ≠ _
    rw [put_of_ne (by rwa [h.running entry hentry])]
    exact hnew
  · refine (h.held ?_).2 db row hold
    rcases List.mem_append.1 hheld with htaken | hold
    · exact absurd (by simpa [DbWrite.setStage] using htaken) hne
    · exact hold

theorem Reaping.reaped (h : Reaping now stageId expired s l)
    (hall : ∀ entry ∈ expired, RowKey.stage entry.1 ∈ l.held) :
    Reaped now stageId (expired.map (·.1)) s l where
  length := h.length
  taken hmem := by
    obtain ⟨entry, hentry, rfl⟩ := List.mem_map.1 hmem
    obtain ⟨hlisted, hended⟩ := h.held (hall entry hentry)
    exact ⟨hlisted, h.expired hlisted, hended s⟩
  kept hmem row hrow :=
    l.frame (.stage stageId) (fun hheld => hmem (h.names.1 (h.held hheld).1)) s row hrow

/-- The flush has come past the stages in `before`. -/
structure Rewriting (now : Time) (stageId : Nat) (expired before : List (Nat × RunStage)) (s : Db)
    (l : Local Db RowKey) : Prop where
  reaping : Reaping now stageId expired s l
  holds : ∀ entry ∈ before, RowKey.stage entry.1 ∈ l.held

theorem stable_rewriting {before : List (Nat × RunStage)} :
    Stable (reaperRely now stageId) (Rewriting now stageId expired before) :=
  fun _ _ _ h hrely => ⟨stable_reaping h.reaping hrely, h.holds⟩

theorem Rewriting.closed {before : List (Nat × RunStage)} {id : Nat}
    {f : StageAttempt → StageAttempt} (h : Rewriting now stageId expired before s l) :
    Rewriting now stageId expired before s (l.wrote (DbWrite.setAttempt id f)) := by
  obtain ⟨⟨hstarted, hrunning, hlength, hnames, hexpired, hheld⟩, hholds⟩ := h
  refine ⟨⟨hstarted, hrunning, hlength.wrote fun _ => rfl, hnames, hexpired, fun hmem => ?_⟩,
    fun entry hentry => List.mem_append_right _ (hholds entry hentry)⟩
  rcases List.mem_append.1 hmem with htaken | hold
  · simp [DbWrite.setAttempt] at htaken
  · exact hheld hold

theorem outline_flushReaped {attempts : List (Option (Nat × StageAttempt))} :
    Outline (reaperRely now stageId) .always (Reaping now stageId expired)
      (flushReaped env backoff expired attempts) fun _ => Rewriting now stageId expired expired := by
  refine .bind (Q := fun _ => Rewriting now stageId expired expired) ?_ fun _ =>
    .forM fun entry _ => outline_send stable_rewriting fun s l h => h.closed
  refine ((Outline.forM_each (P := Rewriting now stageId expired)
    fun before entry hentry => ?_) []).pre fun s l h => ⟨h, fun _ hmem => nomatch hmem⟩
  refine outline_send stable_rewriting fun s l h => ⟨h.reaping.rewrote hentry, fun other hother => ?_⟩
  rcases List.mem_append.1 hother with hbefore | hlast
  · exact List.mem_append_right _ (h.holds other hbefore)
  · obtain rfl := List.mem_singleton.1 hlast
    exact List.mem_cons_self

theorem outline_reaper :
    Outline (reaperRely now stageId) .always (fun _ l => l = .start) (reaper env now backoff)
      fun reply s l => ∃ stageIds, reply = .reaped stageIds ∧ Reaped now stageId stageIds s l := by
  refine .bind (Q := Reaped now stageId) ?_ fun stageIds => .pure fun s l h => ⟨stageIds, rfl, h⟩
  refine .bind (Q := Reaping now stageId) (.select (fun _ => stable_reaping) ?_) fun expired => ?_
  · rintro s l rfl
    have hsaw : sawExpired now stageId (Local.start.saw s) =
        s.stages[stageId]?.any (leaseExpired now) := rfl
    refine ⟨by simp [Local.saw], fun entry => running_of_mem_expiredRows, fun _ => rfl, ?_, ?_,
      nofun⟩ <;> rw [hsaw]
    · exact mem_expiredRows.symm
    · intro hany row hrow
      rw [hrow] at hany
      exact hany
  · refine .bind (.mapM fun entry _ => .select (fun _ => stable_reaping) fun s l h => h.saw)
      fun attempts => ?_
    exact .bind outline_flushReaped fun _ => .pure fun s l h => h.reaping.reaped h.holds

end Reaping

/-! ## The worker -/

/-- Others add and remove no stage. -/
def completeRely : Rely Db RowKey := fun _ s s' => s'.stages.length = s.stages.length

/-- A completion that holds the stage has made it succeeded. -/
structure Completing (stageId : Nat) (s : Db) (l : Local Db RowKey) : Prop where
  length : KeepsStages l
  found : stageId < s.stages.length
  held : RowKey.stage stageId ∈ l.held
  succeeded : ∀ (db : Db) (row : RunStage), (l.pending db).stages[stageId]? = some row →
    row.status = .succeeded

theorem stable_completing : Stable completeRely (Completing stageId) := by
  intro s s' l h hrely
  exact ⟨h.length, hrely ▸ h.found, h.held, h.succeeded⟩

/-- Only a running stage completes, and it succeeds. -/
theorem complete_of_ok {status : StageStatus} {ctx : StageTransitionContext} {sm : StageTransition}
    (h : stageTransition status .complete ctx = .ok sm) :
    status = .running ∧ sm.toState = .succeeded := by
  have hentry := stageEntries_of_stageTransition h
  cases status <;> simp [stageEntries] at hentry
  exact ⟨rfl, hentry.1.symm⟩

theorem outline_flushCompleted {attempt : AttemptIn} {result : JsonObject} {stage : RunStage}
    {open? : Option (Nat × StageAttempt)} {status : StageStatus} {total : ℚ} {run : Run}
    (hrunning : stage.status = .running) (hstatus : status = .succeeded) :
    Outline completeRely .always (fun s l => KeepsStages l ∧ stageId < s.stages.length)
      (flushCompleted env stageId attempt result stage open? status total run)
      fun _ => Completing stageId := by
  have hP : Stable completeRely fun s l => KeepsStages l ∧ stageId < s.stages.length :=
    fun s s' l h hrely => ⟨h.1, hrely ▸ h.2⟩
  unfold flushCompleted
  refine .bind (Q := fun _ s l => KeepsStages l ∧ stageId < s.stages.length) ?_ fun _ => ?_
  · exact outline_sendUnless hP (fun _ _ _ h => h) fun _ s l h => ⟨h.1.wrote fun _ => rfl, h.2⟩
  refine .bind (Q := fun _ => Completing stageId) ?_ fun _ => ?_
  · refine outline_send stable_completing fun s l h => ⟨?_, h.2, List.mem_cons_self, ?_⟩
    · exact h.1.wrote fun _ => List.length_modify ..
    · intro db row hrow
      change ((l.pending db).stages.modify stageId _)[stageId]? = some row at hrow
      obtain ⟨-, old, -, rfl⟩ | ⟨hne, -⟩ := getElem?_modify_cases hrow
      · subst hstatus
        exact put_of_ne (by rw [hrunning]; nofun) _
      · exact absurd rfl hne
  · cases open? with
    | none => exact .pure fun _ _ h => h
    | some entry =>
        refine outline_send stable_completing fun s l h => ?_
        exact ⟨h.length.wrote fun _ => rfl, h.found, List.mem_append_right _ h.held, h.succeeded⟩

theorem outline_completeStage {attempt : AttemptIn} {result : JsonObject} :
    Outline completeRely .always (fun _ l => l = .start)
      (completeStage env stageId attempt result) fun _ => Completing stageId := by
  let P : Assertion Db RowKey := fun s l => KeepsStages l ∧ stageId < s.stages.length
  have hP : Stable completeRely P := fun s s' l h hrely => ⟨h.1, hrely ▸ h.2⟩
  refine .bind (Q := fun _ => P) (outline_getRow (fun _ => hP) ?_ (fun _ _ _ _ => trivial) .always)
    fun stage => ?_
  · rintro s l row rfl hrow
    exact ⟨fun _ => rfl, (List.getElem?_eq_some_iff.1 hrow).1⟩
  refine .bind (Q := fun _ => P) (.select (fun _ => hP) fun s l h => h) fun open? => ?_
  refine outline_ofExcept_bind fun sm hsm => ?_
  obtain ⟨hrunning, hsucceeded⟩ := complete_of_ok hsm
  refine .bind (Q := fun _ => P) (.select (fun _ => hP) fun s l h => h) fun total => ?_
  refine .bind (Q := fun _ => P) (outline_getRow (fun _ => hP) (fun s l row h _ => h)
    (fun _ _ _ _ => trivial) .always) fun run => ?_
  exact outline_flushCompleted hrunning hsucceeded

/-- Once a heartbeat has found the stage its own, nobody else changes it. -/
def beatRely (workerId : String) (stageId : Nat) : Rely Db RowKey := fun l s s' =>
  sawOwn workerId stageId l = true → ∀ row, s.stages[stageId]? = some row →
    s'.stages[stageId]? = some row

/-- A heartbeat that answers `true` extends the lease of a stage that is still its own. -/
structure Beating (workerId : String) (stageId : Nat) (lease : Time) (s : Db)
    (l : Local Db RowKey) : Prop where
  saw : sawOwn workerId stageId l = true
  extends_ : ∃ row, s.stages[stageId]? = some row ∧ row.ownedBy workerId = true ∧
    ∀ db : Db, db.stages[stageId]? = some row →
      (l.pending db).stages[stageId]? = some { row with leaseExpiresAt := some lease }

theorem stable_beating {workerId : String} {lease : Time} :
    Stable (beatRely workerId stageId) (Beating workerId stageId lease) := by
  rintro s s' l ⟨hsaw, row, hrow, hextends⟩ hrely
  exact ⟨hsaw, row, hrely hsaw row hrow, hextends⟩

theorem outline_heartbeat {workerId : String} {leaseSeconds : ℚ} :
    Outline (beatRely workerId stageId) .always (fun _ l => l = .start)
      (heartbeat env stageId workerId leaseSeconds) fun alive s l =>
        (alive = true → Beating workerId stageId (env.now + leaseSeconds) s l) ∧
          (alive = false → ∀ db, l.pending db = db) := by
  unfold heartbeat
  refine .bind (Q := fun found s l => (∀ db, l.pending db = db) ∧ ∀ stage, found = some stage →
    stage.ownedBy workerId = true → sawOwn workerId stageId l = true ∧
      s.stages[stageId]? = some stage) (.select ?_ ?_) fun found => ?_
  · rintro found s s' l ⟨hpending, hown⟩ hrely
    refine ⟨hpending, fun stage hfound howned => ?_⟩
    obtain ⟨hsaw, hrow⟩ := hown stage hfound howned
    exact ⟨hsaw, hrely hsaw stage hrow⟩
  · rintro s l rfl
    refine ⟨fun _ => rfl, fun stage (hrow : s.stages[stageId]? = some stage) howned => ⟨?_, hrow⟩⟩
    change s.stages[stageId]?.any (RunStage.ownedBy workerId) = true
    rw [hrow]
    exact howned
  cases found with
  | none => exact .pure fun s l h => ⟨nofun, fun _ => h.1⟩
  | some stage =>
      dsimp only
      split_ifs with hforeign
      · exact .pure fun s l h => ⟨nofun, fun _ => h.1⟩
      · have howned : stage.ownedBy workerId = true := by
          rw [not_or, not_not, not_not] at hforeign
          simp [RunStage.ownedBy, hforeign]
        refine .bind (Q := fun _ => Beating workerId stageId (env.now + leaseSeconds)) ?_
          fun _ => .pure fun s l h => ⟨fun _ => h, nofun⟩
        refine outline_sendUnless stable_beating (fun hlease s l h => ?_) fun _ s l h => ?_
        · obtain ⟨hsaw, hrow⟩ := h.2 stage rfl howned
          refine ⟨hsaw, stage, hrow, howned, fun db hdb => ?_⟩
          rw [h.1 db, hdb, hlease]
        · obtain ⟨hsaw, hrow⟩ := h.2 stage rfl howned
          refine ⟨hsaw, stage, hrow, howned, fun db hdb => ?_⟩
          have hpending : (l.pending db).stages[stageId]? = some stage := (h.1 db).symm ▸ hdb
          exact getElem?_modify_self hpending

/-! ## The two together -/

/-- What the worker's commit establishes. -/
def WorkerCall.Commits (stageId : Nat) (s : Db) (l : Local Db RowKey) (reply : QueueReply) :
    WorkerCall → Prop
  | .complete .. => reply = .completed ∧ Completing stageId s l
  | .heartbeat env workerId leaseSeconds => ∃ alive, reply = .beat alive ∧
      (alive = true → Beating workerId stageId (env.now + leaseSeconds) s l) ∧
      (alive = false → ∀ db, l.pending db = db)

def WorkerCall.rely (stageId : Nat) : WorkerCall → Rely Db RowKey
  | .complete .. => completeRely
  | .heartbeat _ workerId _ => beatRely workerId stageId

def WorkerCall.contract (stageId : Nat) (now : Time) (call : WorkerCall) :
    Nat → Contract Db RowKey QueueReply
  | 0 => ⟨call.rely stageId, .always, fun reply s l => call.Commits stageId s l reply⟩
  | _ + 1 => ⟨reaperRely now stageId, .always, fun reply s l =>
      ∃ stageIds, reply = .reaped stageIds ∧ Reaped now stageId stageIds s l⟩

variable {call : WorkerCall}

theorem outline_worker :
    Outline (call.rely stageId) .always (fun _ l => l = .start) (call.script stageId)
      fun reply s l => call.Commits stageId s l reply := by
  cases call with
  | complete env attempt result =>
      exact outline_completeStage.bind fun _ => .pure fun s l h => ⟨rfl, h⟩
  | heartbeat env workerId leaseSeconds =>
      exact outline_heartbeat.bind fun alive => .pure fun s l h => ⟨alive, rfl, h⟩

theorem obeys_start :
    (workerAndReaper db stageId call env now backoff).Obeys (call.contract stageId now) := by
  refine .start fun i m hm => ⟨fun _ l => l = .start, fun _ _ _ h _ => h, rfl, ?_⟩
  cases i with
  | zero =>
      cases hm
      exact outline_worker
  | succ i =>
      cases i with
      | zero =>
          cases hm
          exact outline_reaper
      | succ i => cases hm

/-- A commit that overtakes nobody is one that the other transaction relies on. -/
theorem WorkerCall.OnTime.respects (h : call.OnTime stageId now w i) (hlength : w.parties.length = 2) :
    w.Respects (call.contract stageId now) i := by
  intro reply l hi hcommits j m l' hj hm hdisjoint
  have hlt : j < 2 := hlength ▸ (List.getElem?_eq_some_iff.1 hm).1
  have hlt' : i < 2 := hlength ▸ (List.getElem?_eq_some_iff.1 hi).1
  obtain ⟨rfl, rfl⟩ | ⟨rfl, rfl⟩ : (i = 0 ∧ j = 1) ∨ (i = 1 ∧ j = 0) := by omega
  · intro hsaw row hrow
    cases call with
    | complete env attempt result =>
        obtain ⟨-, hcompleting⟩ := hcommits
        exact absurd (h reply l rfl hi m l' hm hsaw) (hdisjoint _ hcompleting.held)
    | heartbeat env workerId leaseSeconds =>
        obtain ⟨alive, rfl, htrue, hfalse⟩ := hcommits
        cases alive with
        | false => rwa [hfalse rfl] at hrow
        | true =>
            rw [h.1 l rfl hi m l' hm] at hsaw
            cases hsaw
  · obtain ⟨stageIds, rfl, hreaped⟩ := hcommits
    cases call with
    | complete env attempt result => exact hreaped.length _
    | heartbeat env workerId leaseSeconds =>
        intro hsaw row hrow
        refine hreaped.kept (fun hmem => ?_) row hrow
        rw [h.2 _ l rfl hi (hreaped.taken hmem).1 m l' hm] at hsaw
        cases hsaw

/-- A success that has committed, in the terms of the stage's row. -/
def WorkerCall.Lasts (stageId : Nat) (w : QueueWorld) : WorkerCall → Prop
  | .complete .. => w.parties[0]? = some (.committed .completed) →
      ∃ row, w.store.stages[stageId]? = some row ∧ row.status = .succeeded
  | .heartbeat env workerId leaseSeconds =>
      (w.parties[0]? = some (.committed (.beat true)) → ∃ row,
        w.store.stages[stageId]? = some row ∧ row.ownedBy workerId = true ∧
          row.leaseExpiresAt = some (env.now + leaseSeconds)) ∧
      ∀ stageIds, w.parties[1]? = some (.committed (.reaped stageIds)) → stageId ∈ stageIds →
        ∀ row, w.store.stages[stageId]? = some row → row.status ≠ .running

/-- A row that the reaper cannot list is kept by its commit. -/
theorem Reaped.keeps {stageIds : List Nat} {s : Db} {row : RunStage}
    (h : Reaped now stageId stageIds s l) (hrow : s.stages[stageId]? = some row)
    (hlive : leaseExpired now row = false) : (l.pending s).stages[stageId]? = some row := by
  refine h.kept (fun hmem => ?_) row hrow
  rw [(h.taken hmem).2.1 row hrow] at hlive
  cases hlive

theorem WorkerCall.Lasts.step (hlasts : call.Lasts stageId w)
    (hobeys : w.Obeys (call.contract stageId now)) (hlength : w.parties.length = 2)
    (htime : call.InTime now) : call.Lasts stageId (w.step i) := by
  have hreaper {reply : QueueReply} {l : Local Db RowKey} (hi : 0 ≠ i)
      (hparty : w.parties[i]? = some (.active (.done reply) l)) :
      ∃ stageIds, Reaped now stageId stageIds w.store l := by
    have hlt : i < 2 := hlength ▸ (List.getElem?_eq_some_iff.1 hparty).1
    obtain rfl : i = 1 := by omega
    obtain ⟨stageIds, -, hreaped⟩ := hobeys.commits hparty
    exact ⟨stageIds, hreaped⟩
  cases call with
  | complete env attempt result =>
      intro hdone
      obtain ⟨hbefore, hsame | ⟨hi, reply, l, hparty, hstore⟩⟩ | ⟨rfl, l, hparty, hstore⟩ :=
        (w.move i).committed_cases hdone
      · rw [hsame]
        exact hlasts hbefore
      · obtain ⟨stageIds, hreaped⟩ := hreaper hi hparty
        obtain ⟨row, hrow, hsucceeded⟩ := hlasts hbefore
        exact ⟨row, hstore ▸ hreaped.keeps hrow (by simp [leaseExpired, hsucceeded]), hsucceeded⟩
      · obtain ⟨-, hcompleting⟩ := hobeys.commits hparty
        obtain ⟨row, hrow⟩ := hcompleting.length.getElem? hcompleting.found
        exact ⟨row, hstore ▸ hrow, hcompleting.succeeded _ row hrow⟩
  | heartbeat env workerId leaseSeconds =>
      refine ⟨fun hdone => ?_, fun stageIds hdone hmem row hrow => ?_⟩
      · obtain ⟨hbefore, hsame | ⟨hi, reply, l, hparty, hstore⟩⟩ | ⟨rfl, l, hparty, hstore⟩ :=
          (w.move i).committed_cases hdone
        · rw [hsame]
          exact hlasts.1 hbefore
        · obtain ⟨stageIds, hreaped⟩ := hreaper hi hparty
          obtain ⟨row, hrow, howned, hlease⟩ := hlasts.1 hbefore
          have hlive : leaseExpired now row = false := by
            have hnow : now ≤ env.now + leaseSeconds := htime
            simp [leaseExpired, hlease, hnow]
          exact ⟨row, hstore ▸ hreaped.keeps hrow hlive, howned, hlease⟩
        · obtain ⟨alive, halive, hbeating, -⟩ := hobeys.commits hparty
          cases halive
          obtain ⟨-, row, hrow, howned, hextends⟩ := hbeating rfl
          rw [hstore]
          exact ⟨_, hextends _ hrow, howned, rfl⟩
      · obtain ⟨hbefore, hsame | ⟨hi, reply, l, hparty, hstore⟩⟩ | ⟨rfl, l, hparty, hstore⟩ :=
          (w.move i).committed_cases hdone
        · rw [hsame] at hrow
          exact hlasts.2 stageIds hbefore hmem row hrow
        · have hlt : i < 2 := hlength ▸ (List.getElem?_eq_some_iff.1 hparty).1
          obtain rfl : i = 0 := by omega
          obtain ⟨alive, -, hbeating, hidle⟩ := hobeys.commits hparty
          cases alive with
          | false =>
              rw [hstore, hidle rfl] at hrow
              exact hlasts.2 stageIds hbefore hmem row hrow
          | true =>
              -- The heartbeat has found the stage running, which the reaper had ended.
              obtain ⟨-, own, hown, howned, -⟩ := hbeating rfl
              have hended := hlasts.2 stageIds hbefore hmem own hown
              simp [RunStage.ownedBy, hended] at howned
        · obtain ⟨stageIds', heq, hreaped⟩ := hobeys.commits hparty
          cases heq
          rw [hstore] at hrow
          exact (hreaped.taken hmem).2.2 row hrow

theorem WorkerCall.Lasts.survives (h : call.Lasts stageId w) : call.Survives stageId w := by
  cases call with
  | complete env attempt result =>
      intro hdone
      obtain ⟨row, hrow, hsucceeded⟩ := h hdone
      exact ⟨row, hrow, hsucceeded, fun now substrates houses => by simp [claimable, hsucceeded]⟩
  | heartbeat env workerId leaseSeconds =>
      intro hdone
      obtain ⟨row, hrow, howned, -⟩ := h.1 hdone
      refine ⟨⟨row, hrow, howned⟩, fun stageIds hreaped hmem => ?_⟩
      have hended := h.2 stageIds hreaped hmem row hrow
      simp [RunStage.ownedBy, hended] at howned

/-- In every interleaving with the reaper in which no commit overtakes the other transaction, a
worker's committed success survives. -/
theorem worker_survives (call : WorkerCall) (htime : call.InTime now) (schedule : List Nat)
    (h : EachStep World.step (fun w i => call.OnTime stageId now w i)
      (workerAndReaper db stageId call env now backoff) schedule) :
    call.Survives stageId ((workerAndReaper db stageId call env now backoff).run schedule) := by
  have hstart : call.Lasts stageId (workerAndReaper db stageId call env now backoff) := by
    cases call with
    | complete => exact fun hdone => nomatch hdone
    | heartbeat =>
        constructor
        · intro hdone
          cases hdone
        · intro stageIds hdone
          cases hdone
  have hend := invariant (I := fun w : QueueWorld =>
    w.Obeys (call.contract stageId now) ∧ w.parties.length = 2 ∧ call.Lasts stageId w)
    (fun w i hw hontime => ⟨hw.1.step (hontime.respects hw.2.1),
      (w.move i).length.trans hw.2.1, hw.2.2.step hw.1 hw.2.1 htime⟩)
    ⟨obeys_start, rfl, hstart⟩ h
  exact hend.2.2.survives

/-- The first stage of an initiation, claimed at 0 for 60 seconds. -/
def claimedDb : Db :=
  AiFund.run .small .small (Op.initiateApple ++ [.tickWith [.claim "worker" [] [] 60]])

/-- The worker completes the stage of `claimedDb` while the reaper runs at 100. -/
def lateReaper : QueueWorld :=
  workerAndReaper claimedDb 0 (.complete (.quiet 0) { workerId := "worker" } []) (.quiet 100) 100
    ⟨60, 3600, 0⟩

/-- The step does not commit the worker's completion, or the reaper has ended. -/
def holdsBack (w : QueueWorld) (i : Nat) : Bool :=
  i ≠ 0 || ((w.step 0).result 0).isNone || w.parties[1]?.all Party.ended

theorem WorkerCall.OnTime.of_holdsBack {w : QueueWorld} {i : Nat} {attempt : AttemptIn}
    {result : JsonObject} (h : holdsBack w i = true) :
    WorkerCall.OnTime stageId now w i (.complete env attempt result) := by
  rintro reply l rfl hdone rest l' hactive -
  have hcommits : (w.step 0).result 0 = some reply := by
    unfold World.step
    rw [World.result_eq_some, hdone]
    exact List.getElem?_set_self (List.getElem?_eq_some_iff.1 hdone).1
  unfold holdsBack at h
  rw [hcommits, hactive] at h
  cases h

/-- The worker has read the stage when the reaper lists it and fails it, and then commits its
success. -/
theorem worker_survives_read :
    (lateReaper.run (List.replicate 4 0 ++ List.replicate 5 1)).store.stages[0]?.map (·.status) =
        some .failed ∧
      (lateReaper.run (List.replicate 4 0 ++ List.replicate 5 1 ++ List.replicate 4 0)).result 0 =
        some .completed ∧
      (lateReaper.run (List.replicate 4 0 ++ List.replicate 5 1 ++ List.replicate 4 0)).result 1 =
        some (.reaped [0]) ∧
      WorkerCall.Survives 0
        (lateReaper.run (List.replicate 4 0 ++ List.replicate 5 1 ++ List.replicate 4 0))
        (.complete (.quiet 0) { workerId := "worker" } []) := by
  let call : WorkerCall := .complete (.quiet 0) { workerId := "worker" } []
  have htime : call.InTime 100 := trivial
  have hholds : EachStep World.step (fun w i => holdsBack w i = true) lateReaper
      (List.replicate 4 0 ++ List.replicate 5 1 ++ List.replicate 4 0) := by decide +kernel
  exact ⟨by decide +kernel, by decide +kernel, by decide +kernel,
    worker_survives call htime _ (hholds.mono fun _ _ => .of_holdsBack)⟩

/-- The reaper has listed the stage when its worker commits, and fails it afterwards. -/
theorem not_survives_listed :
    ¬ WorkerCall.Survives 0
        (lateReaper.run (List.replicate 6 0 ++ [1, 0] ++ List.replicate 4 1))
        (.complete (.quiet 0) { workerId := "worker" } []) := by
  intro h
  have hdone : (lateReaper.run (List.replicate 6 0 ++ [1, 0] ++ List.replicate 4 1)).result 0 =
      some .completed := by
    decide +kernel
  obtain ⟨stage, hstage, hsucceeded, -⟩ := h (World.result_eq_some.1 hdone)
  have hfailed : (lateReaper.run (List.replicate 6 0 ++ [1, 0] ++
      List.replicate 4 1)).store.stages[0]?.map (·.status) = some .failed := by
    decide +kernel
  rw [hstage, Option.map_some, hsucceeded] at hfailed
  cases hfailed

end AiFund.Concurrent
