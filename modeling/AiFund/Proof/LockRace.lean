import AiFund.Concurrent.Runs
import AiFund.Proof.Serialization
import AiFund.Proof.Statements

/-!
# The race for the coverage lock

The outlines of starting and finishing a run, and what holds of the lock when any number of such
transactions interleave.
-/

namespace AiFund.Concurrent

open ReadCommitted Rows History UnitOfWork

variable {c r : Nat} {s s' : Db} {l : Local Db RowKey} {env : Env}

/-! ## What the transactions do to runs and locks -/

/-- The runs keep their coverage and whether they mutate it. -/
def SameRuns (a b : Db) : Prop :=
  ∀ (r : Nat) (run : Run), a.runs[r]? = some run → ∃ run', b.runs[r]? = some run' ∧
    run'.coverageId = run.coverageId ∧ run'.mutatesDossier = run.mutatesDossier

theorem SameRuns.refl (db : Db) : SameRuns db db := fun _ run h => ⟨run, h, rfl, rfl⟩

theorem SameRuns.updateRun {a b : Db} {f : Run → Run} (h : SameRuns a b)
    (hf : ∀ run, (f run).coverageId = run.coverageId ∧
      (f run).mutatesDossier = run.mutatesDossier) : SameRuns a (b.updateRun r f) := by
  intro k run hrun
  obtain ⟨run', hrun', hcoverage, hmutates⟩ := h k run hrun
  by_cases hk : k = r
  · subst hk
    exact ⟨f run', getElem?_modify_self hrun', (hf run').1.trans hcoverage,
      (hf run').2.trans hmutates⟩
  · exact ⟨run', (getElem?_modify_of_ne hk).trans hrun', hcoverage, hmutates⟩

/-- What a start of the run `r` on the coverage `c` builds on. -/
structure LockReady (c r : Nat) (s : Db) : Prop where
  run : ∃ run, s.runs[r]? = some run ∧ run.mutatesDossier = true ∧ run.coverageId = some c
  fits : ∀ lock ∈ s.locks, lock.runId = r → lock.coverageId = c
  single : (locksOf c s).length ≤ 1

/-- The transaction writes no other run's row, and leaves runs on their coverages. -/
structure Mild (r : Nat) (l : Local Db RowKey) : Prop where
  runs : ∀ db, SameRuns db (l.pending db)
  only : ∀ k, RowKey.run k ∈ l.held → k = r

theorem Mild.setRun {f : Run → Run} (h : Mild r l) (hf : ∀ run, (f run).coverageId = run.coverageId ∧
    (f run).mutatesDossier = run.mutatesDossier) : Mild r (l.wrote (DbWrite.setRun r f)) := by
  refine ⟨fun db => (h.runs db).updateRun hf, fun k hk => ?_⟩
  rcases List.mem_append.1 hk with htaken | hold
  · simpa [DbWrite.setRun] using htaken
  · exact h.only k hold

/-- The start has inserted the lock, which is free for everybody else. -/
structure Inserted (c r : Nat) (s : Db) (l : Local Db RowKey) : Prop where
  free : locksOf c s = []
  held : RowKey.lock c ∈ l.held
  adds : ∃ t, ∀ db : Db, (l.pending db).locks = db.locks ++ [⟨c, r, t⟩]

/-- The start has found the lock to be its run's. -/
structure Owned (c r : Nat) (s : Db) (l : Local Db RowKey) : Prop where
  saw : sawOwnLock c r l = true
  owns : ∃ t, locksOf c s = [⟨c, r, t⟩]
  keeps : ∀ db : Db, (l.pending db).locks = db.locks

structure StartRely (c r : Nat) (l : Local Db RowKey) (s s' : Db) : Prop where
  ready : LockReady c r s → LockReady c r s'
  held : RowKey.lock c ∈ l.held → locksOf c s' = locksOf c s
  owned : sawOwnLock c r l = true → ∀ t, locksOf c s = [⟨c, r, t⟩] → locksOf c s' = locksOf c s

/-- What a start establishes when it commits. -/
structure Won (c r : Nat) (s : Db) (l : Local Db RowKey) : Prop where
  ready : LockReady c r s
  mild : Mild r l
  lock : Inserted c r s l ∨ Owned c r s l

theorem Inserted.rely (h : Inserted c r s l) (hrely : StartRely c r l s s') : Inserted c r s' l :=
  ⟨(hrely.held h.held).trans h.free, h.held, h.adds⟩

theorem Owned.rely (h : Owned c r s l) (hrely : StartRely c r l s s') : Owned c r s' l := by
  obtain ⟨t, ht⟩ := h.owns
  exact ⟨h.saw, ⟨t, (hrely.owned h.saw t ht).trans ht⟩, h.keeps⟩

theorem stable_won : Stable (StartRely c r) (Won c r) := fun _ _ _ h hrely =>
  ⟨hrely.ready h.ready, h.mild, h.lock.imp (·.rely hrely) (·.rely hrely)⟩

theorem lockOwner_eq_head? {db : Db} : db.lockOwner c = (locksOf c db).head?.map (·.runId) := by
  rw [Db.lockOwner, locksOf, List.head?_filter]

/-! ## Starting a run -/

theorem outline_markRunning {run : Run} :
    Outline (StartRely c r) .never (Won c r) (markRunning env r run) fun started s l =>
      started = true ∧ Won c r s l := by
  refine .bind (Q := fun _ => Won c r) ?_ fun _ => .pure fun s l h => ⟨rfl, h⟩
  refine outline_sendUnless stable_won (fun _ _ _ h => h) fun _ s l h => ?_
  refine ⟨h.ready, h.mild.setRun fun _ => ⟨rfl, rfl⟩, ?_⟩
  · refine h.lock.imp (fun h => ⟨h.free, List.mem_append_right _ h.held, h.adds⟩) fun h => ?_
    refine ⟨?_, h.owns, h.keeps⟩
    have hsaw := h.saw
    simp only [sawOwnLock, Bool.and_eq_true, decide_eq_true_eq] at hsaw ⊢
    refine ⟨hsaw.1, fun hheld => ?_⟩
    rcases List.mem_append.1 hheld with htaken | hold
    · simp [DbWrite.setRun] at htaken
    · exact hsaw.2 hold

/-- A start that has only read. -/
structure Idle (l : Local Db RowKey) : Prop where
  held : l.held = []
  keeps : ∀ db, l.pending db = db

theorem Idle.mild (h : Idle l) : Mild r l := by
  refine ⟨fun db => ?_, fun k hk => ?_⟩
  · rw [h.keeps]
    exact .refl db
  · rw [h.held] at hk
    cases hk

theorem Mild.saw (h : Mild r l) : Mild r (l.saw s) := ⟨h.runs, h.only⟩

/-- A lock that the run has been found to own is the only one of the coverage. -/
theorem LockReady.of_owner (h : LockReady c r s) (howner : s.lockOwner c = some r) :
    ∃ t, locksOf c s = [⟨c, r, t⟩] := by
  rw [lockOwner_eq_head?] at howner
  obtain ⟨lock, hhead, hrun⟩ := Option.map_eq_some_iff.1 howner
  obtain ⟨rest, hlocks⟩ := List.head?_eq_some_iff.1 hhead
  obtain rfl : rest = [] := by
    have hlength := h.single
    rw [hlocks, List.length_cons] at hlength
    exact List.length_eq_zero_iff.1 (by omega)
  have hmem : lock ∈ locksOf c s := hlocks ▸ List.mem_singleton_self lock
  have hcoverage : lock.coverageId = c := by simpa using (List.mem_filter.1 hmem).2
  exact ⟨lock.acquiredAt, by rw [hlocks, ← hrun, ← hcoverage]⟩

theorem outline_insertLock {now : Time} :
    Outline (StartRely c r) .never (fun s l => LockReady c r s ∧ l.seen.length = 1 ∧ Idle l)
      (insertLock c r now) fun _ s l =>
        LockReady c r s ∧ l.seen.length = 1 ∧ (Idle l ∨ Mild r l ∧ Inserted c r s l) := by
  refine .write ?_ ?_ ?_
  · rintro s s' l ⟨hready, hseen, hlock⟩ hrely
    exact ⟨hrely.ready hready, hseen, hlock.imp_right fun h => ⟨h.1, h.2.rely hrely⟩⟩
  · rintro s l w ⟨hready, hseen, hidle⟩ hw
    refine ⟨hready, hseen, ?_⟩
    have hvisible : l.visible s = s := hidle.keeps s
    rw [hvisible] at hw
    split_ifs at hw with htaken
    · cases hw
      exact .inl ⟨hidle.held, hidle.keeps⟩
    · cases hw
      refine .inr ⟨⟨fun db => ?_, fun k hk => ?_⟩, ?_, List.mem_cons_self, now, fun db => ?_⟩
      · change SameRuns db { l.pending db with locks := _ }
        rw [hidle.keeps]
        exact .refl db
      · simp [Local.wrote, DbWrite.addLock, hidle.held] at hk
      · rw [locksOf, List.filter_eq_nil_iff]
        simpa using htaken
      · change (l.pending db).locks ++ _ = _
        rw [hidle.keeps]
  · rintro s l ⟨hready, -, hidle⟩ hw
    have hvisible : l.visible s = s := hidle.keeps s
    rw [hvisible] at hw
    split_ifs at hw with htaken hown
    rw [List.any_eq_true] at hown
    obtain ⟨lock, hlock, hrun⟩ := hown
    refine htaken (List.any_eq_true.2 ⟨lock, hlock, ?_⟩)
    simpa using hready.fits lock hlock (by simpa using hrun)

/-- The lock that a start has inserted is the one that it reads back. -/
theorem Inserted.owner (h : Inserted c r s l) : (l.visible s).lockOwner c = some r := by
  obtain ⟨t, hadds⟩ := h.adds
  have hlocks : locksOf c (l.visible s) = [⟨c, r, t⟩] := by
    have hfree := h.free
    unfold locksOf at hfree ⊢
    change ((l.pending s).locks.filter _) = _
    rw [hadds, List.filter_append, hfree]
    simp
  rw [lockOwner_eq_head?, hlocks]
  rfl

theorem outline_readOwner :
    Outline (StartRely c r) .never
      (fun s l => LockReady c r s ∧ l.seen.length = 1 ∧ (Idle l ∨ Mild r l ∧ Inserted c r s l))
      (Script.select fun db => db.lockOwner c) fun owner s l =>
        if owner = some r then Won c r s l else Idle l := by
  refine .select (fun owner => ?_) ?_
  · split_ifs
    · exact stable_won
    · exact fun _ _ _ h _ => h
  · rintro s l ⟨hready, hseen, hidle | ⟨hmild, hinserted⟩⟩
    · have hvisible : l.visible s = s := hidle.keeps s
      rw [hvisible]
      split_ifs with howner
      · refine ⟨hready, hidle.mild.saw, .inr ⟨?_, hready.of_owner howner, ?_⟩⟩
        · simp [sawOwnLock, Local.saw, hseen, hvisible, howner, hidle.held]
        · exact fun db => congrArg Db.locks (hidle.keeps db)
      · exact ⟨hidle.held, hidle.keeps⟩
    · rw [if_pos hinserted.owner]
      exact ⟨hready, hmild.saw, .inl ⟨hinserted.free, hinserted.held, hinserted.adds⟩⟩

/-- A start returns: with the lock in its run's name, or having written nothing. -/
theorem outline_startRun :
    Outline (StartRely c r) .never (fun s l => l = .start ∧ LockReady c r s) (startRun env r)
      fun started s l => if started = true then Won c r s l else Idle l := by
  refine .bind (Q := fun run s l => (run.mutatesDossier = true ∧ run.coverageId = some c) ∧
    LockReady c r s ∧ l.seen.length = 1 ∧ Idle l) (outline_getRow (fun run => ?_) ?_ ?_ .never)
    fun run => .assuming fun hrun => ?_
  · exact fun s s' l h hrely => ⟨h.1, hrely.ready h.2.1, h.2.2⟩
  · rintro s l row ⟨rfl, hready⟩ hrow
    obtain ⟨run, hrun, hmutates⟩ := hready.run
    obtain rfl : row = run := Option.some.inj (hrow.symm.trans hrun)
    exact ⟨hmutates, hready, rfl, rfl, fun _ => rfl⟩
  · rintro s l ⟨rfl, hready⟩ hnone
    obtain ⟨run, hrun, -⟩ := hready.run
    exact Option.some_ne_none run (hrun.symm.trans hnone)
  · rw [if_pos hrun.1, hrun.2]
    refine .bind outline_insertLock fun _ => .bind outline_readOwner fun owner => ?_
    by_cases howner : owner = some r
    · rw [if_neg (not_not.2 howner)]
      simp only [if_pos howner]
      exact outline_markRunning.post fun started s l h => by rw [if_pos h.1]; exact h.2
    · rw [if_pos howner]
      simp only [if_neg howner]
      exact .pure fun s l h => h

/-! ## Finishing a run -/

/-- What a finish does to the locks: it deletes locks of its run only, and none of the run's is left
on a coverage whose lock it holds. -/
structure Released (c r : Nat) (s : Db) (l : Local Db RowKey) : Prop where
  mild : Mild r l
  drops : ∀ db, (l.pending db).locks.Sublist db.locks
  frees : RowKey.lock c ∈ l.held → (∃ lock ∈ locksOf c s, lock.runId = r) ∧
    ∀ db, ∀ lock ∈ locksOf c (l.pending db), lock.runId ≠ r

def finishRely (c : Nat) : Rely Db RowKey := fun l s s' =>
  RowKey.lock c ∈ l.held → locksOf c s' = locksOf c s

theorem stable_released : Stable (finishRely c) (Released c r) := by
  intro s s' l h hrely
  refine ⟨h.mild, h.drops, fun hheld => ?_⟩
  rw [hrely hheld]
  exact h.frees hheld

/-- A write that leaves the locks alone. -/
theorem Released.wrote {w : DbWrite} (h : Released c r s l) (hmild : Mild r (l.wrote w))
    (hlocks : ∀ db, (w.apply db).locks = db.locks) (htakes : RowKey.lock c ∉ w.takes) :
    Released c r s (l.wrote w) := by
  refine ⟨hmild, fun db => ?_, fun hheld => ?_⟩
  · change (w.apply (l.pending db)).locks.Sublist db.locks
    rw [hlocks]
    exact h.drops db
  · obtain ⟨hown, hgone⟩ := h.frees ((List.mem_append.1 hheld).resolve_left htakes)
    refine ⟨hown, fun db lock hlock => hgone db lock ?_⟩
    change lock ∈ (w.apply (l.pending db)).locks.filter _ at hlock
    rwa [hlocks] at hlock

/-- Deleting the run's locks on the coverages where it has some. -/
theorem Released.dropLocks {ids : List Nat} (h : Released c r s l)
    (hids : c ∈ ids → ∃ lock ∈ locksOf c s, lock.runId = r) :
    Released c r s (l.wrote (DbWrite.dropLocks r ids)) := by
  have hsub (db : Db) : ((l.wrote (DbWrite.dropLocks r ids)).pending db).locks.Sublist
      (l.pending db).locks :=
    List.filter_sublist
  refine ⟨⟨h.mild.runs, fun k hk => ?_⟩, fun db => (hsub db).trans (h.drops db), fun hheld => ?_⟩
  · rcases List.mem_append.1 hk with htaken | hold
    · simp [DbWrite.dropLocks] at htaken
    · exact h.mild.only k hold
  · rcases List.mem_append.1 hheld with htaken | hbefore
    · have hc : c ∈ ids := by simpa [DbWrite.dropLocks] using htaken
      refine ⟨hids hc, fun db lock hlock howner => ?_⟩
      obtain ⟨hleft, hcoverage⟩ := List.mem_filter.1 hlock
      obtain ⟨-, hkept⟩ := List.mem_filter.1 hleft
      simp only [decide_eq_true_eq] at hkept hcoverage
      exact hkept ⟨howner, hcoverage ▸ hc⟩
    · obtain ⟨hown, hgone⟩ := h.frees hbefore
      exact ⟨hown, fun db lock hlock => hgone db lock ((List.Sublist.filter _ (hsub db)).subset hlock)⟩

theorem outline_releaseLock :
    Outline (finishRely c) .always (Released c r) (releaseLock r) fun _ => Released c r := by
  refine .write stable_released (fun s l w h hw => ?_) fun _ _ _ _ => trivial
  cases hw
  refine h.dropLocks fun hmem => ?_
  obtain ⟨lock, hlock, hcoverage⟩ := List.mem_map.1 hmem
  obtain ⟨hvisible, hrun⟩ := List.mem_filter.1 hlock
  refine ⟨lock, List.mem_filter.2 ⟨(h.drops s).subset hvisible, ?_⟩, ?_⟩
  · simpa using hcoverage
  · simpa using hrun

theorem outline_finishLoaded {run : Run} {status : RunStatus} {summary error : Option String} :
    Outline (finishRely c) .always (Released c r) (finishLoaded env r run status summary error)
      fun _ => Released c r := by
  refine outline_ofExcept_bind fun action _ => outline_ofExcept_bind fun sm _ => ?_
  refine .bind (.forM fun effect _ => ?_) fun _ => .bind (.forM fun effect _ => ?_) fun _ => ?_
  · cases effect with
    | releaseLock => exact outline_releaseLock
    | _ => exact .pure fun _ _ h => h
  · cases effect with
    | outboxRunFinished =>
        refine outline_send stable_released fun s l h => h.wrote ?_ (fun _ => rfl) nofun
        exact ⟨h.mild.runs, h.mild.only⟩
    | _ => exact .pure fun _ _ h => h
  · refine outline_send stable_released fun s l h => h.wrote ?_ (fun _ => rfl) (by simp [DbWrite.setRun])
    exact h.mild.setRun fun _ => ⟨rfl, rfl⟩

theorem outline_finishRun {status : RunStatus} {summary error : Option String} :
    Outline (finishRely c) .always (fun _ l => l = .start) (finishRun env r status summary error)
      fun _ => Released c r := by
  refine .bind (Q := fun _ => Released c r) (outline_getRow (fun _ => stable_released) ?_
    (fun _ _ _ _ => trivial) .always) fun run => outline_finishLoaded
  rintro s l row rfl -
  exact ⟨⟨.refl, nofun⟩, fun _ => .refl _, nofun⟩

/-! ## The race -/

def LockCall.contract (c : Nat) : LockCall → Contract Db RowKey LockReply
  | .start _ r =>
      { rely := StartRely c r
        raises := .never
        commits := fun reply s l => ∃ started, reply = .started started ∧
          if started = true then Won c r s l else Idle l }
  | .finish _ r _ _ _ =>
      { rely := finishRely c
        raises := .always
        commits := fun reply s l => reply = .finished ∧ Released c r s l }

def raceContract (calls : List LockCall) (c i : Nat) : Contract Db RowKey LockReply :=
  (calls[i]?.map (LockCall.contract c)).getD ⟨fun _ _ _ => True, .always, fun _ => .always⟩

variable {calls : List LockCall} {call : LockCall} {db : Db} {w : LockWorld} {i : Nat}

theorem raceContract_eq (h : calls[i]? = some call) : raceContract calls c i = call.contract c := by
  rw [raceContract, h]
  rfl

theorem obeys_contenders
    (hready : ∀ i r : Nat, calls[i]?.bind LockCall.starts = some r → LockReady c r db) :
    (contenders db calls).Obeys (raceContract calls c) := by
  refine .start fun i m hm => ?_
  obtain ⟨call, hcall, rfl⟩ := Option.map_eq_some_iff.1 ((List.getElem?_map ..).symm.trans hm)
  rw [raceContract_eq hcall]
  cases call with
  | start env r =>
      refine ⟨fun s l => l = .start ∧ LockReady c r s, ?_, ⟨rfl, hready i r (by simp [hcall]; rfl)⟩, ?_⟩
      · exact fun s s' l h hrely => ⟨h.1, hrely.ready h.2⟩
      · exact outline_startRun.bind fun started => .pure fun s l h => ⟨started, rfl, h⟩
  | finish env r status summary error =>
      refine ⟨fun _ l => l = .start, fun _ _ _ h _ => h, rfl, ?_⟩
      exact outline_finishRun.bind fun _ => .pure fun s l h => ⟨rfl, h⟩

theorem LockReady.drop (h : LockReady c r s) (hruns : SameRuns s s')
    (hlocks : s'.locks.Sublist s.locks) : LockReady c r s' := by
  refine ⟨?_, fun lock hlock => h.fits lock (hlocks.subset hlock), ?_⟩
  · obtain ⟨run, hrun, hmutates, hcoverage⟩ := h.run
    obtain ⟨run', hrun', hcoverage', hmutates'⟩ := hruns r run hrun
    exact ⟨run', hrun', hmutates'.trans hmutates, hcoverage'.trans hcoverage⟩
  · exact (List.Sublist.filter _ hlocks).length_le.trans h.single

theorem LockReady.insert {r' : Nat} {t : Time} (h : LockReady c r s) (hruns : SameRuns s s')
    (hfree : locksOf c s = []) (hlocks : s'.locks = s.locks ++ [⟨c, r', t⟩]) :
    LockReady c r s' := by
  have hkept : LockReady c r { s' with locks := s.locks } := h.drop hruns (.refl _)
  refine ⟨hkept.run, fun lock hlock hrun => ?_, ?_⟩
  · rw [hlocks] at hlock
    rcases List.mem_append.1 hlock with hold | hnew
    · exact h.fits lock hold hrun
    · rw [List.mem_singleton.1 hnew]
  · unfold locksOf at hfree ⊢
    rw [hlocks, List.filter_append, hfree]
    exact List.length_filter_le ..

/-- What a transaction is about to commit. -/
inductive RaceCommit (calls : List LockCall) (c : Nat) (s : Db) (i : Nat) :
    LockReply → Local Db RowKey → Prop
  | won {r : Nat} {l : Local Db RowKey} (hstart : calls[i]?.bind LockCall.starts = some r)
      (h : Won c r s l) : RaceCommit calls c s i (.started true) l
  | refused {r : Nat} {l : Local Db RowKey} (hstart : calls[i]?.bind LockCall.starts = some r)
      (h : Idle l) : RaceCommit calls c s i (.started false) l
  | finished {r : Nat} {l : Local Db RowKey} (hfinish : calls[i]?.bind LockCall.finishes = some r)
      (h : Released c r s l) : RaceCommit calls c s i .finished l

theorem exists_call {party : Party Db RowKey LockReply} (hlength : w.parties.length = calls.length)
    (hi : w.parties[i]? = some party) : ∃ call, calls[i]? = some call :=
  ⟨_, List.getElem?_eq_getElem (hlength ▸ (List.getElem?_eq_some_iff.1 hi).1)⟩

theorem RaceCommit.of_commits {reply : LockReply} (hcall : calls[i]? = some call)
    (h : (raceContract calls c i).commits reply s l) : RaceCommit calls c s i reply l := by
  rw [raceContract_eq hcall] at h
  cases call with
  | start env r =>
      have hstart : calls[i]?.bind LockCall.starts = some r := by
        rw [hcall]
        rfl
      obtain ⟨started, rfl, h⟩ := h
      cases started with
      | true => exact .won hstart h
      | false => exact .refused hstart h
  | finish env r status summary error =>
      obtain ⟨rfl, h⟩ := h
      refine .finished ?_ h
      rw [hcall]
      rfl

/-- A commit that spares the owners is one that the others rely on. -/
theorem SparesOwners.respects (h : SparesOwners calls c w i)
    (hlength : w.parties.length = calls.length) : w.Respects (raceContract calls c) i := by
  intro reply l hi hcommits j m l' hj hm hdisjoint
  obtain ⟨call, hcalli⟩ := exists_call hlength hi
  obtain ⟨call', hcallj⟩ := exists_call hlength hm
  rw [raceContract_eq hcallj]
  have hheld : finishRely c l' w.store (l.pending w.store) := fun hheld =>
    l.frame (.lock c) (fun hmem => hdisjoint _ hmem hheld) w.store
  cases call' with
  | finish env r' status summary error => exact hheld
  | start env r' =>
      cases RaceCommit.of_commits hcalli hcommits with
      | refused hstart hidle =>
          rw [hidle.keeps]
          exact ⟨fun h => h, fun _ => rfl, fun _ _ _ => rfl⟩
      | won hstart hwon =>
          obtain ⟨-, hmild, ⟨hfree, hlock, t, hadds⟩ | ⟨-, -, hkeeps⟩⟩ := hwon
          · refine ⟨fun hready => hready.insert (hmild.runs _) hfree (hadds _), hheld,
              fun _ t' howner => ?_⟩
            cases hfree.symm.trans howner
          · have hlocks : locksOf c (l.pending w.store) = locksOf c w.store := by
              rw [locksOf, hkeeps, locksOf]
            refine ⟨fun hready => hready.drop (hmild.runs _) ?_, fun _ => hlocks,
              fun _ _ _ => hlocks⟩
            rw [hkeeps]
      | @finished r _ hfinish hreleased =>
          refine ⟨fun hready => hready.drop (hreleased.mild.runs _) (hreleased.drops _), hheld,
            fun hsaw t howner => ?_⟩
          by_cases hlock : RowKey.lock c ∈ l.held
          · obtain ⟨⟨lock, hmem, hrun⟩, -⟩ := hreleased.frees hlock
            rw [howner, List.mem_singleton] at hmem
            subst hmem
            obtain rfl : r' = r := hrun
            have hstart : calls[j]?.bind LockCall.starts = some r' := by
              rw [hcallj]
              rfl
            rw [h r' .finished l hfinish hi hlock j m l' hstart hm] at hsaw
            cases hsaw
          · exact l.frame (.lock c) hlock w.store

/-- What holds along a race. -/
structure Racing (calls : List LockCall) (c : Nat) (db : Db) (w : LockWorld) : Prop where
  obeys : w.Obeys (raceContract calls c)
  length : w.parties.length = calls.length
  returns : ∀ (i r : Nat), calls[i]?.bind LockCall.starts = some r →
    w.parties[i]? ≠ some .rolledBack
  queued : ∀ (i r : Nat) (run : Run), calls[i]?.bind LockCall.starts = some r →
    w.result i ≠ some (.started true) →
    (∀ j, calls[j]?.bind LockCall.finishes = some r → w.result j = none) →
    db.runs[r]? = some run → w.store.runs[r]? = some run

theorem Racing.commit {reply : LockReply} (h : Racing calls c db w)
    (hi : w.parties[i]? = some (.active (.done reply) l)) : RaceCommit calls c w.store i reply l := by
  obtain ⟨call, hcall⟩ := exists_call h.length hi
  exact .of_commits hcall (h.obeys.commits hi)

/-- No two transactions start the same run. -/
def DistinctStarts (calls : List LockCall) : Prop :=
  ∀ i j r : Nat, calls[i]?.bind LockCall.starts = some r →
    calls[j]?.bind LockCall.starts = some r → i = j

theorem Racing.step (h : Racing calls c db w) (hdistinct : DistinctStarts calls)
    (hspares : SparesOwners calls c w i) : Racing calls c db (w.step i) := by
  refine ⟨h.obeys.step (hspares.respects h.length), (w.move i).length.trans h.length,
    fun k r hstart hraised => ?_, ?_⟩
  · obtain hbefore | ⟨rfl, m, l, hparty, hraises⟩ := (w.move i).rolledBack_cases hraised
    · exact h.returns k r hstart hbefore
    · have hnever := h.obeys.raises hparty hraises
      obtain ⟨call, hcall, hstarts⟩ := Option.bind_eq_some_iff.1 hstart
      rw [raceContract_eq hcall] at hnever
      cases call with
      | start env r => exact hnever
      | finish => cases hstarts
  intro k r run hstart hresult hfinishes hrun
  have hbefore {j : Nat} {reply : LockReply} (hj : w.result j = some reply) :
      (w.step i).result j = some reply :=
    World.result_eq_some.2 ((w.move i).committed (World.result_eq_some.1 hj))
  have hold : w.store.runs[r]? = some run := by
    refine h.queued k r run hstart (fun hk => hresult (hbefore hk)) (fun j hj => ?_) hrun
    cases hnone : w.result j with
    | none => rfl
    | some reply => cases (hbefore hnone).symm.trans (hfinishes j hj)
  obtain hsame | ⟨reply, l, hparty, hstore, hdone⟩ := (w.move i).store_cases
  · rw [hsame]
    exact hold
  rw [hstore]
  have hdone := World.result_eq_some.2 hdone
  have hframe {r' : Nat} (hmild : Mild r' l) (hne : r ≠ r') :
      (l.pending w.store).runs[r]? = some run :=
    l.frame (.run r) (fun hheld => hne (hmild.only r hheld)) w.store run hold
  cases h.commit hparty with
  | refused _ hidle => rwa [hidle.keeps]
  | @won r' _ hstart' hwon =>
      refine hframe hwon.mild fun heq => ?_
      subst heq
      obtain rfl := hdistinct k i r hstart hstart'
      exact hresult hdone
  | @finished r' _ hfinish hreleased =>
      refine hframe hreleased.mild fun heq => ?_
      subst heq
      cases hdone.symm.trans (hfinishes i hfinish)

/-- The run of a committed start owns the lock. -/
def Holds (calls : List LockCall) (c : Nat) (w : LockWorld) : Prop :=
  ∃ (i r : Nat) (t : Time), calls[i]?.bind LockCall.starts = some r ∧
    w.parties[i]? = some (.committed (.started true)) ∧ locksOf c w.store = [⟨c, r, t⟩]

theorem lockEvent_won (h : lockEvent c w i = some .won) :
    ∃ l, w.parties[i]? = some (.active (.done (.started true)) l) := by
  unfold lockEvent at h
  split at h
  · rename_i l hparty
    exact ⟨l, hparty⟩
  · split_ifs at h
    cases h
  · cases h

/-- The start that wins takes the lock. -/
theorem Racing.holds_of_won (h : Racing calls c db w) (hwon : lockEvent c w i = some .won) :
    Holds calls c (w.step i) := by
  obtain ⟨l, hparty⟩ := lockEvent_won hwon
  have hstep : w.step i =
      ⟨l.pending w.store, w.parties.set i (Party.committed (.started true))⟩ := by
    rw [World.step, hparty]
  rw [hstep]
  cases h.commit hparty with
  | @won r _ hstart hwon =>
      have hlocks : ∃ t, locksOf c (l.pending w.store) = [⟨c, r, t⟩] := by
        rcases hwon.lock with ⟨hfree, -, t, hadds⟩ | ⟨-, ⟨t, howner⟩, hkeeps⟩
        · unfold locksOf at hfree ⊢
          refine ⟨t, ?_⟩
          rw [hadds, List.filter_append, hfree]
          simp
        · refine ⟨t, ?_⟩
          rw [locksOf, hkeeps]
          exact howner
      obtain ⟨t, ht⟩ := hlocks
      refine ⟨i, r, t, hstart, ?_, ht⟩
      exact List.getElem?_set_self (List.getElem?_eq_some_iff.1 hparty).1

/-- While a winner's run owns the lock no other start wins. -/
theorem Racing.not_won (h : Racing calls c db w) (hdistinct : DistinctStarts calls)
    (hholds : Holds calls c w) : lockEvent c w i ≠ some .won := by
  intro hwon
  obtain ⟨l, hparty⟩ := lockEvent_won hwon
  obtain ⟨k, r, t, hstart, hcommitted, howner⟩ := hholds
  cases h.commit hparty with
  | @won r' _ hstart' hwon =>
      rcases hwon.lock with ⟨hfree, -⟩ | ⟨-, ⟨t', howner'⟩, -⟩
      · cases hfree.symm.trans howner
      · cases howner.symm.trans howner'
        obtain rfl := hdistinct k i r hstart hstart'
        cases hcommitted.symm.trans hparty

/-- A step that does not release the lock leaves it to its owner. -/
theorem Racing.keeps_holds (h : Racing calls c db w) (hholds : Holds calls c w)
    (hnone : lockEvent c w i = none) : Holds calls c (w.step i) := by
  obtain ⟨k, r, t, hstart, hcommitted, howner⟩ := hholds
  refine ⟨k, r, t, hstart, (w.move i).committed hcommitted, ?_⟩
  obtain hsame | ⟨reply, l, hparty, hstore, -⟩ := (w.move i).store_cases
  · rw [hsame]
    exact howner
  rw [hstore]
  rw [lockEvent, hparty] at hnone
  cases h.commit hparty with
  | refused _ hidle => rwa [hidle.keeps]
  | won => cases hnone
  | @finished r' _ hfinish hreleased =>
      by_cases hlock : RowKey.lock c ∈ l.held
      · obtain ⟨⟨lock, hmem, hrun⟩, hgone⟩ := hreleased.frees hlock
        rw [howner, List.mem_singleton] at hmem
        subst hmem
        obtain rfl : r = r' := hrun
        have hempty : locksOf c (l.pending w.store) = [] := by
          refine List.eq_nil_iff_forall_not_mem.2 fun lock hlock => hgone _ lock hlock ?_
          have hsub := (hreleased.drops w.store).filter (fun lock => lock.coverageId = c)
          have hmem : lock ∈ locksOf c w.store := hsub.subset hlock
          rw [howner, List.mem_singleton] at hmem
          rw [hmem]
        have hnonempty : locksOf c w.store ≠ [] := by
          rw [howner]
          exact List.cons_ne_nil _ _
        simp [hempty, hnonempty] at hnone
      · exact (l.frame (.lock c) hlock w.store).trans howner

/-- Two wins are never next to each other, nor is one next when the lock is owned. -/
theorem Racing.isChain (h : Racing calls c db w) (hdistinct : DistinctStarts calls)
    {schedule : List Nat} (hspares : EachStep World.step (SparesOwners calls c) w schedule) :
    (lockEvents c w schedule).IsChain (fun a b => ¬ (a = .won ∧ b = .won)) ∧
      (Holds calls c w → (lockEvents c w schedule).head? ≠ some .won) := by
  induction schedule generalizing w with
  | nil => exact ⟨.nil, fun _ => nofun⟩
  | cons i schedule ih =>
      obtain ⟨hchain, hnext⟩ := ih (h.step hdistinct hspares.1) hspares.2
      unfold lockEvents
      cases hevent : lockEvent c w i with
      | none =>
          refine ⟨hchain, fun hholds => hnext (h.keeps_holds hholds hevent)⟩
      | some event =>
          refine ⟨List.isChain_cons.2 ⟨fun later hlater hboth => ?_, hchain⟩, fun hholds => ?_⟩
          · obtain ⟨rfl, rfl⟩ := hboth
            exact hnext (h.holds_of_won hevent) hlater
          · intro hwon
            obtain rfl := Option.some.inj hwon
            exact h.not_won hdistinct hholds hevent

theorem locksOf_length (h : Schema.violation db = none) : (locksOf c db).length ≤ 1 := by
  have hrule := Db.violation_eq_none.1 h
    ("pk_coverage_run_locks", fun db => (db.locks.map (·.coverageId)).Nodup) (by simp [constraints])
  have hcount := List.nodup_iff_count_le_one.1 (of_decide_eq_true hrule) c
  rw [List.count, List.countP_map] at hcount
  rw [locksOf, ← List.countP_eq_length_filter]
  exact hcount

/-- In a database that the system reaches, a mutating run of the coverage can be started. -/
theorem lockReady_of_serial {found : Run} (hlegal : Schema.violation db = none)
    (hserial : db.life.Serial) (hrun : db.runs[r]? = some found)
    (hmutates : found.mutatesDossier = true) (hcoverage : found.coverageId = some c) :
    LockReady c r db := by
  refine ⟨⟨found, hrun, hmutates, hcoverage⟩, fun lock hlock hr => ?_, locksOf_length hlegal⟩
  obtain ⟨life, hlife, hlocked, -⟩ :=
    hserial.held ⟨lock.coverageId, lock.runId⟩ (List.mem_map_of_mem hlock)
  subst hr
  cases (Db.life_run hrun).symm.trans hlife
  exact Option.some.inj ((Run.life_locked.1 hlocked).2.symm.trans hcoverage)

/-- Any number of starts of distinct runs of a coverage and of finishes race for its lock, in every
interleaving in which no release commits under a start that has read the lock as its run's. -/
theorem lock_race {app : App} (hfresh : db.Fresh) (hlegal : Schema.violation db = none)
    (ops : List Op) (hdistinct : DistinctStarts calls)
    (hruns : ∀ i r : Nat, calls[i]?.bind LockCall.starts = some r →
      ∃ found, (AiFund.run app db ops).runs[r]? = some found ∧ found.mutatesDossier = true ∧
        found.coverageId = some c)
    (schedule : List Nat) (hspares : EachStep World.step (SparesOwners calls c)
      (contenders (AiFund.run app db ops) calls) schedule) :
    LockRace calls c (AiFund.run app db ops) schedule := by
  have hlawful : (AiFund.run app db ops).life.Lawful := run_lawful hfresh ops
  have hserial := hlawful.serial
  have hready : ∀ i r : Nat, calls[i]?.bind LockCall.starts = some r →
      LockReady c r (AiFund.run app db ops) := by
    intro i r hstart
    obtain ⟨found, hrun, hmutates, hcoverage⟩ := hruns i r hstart
    exact lockReady_of_serial (run_violation hlegal ops) hserial hrun hmutates hcoverage
  have hrace : Racing calls c (AiFund.run app db ops)
      (contenders (AiFund.run app db ops) calls) := by
    refine ⟨obeys_contenders hready, by simp [contenders, World.start], fun i r _ hraised => ?_, ?_⟩
    · simp [contenders, World.start] at hraised
    exact fun _ _ _ _ _ _ h => h
  have hend := invariant (I := fun w => Racing calls c (AiFund.run app db ops) w)
    (fun w i hw hspares => hw.step hdistinct hspares) hrace hspares
  refine ⟨hend.returns, (hrace.isChain hdistinct hspares).1, ?_⟩
  · intro i r found hstart hfalse hfinishes hfound
    refine hend.queued i r found hstart (fun hwon => ?_) hfinishes hfound
    cases hfalse.symm.trans hwon

/-- The small fund, in which a stage may be attempted twice. -/
def retrying : App :=
  { App.small with
    fund := { runs := [("initiation", { maxAttempts := 2, budgetCapUsd := 10 })] } }

/-- Two initiations of Apple, of which the first has started and been put back in the queue. -/
def requeueApple : List Op :=
  Op.initiateApple ++
    [.ask "again" (.initiate "us_aapl" (some "gpt") (some 0)),
      .tickWith [.claim "worker" [] [] 60, .fail 0 { workerId := "worker" } true ⟨60, 3600, 0⟩]]

def requeuedDb : Db := AiFund.run retrying .small requeueApple

/-- Both initiations are started and the first is cancelled. -/
def startsAndCancel : List LockCall :=
  [.start (.quiet 0) 0, .start (.quiet 0) 1, .finish (.quiet 0) 0 .cancelled none none]

theorem startsAndCancel_starts {i r : Nat}
    (h : startsAndCancel[i]?.bind LockCall.starts = some r) : i = r ∧ r < 2 := by
  match i, h with
  | 0, h | 1, h =>
      cases h
      exact ⟨rfl, by decide⟩
  | 2, h | n + 3, h => cases h

theorem distinctStarts_startsAndCancel : DistinctStarts startsAndCancel :=
  fun _ _ _ hi hj => (startsAndCancel_starts hi).1.trans (startsAndCancel_starts hj).1.symm

theorem runs_startsAndCancel {i r : Nat}
    (h : startsAndCancel[i]?.bind LockCall.starts = some r) : ∃ found,
      requeuedDb.runs[r]? = some found ∧ found.mutatesDossier = true ∧ found.coverageId = some 0 := by
  have hruns : ∀ r < 2, requeuedDb.runs[r]?.map (fun run => (run.mutatesDossier, run.coverageId)) =
      some (true, some 0) := by
    decide +kernel
  obtain ⟨found, hfound, heq⟩ := Option.map_eq_some_iff.1 (hruns r (startsAndCancel_starts h).2)
  obtain ⟨hmutates, hcoverage⟩ := Prod.mk.inj heq
  exact ⟨found, hfound, hmutates, hcoverage⟩

/-- The queued run that owns the lock starts, the other one is refused, and then the first is
cancelled. -/
theorem lock_race_requeued :
    lockEvents 0 (contenders requeuedDb startsAndCancel)
        (List.replicate 5 0 ++ List.replicate 4 1 ++ List.replicate 5 2) = [.won, .released] ∧
      LockRace startsAndCancel 0 requeuedDb
        (List.replicate 5 0 ++ List.replicate 4 1 ++ List.replicate 5 2) := by
  refine ⟨by decide +kernel, lock_race Db.small_fresh (by decide +kernel) requeueApple
    distinctStarts_startsAndCancel (fun i r => runs_startsAndCancel) _ ?_⟩
  refine eachStep_append.2 ⟨?_, ?_⟩
  · have hstarts {w : LockWorld} {i : Nat} (hi : i < 2) : SparesOwners startsAndCancel 0 w i := by
      intro r reply l hfinish
      match i, hi, hfinish with
      | 0, _, hfinish | 1, _, hfinish => cases hfinish
    refine eachStep_append.2 ⟨eachStep_replicate.mono ?_, eachStep_replicate.mono ?_⟩
    · rintro w i rfl
      exact hstarts (by decide)
    · rintro w i rfl
      exact hstarts (by decide)
  · -- While the run is cancelled its start has committed.
    refine eachStep_of_invariant (I := fun w => w.parties[0]? = some (.committed (.started true)))
      ?_ ?_ (World.result_eq_some.1 (by decide +kernel)) eachStep_replicate
    · rintro w i hw rfl
      exact (w.move 2).committed hw
    · rintro w i hw rfl r reply l hfinish - - j rest l' hstart hj
      cases hfinish
      obtain rfl := (startsAndCancel_starts hstart).1
      cases hw.symm.trans hj

/-- The first run finds the lock to be its own, its cancellation releases the lock, and both runs
are started. -/
theorem not_lockRace_requeued :
    DistinctStarts startsAndCancel ∧
      (∀ i r : Nat, startsAndCancel[i]?.bind LockCall.starts = some r → ∃ found,
        requeuedDb.runs[r]? = some found ∧ found.mutatesDossier = true ∧
          found.coverageId = some 0) ∧
      ¬ LockRace startsAndCancel 0 requeuedDb
        (List.replicate 3 0 ++ List.replicate 5 2 ++ List.replicate 2 0 ++
          List.replicate 5 1) := by
  refine ⟨distinctStarts_startsAndCancel, fun i r => runs_startsAndCancel, fun h => ?_⟩
  have hevents : lockEvents 0 (contenders requeuedDb startsAndCancel)
      (List.replicate 3 0 ++ List.replicate 5 2 ++ List.replicate 2 0 ++ List.replicate 5 1) =
      [.released, .won, .won] := by
    decide +kernel
  have hchain := h.alternates
  rw [hevents, List.isChain_cons_cons, List.isChain_cons_cons] at hchain
  exact hchain.2.1 ⟨rfl, rfl⟩

end AiFund.Concurrent
