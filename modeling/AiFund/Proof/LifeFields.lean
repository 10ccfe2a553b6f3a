import AiFund.Lifecycle

/-!
# What each part of a step changes

The tables of a life after each of the updates that steps are made of.
-/

namespace AiFund

open Rows

@[simp] theorem RunLife.ended_status (run : RunLife) (status : RunStatus)
    (error : Option String) : (run.ended status error).status = status := rfl

namespace Life

variable (c : Life) (r covId g : Nat) (f : RunLife → RunLife) (run : RunLife)
  (status : RunStatus) (error : Option String) (state : CoverageState) (gate : GateLife)
  (text : String)

@[simp] theorem setRun_runs : (c.setRun r f).runs = c.runs.modify r f := rfl

@[simp] theorem setRun_coverages : (c.setRun r f).coverages = c.coverages := rfl

@[simp] theorem setRun_gates : (c.setRun r f).gates = c.gates := rfl

@[simp] theorem setRun_locks : (c.setRun r f).locks = c.locks := rfl

@[simp] theorem setStatus_runs :
    (c.setStatus r status).runs = c.runs.modify r fun run => { run with status } := rfl

@[simp] theorem setStatus_coverages : (c.setStatus r status).coverages = c.coverages := rfl

@[simp] theorem setStatus_gates : (c.setStatus r status).gates = c.gates := rfl

@[simp] theorem setStatus_locks : (c.setStatus r status).locks = c.locks := rfl

@[simp] theorem setCoverage_coverages :
    (c.setCoverage covId state).coverages = c.coverages.modify covId fun _ => state := rfl

@[simp] theorem setCoverage_runs : (c.setCoverage covId state).runs = c.runs := rfl

@[simp] theorem setCoverage_gates : (c.setCoverage covId state).gates = c.gates := rfl

@[simp] theorem setCoverage_locks : (c.setCoverage covId state).locks = c.locks := rfl

@[simp] theorem addGate_gates : (c.addGate gate).gates = c.gates ++ [gate] := rfl

@[simp] theorem addGate_coverages : (c.addGate gate).coverages = c.coverages := rfl

@[simp] theorem addGate_runs : (c.addGate gate).runs = c.runs := rfl

@[simp] theorem addGate_locks : (c.addGate gate).locks = c.locks := rfl

@[simp] theorem answer_coverages : (c.answer g text).coverages = c.coverages := rfl

@[simp] theorem answer_runs : (c.answer g text).runs = c.runs := rfl

@[simp] theorem answer_locks : (c.answer g text).locks = c.locks := rfl

@[simp] theorem finish_runs :
    (c.finish r status error).runs = c.runs.modify r fun run => run.ended status error := rfl

@[simp] theorem finish_coverages : (c.finish r status error).coverages = c.coverages := rfl

@[simp] theorem finish_gates : (c.finish r status error).gates = c.gates := rfl

@[simp] theorem finish_locks :
    (c.finish r status error).locks = c.locks.filter fun lock => lock.runId ≠ r := rfl

@[simp] theorem acquire_runs : (c.acquire covId r).runs = c.runs := by
  unfold acquire
  split <;> rfl

@[simp] theorem acquire_coverages : (c.acquire covId r).coverages = c.coverages := by
  unfold acquire
  split <;> rfl

@[simp] theorem acquire_gates : (c.acquire covId r).gates = c.gates := by
  unfold acquire
  split <;> rfl

@[simp] theorem acquireFor_runs : (c.acquireFor run r).runs = c.runs := by
  unfold acquireFor
  cases run.locked <;> simp

@[simp] theorem acquireFor_coverages : (c.acquireFor run r).coverages = c.coverages := by
  unfold acquireFor
  cases run.locked <;> simp

@[simp] theorem acquireFor_gates : (c.acquireFor run r).gates = c.gates := by
  unfold acquireFor
  cases run.locked <;> simp

@[simp] theorem begin_runs : (c.begin run).runs = c.runs := by
  unfold begin
  split <;> rfl

@[simp] theorem begin_gates : (c.begin run).gates = c.gates := by
  unfold begin
  split <;> rfl

@[simp] theorem begin_locks : (c.begin run).locks = c.locks := by
  unfold begin
  split <;> rfl

@[simp] theorem abort_runs : (c.abort run).runs = c.runs := by
  unfold abort
  split <;> rfl

@[simp] theorem abort_gates : (c.abort run).gates = c.gates := by
  unfold abort
  split <;> rfl

@[simp] theorem abort_locks : (c.abort run).locks = c.locks := by
  unfold abort
  split <;> rfl

variable {c r covId run state status error}

theorem initiationOf_eq_some :
    c.initiationOf run = some (covId, state) ↔
      run.coverageId = some covId ∧ run.type = .initiation ∧ c.coverages[covId]? = some state := by
  unfold initiationOf
  cases run.coverageId with
  | none => simp
  | some id =>
      by_cases htype : run.type = .initiation
      · cases hstate : c.coverages[id]? with
        | none =>
            simp only [htype, hstate, Option.bind_eq_bind, Option.bind_some, Option.bind_none,
              if_true]
            constructor
            · intro h
              cases h
            · rintro ⟨h, -, h'⟩
              cases h
              rw [hstate] at h'
              cases h'
        | some found =>
            simp only [htype, hstate, Option.bind_eq_bind, Option.bind_some, if_true, Option.pure_def,
              Option.some.injEq, Prod.mk.injEq, true_and]
            constructor
            · rintro ⟨rfl, rfl⟩
              exact ⟨rfl, hstate⟩
            · rintro ⟨rfl, h⟩
              rw [hstate] at h
              exact ⟨rfl, Option.some.inj h⟩
      · simp [htype]

theorem initiationOf_congr {c' : Life} (h : c'.coverages = c.coverages) :
    c'.initiationOf run = c.initiationOf run := by
  unfold initiationOf
  rw [h]

/-- A run that begins moves its coverage exactly if it is an initiation of a proposed one. -/
theorem begin_coverages (c : Life) (run : RunLife) :
    (∃ covId, c.initiationOf run = some (covId, .proposed) ∧
      (c.begin run).coverages = c.coverages.modify covId fun _ => .initiating) ∨
    ((∀ covId, c.initiationOf run ≠ some (covId, .proposed)) ∧
      (c.begin run).coverages = c.coverages) := by
  unfold begin
  split
  · rename_i covId hof
    exact .inl ⟨covId, hof, rfl⟩
  · rename_i hof
    exact .inr ⟨hof, rfl⟩

/-- A run that fails moves its coverage exactly if it is the initiation that is under way. -/
theorem abort_coverages (c : Life) (run : RunLife) :
    (∃ covId, c.initiationOf run = some (covId, .initiating) ∧
      (c.abort run).coverages = c.coverages.modify covId fun _ => .failed) ∨
    ((∀ covId, c.initiationOf run ≠ some (covId, .initiating)) ∧
      (c.abort run).coverages = c.coverages) := by
  unfold abort
  split
  · rename_i covId hof
    exact .inl ⟨covId, hof, rfl⟩
  · rename_i hof
    exact .inr ⟨hof, rfl⟩

/-! ## Locks -/

theorem owner_eq_some {o : Nat} (h : c.owner covId = some o) : ⟨covId, o⟩ ∈ c.locks := by
  unfold owner at h
  obtain ⟨lock, hfind, rfl⟩ := Option.map_eq_some_iff.1 h
  have hcov : lock.coverageId = covId := by simpa using List.find?_some hfind
  rw [← hcov]
  exact List.mem_of_find?_eq_some hfind

theorem owner_eq_none : c.owner covId = none ↔ ∀ lock ∈ c.locks, lock.coverageId ≠ covId := by
  simp [owner, List.find?_eq_none]

theorem acquire_of_owner {o : Nat} (h : c.owner covId = some o) : c.acquire covId r = c := by
  have hmem := owner_eq_some h
  unfold acquire
  rw [if_pos (List.any_eq_true.2 ⟨_, hmem, by simp⟩)]

theorem acquire_of_free (h : c.owner covId = none) :
    c.acquire covId r = { c with locks := c.locks ++ [⟨covId, r⟩] } := by
  unfold acquire
  rw [if_neg]
  simpa using owner_eq_none.1 h

theorem owner_append_free (h : c.owner covId = none) (k : Nat) :
    ({ c with locks := c.locks ++ [⟨covId, r⟩] } : Life).owner k =
      if k = covId then some r else c.owner k := by
  by_cases hk : k = covId
  · subst hk
    have hnone : c.locks.find? (fun lock => lock.coverageId = k) = none := by
      simpa [owner] using h
    simp [owner, List.find?_append, hnone]
  · simp [owner, List.find?_append, hk, Ne.symm hk]

/-- An owner stays when another run asks for a lock. -/
theorem owner_acquire {k o : Nat} (h : c.owner k = some o) : (c.acquire covId r).owner k = some o := by
  cases howner : c.owner covId with
  | some o' => rwa [acquire_of_owner howner]
  | none =>
      rw [acquire_of_free howner, owner_append_free howner, if_neg, h]
      rintro rfl
      rw [h] at howner
      cases howner

theorem owner_acquireFor {k o : Nat} (h : c.owner k = some o) :
    (c.acquireFor run r).owner k = some o := by
  unfold acquireFor
  cases run.locked with
  | none => exact h
  | some covId => exact owner_acquire h

/-- A lock after a run asked for its own is an old one or the run's. -/
theorem mem_acquireFor {lock : LockLife} (h : lock ∈ (c.acquireFor run r).locks) :
    lock ∈ c.locks ∨ (run.locked = some lock.coverageId ∧ lock.runId = r) := by
  unfold acquireFor at h
  cases hlocked : run.locked with
  | none =>
      rw [hlocked] at h
      exact .inl h
  | some covId =>
      rw [hlocked] at h
      simp only [Option.elim_some, acquire] at h
      split at h
      · exact .inl h
      · rcases List.mem_append.1 h with hold | hnew
        · exact .inl hold
        · obtain rfl := List.mem_singleton.1 hnew
          exact .inr ⟨rfl, rfl⟩

/-- An owner stays when another run gives its locks back. -/
theorem owner_finish {k o : Nat} (h : c.owner k = some o) (ho : o ≠ r) :
    (c.finish r status error).owner k = some o := by
  unfold owner at h ⊢
  obtain ⟨lock, hfind, rfl⟩ := Option.map_eq_some_iff.1 h
  rw [finish_locks, List.find?_filter]
  have hcov := List.find?_some hfind
  rw [List.find?_eq_some_iff_append] at hfind
  obtain ⟨-, before, after, heq, hbefore⟩ := hfind
  have hfound : c.locks.find? (fun lock =>
      decide (decide (lock.runId ≠ r) = true ∧ decide (lock.coverageId = k) = true)) =
      some lock := by
    rw [List.find?_eq_some_iff_append]
    refine ⟨by simpa [ho] using hcov, before, after, heq, ?_⟩
    intro other hother
    have hother := hbefore other hother
    simp only [Bool.not_eq_true', decide_eq_false_iff_not] at hother
    simp [hother]
  rw [hfound]
  rfl

end Life

end AiFund
