import Mathlib.Data.List.Chain

/-!
# Units of work

A transaction works on a store through a session: objects it has loaded or added carry writes
that the store does not see until the next flush. A query reads the store, an object reads the
session, and a flush checks the schema before it writes.
-/

namespace UnitOfWork

variable {σ ε α β ρ : Type}

structure Session (σ : Type) where
  /-- What a statement of this transaction reads. -/
  stored : σ
  /-- What the objects of the session show, pending writes included. -/
  loaded : σ
  /-- The states this transaction has written to the store so far, oldest first. -/
  written : List σ

def Session.clean (db : σ) : Session σ := ⟨db, db, []⟩

def Session.write (s : Session σ) (stored loaded : σ) : Session σ :=
  ⟨stored, loaded, s.written ++ [stored]⟩

/-- The integrity rules of a store: `violation db` is the error that `db` is refused with. -/
class Schema (σ : Type) (ε : outParam Type) where
  violation : σ → Option ε

/-- A step that raises keeps the session it had reached: rolling back is the caller's choice. -/
abbrev Txn (σ ε : Type) := EStateM ε (Session σ)

section Operations

def select (f : σ → α) : Txn σ ε α := do return f (← get).stored

def inspect (f : σ → α) : Txn σ ε α := do return f (← get).loaded

/-- Lookup by primary key: a row that is not stored yet has no key to be found by. -/
def lookup (table : σ → List ρ) (id : Nat) : Txn σ ε (Option ρ) := do
  let s ← get
  return if id < (table s.stored).length then (table s.loaded)[id]? else none

/-- Attribute writes and added objects, pending until the next flush. -/
def assign (f : σ → σ) : Txn σ ε Unit := modify fun s => { s with loaded := f s.loaded }

def flush [Schema σ ε] : Txn σ ε Unit := do
  let s ← get
  match Schema.violation s.loaded with
  | some error => throw error
  | none => set (s.write s.loaded s.loaded)

/-- A statement sent straight to the store, which also brings the loaded objects in line. -/
def execute [Schema σ ε] (f : σ → σ) : Txn σ ε Unit := do
  let s ← get
  match Schema.violation (f s.stored) with
  | some error => throw error
  | none => set (s.write (f s.stored) (f s.loaded))

end Operations

structure Outcome (σ ε α : Type) where
  result : Except ε α
  after : σ
  written : List σ

/-- Run in a fresh session, flush and commit; roll back when anything raises. -/
def commit [Schema σ ε] (m : Txn σ ε α) (db : σ) : Outcome σ ε α :=
  match (do let a ← m; flush; return a : Txn σ ε α).run (Session.clean db) with
  | .ok a s => ⟨.ok a, s.stored, s.written⟩
  | .error error _ => ⟨.error error, db, []⟩

/-! ## What a transaction returns -/

def Returns (m : Txn σ ε α) (s : Session σ) (a : α) (s' : Session σ) : Prop :=
  m.run s = .ok a s'

def Raises (m : Txn σ ε α) (s : Session σ) (error : ε) : Prop :=
  ∃ s', m.run s = .error error s'

/-- What a transaction returns, and the session it leaves. -/
def returned (m : Txn σ ε α) (s : Session σ) : Option (α × Session σ) :=
  match m.run s with
  | .ok a s' => some (a, s')
  | .error _ _ => none

/-- A concrete transaction can be run to see that it returns. -/
theorem exists_returns {m : Txn σ ε α} {s : Session σ} {p : α → Session σ → Bool}
    (h : ((returned m s).any fun result => p result.1 result.2) = true) :
    ∃ a s', Returns m s a s' ∧ p a s' = true := by
  unfold returned at h
  cases hm : m.run s with
  | ok a s' =>
      rw [hm] at h
      exact ⟨a, s', hm, h⟩
  | error e s' =>
      rw [hm] at h
      cases h

section Returns

variable {s s' : Session σ} {a : α} {b : β} {error : ε}

@[simp] theorem returns_pure : Returns (pure b : Txn σ ε β) s b' s' ↔ b' = b ∧ s' = s := by
  simp only [Returns, EStateM.run_pure, EStateM.Result.ok.injEq]
  constructor <;> rintro ⟨rfl, rfl⟩ <;> exact ⟨rfl, rfl⟩

@[simp] theorem not_returns_throw : ¬ Returns (throw error : Txn σ ε α) s a s' := by
  intro h
  cases h

@[simp] theorem returns_bind {m : Txn σ ε α} {f : α → Txn σ ε β} :
    Returns (m >>= f) s b s' ↔ ∃ a s₁, Returns m s a s₁ ∧ Returns (f a) s₁ b s' := by
  unfold Returns
  rw [EStateM.run_bind]
  cases hm : m.run s with
  | ok a s₁ =>
      constructor
      · intro h
        exact ⟨a, s₁, rfl, h⟩
      · rintro ⟨a', s₁', h, h'⟩
        cases h
        exact h'
  | error e s₁ => simp

@[simp] theorem returns_select {f : σ → α} :
    Returns (select f : Txn σ ε α) s a s' ↔ a = f s.stored ∧ s' = s := by
  simp only [Returns, select, EStateM.run_bind, EStateM.run_get, EStateM.run_pure,
    EStateM.Result.ok.injEq]
  constructor <;> rintro ⟨rfl, rfl⟩ <;> exact ⟨rfl, rfl⟩

@[simp] theorem returns_inspect {f : σ → α} :
    Returns (inspect f : Txn σ ε α) s a s' ↔ a = f s.loaded ∧ s' = s := by
  simp only [Returns, inspect, EStateM.run_bind, EStateM.run_get, EStateM.run_pure,
    EStateM.Result.ok.injEq]
  constructor <;> rintro ⟨rfl, rfl⟩ <;> exact ⟨rfl, rfl⟩

@[simp] theorem returns_lookup {table : σ → List ρ} {id : Nat} {row : Option ρ} :
    Returns (lookup table id : Txn σ ε (Option ρ)) s row s' ↔
      row = (if id < (table s.stored).length then (table s.loaded)[id]? else none) ∧ s' = s := by
  simp only [Returns, lookup, EStateM.run_bind, EStateM.run_get, EStateM.run_pure,
    EStateM.Result.ok.injEq]
  constructor <;> rintro ⟨rfl, rfl⟩ <;> exact ⟨rfl, rfl⟩

@[simp] theorem returns_assign {f : σ → σ} {u : Unit} :
    Returns (assign f : Txn σ ε Unit) s u s' ↔ s' = { s with loaded := f s.loaded } := by
  simp only [Returns, assign, EStateM.run_modify, EStateM.Result.ok.injEq, true_and]
  exact eq_comm

section Bind

variable {s s' : Session σ} {b : β}

theorem returns_forM_nil {f : ρ → Txn σ ε PUnit} {u : PUnit} :
    Returns ([].forM f) s u s' ↔ s' = s := by
  change Returns (pure PUnit.unit) s u s' ↔ _
  rw [returns_pure, and_iff_right rfl]

theorem returns_forM_cons {x : ρ} {l : List ρ} {f : ρ → Txn σ ε PUnit} {u : PUnit} :
    Returns ((x :: l).forM f) s u s' ↔
      ∃ s₁, Returns (f x) s ⟨⟩ s₁ ∧ Returns (l.forM f) s₁ ⟨⟩ s' := by
  change Returns (f x >>= fun _ => l.forM f) s u s' ↔ _
  rw [returns_bind]
  exact ⟨fun ⟨_, s₁, h, h'⟩ => ⟨s₁, h, h'⟩, fun ⟨s₁, h, h'⟩ => ⟨⟨⟩, s₁, h, h'⟩⟩

theorem returns_forM_assign {l : List ρ} {f : ρ → σ → σ} {u : PUnit} :
    Returns (l.forM fun x => assign (f x) : Txn σ ε PUnit) s u s' ↔
      s' = { s with loaded := l.foldl (fun db x => f x db) s.loaded } := by
  induction l generalizing s with
  | nil => exact returns_forM_nil
  | cons x l ih =>
      rw [returns_forM_cons]
      simp only [returns_assign, exists_eq_left, ih]
      rfl

theorem returns_select_bind {g : σ → α} {f : α → Txn σ ε β} :
    Returns (select g >>= f) s b s' ↔ Returns (f (g s.stored)) s b s' := by
  simp

theorem returns_inspect_bind {g : σ → α} {f : α → Txn σ ε β} :
    Returns (inspect g >>= f) s b s' ↔ Returns (f (g s.loaded)) s b s' := by
  simp

theorem returns_lookup_bind {table : σ → List ρ} {id : Nat} {f : Option ρ → Txn σ ε β} :
    Returns (lookup table id >>= f) s b s' ↔
      Returns (f (if id < (table s.stored).length then (table s.loaded)[id]? else none)) s b s' := by
  simp

theorem returns_assign_bind {g : σ → σ} {f : Unit → Txn σ ε β} :
    Returns (assign g >>= f) s b s' ↔
      Returns (f ()) { s with loaded := g s.loaded } b s' := by
  simp only [returns_bind, returns_assign, exists_eq_left]
  exact ⟨fun ⟨_, h⟩ => h, fun h => ⟨(), h⟩⟩

/-- What follows a step that returns is run where the step has ended. -/
theorem run_bind_of_returns {m : Txn σ ε α} {f : α → Txn σ ε β} {a : α}
    (h : Returns m s a s') : (m >>= f).run s = (f a).run s' := by
  rw [EStateM.run_bind, h]

end Bind

variable [Schema σ ε]

@[simp] theorem returns_flush {u : Unit} :
    Returns (flush : Txn σ ε Unit) s u s' ↔
      Schema.violation s.loaded = none ∧ s' = s.write s.loaded s.loaded := by
  simp only [Returns, flush, EStateM.run_bind, EStateM.run_get]
  cases Schema.violation s.loaded with
  | none => simpa using eq_comm
  | some error => simp

@[simp] theorem returns_execute {f : σ → σ} {u : Unit} :
    Returns (execute f : Txn σ ε Unit) s u s' ↔
      Schema.violation (f s.stored) = none ∧ s' = s.write (f s.stored) (f s.loaded) := by
  simp only [Returns, execute, EStateM.run_bind, EStateM.run_get]
  cases Schema.violation (f s.stored) with
  | none => simpa using eq_comm
  | some error => simp

theorem returns_flush_bind {f : Unit → Txn σ ε β} :
    Returns (flush >>= f) s b s' ↔
      Schema.violation s.loaded = none ∧ Returns (f ()) (s.write s.loaded s.loaded) b s' := by
  simp only [returns_bind, returns_flush]
  constructor
  · rintro ⟨_, _, ⟨hviolation, rfl⟩, h⟩
    exact ⟨hviolation, h⟩
  · rintro ⟨hviolation, h⟩
    exact ⟨(), _, ⟨hviolation, rfl⟩, h⟩

theorem returns_execute_bind {g : σ → σ} {f : Unit → Txn σ ε β} :
    Returns (execute g >>= f) s b s' ↔
      Schema.violation (g s.stored) = none ∧
        Returns (f ()) (s.write (g s.stored) (g s.loaded)) b s' := by
  simp only [returns_bind, returns_execute]
  constructor
  · rintro ⟨_, _, ⟨hviolation, rfl⟩, h⟩
    exact ⟨hviolation, h⟩
  · rintro ⟨hviolation, h⟩
    exact ⟨(), _, ⟨hviolation, rfl⟩, h⟩

omit [Schema σ ε] in
/-- A step that fails with another error instead returns what it returned. -/
@[simp] theorem returns_adaptExcept {m : Txn σ ε α} {f : ε → ε} :
    Returns (EStateM.adaptExcept f m : Txn σ ε α) s a s' ↔ Returns m s a s' := by
  simp only [Returns, EStateM.run, EStateM.adaptExcept]
  cases m s <;> simp

/-- A committed transaction either rolled back or flushed what it had loaded. -/
theorem commit_cases (m : Txn σ ε α) (db : σ) :
    (∃ error, commit m db = ⟨.error error, db, []⟩) ∨
      ∃ a s, Returns m (Session.clean db) a s ∧ Schema.violation s.loaded = none ∧
        commit m db = ⟨.ok a, s.loaded, s.written ++ [s.loaded]⟩ := by
  unfold commit
  cases h : (do let a ← m; flush; return a : Txn σ ε α).run (Session.clean db) with
  | error error s => exact .inl ⟨error, rfl⟩
  | ok a s =>
      obtain ⟨b, s₁, hm, _, s₂, hflush, hpure⟩ := by
        simpa only [returns_bind] using (show Returns _ _ a s from h)
      obtain ⟨hviolation, rfl⟩ := returns_flush.1 hflush
      obtain ⟨rfl, rfl⟩ := returns_pure.1 hpure
      exact .inr ⟨a, s₁, hm, hviolation, rfl⟩

/-- A transaction that returns, and whose last flush is accepted, commits. -/
theorem commit_of_returns {m : Txn σ ε α} {db : σ} (h : Returns m (Session.clean db) a s)
    (hviolation : Schema.violation s.loaded = none) :
    commit m db = ⟨.ok a, s.loaded, s.written ++ [s.loaded]⟩ := by
  have hrun : Returns (do let a ← m; flush; return a : Txn σ ε α) (Session.clean db) a
      (s.write s.loaded s.loaded) := by
    refine returns_bind.2 ⟨a, s, h, returns_bind.2 ⟨(), _, ?_, returns_pure.2 ⟨rfl, rfl⟩⟩⟩
    exact returns_flush.2 ⟨hviolation, rfl⟩
  rw [Returns] at hrun
  unfold commit
  rw [hrun]
  rfl

/-- Dropping the returned value does not change what is committed. -/
theorem commit_void (m : Txn σ ε α) (db : σ) :
    commit (do let _ ← m : Txn σ ε Unit) db =
      ⟨(commit m db).result.map fun _ => (), (commit m db).after, (commit m db).written⟩ := by
  unfold commit
  simp only [EStateM.run_bind]
  cases m.run (Session.clean db) with
  | error error s => rfl
  | ok a s =>
      simp only [EStateM.run_pure]
      cases (flush : Txn σ ε Unit).run s <;> rfl

theorem result_of_commit_void {m : Txn σ ε α} {db : σ} {error : ε}
    (h : (commit (do let _ ← m : Txn σ ε Unit) db).result = .error error) :
    (commit m db).result = .error error := by
  rw [commit_void] at h
  cases hresult : (commit m db).result with
  | error error' =>
      rw [hresult] at h
      exact congrArg Except.error (Except.error.inj h)
  | ok a =>
      rw [hresult] at h
      cases h

/-- A property that holds before and that a returning transaction restores survives a commit. -/
theorem commit_after {Inv : σ → Prop} {m : Txn σ ε α} {db : σ} (hdb : Inv db)
    (h : ∀ a s, Returns m (Session.clean db) a s → Inv s.loaded) : Inv (commit m db).after := by
  obtain ⟨error, hcommit⟩ | ⟨a, s, hm, -, hcommit⟩ := commit_cases m db
  · rw [hcommit]
    exact hdb
  · rw [hcommit]
    exact h a s hm

/-- A commit leaves a state that the schema accepts. -/
theorem commit_violation {m : Txn σ ε α} {db : σ} (hdb : Schema.violation db = none) :
    Schema.violation (commit m db).after = none := by
  obtain ⟨error, hcommit⟩ | ⟨a, s, -, hviolation, hcommit⟩ := commit_cases m db
  · rw [hcommit]
    exact hdb
  · rw [hcommit]
    exact hviolation

/-- A transaction that returned was run on a clean session, and its last state passed the schema. -/
theorem commit_result {m : Txn σ ε α} {db : σ} (h : (commit m db).result = .ok a) :
    ∃ s, Returns m (Session.clean db) a s ∧ Schema.violation s.loaded = none ∧
      (commit m db).after = s.loaded := by
  obtain ⟨error, hcommit⟩ | ⟨b, s, hm, hviolation, hcommit⟩ := commit_cases m db
  · rw [hcommit] at h
    cases h
  · rw [hcommit] at h ⊢
    cases h
    exact ⟨s, hm, hviolation, rfl⟩

end Returns

end UnitOfWork
