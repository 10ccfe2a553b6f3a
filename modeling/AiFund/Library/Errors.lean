import AiFund.Library.UnitOfWork

/-!
# Errors

What a transaction raises. `RaisesOnly P m` says that every error of `m`, from whatever session it
is run, satisfies `P`.
-/

namespace UnitOfWork

variable {σ ε α β ρ : Type} {s : Session σ} {a : α} {error : ε}

/-- Both parts of a computation that succeeds do. -/
theorem ok_bind_iff {x : Except ε α} {f : α → Except ε β} {b : β} :
    x >>= f = .ok b ↔ ∃ a, x = .ok a ∧ f a = .ok b := by
  cases x with
  | error error => exact ⟨nofun, nofun⟩
  | ok a => exact ⟨fun h => ⟨a, rfl, h⟩, fun ⟨_, rfl, h⟩ => h⟩

theorem eq_ok_of_toOption {x : Except ε α} (h : x.toOption = some a) : x = .ok a := by
  cases x with
  | error error => cases h
  | ok b =>
      cases h
      rfl

instance decidableExistsOk {x : Except ε α} : Decidable (∃ a, x = .ok a) :=
  match x with
  | .ok a => isTrue ⟨a, rfl⟩
  | .error _ => isFalse nofun

instance decidableExistsOkAnd {x : Except ε α} {P : α → Prop} [DecidablePred P] :
    Decidable (∃ a, x = .ok a ∧ P a) :=
  match x with
  | .ok a => decidable_of_iff (P a) ⟨fun h => ⟨a, rfl, h⟩, fun ⟨_, rfl, h⟩ => h⟩
  | .error _ => isFalse nofun

/-! ## One error -/

/-- A concrete transaction can be run to see that it raises. -/
theorem exists_raises {m : Txn σ ε α} (h : (returned m s).isNone = true) :
    ∃ error, Raises m s error := by
  unfold returned at h
  cases hm : m.run s with
  | ok a s' =>
      rw [hm] at h
      cases h
  | error error s' => exact ⟨error, s', hm⟩

theorem not_raises_pure : ¬ Raises (pure a : Txn σ ε α) s error := by
  rintro ⟨s', h⟩
  cases h

theorem raises_throw {e : ε} : Raises (throw e : Txn σ ε α) s error ↔ error = e := by
  constructor
  · rintro ⟨s', h⟩
    cases h
    rfl
  · rintro rfl
    exact ⟨s, rfl⟩

theorem raises_bind {m : Txn σ ε α} {f : α → Txn σ ε β} :
    Raises (m >>= f) s error ↔
      Raises m s error ∨ ∃ a s₁, Returns m s a s₁ ∧ Raises (f a) s₁ error := by
  unfold Raises Returns
  rw [EStateM.run_bind]
  cases hm : m.run s with
  | ok a s₁ =>
      constructor
      · intro h
        exact .inr ⟨a, s₁, rfl, h⟩
      · rintro (⟨s', h⟩ | ⟨a', s₁', h, h'⟩)
        · cases h
        · cases h
          exact h'
  | error e s₁ =>
      constructor
      · rintro ⟨s', h⟩
        cases h
        exact .inl ⟨s₁, rfl⟩
      · rintro (⟨s', h⟩ | ⟨a', s₁', h, -⟩)
        · cases h
          exact ⟨s₁, rfl⟩
        · cases h

theorem not_raises_select {f : σ → α} : ¬ Raises (select f : Txn σ ε α) s error := by
  rintro ⟨s', h⟩
  cases h

theorem not_raises_inspect {f : σ → α} : ¬ Raises (inspect f : Txn σ ε α) s error := by
  rintro ⟨s', h⟩
  cases h

theorem not_raises_lookup {table : σ → List ρ} {id : Nat} :
    ¬ Raises (lookup table id : Txn σ ε (Option ρ)) s error := by
  rintro ⟨s', h⟩
  cases h

theorem not_raises_assign {f : σ → σ} : ¬ Raises (assign f : Txn σ ε Unit) s error := by
  rintro ⟨s', h⟩
  cases h

section Bind

variable {f : α → Txn σ ε β} {table : σ → List ρ} {id : Nat}

theorem raises_select_bind {g : σ → α} :
    Raises (select g >>= f) s error ↔ Raises (f (g s.stored)) s error := by
  rw [raises_bind, or_iff_right not_raises_select]
  simp

theorem raises_inspect_bind {g : σ → α} :
    Raises (inspect g >>= f) s error ↔ Raises (f (g s.loaded)) s error := by
  rw [raises_bind, or_iff_right not_raises_inspect]
  simp

theorem raises_lookup_bind {f : Option ρ → Txn σ ε β} :
    Raises (lookup table id >>= f) s error ↔
      Raises (f (if id < (table s.stored).length then (table s.loaded)[id]? else none)) s error := by
  rw [raises_bind, or_iff_right not_raises_lookup]
  simp

theorem raises_assign_bind {g : σ → σ} {f : Unit → Txn σ ε β} :
    Raises (assign g >>= f) s error ↔ Raises (f ()) { s with loaded := g s.loaded } error := by
  rw [raises_bind, or_iff_right not_raises_assign]
  simp only [returns_assign]
  constructor
  · rintro ⟨_, _, rfl, h⟩
    exact h
  · intro h
    exact ⟨(), _, rfl, h⟩

end Bind

theorem not_raises_forM_nil {f : ρ → Txn σ ε PUnit} : ¬ Raises ([].forM f) s error :=
  not_raises_pure

theorem raises_forM_cons {x : ρ} {l : List ρ} {f : ρ → Txn σ ε PUnit} :
    Raises ((x :: l).forM f) s error ↔
      Raises (f x) s error ∨ ∃ s₁, Returns (f x) s ⟨⟩ s₁ ∧ Raises (l.forM f) s₁ error := by
  change Raises (f x >>= fun _ => l.forM f) s error ↔ _
  rw [raises_bind]
  exact or_congr_right ⟨fun ⟨_, s₁, h, h'⟩ => ⟨s₁, h, h'⟩, fun ⟨s₁, h, h'⟩ => ⟨⟨⟩, s₁, h, h'⟩⟩

/-- The loop comes to `x`, and the round of `x` raises. -/
def RaisesAt (f : ρ → Txn σ ε PUnit) (l : List ρ) (x : ρ) (s : Session σ) : Prop :=
  ∃ before after s₁ error, l = before ++ x :: after ∧ Returns (before.forM f) s ⟨⟩ s₁ ∧
    Raises (f x) s₁ error

theorem raises_forM_append {before after : List ρ} {f : ρ → Txn σ ε PUnit} {s₁ : Session σ}
    (h : Returns (before.forM f) s ⟨⟩ s₁) :
    Raises ((before ++ after).forM f) s error ↔ Raises (after.forM f) s₁ error := by
  induction before generalizing s with
  | nil =>
      obtain rfl := returns_forM_nil.1 h
      rfl
  | cons x before ih =>
      obtain ⟨s₂, hx, hrest⟩ := returns_forM_cons.1 h
      rw [List.cons_append, raises_forM_cons, ← ih hrest]
      constructor
      · rintro (⟨s', hraises⟩ | ⟨s₃, hx', hraises⟩)
        · cases hx.symm.trans hraises
        · cases hx.symm.trans hx'
          exact hraises
      · exact fun hraises => .inr ⟨s₂, hx, hraises⟩

/-- A loop raises exactly if it does so at some element. -/
theorem raises_forM_iff {l : List ρ} {f : ρ → Txn σ ε PUnit} :
    (∃ error, Raises (l.forM f) s error) ↔ ∃ x, RaisesAt f l x s := by
  constructor
  · rintro ⟨error, h⟩
    induction l generalizing s with
    | nil => exact absurd h not_raises_forM_nil
    | cons x l ih =>
        obtain hx | ⟨s₁, hx, hrest⟩ := raises_forM_cons.1 h
        · exact ⟨x, [], l, s, error, rfl, returns_forM_nil.2 rfl, hx⟩
        · obtain ⟨y, before, after, s₂, error', rfl, hbefore, hy⟩ := ih hrest
          exact ⟨y, x :: before, after, s₂, error', rfl, returns_forM_cons.2 ⟨s₁, hx, hbefore⟩, hy⟩
  · rintro ⟨x, before, after, s₁, error, rfl, hbefore, hx⟩
    exact ⟨error, (raises_forM_append hbefore).2 (raises_forM_cons.2 (.inl hx))⟩

section Schema

variable [Schema σ ε]

/-- A transaction that raises is rolled back. -/
theorem commit_of_raises {m : Txn σ ε α} {db : σ} (h : Raises m (Session.clean db) error) :
    commit m db = ⟨.error error, db, []⟩ := by
  obtain ⟨s', hraises⟩ : Raises (do let a ← m; flush; return a) (Session.clean db) error :=
    raises_bind.2 (.inl h)
  unfold commit
  rw [hraises]

theorem raises_flush :
    Raises (flush : Txn σ ε Unit) s error ↔ Schema.violation s.loaded = some error := by
  simp only [Raises, flush, EStateM.run_bind, EStateM.run_get]
  cases Schema.violation s.loaded <;> simp

theorem raises_execute {f : σ → σ} :
    Raises (execute f : Txn σ ε Unit) s error ↔ Schema.violation (f s.stored) = some error := by
  simp only [Raises, execute, EStateM.run_bind, EStateM.run_get]
  cases Schema.violation (f s.stored) <;> simp

/-- A commit fails with what its transaction raises, or because the last flush is refused. -/
theorem commit_error {m : Txn σ ε α} {db : σ} (h : (commit m db).result = .error error) :
    Raises m (Session.clean db) error ∨
      ∃ a s, Returns m (Session.clean db) a s ∧ Schema.violation s.loaded = some error := by
  unfold commit at h
  split at h
  · cases h
  · rename_i e s heq
    cases h
    rcases raises_bind.1 (⟨s, heq⟩ : Raises _ _ _) with hm | ⟨a, s₁, hm, hrest⟩
    · exact .inl hm
    · rcases raises_bind.1 hrest with hflush | ⟨_, s₂, -, hpure⟩
      · exact .inr ⟨a, s₁, hm, raises_flush.1 hflush⟩
      · exact absurd hpure not_raises_pure

end Schema

/-! ## Every error -/

/-- Every error of a fallible value satisfies `P`. -/
def FailsOnly (P : ε → Prop) (x : Except ε α) : Prop := ∀ error, x = .error error → P error

namespace FailsOnly

variable {P : ε → Prop} {x : Except ε α} {f : α → Except ε β}

theorem ok (a : α) : FailsOnly P (.ok a) := nofun

theorem failed {e : ε} (h : P e) : FailsOnly P (.error e : Except ε α) := by
  intro e' he
  cases he
  exact h

theorem bind (hx : FailsOnly P x) (hf : ∀ a, FailsOnly P (f a)) : FailsOnly P (x >>= f) := by
  cases x with
  | ok a => exact hf a
  | error e =>
      intro e' he
      cases he
      exact hx e rfl

theorem map {g : α → β} (hx : FailsOnly P x) : FailsOnly P (x.map g) := by
  cases x with
  | ok a => exact .ok _
  | error e => exact .failed (hx e rfl)

theorem ite {c : Prop} [Decidable c] {y : Except ε α} (hx : FailsOnly P x) (hy : FailsOnly P y) :
    FailsOnly P (if c then x else y) := by
  split
  · exact hx
  · exact hy

theorem mapM {g : α → Except ε β} (hg : ∀ a, FailsOnly P (g a)) (l : List α) :
    FailsOnly P (l.mapM g) := by
  induction l with
  | nil =>
      rw [List.mapM_nil]
      exact .ok _
  | cons a l ih =>
      rw [List.mapM_cons]
      exact (hg a).bind fun _ => ih.bind fun _ => .ok _

theorem forM {g : α → Except ε PUnit} (hg : ∀ a, FailsOnly P (g a)) (l : List α) :
    FailsOnly P (l.forM g) := by
  induction l with
  | nil => exact .ok _
  | cons a l ih => exact (hg a).bind fun _ => ih

end FailsOnly

def RaisesOnly (P : ε → Prop) (m : Txn σ ε α) : Prop := ∀ ⦃s error⦄, Raises m s error → P error

namespace RaisesOnly

variable {P : ε → Prop} {m : Txn σ ε α} {f : α → Txn σ ε β}

theorem pure (a : α) : RaisesOnly P (Pure.pure a : Txn σ ε α) := fun _ _ h =>
  absurd h not_raises_pure

theorem throw {e : ε} (h : P e) : RaisesOnly P (MonadExcept.throw e : Txn σ ε α) := by
  intro s error herror
  rw [raises_throw.1 herror]
  exact h

theorem bind (hm : RaisesOnly P m) (hf : ∀ a, RaisesOnly P (f a)) : RaisesOnly P (m >>= f) := by
  intro s error h
  rcases raises_bind.1 h with h | ⟨a, s₁, -, h⟩
  · exact hm h
  · exact hf a h

theorem select (g : σ → α) : RaisesOnly P (UnitOfWork.select g : Txn σ ε α) := fun _ _ h =>
  absurd h not_raises_select

theorem inspect (g : σ → α) : RaisesOnly P (UnitOfWork.inspect g : Txn σ ε α) := fun _ _ h =>
  absurd h not_raises_inspect

theorem lookup (table : σ → List ρ) (id : Nat) :
    RaisesOnly P (UnitOfWork.lookup table id : Txn σ ε (Option ρ)) := fun _ _ h =>
  absurd h not_raises_lookup

theorem assign (g : σ → σ) : RaisesOnly P (UnitOfWork.assign g : Txn σ ε Unit) := fun _ _ h =>
  absurd h not_raises_assign

theorem flush [Schema σ ε] (h : ∀ db : σ, ∀ e, Schema.violation db = some e → P e) :
    RaisesOnly P (UnitOfWork.flush : Txn σ ε Unit) := fun _ _ herror =>
  h _ _ (raises_flush.1 herror)

theorem execute [Schema σ ε] {g : σ → σ} (h : ∀ db : σ, ∀ e, Schema.violation db = some e → P e) :
    RaisesOnly P (UnitOfWork.execute g : Txn σ ε Unit) := fun _ _ herror =>
  h _ _ (raises_execute.1 herror)

theorem ite {c : Prop} [Decidable c] {m m' : Txn σ ε α} (h : RaisesOnly P m)
    (h' : RaisesOnly P m') : RaisesOnly P (if c then m else m') := by
  split
  · exact h
  · exact h'

theorem forM {l : List ρ} {f : ρ → Txn σ ε PUnit} (hf : ∀ x, RaisesOnly P (f x)) :
    RaisesOnly P (l.forM f) := by
  induction l with
  | nil => exact RaisesOnly.pure _
  | cons x l ih => exact (hf x).bind fun _ => ih

theorem mapM {l : List ρ} {f : ρ → Txn σ ε β} (hf : ∀ x, RaisesOnly P (f x)) :
    RaisesOnly P (l.mapM f) := by
  induction l with
  | nil =>
      rw [List.mapM_nil]
      exact RaisesOnly.pure _
  | cons x l ih =>
      rw [List.mapM_cons]
      exact (hf x).bind fun _ => ih.bind fun _ => .pure _

end RaisesOnly

/-! ## Errors that leave no trace -/

/-- Whenever the transaction raises an error of `P`, its session is as it was. -/
def Refuses (P : ε → Prop) (m : Txn σ ε α) : Prop :=
  ∀ ⦃s error s'⦄, m.run s = .error error s' → P error → s' = s

namespace Refuses

variable {P : ε → Prop} {m : Txn σ ε α} {f : α → Txn σ ε β}

theorem throw {e : ε} : Refuses P (MonadExcept.throw e : Txn σ ε α) := by
  intro s error s' h _
  cases h
  rfl

theorem of_raisesOnly (hm : RaisesOnly (fun error => ¬ P error) m) : Refuses P m :=
  fun _ _ s' h hP => absurd hP (hm ⟨s', h⟩)

/-- A part that only reads, before one that refuses. -/
theorem bind (hm : Refuses P m) (hread : ∀ ⦃s a s'⦄, Returns m s a s' → s' = s)
    (hf : ∀ a, Refuses P (f a)) : Refuses P (m >>= f) := by
  intro s error s' h hP
  rw [EStateM.run_bind] at h
  cases hrun : m.run s with
  | error e s₁ =>
      rw [hrun] at h
      cases h
      exact hm hrun hP
  | ok a s₁ =>
      rw [hrun] at h
      exact (hf a h hP).trans (hread hrun)

end Refuses

end UnitOfWork
