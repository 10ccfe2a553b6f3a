import AiFund.Library.Errors
import AiFund.Library.Total

/-!
# Turns of a loop

A loop returns exactly if each of its turns does, from the session that the turns before have left.
A transaction saves if it returns with nothing pending, or without having written anything.
-/

namespace UnitOfWork

variable {σ ε α β ρ : Type} {s s₁ s₂ s' : Session σ} {a b : α} {m : Txn σ ε α}
  {f : α → Txn σ ε β}

theorem Returns.unique (h : Returns m s a s₁) (h' : Returns m s b s₂) : a = b ∧ s₁ = s₂ :=
  EStateM.Result.ok.inj (h.symm.trans h')

/-- What does not return raises. -/
theorem not_exists_returns_iff :
    (¬ ∃ a s', Returns m s a s') ↔ ∃ error, Raises m s error := by
  unfold Returns Raises
  cases hm : m.run s with
  | ok a s' => simp
  | error error s' => simp

theorem mem_returned {result : α × Session σ} :
    result ∈ returned m s ↔ Returns m s result.1 result.2 := by
  obtain ⟨a, s'⟩ := result
  unfold returned Returns
  cases hm : m.run s with
  | ok b s₁ => simp
  | error error s₁ => simp

instance decidableExistsReturns {m : Txn σ ε PUnit} {P : Session σ → Prop} [DecidablePred P] :
    Decidable (∃ s', Returns m s ⟨⟩ s' ∧ P s') :=
  decidable_of_iff (∃ result ∈ returned m s, P result.2)
    ⟨fun ⟨result, hresult, h⟩ => ⟨result.2, mem_returned.1 hresult, h⟩,
      fun ⟨s', hreturns, h⟩ => ⟨(⟨⟩, s'), mem_returned.2 hreturns, h⟩⟩

instance decidableForallReturns {m : Txn σ ε PUnit} {P : Session σ → Prop} [DecidablePred P] :
    Decidable (∀ s', Returns m s ⟨⟩ s' → P s') :=
  decidable_of_iff (∀ result ∈ returned m s, P result.2)
    ⟨fun h s' hreturns => h (⟨⟩, s') (mem_returned.2 hreturns),
      fun h result hresult => h result.2 (mem_returned.1 hresult)⟩

/-! ## Turns -/

/-- Every element that the loop comes to satisfies `P` in the session that its turn begins with. -/
def EachTurn (f : ρ → Txn σ ε PUnit) (P : ρ → Session σ → Prop) : List ρ → Session σ → Prop
  | [], _ => True
  | x :: l, s => P x s ∧ ∀ s', Returns (f x) s ⟨⟩ s' → EachTurn f P l s'

instance decidableEachTurn {f : ρ → Txn σ ε PUnit} {P : ρ → Session σ → Prop}
    [∀ x s, Decidable (P x s)] : ∀ l s, Decidable (EachTurn f P l s)
  | [], _ => isTrue trivial
  | x :: l, s =>
      have := decidableEachTurn (f := f) (P := P) l
      inferInstanceAs (Decidable (P x s ∧ ∀ s', Returns (f x) s ⟨⟩ s' → EachTurn f P l s'))

/-- If `P` says exactly when a turn returns, it says so of the loop. -/
theorem eachTurn_iff {f : ρ → Txn σ ε PUnit} {P : ρ → Session σ → Prop} {I : Session σ → Prop}
    {l : List ρ} (hkeeps : ∀ x ∈ l, Maintains I (f x))
    (hturn : ∀ x ∈ l, ∀ s, I s → (P x s ↔ ∃ s', Returns (f x) s ⟨⟩ s')) (hs : I s) :
    EachTurn f P l s ↔ ∃ s', Returns (l.forM f) s ⟨⟩ s' := by
  induction l generalizing s with
  | nil => exact iff_of_true trivial ⟨s, returns_forM_nil.2 rfl⟩
  | cons x l ih =>
      obtain ⟨hkeepsx, hkeeps⟩ := List.forall_mem_cons.1 hkeeps
      obtain ⟨hturnx, hturn⟩ := List.forall_mem_cons.1 hturn
      simp only [returns_forM_cons, EachTurn, hturnx s hs]
      constructor
      · rintro ⟨⟨s₁, hx⟩, hrest⟩
        obtain ⟨s', hl⟩ := (ih hkeeps hturn (hkeepsx hx hs)).1 (hrest s₁ hx)
        exact ⟨s', s₁, hx, hl⟩
      · rintro ⟨s', s₁, hx, hl⟩
        refine ⟨⟨s₁, hx⟩, fun s₂ hx' => ?_⟩
        obtain rfl := (hx.unique hx').2
        exact (ih hkeeps hturn (hkeepsx hx hs)).2 ⟨s', hl⟩

/-! ## Saving -/

section Schema

variable [Schema σ ε]

/-- Nothing is pending, and the schema accepts what is stored. -/
def Saved (s : Session σ) : Prop := s.loaded = s.stored ∧ Schema.violation s.stored = none

/-- `m` returns with nothing pending. -/
def Flushes (m : Txn σ ε α) : Prop := ∀ ⦃s a s'⦄, Returns m s a s' → Saved s'

namespace Flushes

theorem flush : Flushes (UnitOfWork.flush : Txn σ ε Unit) := by
  intro s a s' h
  obtain ⟨hlegal, rfl⟩ := returns_flush.1 h
  exact ⟨rfl, hlegal⟩

theorem bind (hf : ∀ a, Flushes (f a)) : Flushes (m >>= f) := by
  intro s b s' h
  obtain ⟨a, s₁, -, hrest⟩ := returns_bind.1 h
  exact hf a hrest

theorem bind_read (hm : Flushes m) (hf : ∀ a, Reads (f a)) : Flushes (m >>= f) := by
  intro s b s' h
  obtain ⟨a, s₁, hfirst, hrest⟩ := returns_bind.1 h
  exact hf a hrest ▸ hm hfirst

end Flushes

/-- What `m` has written, if anything, is stored when it returns. -/
def Saves (m : Txn σ ε α) : Prop := ∀ ⦃s a s'⦄, Returns m s a s' → s' = s ∨ Saved s'

namespace Saves

theorem of_reads (hm : Reads m) : Saves m := fun _ _ _ h => .inl (hm h)

theorem of_flushes (hm : Flushes m) : Saves m := fun _ _ _ h => .inr (hm h)

theorem pure (a : α) : Saves (Pure.pure a : Txn σ ε α) := of_reads (.pure a)

theorem throw (error : ε) : Saves (MonadExcept.throw error : Txn σ ε α) := of_reads (.throw error)

theorem select (g : σ → α) : Saves (UnitOfWork.select g : Txn σ ε α) := of_reads (.select g)

theorem bind (hm : Saves m) (hf : ∀ a, Saves (f a)) : Saves (m >>= f) := by
  intro s b s' h
  obtain ⟨a, s₁, hfirst, hrest⟩ := returns_bind.1 h
  rcases hf a hrest with rfl | hsaved
  · exact hm hfirst
  · exact .inr hsaved

theorem ite {c : Prop} [Decidable c] {m m' : Txn σ ε α} (h : Saves m) (h' : Saves m') :
    Saves (if c then m else m') := by
  split
  · exact h
  · exact h'

theorem forM {l : List ρ} {f : ρ → Txn σ ε PUnit} (hf : ∀ x, Saves (f x)) : Saves (l.forM f) := by
  induction l with
  | nil => exact Saves.pure _
  | cons x l ih => exact (hf x).bind fun _ => ih

end Saves

end Schema

end UnitOfWork
