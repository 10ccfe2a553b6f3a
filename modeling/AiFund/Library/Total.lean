import AiFund.Library.Frame

/-!
# Transactions that return

A transaction completes under `J` if it returns from every session whose stored and shown states
satisfy `J`, and leaves both so. What it does when it returns is the matter of the frame rules.
-/

namespace UnitOfWork

variable {σ ε α β ρ : Type} {J : σ → Prop} {m : Txn σ ε α} {f : α → Txn σ ε β} {db : σ}

def Completes (J : σ → Prop) (m : Txn σ ε α) : Prop :=
  ∀ s : Session σ, J s.stored → J s.loaded →
    ∃ a s', Returns m s a s' ∧ J s'.stored ∧ J s'.loaded

namespace Completes

theorem pure (a : α) : Completes J (Pure.pure a : Txn σ ε α) :=
  fun s hstored hloaded => ⟨a, s, returns_pure.2 ⟨rfl, rfl⟩, hstored, hloaded⟩

theorem bind (hm : Completes J m) (hf : ∀ a, Completes J (f a)) : Completes J (m >>= f) := by
  intro s hstored hloaded
  obtain ⟨a, s₁, hfirst, hstored₁, hloaded₁⟩ := hm s hstored hloaded
  obtain ⟨b, s₂, hrest, hafter⟩ := hf a s₁ hstored₁ hloaded₁
  exact ⟨b, s₂, returns_bind.2 ⟨a, s₁, hfirst, hrest⟩, hafter⟩

theorem select (g : σ → α) : Completes J (UnitOfWork.select g : Txn σ ε α) :=
  fun s hstored hloaded => ⟨_, s, returns_select.2 ⟨rfl, rfl⟩, hstored, hloaded⟩

theorem inspect (g : σ → α) : Completes J (UnitOfWork.inspect g : Txn σ ε α) :=
  fun s hstored hloaded => ⟨_, s, returns_inspect.2 ⟨rfl, rfl⟩, hstored, hloaded⟩

theorem lookup (table : σ → List ρ) (id : Nat) :
    Completes J (UnitOfWork.lookup table id : Txn σ ε (Option ρ)) :=
  fun s hstored hloaded => ⟨_, s, returns_lookup.2 ⟨rfl, rfl⟩, hstored, hloaded⟩

theorem assign {g : σ → σ} (hg : ∀ db, J db → J (g db)) :
    Completes J (UnitOfWork.assign g : Txn σ ε Unit) :=
  fun _ hstored hloaded => ⟨(), _, returns_assign.2 rfl, hstored, hg _ hloaded⟩

theorem flush [Schema σ ε] (hJ : ∀ db, J db → Schema.violation db = none) :
    Completes J (UnitOfWork.flush : Txn σ ε Unit) :=
  fun _ _ hloaded => ⟨(), _, returns_flush.2 ⟨hJ _ hloaded, rfl⟩, hloaded, hloaded⟩

theorem execute [Schema σ ε] {g : σ → σ} (hJ : ∀ db, J db → Schema.violation db = none)
    (hg : ∀ db, J db → J (g db)) : Completes J (UnitOfWork.execute g : Txn σ ε Unit) :=
  fun _ hstored hloaded =>
    ⟨(), _, returns_execute.2 ⟨hJ _ (hg _ hstored), rfl⟩, hg _ hstored, hg _ hloaded⟩

theorem ite {c : Prop} [Decidable c] {m m' : Txn σ ε α} (h : Completes J m)
    (h' : Completes J m') : Completes J (if c then m else m') := by
  split
  · exact h
  · exact h'

theorem forM {l : List ρ} {f : ρ → Txn σ ε PUnit} (hf : ∀ x ∈ l, Completes J (f x)) :
    Completes J (l.forM f) := by
  induction l with
  | nil => exact Completes.pure _
  | cons x l ih =>
      refine (hf x List.mem_cons_self).bind fun _ => ih fun y hy => ?_
      exact hf y (List.mem_cons_of_mem x hy)

end Completes

end UnitOfWork
