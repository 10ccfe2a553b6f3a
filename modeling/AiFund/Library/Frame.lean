import AiFund.Library.UnitOfWork

/-!
# Frame rules

What a transaction leaves alone, and the chain of states it writes. `Keeps π m` says that the view
`π` of the store is the same in every state that `m` writes.
-/

namespace UnitOfWork

variable {σ ε α β γ ρ : Type} {R R' : σ → σ → Prop} {π : σ → γ} {s s' s₁ : Session σ}

/-- No write to the view `π` is pending. -/
def Synced (π : σ → γ) (s : Session σ) : Prop := π s.loaded = π s.stored

theorem Synced.clean (π : σ → γ) (db : σ) : Synced π (Session.clean db) := rfl

/-- The states written between two points of a session form an `R`-chain from what was stored at
the first to what is stored at the second. -/
def Trail (R : σ → σ → Prop) (s s' : Session σ) : Prop :=
  ∃ states, s'.written = s.written ++ states ∧ (s.stored :: states).IsChain R ∧
    (s.stored :: states).getLast? = some s'.stored

theorem Trail.refl (R : σ → σ → Prop) (s : Session σ) : Trail R s s := ⟨[], by simp⟩

theorem Trail.of_assign {f : σ → σ} : Trail R s { s with loaded := f s.loaded } := ⟨[], by simp⟩

theorem Trail.of_eq (hstored : s'.stored = s.stored) (hwritten : s'.written = s.written) :
    Trail R s s' :=
  ⟨[], by simp [hwritten, hstored]⟩

theorem Trail.write {stored loaded : σ} (h : R s.stored stored) :
    Trail R s (s.write stored loaded) :=
  ⟨[stored], by simp [Session.write, h]⟩

theorem Trail.trans (h : Trail R s s₁) (h' : Trail R s₁ s') : Trail R s s' := by
  obtain ⟨first, hfirst, hchain, hlast⟩ := h
  obtain ⟨rest, hrest, hchain', hlast'⟩ := h'
  refine ⟨first ++ rest, by rw [hrest, hfirst, List.append_assoc], ?_, ?_⟩
  · rw [← List.cons_append, List.isChain_append]
    refine ⟨hchain, (List.isChain_cons.1 hchain').2, ?_⟩
    intro x hx y hy
    rw [hlast, Option.mem_some_iff] at hx
    subst hx
    exact (List.isChain_cons.1 hchain').1 y hy
  · cases rest with
    | nil => simpa [hlast] using hlast'
    | cons state states =>
        rw [← List.cons_append, List.getLast?_append_cons]
        simpa using hlast'

theorem Trail.mono (hR : ∀ a b, R a b → R' a b) (h : Trail R s s') : Trail R' s s' := by
  obtain ⟨states, hwritten, hchain, hlast⟩ := h
  exact ⟨states, hwritten, hchain.imp hR, hlast⟩

/-- What every step of a chain preserves holds at its end. -/
theorem of_chain {P : σ → Prop} (hR : ∀ a b, R a b → P a → P b) {a b : σ} {states : List σ}
    (hchain : (a :: states).IsChain R) (hlast : (a :: states).getLast? = some b) (ha : P a) : P b := by
  induction states generalizing a with
  | nil =>
      cases hlast
      exact ha
  | cons state states ih =>
      rw [List.isChain_cons_cons] at hchain
      exact ih hchain.2 (by simpa using hlast) (hR a state hchain.1 ha)

theorem Trail.preserves {P : σ → Prop} (hR : ∀ a b, R a b → P a → P b) (h : Trail R s s')
    (hs : P s.stored) : P s'.stored := by
  obtain ⟨states, -, hchain, hlast⟩ := h
  exact of_chain hR hchain hlast hs

/-- A chain of states that agree on `π` ends where it started, as far as `π` sees. -/
theorem Trail.view_eq (h : Trail (fun a b => π a = π b) s s') : π s'.stored = π s.stored := by
  exact h.preserves (P := fun a => π a = π s.stored) (fun _ _ hstep ha => hstep.symm.trans ha) rfl

/-- What one step does to the view: nothing pending is left, and the states written are a chain. -/
structure Moves (π : σ → γ) (R : γ → γ → Prop) (s s' : Session σ) : Prop where
  synced : Synced π s'
  trail : Trail (fun a b => R (π a) (π b)) s s'

theorem Moves.trans {R : γ → γ → Prop} (h : Moves π R s s₁) (h' : Moves π R s₁ s') :
    Moves π R s s' :=
  ⟨h'.synced, h.trail.trans h'.trail⟩

/-- `m` leaves the view `π` as it is, in every state it writes. -/
def Keeps (π : σ → γ) (m : Txn σ ε α) : Prop :=
  ∀ ⦃s a s'⦄, Returns m s a s' → Synced π s → Moves π Eq s s'

namespace Keeps

variable {m : Txn σ ε α} {f : α → Txn σ ε β}

theorem pure (a : α) : Keeps π (Pure.pure a : Txn σ ε α) := by
  intro s b s' h hs
  obtain ⟨-, rfl⟩ := returns_pure.1 h
  exact ⟨hs, .refl _ _⟩

theorem throw (error : ε) : Keeps π (MonadExcept.throw error : Txn σ ε α) :=
  fun _ _ _ h => absurd h not_returns_throw

theorem bind (hm : Keeps π m) (hf : ∀ a, Keeps π (f a)) : Keeps π (m >>= f) := by
  intro s b s' h hs
  obtain ⟨a, s₁, h₁, h₂⟩ := returns_bind.1 h
  have hfirst := hm h₁ hs
  exact hfirst.trans (hf a h₂ hfirst.synced)

theorem select (g : σ → α) : Keeps π (UnitOfWork.select g : Txn σ ε α) := by
  intro s a s' h hs
  obtain ⟨-, rfl⟩ := returns_select.1 h
  exact ⟨hs, .refl _ _⟩

theorem inspect (g : σ → α) : Keeps π (UnitOfWork.inspect g : Txn σ ε α) := by
  intro s a s' h hs
  obtain ⟨-, rfl⟩ := returns_inspect.1 h
  exact ⟨hs, .refl _ _⟩

theorem lookup (table : σ → List ρ) (id : Nat) :
    Keeps π (UnitOfWork.lookup table id : Txn σ ε (Option ρ)) := by
  intro s a s' h hs
  obtain ⟨-, rfl⟩ := returns_lookup.1 h
  exact ⟨hs, .refl _ _⟩

theorem assign {g : σ → σ} (hg : ∀ db, π (g db) = π db) :
    Keeps π (UnitOfWork.assign g : Txn σ ε Unit) := by
  intro s a s' h hs
  rw [returns_assign] at h
  subst h
  exact ⟨(hg _).trans hs, .of_assign⟩

theorem flush [Schema σ ε] : Keeps π (UnitOfWork.flush : Txn σ ε Unit) := by
  intro s a s' h hs
  obtain ⟨-, rfl⟩ := returns_flush.1 h
  exact ⟨rfl, .write hs.symm⟩

theorem execute [Schema σ ε] {g : σ → σ} (hg : ∀ db, π (g db) = π db) :
    Keeps π (UnitOfWork.execute g : Txn σ ε Unit) := by
  intro s a s' h hs
  obtain ⟨-, rfl⟩ := returns_execute.1 h
  exact ⟨((hg _).trans hs).trans (hg _).symm, .write (hg _).symm⟩

theorem ite {c : Prop} [Decidable c] {m m' : Txn σ ε α} (h : Keeps π m) (h' : Keeps π m') :
    Keeps π (if c then m else m') := by
  split
  · exact h
  · exact h'

theorem forM {l : List ρ} {f : ρ → Txn σ ε PUnit} (hf : ∀ x, Keeps π (f x)) :
    Keeps π (l.forM f) := by
  induction l with
  | nil => exact Keeps.pure _
  | cons x l ih => exact (hf x).bind fun _ => ih

theorem mapM {l : List ρ} {f : ρ → Txn σ ε β} (hf : ∀ x, Keeps π (f x)) :
    Keeps π (l.mapM f) := by
  induction l with
  | nil =>
      rw [List.mapM_nil]
      exact Keeps.pure _
  | cons x l ih =>
      rw [List.mapM_cons]
      exact (hf x).bind fun _ => ih.bind fun _ => .pure _

end Keeps

/-- `m` writes nothing to the store, and nothing that it leaves pending shows in the view `π`. -/
def Drafts (π : σ → γ) (m : Txn σ ε α) : Prop :=
  ∀ ⦃s a s'⦄, Returns m s a s' →
    s'.stored = s.stored ∧ s'.written = s.written ∧ π s'.loaded = π s.loaded

namespace Drafts

variable {m : Txn σ ε α} {f : α → Txn σ ε β}

theorem keeps (hm : Drafts π m) : Keeps π m := by
  intro s a s' h hs
  obtain ⟨hstored, hwritten, hview⟩ := hm h
  refine ⟨?_, .of_eq hstored hwritten⟩
  rw [Synced, hview, hstored]
  exact hs

theorem pure (a : α) : Drafts π (Pure.pure a : Txn σ ε α) := by
  intro s b s' h
  obtain ⟨-, rfl⟩ := returns_pure.1 h
  exact ⟨rfl, rfl, rfl⟩

theorem throw (error : ε) : Drafts π (MonadExcept.throw error : Txn σ ε α) :=
  fun _ _ _ h => absurd h not_returns_throw

theorem bind (hm : Drafts π m) (hf : ∀ a, Drafts π (f a)) : Drafts π (m >>= f) := by
  intro s b s' h
  obtain ⟨a, s₁, h₁, h₂⟩ := returns_bind.1 h
  obtain ⟨hstored, hwritten, hview⟩ := hm h₁
  obtain ⟨hstored', hwritten', hview'⟩ := hf a h₂
  exact ⟨hstored'.trans hstored, hwritten'.trans hwritten, hview'.trans hview⟩

theorem select (g : σ → α) : Drafts π (UnitOfWork.select g : Txn σ ε α) := by
  intro s a s' h
  obtain ⟨-, rfl⟩ := returns_select.1 h
  exact ⟨rfl, rfl, rfl⟩

theorem inspect (g : σ → α) : Drafts π (UnitOfWork.inspect g : Txn σ ε α) := by
  intro s a s' h
  obtain ⟨-, rfl⟩ := returns_inspect.1 h
  exact ⟨rfl, rfl, rfl⟩

theorem lookup (table : σ → List ρ) (id : Nat) :
    Drafts π (UnitOfWork.lookup table id : Txn σ ε (Option ρ)) := by
  intro s a s' h
  obtain ⟨-, rfl⟩ := returns_lookup.1 h
  exact ⟨rfl, rfl, rfl⟩

theorem assign {g : σ → σ} (hg : ∀ db, π (g db) = π db) :
    Drafts π (UnitOfWork.assign g : Txn σ ε Unit) := by
  intro s a s' h
  rw [returns_assign] at h
  subst h
  exact ⟨rfl, rfl, hg _⟩

theorem ite {c : Prop} [Decidable c] {m m' : Txn σ ε α} (h : Drafts π m) (h' : Drafts π m') :
    Drafts π (if c then m else m') := by
  split
  · exact h
  · exact h'

theorem forM {l : List ρ} {f : ρ → Txn σ ε PUnit} (hf : ∀ x ∈ l, Drafts π (f x)) :
    Drafts π (l.forM f) := by
  induction l with
  | nil => exact Drafts.pure _
  | cons x l ih =>
      refine (hf x List.mem_cons_self).bind fun _ => ih fun y hy => ?_
      exact hf y (List.mem_cons_of_mem x hy)

end Drafts

/-- `m` leaves the view `π` of the session as it is, whatever is pending: the store shows the view
that it showed, or the session's. -/
def Fixes (π : σ → γ) (m : Txn σ ε α) : Prop :=
  ∀ ⦃s a s'⦄, Returns m s a s' → π s'.loaded = π s.loaded ∧
    (π s'.stored = π s.stored ∨ π s'.stored = π s.loaded)

namespace Fixes

variable {m : Txn σ ε α} {f : α → Txn σ ε β}

theorem pure (a : α) : Fixes π (Pure.pure a : Txn σ ε α) := by
  intro s b s' h
  obtain ⟨-, rfl⟩ := returns_pure.1 h
  exact ⟨rfl, .inl rfl⟩

theorem throw (error : ε) : Fixes π (MonadExcept.throw error : Txn σ ε α) :=
  fun _ _ _ h => absurd h not_returns_throw

theorem bind (hm : Fixes π m) (hf : ∀ a, Fixes π (f a)) : Fixes π (m >>= f) := by
  intro s b s' h
  obtain ⟨a, s₁, h₁, h₂⟩ := returns_bind.1 h
  obtain ⟨hloaded, hstored⟩ := hm h₁
  obtain ⟨hloaded', hstored'⟩ := hf a h₂
  refine ⟨hloaded'.trans hloaded, ?_⟩
  rcases hstored' with hkept | hflushed
  · rw [hkept]
    exact hstored
  · exact .inr (hflushed.trans hloaded)

theorem select (g : σ → α) : Fixes π (UnitOfWork.select g : Txn σ ε α) := by
  intro s a s' h
  obtain ⟨-, rfl⟩ := returns_select.1 h
  exact ⟨rfl, .inl rfl⟩

theorem inspect (g : σ → α) : Fixes π (UnitOfWork.inspect g : Txn σ ε α) := by
  intro s a s' h
  obtain ⟨-, rfl⟩ := returns_inspect.1 h
  exact ⟨rfl, .inl rfl⟩

theorem lookup (table : σ → List ρ) (id : Nat) :
    Fixes π (UnitOfWork.lookup table id : Txn σ ε (Option ρ)) := by
  intro s a s' h
  obtain ⟨-, rfl⟩ := returns_lookup.1 h
  exact ⟨rfl, .inl rfl⟩

theorem assign {g : σ → σ} (hg : ∀ db, π (g db) = π db) :
    Fixes π (UnitOfWork.assign g : Txn σ ε Unit) := by
  intro s a s' h
  rw [returns_assign] at h
  subst h
  exact ⟨hg _, .inl rfl⟩

theorem flush [Schema σ ε] : Fixes π (UnitOfWork.flush : Txn σ ε Unit) := by
  intro s a s' h
  obtain ⟨-, rfl⟩ := returns_flush.1 h
  exact ⟨rfl, .inr rfl⟩

theorem execute [Schema σ ε] {g : σ → σ} (hg : ∀ db, π (g db) = π db) :
    Fixes π (UnitOfWork.execute g : Txn σ ε Unit) := by
  intro s a s' h
  obtain ⟨-, rfl⟩ := returns_execute.1 h
  exact ⟨hg _, .inl (hg _)⟩

theorem ite {c : Prop} [Decidable c] {m m' : Txn σ ε α} (h : Fixes π m) (h' : Fixes π m') :
    Fixes π (if c then m else m') := by
  split
  · exact h
  · exact h'

theorem forM {l : List ρ} {f : ρ → Txn σ ε PUnit} (hf : ∀ x, Fixes π (f x)) :
    Fixes π (l.forM f) := by
  induction l with
  | nil => exact Fixes.pure _
  | cons x l ih => exact (hf x).bind fun _ => ih

theorem mapM {l : List ρ} {f : ρ → Txn σ ε β} (hf : ∀ x, Fixes π (f x)) :
    Fixes π (l.mapM f) := by
  induction l with
  | nil =>
      rw [List.mapM_nil]
      exact Fixes.pure _
  | cons x l ih =>
      rw [List.mapM_cons]
      exact (hf x).bind fun _ => ih.bind fun _ => .pure _

theorem adaptExcept {f : ε → ε} (hm : Fixes π m) : Fixes π (EStateM.adaptExcept f m) :=
  fun _ _ _ h => hm (returns_adaptExcept.1 h)

/-- A view of a fixed view is fixed. -/
theorem comp {δ : Type} (hm : Fixes π m) (g : γ → δ) : Fixes (fun db => g (π db)) m := by
  intro s a s' h
  obtain ⟨hloaded, hstored⟩ := hm h
  exact ⟨congrArg g hloaded, hstored.imp (congrArg g) (congrArg g)⟩

end Fixes

/-- `m` takes the view `π` on along `R`: the store goes on, and the session is ahead of the store. -/
def Grows (R : γ → γ → Prop) (π : σ → γ) (m : Txn σ ε α) : Prop :=
  ∀ ⦃s a s'⦄, Returns m s a s' → R (π s.stored) (π s.loaded) →
    R (π s.stored) (π s'.stored) ∧ R (π s'.stored) (π s'.loaded)

namespace Grows

variable {R : γ → γ → Prop} [IsPreorder γ R] {m : Txn σ ε α} {f : α → Txn σ ε β}

theorem of_fixes (hm : Fixes π m) : Grows R π m := by
  intro s a s' h hs
  obtain ⟨hloaded, hkept | hflushed⟩ := hm h
  · rw [hloaded, hkept]
    exact ⟨refl _, hs⟩
  · rw [hloaded, hflushed]
    exact ⟨hs, refl _⟩

theorem bind (hm : Grows R π m) (hf : ∀ a, Grows R π (f a)) : Grows R π (m >>= f) := by
  intro s b s' h hs
  obtain ⟨a, s₁, h₁, h₂⟩ := returns_bind.1 h
  obtain ⟨hstored, hahead⟩ := hm h₁ hs
  obtain ⟨hstored', hahead'⟩ := hf a h₂ hahead
  exact ⟨IsTrans.trans _ _ _ hstored hstored', hahead'⟩

theorem assign {g : σ → σ} (hg : ∀ db, R (π db) (π (g db))) :
    Grows R π (UnitOfWork.assign g : Txn σ ε Unit) := by
  intro s a s' h hs
  rw [returns_assign] at h
  subst h
  exact ⟨refl _, IsTrans.trans _ _ _ hs (hg _)⟩

omit [IsPreorder γ R] in
theorem ite {c : Prop} [Decidable c] {m m' : Txn σ ε α} (h : Grows R π m) (h' : Grows R π m') :
    Grows R π (if c then m else m') := by
  split
  · exact h
  · exact h'

end Grows

/-- `m` only reads. -/
def Reads (m : Txn σ ε α) : Prop := ∀ ⦃s a s'⦄, Returns m s a s' → s' = s

namespace Reads

variable {m : Txn σ ε α} {f : α → Txn σ ε β}

theorem pure (a : α) : Reads (Pure.pure a : Txn σ ε α) := fun _ _ _ h => (returns_pure.1 h).2

theorem throw (error : ε) : Reads (MonadExcept.throw error : Txn σ ε α) :=
  fun _ _ _ h => absurd h not_returns_throw

theorem bind (hm : Reads m) (hf : ∀ a, Reads (f a)) : Reads (m >>= f) := by
  intro s b s' h
  obtain ⟨a, s₁, h₁, h₂⟩ := returns_bind.1 h
  exact (hf a h₂).trans (hm h₁)

theorem select (g : σ → α) : Reads (UnitOfWork.select g : Txn σ ε α) :=
  fun _ _ _ h => (returns_select.1 h).2

theorem lookup (table : σ → List ρ) (id : Nat) :
    Reads (UnitOfWork.lookup table id : Txn σ ε (Option ρ)) :=
  fun _ _ _ h => (returns_lookup.1 h).2

theorem ite {c : Prop} [Decidable c] {m m' : Txn σ ε α} (h : Reads m) (h' : Reads m') :
    Reads (if c then m else m') := by
  split
  · exact h
  · exact h'

theorem fixes (hm : Reads m) : Fixes π m := by
  intro s a s' h
  rw [hm h]
  exact ⟨rfl, .inl rfl⟩

end Reads

/-- `m` keeps the invariant `I` of sessions. -/
def Maintains (I : Session σ → Prop) (m : Txn σ ε α) : Prop :=
  ∀ ⦃s a s'⦄, Returns m s a s' → I s → I s'

namespace Maintains

variable {I : Session σ → Prop} {m : Txn σ ε α} {f : α → Txn σ ε β}

theorem pure (a : α) : Maintains I (Pure.pure a : Txn σ ε α) := by
  intro s b s' h hs
  obtain ⟨-, rfl⟩ := returns_pure.1 h
  exact hs

theorem of_reads (hm : Reads m) : Maintains I m := by
  intro s a s' h hs
  rw [hm h]
  exact hs

theorem bind (hm : Maintains I m) (hf : ∀ a, Maintains I (f a)) : Maintains I (m >>= f) := by
  intro s b s' h hs
  obtain ⟨a, s₁, h₁, h₂⟩ := returns_bind.1 h
  exact hf a h₂ (hm h₁ hs)

theorem ite {c : Prop} [Decidable c] {m m' : Txn σ ε α} (h : Maintains I m)
    (h' : Maintains I m') : Maintains I (if c then m else m') := by
  split
  · exact h
  · exact h'

theorem forM {l : List ρ} {f : ρ → Txn σ ε PUnit} (hf : ∀ x ∈ l, Maintains I (f x)) :
    Maintains I (l.forM f) := by
  induction l with
  | nil => exact Maintains.pure _
  | cons x l ih =>
      refine (hf x List.mem_cons_self).bind fun _ => ih fun y hy => ?_
      exact hf y (List.mem_cons_of_mem x hy)

end Maintains

/-- `m` upholds `J` of what is stored and of what the objects of the session show. -/
def Upholds (J : σ → Prop) (m : Txn σ ε α) : Prop :=
  Maintains (fun s => J s.stored ∧ J s.loaded) m

namespace Upholds

variable {J : σ → Prop} {m : Txn σ ε α} {f : α → Txn σ ε β}

theorem pure (a : α) : Upholds J (Pure.pure a : Txn σ ε α) := Maintains.pure a

theorem throw (error : ε) : Upholds J (MonadExcept.throw error : Txn σ ε α) :=
  fun _ _ _ h => absurd h not_returns_throw

theorem bind (hm : Upholds J m) (hf : ∀ a, Upholds J (f a)) : Upholds J (m >>= f) :=
  Maintains.bind hm hf

/-- What follows a part that only reads may rely on what it has read. -/
theorem bind_read (hm : Reads m)
    (hf : ∀ ⦃s a⦄, Returns m s a s → J s.stored → J s.loaded → Upholds J (f a)) :
    Upholds J (m >>= f) := by
  intro s b s' h hs
  obtain ⟨a, s₁, h₁, h₂⟩ := returns_bind.1 h
  obtain rfl := hm h₁
  exact hf h₁ hs.1 hs.2 h₂ hs

theorem of_reads (hm : Reads m) : Upholds J m := Maintains.of_reads hm

theorem select (g : σ → α) : Upholds J (UnitOfWork.select g : Txn σ ε α) := of_reads (.select g)

theorem inspect (g : σ → α) : Upholds J (UnitOfWork.inspect g : Txn σ ε α) := by
  intro s a s' h hs
  obtain ⟨-, rfl⟩ := returns_inspect.1 h
  exact hs

theorem lookup (table : σ → List ρ) (id : Nat) :
    Upholds J (UnitOfWork.lookup table id : Txn σ ε (Option ρ)) := of_reads (.lookup table id)

theorem assign {g : σ → σ} (hg : ∀ db, J db → J (g db)) :
    Upholds J (UnitOfWork.assign g : Txn σ ε Unit) := by
  intro s a s' h hs
  rw [returns_assign] at h
  subst h
  exact ⟨hs.1, hg _ hs.2⟩

theorem flush [Schema σ ε] : Upholds J (UnitOfWork.flush : Txn σ ε Unit) := by
  intro s a s' h hs
  obtain ⟨-, rfl⟩ := returns_flush.1 h
  exact ⟨hs.2, hs.2⟩

theorem execute [Schema σ ε] {g : σ → σ} (hg : ∀ db, J db → J (g db)) :
    Upholds J (UnitOfWork.execute g : Txn σ ε Unit) := by
  intro s a s' h hs
  obtain ⟨-, rfl⟩ := returns_execute.1 h
  exact ⟨hg _ hs.1, hg _ hs.2⟩

theorem ite {c : Prop} [Decidable c] {m m' : Txn σ ε α} (h : Upholds J m) (h' : Upholds J m') :
    Upholds J (if c then m else m') :=
  Maintains.ite h h'

theorem forM {l : List ρ} {f : ρ → Txn σ ε PUnit} (hf : ∀ x, Upholds J (f x)) :
    Upholds J (l.forM f) :=
  Maintains.forM fun x _ => hf x

theorem mapM {l : List ρ} {f : ρ → Txn σ ε β} (hf : ∀ x, Upholds J (f x)) :
    Upholds J (l.mapM f) := by
  induction l with
  | nil =>
      rw [List.mapM_nil]
      exact Upholds.pure _
  | cons x l ih =>
      rw [List.mapM_cons]
      exact (hf x).bind fun _ => ih.bind fun _ => .pure _

theorem adaptExcept {f : ε → ε} (hm : Upholds J m) : Upholds J (EStateM.adaptExcept f m) :=
  fun _ _ _ h => hm (returns_adaptExcept.1 h)

/-- A view that is left as it is upholds what it shows. -/
theorem of_fixes {I : γ → Prop} (hm : Fixes π m) : Upholds (fun db => I (π db)) m := by
  intro s a s' h hs
  obtain ⟨hloaded, hstored⟩ := hm h
  simp only [hloaded]
  refine ⟨?_, hs.2⟩
  rcases hstored with hkept | hflushed
  · rw [hkept]
    exact hs.1
  · rw [hflushed]
    exact hs.2

/-- What a transaction upholds survives its commit. -/
theorem commit [Schema σ ε] (hm : Upholds J m) {db : σ} (hdb : J db) :
    J (UnitOfWork.commit m db).after :=
  commit_after hdb fun _ _ h => (hm h ⟨hdb, hdb⟩).2

end Upholds

end UnitOfWork
