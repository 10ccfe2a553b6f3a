import AiFund.Library.Frame

/-!
# What a transaction may write

A relation says which writes are allowed, and a transaction stays within it if it makes no others.
Whatever the allowed writes keep is kept by the transaction, in what it stores and in what it leaves
pending.
-/

namespace UnitOfWork

variable {σ ε α β γ ρ : Type} {R R' : σ → σ → Prop} {s s₁ s' : Session σ} {π : σ → γ}

/-- The session `s'` comes from `s` by flushes and by writes that `R` allows. -/
inductive Steps (R : σ → σ → Prop) (s : Session σ) : Session σ → Prop
  | refl : Steps R s s
  | assign {s₁ : Session σ} {loaded : σ} (h : Steps R s s₁) (hloaded : R s₁.loaded loaded) :
      Steps R s { s₁ with loaded }
  | flush {s₁ : Session σ} (h : Steps R s s₁) : Steps R s (s₁.write s₁.loaded s₁.loaded)
  | execute {s₁ : Session σ} {stored loaded : σ} (h : Steps R s s₁) (hstored : R s₁.stored stored)
      (hloaded : R s₁.loaded loaded) : Steps R s (s₁.write stored loaded)

namespace Steps

theorem trans (h : Steps R s s₁) (h' : Steps R s₁ s') : Steps R s s' := by
  induction h' with
  | refl => exact h
  | assign _ hloaded ih => exact ih.assign hloaded
  | flush _ ih => exact ih.flush
  | execute _ hstored hloaded ih => exact ih.execute hstored hloaded

theorem mono (hR : ∀ a b, R a b → R' a b) (h : Steps R s s') : Steps R' s s' := by
  induction h with
  | refl => exact .refl
  | assign _ hloaded ih => exact ih.assign (hR _ _ hloaded)
  | flush _ ih => exact ih.flush
  | execute _ hstored hloaded ih => exact ih.execute (hR _ _ hstored) (hR _ _ hloaded)

theorem upholds {J : σ → Prop} (hR : ∀ a b, R a b → J a → J b) (h : Steps R s s')
    (hs : J s.stored ∧ J s.loaded) : J s'.stored ∧ J s'.loaded := by
  induction h with
  | refl => exact hs
  | assign _ hloaded ih => exact ⟨ih.1, hR _ _ hloaded ih.2⟩
  | flush _ ih => exact ⟨ih.2, ih.2⟩
  | execute _ hstored hloaded ih => exact ⟨hR _ _ hstored ih.1, hR _ _ hloaded ih.2⟩

theorem fixes (hR : ∀ a b, R a b → π b = π a) (h : Steps R s s') :
    π s'.loaded = π s.loaded ∧ (π s'.stored = π s.stored ∨ π s'.stored = π s.loaded) := by
  induction h with
  | refl => exact ⟨rfl, .inl rfl⟩
  | assign _ hloaded ih => exact ⟨(hR _ _ hloaded).trans ih.1, ih.2⟩
  | flush _ ih => exact ⟨ih.1, .inr ih.1⟩
  | execute _ hstored hloaded ih =>
      refine ⟨(hR _ _ hloaded).trans ih.1, ?_⟩
      rcases ih.2 with hkept | hflushed
      · exact .inl ((hR _ _ hstored).trans hkept)
      · exact .inr ((hR _ _ hstored).trans hflushed)

end Steps

/-- `m` makes no writes but those that `R` allows. -/
def Within (R : σ → σ → Prop) (m : Txn σ ε α) : Prop :=
  ∀ ⦃s a s'⦄, Returns m s a s' → Steps R s s'

namespace Within

variable {m : Txn σ ε α} {f : α → Txn σ ε β}

theorem of_reads (hm : Reads m) : Within R m := by
  intro s a s' h
  rw [hm h]
  exact .refl

theorem pure (a : α) : Within R (Pure.pure a : Txn σ ε α) := of_reads (.pure a)

theorem throw (error : ε) : Within R (MonadExcept.throw error : Txn σ ε α) :=
  fun _ _ _ h => absurd h not_returns_throw

theorem select (g : σ → α) : Within R (UnitOfWork.select g : Txn σ ε α) := of_reads (.select g)

theorem inspect (g : σ → α) : Within R (UnitOfWork.inspect g : Txn σ ε α) :=
  of_reads fun _ _ _ h => (returns_inspect.1 h).2

theorem lookup (table : σ → List ρ) (id : Nat) :
    Within R (UnitOfWork.lookup table id : Txn σ ε (Option ρ)) := of_reads (.lookup table id)

theorem bind (hm : Within R m) (hf : ∀ a, Within R (f a)) : Within R (m >>= f) := by
  intro s b s' h
  obtain ⟨a, s₁, hfirst, hrest⟩ := returns_bind.1 h
  exact (hm hfirst).trans (hf a hrest)

theorem ite {c : Prop} [Decidable c] {m m' : Txn σ ε α} (h : Within R m) (h' : Within R m') :
    Within R (if c then m else m') := by
  split
  · exact h
  · exact h'

theorem assign {g : σ → σ} (hg : ∀ db, R db (g db)) :
    Within R (UnitOfWork.assign g : Txn σ ε Unit) := by
  intro s u s' h
  rw [returns_assign] at h
  subst h
  exact .assign .refl (hg _)

theorem flush [Schema σ ε] : Within R (UnitOfWork.flush : Txn σ ε Unit) := by
  intro s u s' h
  obtain ⟨-, rfl⟩ := returns_flush.1 h
  exact .flush .refl

theorem execute [Schema σ ε] {g : σ → σ} (hg : ∀ db, R db (g db)) :
    Within R (UnitOfWork.execute g : Txn σ ε Unit) := by
  intro s u s' h
  obtain ⟨-, rfl⟩ := returns_execute.1 h
  exact .execute .refl (hg _) (hg _)

theorem adaptExcept {g : ε → ε} (hm : Within R m) :
    Within R (EStateM.adaptExcept g m : Txn σ ε α) :=
  fun _ _ _ h => hm (returns_adaptExcept.1 h)

theorem forM {l : List ρ} {f : ρ → Txn σ ε PUnit} (hf : ∀ x, Within R (f x)) :
    Within R (l.forM f) := by
  induction l with
  | nil => exact Within.pure _
  | cons x l ih => exact (hf x).bind fun _ => ih

theorem mapM {l : List ρ} {f : ρ → Txn σ ε β} (hf : ∀ x, Within R (f x)) :
    Within R (l.mapM f) := by
  induction l with
  | nil =>
      rw [List.mapM_nil]
      exact Within.pure _
  | cons x l ih =>
      rw [List.mapM_cons]
      exact (hf x).bind fun _ => ih.bind fun _ => .pure _

theorem mono (hR : ∀ a b, R a b → R' a b) (hm : Within R m) : Within R' m :=
  fun _ _ _ h => (hm h).mono hR

/-- What every allowed write keeps, the transaction keeps. -/
theorem upholds {J : σ → Prop} (hm : Within R m) (hR : ∀ a b, R a b → J a → J b) : Upholds J m :=
  fun _ _ _ h hs => (hm h).upholds hR hs

/-- What no allowed write touches, the transaction does not touch. -/
theorem fixes (hm : Within R m) (hR : ∀ a b, R a b → π b = π a) : Fixes π m :=
  fun _ _ _ h => (hm h).fixes hR

/-- A committed transaction stays in a preorder that holds every allowed write. -/
theorem commit [Schema σ ε] {P : σ → σ → Prop} (hm : Within R m) (hrefl : ∀ a, P a a)
    (htrans : ∀ a b c, P a b → R b c → P a c) (db : σ) : P db (commit m db).after :=
  Upholds.commit (hm.upholds fun a b hR hP => htrans db a b hP hR) (hrefl db)

end Within

end UnitOfWork
