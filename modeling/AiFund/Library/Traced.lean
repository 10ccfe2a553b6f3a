import AiFund.Library.UnitOfWork

/-!
# Transactions made of calls

A transaction that decides as it goes which calls to make leaves the session that some list of calls
leaves. So what is known of every list of calls is known of such a transaction.
-/

namespace UnitOfWork

variable {σ ε α β ρ ι κ M : Type} {s s' : Session σ} {f : ι → Txn σ ε PUnit}

theorem returns_forM_append {l l' : List ρ} {f : ρ → Txn σ ε PUnit} {u : PUnit} :
    Returns ((l ++ l').forM f) s u s' ↔
      ∃ s₁, Returns (l.forM f) s ⟨⟩ s₁ ∧ Returns (l'.forM f) s₁ ⟨⟩ s' := by
  induction l generalizing s with
  | nil => simp only [List.nil_append, returns_forM_nil, exists_eq_left]
  | cons x l ih =>
      simp only [List.cons_append, returns_forM_cons, ih]
      constructor
      · rintro ⟨s₁, hfirst, s₂, hrest, hmore⟩
        exact ⟨s₂, ⟨s₁, hfirst, hrest⟩, hmore⟩
      · rintro ⟨s₂, ⟨s₁, hfirst, hrest⟩, hmore⟩
        exact ⟨s₁, hfirst, s₂, hrest, hmore⟩

theorem forM_congr {l : List ρ} {f g : ρ → Txn σ ε PUnit} (h : ∀ x ∈ l, f x = g x) :
    l.forM f = l.forM g := by
  induction l with
  | nil => rfl
  | cons x l ih =>
      rw [List.forall_mem_cons] at h
      change (f x >>= fun _ => l.forM f) = g x >>= fun _ => l.forM g
      rw [h.1, ih h.2]

/-- The calls `f` are all that `m` does to a session: whenever it returns, some of them made one
after another leave the session that it leaves. -/
def Traced (f : ι → Txn σ ε PUnit) (m : Txn σ ε α) : Prop :=
  ∀ ⦃s a s'⦄, Returns m s a s' → ∃ calls : List ι, Returns (calls.forM f) s ⟨⟩ s'

namespace Traced

variable {m : Txn σ ε α}

theorem of_reads (h : ∀ ⦃s a s'⦄, Returns m s a s' → s' = s) : Traced f m := by
  intro s a s' hm
  exact ⟨[], returns_forM_nil.2 (h hm)⟩

theorem pure (a : α) : Traced f (Pure.pure a : Txn σ ε α) := of_reads fun _ _ _ h => (returns_pure.1 h).2

theorem select (g : σ → α) : Traced f (UnitOfWork.select g : Txn σ ε α) :=
  of_reads fun _ _ _ h => (returns_select.1 h).2

theorem call (i : ι) : Traced f (f i) := by
  intro s a s' h
  exact ⟨[i], returns_forM_cons.2 ⟨s', h, returns_forM_nil.2 rfl⟩⟩

theorem bind {k : α → Txn σ ε β} (hm : Traced f m) (hk : ∀ a, Traced f (k a)) :
    Traced f (m >>= k) := by
  intro s b s' h
  obtain ⟨a, s₁, hfirst, hrest⟩ := returns_bind.1 h
  obtain ⟨calls, hcalls⟩ := hm hfirst
  obtain ⟨more, hmore⟩ := hk a hrest
  exact ⟨calls ++ more, returns_forM_append.2 ⟨s₁, hcalls, hmore⟩⟩

/-- A call whose answer is thrown away makes up for the call with its answer. -/
theorem of_void {i : ι} (h : f i = do let _ ← m; Pure.pure ⟨⟩) : Traced f m := by
  intro s a s' hm
  refine ⟨[i], returns_forM_cons.2 ⟨s', ?_, returns_forM_nil.2 rfl⟩⟩
  rw [h]
  exact returns_bind.2 ⟨a, s', hm, returns_pure.2 ⟨rfl, rfl⟩⟩

end Traced

/-- What is done for one key after another, with something kept in mind, is done without it by calls
that are fixed beforehand for each of the keys. -/
theorem traced_foldlM [DecidableEq κ] {keys : List κ} {body : M → κ → Txn σ ε M}
    {fixed : List ι → κ → Txn σ ε PUnit} (hnodup : keys.Nodup)
    (hbody : ∀ memory key s memory' s', Returns (body memory key) s memory' s' →
      ∃ calls, Returns (fixed calls key) s ⟨⟩ s') {memory memory' : M}
    (h : Returns (keys.foldlM body memory) s memory' s') :
    ∃ calls : κ → List ι, Returns (keys.forM fun key => fixed (calls key) key) s ⟨⟩ s' := by
  induction keys generalizing memory s with
  | nil =>
      obtain ⟨-, rfl⟩ := returns_pure.1 h
      exact ⟨fun _ => [], returns_forM_nil.2 rfl⟩
  | cons key keys ih =>
      rw [List.foldlM_cons] at h
      obtain ⟨memory₁, s₁, hfirst, hrest⟩ := returns_bind.1 h
      obtain ⟨hkey, hkeys⟩ := List.nodup_cons.1 hnodup
      obtain ⟨first, hfixed⟩ := hbody _ _ _ _ _ hfirst
      obtain ⟨calls, hcalls⟩ := ih hkeys hrest
      refine ⟨Function.update calls key first, returns_forM_cons.2 ⟨s₁, ?_, ?_⟩⟩
      · rw [Function.update_self]
        exact hfixed
      · -- The key comes only once, so the calls for the other keys are as they were.
        have hothers : (keys.forM fun other => fixed (Function.update calls key first other) other) =
            keys.forM fun other => fixed (calls other) other :=
          forM_congr fun other hother => by
            rw [Function.update_of_ne (ne_of_mem_of_not_mem hother hkey)]
        rwa [hothers]

end UnitOfWork
