import AiFund.Library.Outline
import AiFund.Library.Serial
import AiFund.Library.UnitOfWork

/-!
# Scripts and units of work

Two accounts of a transaction: the statements it sends, and what it does through a session. A script
does what a unit of work does if, run alone, it returns and leaves the same; transactions that do so
can be run one after another on either account.
-/

namespace UnitOfWork

variable {σ ε α β ρ : Type} {s : Session σ}

section Returned

variable {m : Txn σ ε α} {f : α → Txn σ ε β}

theorem returned_eq_some {a : α} {s' : Session σ} :
    returned m s = some (a, s') ↔ Returns m s a s' := by
  unfold returned Returns
  cases m.run s with
  | ok b t => simp
  | error e t => simp

@[simp] theorem returned_pure (a : α) : returned (pure a : Txn σ ε α) s = some (a, s) := rfl

@[simp] theorem returned_throw (error : ε) : returned (throw error : Txn σ ε α) s = none := rfl

@[simp] theorem returned_bind :
    returned (m >>= f) s = (returned m s).bind fun r => returned (f r.1) r.2 := by
  unfold returned
  rw [EStateM.run_bind]
  cases m.run s with
  | ok a t => rfl
  | error e t => rfl

@[simp] theorem returned_map (g : α → β) :
    returned (g <$> m) s = (returned m s).map fun r => (g r.1, r.2) := by
  rw [map_eq_pure_bind, returned_bind]
  cases returned m s <;> rfl

@[simp] theorem returned_select (g : σ → α) :
    returned (select g : Txn σ ε α) s = some (g s.stored, s) := rfl

@[simp] theorem returned_inspect (g : σ → α) :
    returned (inspect g : Txn σ ε α) s = some (g s.loaded, s) := rfl

@[simp] theorem returned_lookup (table : σ → List ρ) (id : Nat) :
    returned (lookup table id : Txn σ ε (Option ρ)) s =
      some (if id < (table s.stored).length then (table s.loaded)[id]? else none, s) := rfl

@[simp] theorem returned_assign (g : σ → σ) :
    returned (assign g : Txn σ ε Unit) s = some ((), { s with loaded := g s.loaded }) := rfl

@[simp] theorem returned_adaptExcept (g : ε → ε) :
    returned (EStateM.adaptExcept g m : Txn σ ε α) s = returned m s := by
  simp only [returned, EStateM.run, EStateM.adaptExcept]
  cases m s <;> rfl

theorem returned_forM_nil {g : ρ → Txn σ ε PUnit} : returned ([].forM g) s = some (⟨⟩, s) := rfl

theorem returned_forM_cons {x : ρ} {l : List ρ} {g : ρ → Txn σ ε PUnit} :
    returned ((x :: l).forM g) s = (returned (g x) s).bind fun r => returned (l.forM g) r.2 :=
  returned_bind (m := g x)

variable [Schema σ ε]

theorem returned_flush_of_legal (h : Schema.violation s.loaded = none) :
    returned (flush : Txn σ ε Unit) s = some ((), s.write s.loaded s.loaded) :=
  returned_eq_some.2 (returns_flush.2 ⟨h, rfl⟩)

theorem returned_execute_of_legal {g : σ → σ} (h : Schema.violation (g s.stored) = none) :
    returned (execute g : Txn σ ε Unit) s = some ((), s.write (g s.stored) (g s.loaded)) :=
  returned_eq_some.2 (returns_execute.2 ⟨h, rfl⟩)

theorem returned_flush_of_violation (h : Schema.violation s.loaded ≠ none) :
    returned (flush : Txn σ ε Unit) s = none := by
  rw [Option.eq_none_iff_forall_not_mem]
  rintro ⟨u, s'⟩ hmem
  exact h (returns_flush.1 (returned_eq_some.1 hmem)).1

theorem returned_execute_of_violation {g : σ → σ} (h : Schema.violation (g s.stored) ≠ none) :
    returned (execute g : Txn σ ε Unit) s = none := by
  rw [Option.eq_none_iff_forall_not_mem]
  rintro ⟨u, s'⟩ hmem
  exact h (returns_execute.1 (returned_eq_some.1 hmem)).1

end Returned

end UnitOfWork

namespace ReadCommitted

open UnitOfWork

variable {σ κ ε α β : Type} [RowStore σ κ] {I : σ → Prop} {db : σ}

@[simp] theorem Script.eval_map (f : α → β) (m : Script σ κ α) :
    (f <$> m).eval db = (m.eval db).map fun r => (f r.1, r.2) := by
  rw [map_eq_pure_bind, Script.eval_bind]
  cases m.eval db <;> rfl

/-- What all writes of a script leave alone, the script leaves alone. -/
theorem Script.Writes.eval {allowed : Write σ κ → Prop} {m : Script σ κ α} (h : m.Writes allowed)
    {f : σ → β} (hkeeps : ∀ w, allowed w → ∀ s, f (w.apply s) = f s) {s s' : σ} {a : α}
    (heval : m.eval s = some (a, s')) : f s' = f s := by
  induction m generalizing s with
  | done b =>
      cases heval
      rfl
  | fail => cases heval
  | query next ih => exact ih s (h s) heval
  | exec statement next ih =>
      obtain ⟨hwrites, hnext⟩ := h
      obtain ⟨w, hw, hrest⟩ := Option.bind_eq_some_iff.1 heval
      exact (ih hnext hrest).trans (hkeeps w (hwrites s w hw) s)

/-- Run alone on `db`, the script returns what the unit of work returns in a clean session and
leaves what that has stored by then, with nothing left to flush; it raises where that raises. -/
structure DoesAt (I : σ → Prop) (db : σ) (script : Script σ κ α) (txn : Txn σ ε α) : Prop where
  same : ∀ written : List σ,
    ((returned txn ⟨db, db, written⟩).map fun r => (r.1, r.2.stored, r.2.loaded)) =
      (script.eval db).map fun r => (r.1, r.2, r.2)
  keeps : ∀ a db', script.eval db = some (a, db') → I db'

/-- Wherever the invariant holds. -/
def Does (I : σ → Prop) (script : Script σ κ α) (txn : Txn σ ε α) : Prop :=
  ∀ db, I db → DoesAt I db script txn

namespace DoesAt

theorem pure (hdb : I db) (a : α) :
    DoesAt I db (Pure.pure a : Script σ κ α) (Pure.pure a : Txn σ ε α) where
  same _ := rfl
  keeps b db' h := by
    cases h
    exact hdb

theorem raise (error : ε) :
    DoesAt I db (Script.raise : Script σ κ α) (throw error : Txn σ ε α) where
  same _ := rfl
  keeps _ _ h := by cases h

theorem bind {m : Script σ κ α} {m' : Txn σ ε α} {k : α → Script σ κ β} {k' : α → Txn σ ε β}
    (hm : DoesAt I db m m')
    (hk : ∀ a db', m.eval db = some (a, db') → I db' → DoesAt I db' (k a) (k' a)) :
    DoesAt I db (m >>= k) (m' >>= k') := by
  constructor
  · intro written
    have hsame := hm.same written
    rw [returned_bind, Script.eval_bind]
    cases heval : m.eval db with
    | none =>
        rw [heval, Option.map_none, Option.map_eq_none_iff] at hsame
        rw [hsame]
        rfl
    | some r =>
        obtain ⟨a, db'⟩ := r
        rw [heval, Option.map_some, Option.map_eq_some_iff] at hsame
        obtain ⟨⟨b, s⟩, hreturned, heq⟩ := hsame
        simp only [Prod.mk.injEq] at heq
        obtain ⟨rfl, hstored, hloaded⟩ := heq
        rw [hreturned]
        have hs : s = ⟨db', db', s.written⟩ := by
          rw [← hstored]
          nth_rewrite 2 [hstored]
          rw [← hloaded]
        simp only [Option.bind_some]
        rw [hs]
        exact (hk b db' heval (hm.keeps b db' heval)).same s.written
  · intro b db'' h
    rw [Script.eval_bind, Option.bind_eq_some_iff] at h
    obtain ⟨⟨a, db'⟩, heval, hrest⟩ := h
    exact (hk a db' heval (hm.keeps a db' heval)).keeps b db'' hrest

theorem select_bind {g : σ → α} {k : α → Script σ κ β} {k' : α → Txn σ ε β}
    (h : DoesAt I db (k (g db)) (k' (g db))) :
    DoesAt I db (Script.select g >>= k) (select g >>= k') := by
  constructor
  · intro written
    have hsame := h.same written
    simpa using hsame
  · intro b db' heval
    exact h.keeps b db' (by simpa using heval)

theorem ite {c : Prop} [Decidable c] {m n : Script σ κ α} {m' n' : Txn σ ε α}
    (h : c → DoesAt I db m m') (h' : ¬ c → DoesAt I db n n') :
    DoesAt I db (if c then m else n) (if c then m' else n') := by
  split
  · exact h ‹_›
  · exact h' ‹_›

/-- A unit of work that leaves nothing to flush commits what its script leaves. -/
theorem commit [Schema σ ε] {script : Script σ κ α} {txn : Txn σ ε α}
    (h : DoesAt I db script txn) (hlegal : ∀ db, I db → Schema.violation db = none) :
    ((UnitOfWork.commit txn db).result.toOption, (UnitOfWork.commit txn db).after) =
      match script.eval db with
      | some (a, db') => (some a, db')
      | none => (none, db) := by
  have hsame := h.same []
  cases heval : script.eval db with
  | none =>
      rw [heval, Option.map_none, Option.map_eq_none_iff] at hsame
      obtain ⟨error, hcommit⟩ | ⟨a, s, hreturns, -, -⟩ := commit_cases txn db
      · rw [hcommit]
        rfl
      · rw [← returned_eq_some] at hreturns
        exact absurd (hsame.symm.trans hreturns) (by simp)
  | some r =>
      obtain ⟨a, db'⟩ := r
      rw [heval, Option.map_some, Option.map_eq_some_iff] at hsame
      obtain ⟨⟨b, s⟩, hreturned, heq⟩ := hsame
      simp only [Prod.mk.injEq] at heq
      obtain ⟨rfl, -, hloaded⟩ := heq
      have hviolation : Schema.violation s.loaded = none := by
        rw [hloaded]
        exact hlegal _ (h.keeps _ _ heval)
      rw [commit_of_returns (returned_eq_some.1 hreturned) hviolation, hloaded]
      rfl

end DoesAt

/-! ## One after another -/

/-- What the units of work return, and the store they leave, when each is committed in turn. -/
def inTurn [Schema σ ε] : List (Txn σ ε α) → σ → List (Option α) × σ
  | [], db => ([], db)
  | txn :: txns, db =>
      let outcome := UnitOfWork.commit txn db
      let rest := inTurn txns outcome.after
      (outcome.result.toOption :: rest.1, rest.2)

/-- A transaction that has ended: it has returned, or it has raised. -/
def Party.of : Option α → Party σ κ α
  | some a => .committed a
  | none => .rolledBack

theorem foldl_alone [Schema σ ε] (hlegal : ∀ db, I db → Schema.violation db = none)
    {pairs : List (Script σ κ α × Txn σ ε α)} (hdoes : ∀ pair ∈ pairs, Does I pair.1 pair.2)
    (hdb : I db) (ended : List (Party σ κ α)) :
    (List.range' ended.length pairs.length).foldl World.alone
        ⟨db, ended ++ pairs.map fun pair => .active pair.1 .start⟩ =
      ⟨(inTurn (pairs.map (·.2)) db).2,
        ended ++ (inTurn (pairs.map (·.2)) db).1.map Party.of⟩ := by
  induction pairs generalizing db ended with
  | nil => simp [inTurn]
  | cons pair pairs ih =>
      have hhead : DoesAt I db pair.1 pair.2 := hdoes pair List.mem_cons_self db hdb
      have hcommit := hhead.commit hlegal
      have hafter : I (UnitOfWork.commit pair.2 db).after := by
        have hafter := congrArg Prod.snd hcommit
        change (UnitOfWork.commit pair.2 db).after = _ at hafter
        rw [hafter]
        split
        · rename_i a db' heval
          exact hhead.keeps a db' heval
        · exact hdb
      have halone : World.alone ⟨db, ended ++ (pair :: pairs).map fun pair => .active pair.1 .start⟩
            ended.length =
          ⟨(UnitOfWork.commit pair.2 db).after,
            (ended ++ [Party.of (UnitOfWork.commit pair.2 db).result.toOption]) ++
              pairs.map fun pair => .active pair.1 .start⟩ := by
        have hparty : (ended ++ (pair :: pairs).map fun pair : Script σ κ α × Txn σ ε α =>
            Party.active pair.1 Local.start)[ended.length]? = some (.active pair.1 .start) := by
          simp
        rw [World.alone_of_active hparty]
        change (match pair.1.eval db with
          | some (a, s) => _
          | none => _) = _
        cases heval : pair.1.eval db with
        | none =>
            rw [heval] at hcommit
            obtain ⟨hresult, hstore⟩ := Prod.mk.inj hcommit
            rw [hresult, hstore]
            simp [World.put, Party.of]
        | some r =>
            rw [heval] at hcommit
            obtain ⟨hresult, hstore⟩ := Prod.mk.inj hcommit
            rw [hresult, hstore]
            simp [Party.of]
      have hrest := ih (fun p hp => hdoes p (List.mem_cons_of_mem _ hp)) hafter
        (ended ++ [Party.of (UnitOfWork.commit pair.2 db).result.toOption])
      rw [List.length_cons, List.range'_succ, List.foldl_cons, halone]
      simp only [List.length_append, List.length_cons, List.length_nil, Nat.zero_add] at hrest
      rw [hrest]
      simp [inTurn]

/-- Scripts that do what units of work do can be scheduled so that each answers, and all leave, what
the units of work do in their turn. -/
theorem exists_run_inTurn [DecidableEq κ] [Schema σ ε]
    (hlegal : ∀ db, I db → Schema.violation db = none)
    {pairs : List (Script σ κ α × Txn σ ε α)} (hdoes : ∀ pair ∈ pairs, Does I pair.1 pair.2)
    (hdb : I db) :
    ∃ steps : Nat → Nat,
      (World.start db (pairs.map (·.1))).run
          ((List.range pairs.length).flatMap fun i => List.replicate (steps i) i) =
        ⟨(inTurn (pairs.map (·.2)) db).2, (inTurn (pairs.map (·.2)) db).1.map Party.of⟩ := by
  have hstart : (World.start db (pairs.map (·.1))).Unstarted := World.unstarted_start
  obtain ⟨steps, hsteps⟩ := World.exists_run_serial hstart List.nodup_range
  refine ⟨steps, hsteps.trans ?_⟩
  have hfold := foldl_alone hlegal hdoes hdb []
  rw [List.range_eq_range']
  simpa [World.start, Function.comp_def] using hfold

end ReadCommitted
