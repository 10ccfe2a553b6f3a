import AiFund.Library.History

/-!
# Read committed

Transactions that interleave statement by statement. A statement reads the committed store with its
own transaction's writes on top, and a change of a row waits while another transaction holds an
uncommitted change of that row.
-/

namespace ReadCommitted

/-- The rows of a store: `Keeps k s s'` says that row `k` of `s` is there, unchanged, in `s'`. -/
class RowStore (σ : Type) (κ : outParam Type) where
  Keeps : κ → σ → σ → Prop
  refl : ∀ k s, Keeps k s s
  trans : ∀ k s s₁ s', Keeps k s s₁ → Keeps k s₁ s' → Keeps k s s'

/-- A change of the rows `takes`, which also has to wait for changes of the rows `waits`. -/
structure Write (σ κ : Type) [RowStore σ κ] where
  waits : List κ := []
  takes : List κ
  apply : σ → σ
  frame : ∀ k ∉ takes, ∀ s, RowStore.Keeps k s (apply s)

/-- What is left of a transaction. A statement that a constraint refuses raises. -/
inductive Script (σ κ : Type) [RowStore σ κ] (α : Type) where
  | done (result : α)
  | fail
  | query (next : σ → Script σ κ α)
  | exec (statement : σ → Option (Write σ κ)) (next : Script σ κ α)

/-- What a transaction has read and written so far: the states its queries saw, oldest first, its
uncommitted writes, and the rows they hold. -/
structure Local (σ κ : Type) [RowStore σ κ] where
  seen : List σ
  pending : σ → σ
  held : List κ
  frame : ∀ k ∉ held, ∀ s, RowStore.Keeps k s (pending s)

inductive Party (σ κ : Type) [RowStore σ κ] (α : Type) where
  | active (script : Script σ κ α) (state : Local σ κ)
  | committed (result : α)
  | rolledBack

structure World (σ κ : Type) [RowStore σ κ] (α : Type) where
  store : σ
  parties : List (Party σ κ α)

variable {σ κ α β γ : Type} [RowStore σ κ]

/-! ## Scripts -/

namespace Script

def bind : Script σ κ α → (α → Script σ κ β) → Script σ κ β
  | .done a, f => f a
  | .fail, _ => .fail
  | .query next, f => .query fun s => (next s).bind f
  | .exec statement next, f => .exec statement (next.bind f)

instance : Monad (Script σ κ) where
  pure := .done
  bind := .bind

theorem bind_assoc (m : Script σ κ α) (f : α → Script σ κ β) (g : β → Script σ κ γ) :
    (m.bind f).bind g = m.bind fun a => (f a).bind g := by
  induction m with
  | done a => rfl
  | fail => rfl
  | query next ih => exact congrArg Script.query (funext ih)
  | exec statement next ih => exact congrArg (Script.exec statement) ih

theorem bind_done (m : Script σ κ α) : m.bind .done = m := by
  induction m with
  | done a => rfl
  | fail => rfl
  | query next ih => exact congrArg Script.query (funext ih)
  | exec statement next ih => exact congrArg (Script.exec statement) ih

instance : LawfulMonad (Script σ κ) :=
  LawfulMonad.mk' (Script σ κ) bind_done (fun _ _ => rfl) bind_assoc

/-- A query of the store. -/
def select (f : σ → α) : Script σ κ α := .query fun s => .done (f s)

/-- One statement that writes. -/
def write (statement : σ → Option (Write σ κ)) : Script σ κ Unit := .exec statement (.done ())

def raise : Script σ κ α := .fail

/-- Run without interference. -/
def eval : Script σ κ α → σ → Option (α × σ)
  | .done a, s => some (a, s)
  | .fail, _ => none
  | .query next, s => (next s).eval s
  | .exec statement next, s => (statement s).bind fun write => next.eval (write.apply s)

@[simp] theorem eval_pure (a : α) (s : σ) : (pure a : Script σ κ α).eval s = some (a, s) := rfl

@[simp] theorem eval_raise (s : σ) : (raise : Script σ κ α).eval s = none := rfl

@[simp] theorem eval_select (f : σ → α) (s : σ) :
    (select f : Script σ κ α).eval s = some (f s, s) :=
  rfl

@[simp] theorem eval_write (statement : σ → Option (Write σ κ)) (s : σ) :
    (write statement).eval s = (statement s).map fun write => ((), write.apply s) := by
  change ((statement s).bind fun write => some ((), write.apply s)) = _
  cases statement s <;> rfl

@[simp] theorem eval_bind (m : Script σ κ α) (f : α → Script σ κ β) (s : σ) :
    (m >>= f).eval s = (m.eval s).bind fun r => (f r.1).eval r.2 := by
  change (m.bind f).eval s = _
  induction m generalizing s with
  | done a => rfl
  | fail => rfl
  | query next ih => exact ih s s
  | exec statement next ih =>
      simp only [bind, eval]
      cases statement s with
      | none => rfl
      | some write => exact ih (write.apply s)

end Script

/-! ## Worlds -/

namespace Local

variable (l : Local σ κ)

def start : Local σ κ := ⟨[], id, [], fun k _ s => RowStore.refl k s⟩

/-- What the next statement reads when `s` is committed. -/
def visible (s : σ) : σ := l.pending s

def saw (s : σ) : Local σ κ := { l with seen := l.seen ++ [l.visible s] }

def wrote (w : Write σ κ) : Local σ κ where
  seen := l.seen
  pending := fun s => w.apply (l.pending s)
  held := w.takes ++ l.held
  frame k hk s := by
    rw [List.mem_append, not_or] at hk
    exact RowStore.trans k _ _ _ (l.frame k hk.2 s) (w.frame k hk.1 _)

end Local

def Party.holds [DecidableEq κ] (k : κ) : Party σ κ α → Bool
  | .active _ l => k ∈ l.held
  | _ => false

def Party.ended : Party σ κ α → Bool
  | .active .. => false
  | _ => true

namespace World

def start (store : σ) (scripts : List (Script σ κ α)) : World σ κ α :=
  ⟨store, scripts.map fun script => .active script .start⟩

def put (w : World σ κ α) (i : Nat) (party : Party σ κ α) : World σ κ α :=
  { w with parties := w.parties.set i party }

variable [DecidableEq κ] (w : World σ κ α) (i : Nat)

def heldByOther (k : κ) : Bool := w.parties.zipIdx.any fun (party, j) => j ≠ i && party.holds k

/-- The next statement of transaction `i`; a statement that has to wait leaves the world as it is,
as does a transaction that has ended. -/
def step : World σ κ α :=
  match w.parties[i]? with
  | some (.active (.done a) l) => ⟨l.pending w.store, w.parties.set i (.committed a)⟩
  | some (.active .fail _) => w.put i .rolledBack
  | some (.active (.query next) l) =>
      w.put i (.active (next (l.visible w.store)) (l.saw w.store))
  | some (.active (.exec statement next) l) =>
      match statement (l.visible w.store) with
      | none => w.put i .rolledBack
      | some write =>
          if (write.waits ++ write.takes).any (w.heldByOther i) then w
          else w.put i (.active next (l.wrote write))
  | _ => w

/-- What transaction `i` has returned, if it has committed. -/
def result (w : World σ κ α) (i : Nat) : Option α :=
  match w.parties[i]? with
  | some (.committed a) => some a
  | _ => none

/-- Every transaction has committed or rolled back. -/
def ended (w : World σ κ α) : Bool := w.parties.all Party.ended

/-- The world after the steps of a schedule, which names the transactions in turn. -/
def run (w : World σ κ α) (schedule : List Nat) : World σ κ α := History.run step w schedule

/-- What one step can do. -/
inductive Move : World σ κ α → Prop
  | stays : Move w
  | raises {script : Script σ κ α} {l : Local σ κ}
      (h : w.parties[i]? = some (.active script l))
      (hraises : script = .fail ∨
        ∃ statement next, script = .exec statement next ∧ statement (l.visible w.store) = none) :
      Move (w.put i .rolledBack)
  | reads {next : σ → Script σ κ α} {l : Local σ κ}
      (h : w.parties[i]? = some (.active (.query next) l)) :
      Move (w.put i (.active (next (l.visible w.store)) (l.saw w.store)))
  | writes {statement : σ → Option (Write σ κ)} {next : Script σ κ α} {l : Local σ κ}
      {write : Write σ κ} (h : w.parties[i]? = some (.active (.exec statement next) l))
      (hwrite : statement (l.visible w.store) = some write)
      (hfree : ∀ k ∈ write.waits ++ write.takes, w.heldByOther i k = false) :
      Move (w.put i (.active next (l.wrote write)))
  | commits {a : α} {l : Local σ κ} (h : w.parties[i]? = some (.active (.done a) l)) :
      Move ⟨l.pending w.store, w.parties.set i (.committed a)⟩

theorem move : w.Move i (w.step i) := by
  unfold step
  split
  · rename_i h
    exact .commits h
  · rename_i h
    exact .raises h (.inl rfl)
  · rename_i h
    exact .reads h
  · rename_i statement next l h
    split
    · rename_i hnone
      exact .raises h (.inr ⟨statement, next, rfl, hnone⟩)
    · rename_i write hwrite
      split_ifs with hblocked
      · exact .stays
      · rw [Bool.not_eq_true, List.any_eq_false] at hblocked
        exact .writes h hwrite fun k hk => Bool.eq_false_iff.2 (hblocked k hk)
  · exact .stays

variable {w i}

omit [DecidableEq κ] in
theorem result_eq_some {a : α} :
    w.result i = some a ↔ w.parties[i]? = some (.committed a) := by
  unfold result
  split
  · rename_i b h
    rw [h]
    simp
  · rename_i h
    exact ⟨nofun, fun hcommitted => absurd hcommitted (h a)⟩

/-- A row that nobody else holds is held by no other active transaction. -/
theorem not_held_of_free {k : κ} (h : w.heldByOther i k = false) {j : Nat}
    {script : Script σ κ α} {l : Local σ κ} (hj : j ≠ i)
    (hparty : w.parties[j]? = some (.active script l)) : k ∉ l.held := by
  intro hk
  rw [heldByOther, List.any_eq_false] at h
  refine h (.active script l, j) (List.mem_zipIdx_iff_getElem?.2 hparty) ?_
  simp [hj, Party.holds, hk]

@[simp] theorem Move.length {w' : World σ κ α} (h : w.Move i w') :
    w'.parties.length = w.parties.length := by
  cases h <;> simp [put]

theorem Move.parties_of_ne {w' : World σ κ α} (h : w.Move i w') {j : Nat} (hj : j ≠ i) :
    w'.parties[j]? = w.parties[j]? := by
  cases h <;> simp [put, List.getElem?_set_ne (Ne.symm hj)]

/-- A transaction that has committed after a step had committed before, and the store is as it was
or another one has just committed; or it is the one that has just committed. -/
theorem Move.committed_cases {w' : World σ κ α} (h : w.Move i w') {j : Nat} {a : α}
    (hj : w'.parties[j]? = some (.committed a)) :
    (w.parties[j]? = some (.committed a) ∧ (w'.store = w.store ∨ j ≠ i ∧ ∃ b l,
      w.parties[i]? = some (.active (.done b) l) ∧ w'.store = l.pending w.store)) ∨
      (j = i ∧ ∃ l, w.parties[i]? = some (.active (.done a) l) ∧
        w'.store = l.pending w.store) := by
  have hput {party : Party σ κ α} (h : (w.put i party).parties[j]? = some (.committed a))
      (hparty : party ≠ .committed a) : w.parties[j]? = some (.committed a) := by
    change (w.parties.set i party)[j]? = _ at h
    rw [List.getElem?_set] at h
    split_ifs at h with hi hlength
    · exact absurd (Option.some.inj h) hparty
    · exact h
  cases h with
  | stays => exact .inl ⟨hj, .inl rfl⟩
  | raises => exact .inl ⟨hput hj nofun, .inl rfl⟩
  | reads => exact .inl ⟨hput hj nofun, .inl rfl⟩
  | writes => exact .inl ⟨hput hj nofun, .inl rfl⟩
  | @commits b l hparty =>
      change (w.parties.set i _)[j]? = _ at hj
      rw [List.getElem?_set] at hj
      split_ifs at hj with hi hlength
      · obtain rfl : b = a := by simpa using hj
        exact .inr ⟨hi.symm, l, hparty, rfl⟩
      · exact .inl ⟨hj, .inr ⟨Ne.symm hi, b, l, hparty, rfl⟩⟩

/-- A transaction that has rolled back after a step had done so before, or has just raised. -/
theorem Move.rolledBack_cases {w' : World σ κ α} (h : w.Move i w') {j : Nat}
    (hj : w'.parties[j]? = some .rolledBack) :
    w.parties[j]? = some .rolledBack ∨ j = i ∧ ∃ script l,
      w.parties[i]? = some (.active script l) ∧ (script = .fail ∨
        ∃ statement next, script = .exec statement next ∧ statement (l.visible w.store) = none) := by
  have hput {party : Party σ κ α} (h : (w.parties.set i party)[j]? = some .rolledBack)
      (hparty : party ≠ .rolledBack) : w.parties[j]? = some .rolledBack := by
    rw [List.getElem?_set] at h
    split_ifs at h with hi hlength
    · exact absurd (Option.some.inj h) hparty
    · exact h
  cases h with
  | stays => exact .inl hj
  | @raises script l hparty hraises =>
      by_cases hji : j = i
      · exact .inr ⟨hji, script, l, hparty, hraises⟩
      · change (w.parties.set i _)[j]? = _ at hj
        rw [List.getElem?_set_ne (Ne.symm hji)] at hj
        exact .inl hj
  | reads | writes | commits => exact .inl (hput hj nofun)

/-- A step changes the store only by the commit of its transaction. -/
theorem Move.store_cases {w' : World σ κ α} (h : w.Move i w') :
    w'.store = w.store ∨ ∃ a l, w.parties[i]? = some (.active (.done a) l) ∧
      w'.store = l.pending w.store ∧ w'.parties[i]? = some (.committed a) := by
  cases h with
  | @commits a l hparty =>
      refine .inr ⟨a, l, hparty, rfl, ?_⟩
      change (w.parties.set i _)[i]? = _
      rw [List.getElem?_set_self (List.getElem?_eq_some_iff.1 hparty).1]
  | _ => exact .inl rfl

theorem Move.committed {w' : World σ κ α} (h : w.Move i w') {j : Nat} {a : α}
    (hj : w.parties[j]? = some (.committed a)) : w'.parties[j]? = some (.committed a) := by
  by_cases hji : j = i
  · subst hji
    cases h with
    | stays => exact hj
    | raises hparty | reads hparty | writes hparty | commits hparty => cases hj.symm.trans hparty
  · exact (h.parties_of_ne hji).trans hj

end World

end ReadCommitted
