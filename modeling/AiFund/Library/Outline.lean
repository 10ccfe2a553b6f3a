import AiFund.Library.ReadCommitted
import Mathlib.Tactic.Choose

/-!
# Proof outlines

Rely and guarantee for transactions under read committed: an outline gives the assertion that holds
between the statements of a transaction, stable under what the other transactions may commit.
-/

namespace ReadCommitted

variable {σ κ α β ι : Type} [RowStore σ κ]

/-- What holds of the committed store and of a transaction's own progress. -/
abbrev Assertion (σ κ : Type) [RowStore σ κ] := σ → Local σ κ → Prop

namespace Assertion

abbrev always : Assertion σ κ := fun _ _ => True

abbrev never : Assertion σ κ := fun _ _ => False

end Assertion

/-- How the store may change, by the commit of another, while a transaction has come so far. -/
abbrev Rely (σ κ : Type) [RowStore σ κ] := Local σ κ → σ → σ → Prop

def Stable (rely : Rely σ κ) (P : Assertion σ κ) : Prop :=
  ∀ ⦃s s' l⦄, P s l → rely l s s' → P s' l

theorem Stable.always {rely : Rely σ κ} : Stable rely .always := fun _ _ _ _ _ => trivial

theorem Stable.never {rely : Rely σ κ} : Stable rely .never := fun _ _ _ h _ => h

/-- From `P` the script ends in its postcondition, whatever the others commit in between as far as
`rely` admits it; where a statement of it raises, `raises` holds. -/
inductive Outline (rely : Rely σ κ) (raises : Assertion σ κ) :
    Assertion σ κ → Script σ κ α → (α → Assertion σ κ) → Prop
  | done {P : Assertion σ κ} {a : α} {Q : α → Assertion σ κ} (h : ∀ s l, P s l → Q a s l) :
      Outline rely raises P (.done a) Q
  | fail {P : Assertion σ κ} {Q : α → Assertion σ κ} (h : ∀ s l, P s l → raises s l) :
      Outline rely raises P .fail Q
  | query {P : Assertion σ κ} {next : σ → Script σ κ α} {Q : α → Assertion σ κ}
      (mid : σ → Assertion σ κ) (stable : ∀ v, Stable rely (mid v))
      (reads : ∀ s l, P s l → mid (l.visible s) s (l.saw s))
      (rest : ∀ v, Outline rely raises (mid v) (next v) Q) : Outline rely raises P (.query next) Q
  | exec {P : Assertion σ κ} {statement : σ → Option (Write σ κ)} {next : Script σ κ α}
      {Q : α → Assertion σ κ} (mid : Assertion σ κ) (stable : Stable rely mid)
      (writes : ∀ s l w, P s l → statement (l.visible s) = some w → mid s (l.wrote w))
      (refused : ∀ s l, P s l → statement (l.visible s) = none → raises s l)
      (rest : Outline rely raises mid next Q) : Outline rely raises P (.exec statement next) Q

namespace Outline

variable {rely : Rely σ κ} {raises : Assertion σ κ} {P P' : Assertion σ κ} {m : Script σ κ α}
  {Q Q' : α → Assertion σ κ}

theorem pre (h : Outline rely raises P m Q) (hP : ∀ s l, P' s l → P s l) :
    Outline rely raises P' m Q := by
  cases h with
  | done h => exact .done fun s l hs => h s l (hP s l hs)
  | fail h => exact .fail fun s l hs => h s l (hP s l hs)
  | query mid stable reads rest =>
      exact .query mid stable (fun s l hs => reads s l (hP s l hs)) rest
  | exec mid stable writes refused rest =>
      exact .exec mid stable (fun s l w hs => writes s l w (hP s l hs))
        (fun s l hs => refused s l (hP s l hs)) rest

theorem post (h : Outline rely raises P m Q) (hQ : ∀ a s l, Q a s l → Q' a s l) :
    Outline rely raises P m Q' := by
  induction h with
  | done h => exact .done fun s l hs => hQ _ s l (h s l hs)
  | fail h => exact .fail h
  | query mid stable reads _ ih => exact .query mid stable reads fun v => ih v hQ
  | exec mid stable writes refused _ ih => exact .exec mid stable writes refused (ih hQ)

theorem pure {a : α} (h : ∀ s l, P s l → Q a s l) :
    Outline rely raises P (Pure.pure a : Script σ κ α) Q :=
  .done h

theorem raise (h : ∀ s l, P s l → raises s l) :
    Outline rely raises P (Script.raise : Script σ κ α) Q :=
  .fail h

theorem bind {f : α → Script σ κ β} {R : β → Assertion σ κ} (hm : Outline rely raises P m Q)
    (hf : ∀ a, Outline rely raises (Q a) (f a) R) : Outline rely raises P (m >>= f) R := by
  change Outline rely raises P (m.bind f) R
  induction hm with
  | done h => exact (hf _).pre h
  | fail h => exact .fail h
  | query mid stable reads _ ih => exact .query mid stable reads fun v => ih v hf
  | exec mid stable writes refused _ ih => exact .exec mid stable writes refused (ih hf)

/-- Others that do less are relied on as well. -/
theorem narrow {rely' : Rely σ κ} (h : Outline rely raises P m Q)
    (hrely : ∀ l s s', rely' l s s' → rely l s s') : Outline rely' raises P m Q := by
  have hstable {A : Assertion σ κ} (hA : Stable rely A) : Stable rely' A :=
    fun s s' l hs hstep => hA hs (hrely l s s' hstep)
  induction h with
  | done h => exact .done h
  | fail h => exact .fail h
  | query mid stable reads _ ih => exact .query mid (fun v => hstable (stable v)) reads ih
  | exec mid stable writes refused _ ih => exact .exec mid (hstable stable) writes refused ih

/-- A script that no state satisfying the precondition comes to has every outline. -/
theorem absurd (h : ∀ s l, ¬ P s l) : Outline rely raises P m Q := by
  have hnever : Outline rely raises (fun _ _ => False) m Q := by
    induction m with
    | done a => exact .done fun _ _ h => h.elim
    | fail => exact .fail fun _ _ h => h.elim
    | query next ih =>
        exact .query (fun _ _ _ => False) (fun _ _ _ _ h _ => h) (fun _ _ h => h) ih
    | exec statement next ih =>
        exact .exec (fun _ _ => False) (fun _ _ _ h _ => h) (fun _ _ _ h _ => h)
          (fun _ _ h _ => h.elim) ih
  exact hnever.pre h

/-- What the precondition says of neither store nor progress may be assumed. -/
theorem assuming {φ : Prop} (h : φ → Outline rely raises P m Q) :
    Outline rely raises (fun s l => φ ∧ P s l) m Q := by
  by_cases hφ : φ
  · exact (h hφ).pre fun _ _ h => h.2
  · exact .absurd fun _ _ h => hφ h.1

/-- An outline for each value serves for some value. -/
theorem existing {P : ι → Assertion σ κ} (h : ∀ x, Outline rely raises (P x) m Q) :
    Outline rely raises (fun s l => ∃ x, P x s l) m Q := by
  induction m generalizing P with
  | done a =>
      refine .done fun s l ⟨x, hx⟩ => ?_
      cases h x with
      | done h => exact h s l hx
  | fail =>
      refine .fail fun s l ⟨x, hx⟩ => ?_
      cases h x with
      | fail h => exact h s l hx
  | query next ih =>
      have hmid (x : ι) : ∃ mid : σ → Assertion σ κ, (∀ v, Stable rely (mid v)) ∧
          (∀ s l, P x s l → mid (l.visible s) s (l.saw s)) ∧
            ∀ v, Outline rely raises (mid v) (next v) Q := by
        cases h x with
        | query mid stable reads rest => exact ⟨mid, stable, reads, rest⟩
      choose mid stable reads rest using hmid
      refine .query (fun v s l => ∃ x, mid x v s l) ?_ ?_ fun v => ih v fun x => rest x v
      · exact fun v s s' l ⟨x, hx⟩ hrely => ⟨x, stable x v hx hrely⟩
      · exact fun s l ⟨x, hx⟩ => ⟨x, reads x s l hx⟩
  | exec statement next ih =>
      have hmid (x : ι) : ∃ mid : Assertion σ κ, Stable rely mid ∧
          (∀ s l w, P x s l → statement (l.visible s) = some w → mid s (l.wrote w)) ∧
            (∀ s l, P x s l → statement (l.visible s) = none → raises s l) ∧
              Outline rely raises mid next Q := by
        cases h x with
        | exec mid stable writes refused rest => exact ⟨mid, stable, writes, refused, rest⟩
      choose mid stable writes refused rest using hmid
      refine .exec (fun s l => ∃ x, mid x s l) ?_ ?_ ?_ (ih rest)
      · exact fun s s' l ⟨x, hx⟩ hrely => ⟨x, stable x hx hrely⟩
      · exact fun s l w ⟨x, hx⟩ hw => ⟨x, writes x s l w hx hw⟩
      · exact fun s l ⟨x, hx⟩ => refused x s l hx

theorem select {f : σ → α} (stable : ∀ a, Stable rely (Q a))
    (reads : ∀ s l, P s l → Q (f (l.visible s)) s (l.saw s)) :
    Outline rely raises P (Script.select f : Script σ κ α) Q :=
  .query (fun v => Q (f v)) (fun v => stable (f v)) reads fun _ => .done fun _ _ h => h

theorem write {statement : σ → Option (Write σ κ)} {Q : Unit → Assertion σ κ}
    (stable : Stable rely (Q ()))
    (writes : ∀ s l w, P s l → statement (l.visible s) = some w → Q () s (l.wrote w))
    (refused : ∀ s l, P s l → statement (l.visible s) = none → raises s l) :
    Outline rely raises P (Script.write statement) Q :=
  .exec (Q ()) stable writes refused (.done fun _ _ h => h)

theorem ite {c : Prop} [Decidable c] {m m' : Script σ κ α} (h : Outline rely raises P m Q)
    (h' : Outline rely raises P m' Q) : Outline rely raises P (if c then m else m') Q := by
  split
  · exact h
  · exact h'

theorem forM {l : List ι} {f : ι → Script σ κ PUnit}
    (hf : ∀ x ∈ l, Outline rely raises P (f x) fun _ => P) :
    Outline rely raises P (l.forM f) fun _ => P := by
  induction l with
  | nil => exact .pure fun _ _ h => h
  | cons x l ih =>
      refine (hf x List.mem_cons_self).bind fun _ => ih fun y hy => ?_
      exact hf y (List.mem_cons_of_mem x hy)

/-- A loop that establishes something of each of its elements in turn. -/
theorem forM_each {l : List ι} {f : ι → Script σ κ PUnit} {P : List ι → Assertion σ κ}
    (hf : ∀ (before : List ι) (x : ι), x ∈ l →
      Outline rely raises (P before) (f x) fun _ => P (before ++ [x])) (before : List ι) :
    Outline rely raises (P before) (l.forM f) fun _ => P (before ++ l) := by
  induction l generalizing before with
  | nil => exact .pure fun _ _ h => by rwa [List.append_nil]
  | cons x l ih =>
      refine (hf before x List.mem_cons_self).bind fun _ => ?_
      have hsplit : before ++ x :: l = before ++ [x] ++ l := List.append_cons before x l
      rw [hsplit]
      exact ih (fun before y hy => hf before y (List.mem_cons_of_mem x hy)) (before ++ [x])

theorem mapM {l : List ι} {f : ι → Script σ κ β}
    (hf : ∀ x ∈ l, Outline rely raises P (f x) fun _ => P) :
    Outline rely raises P (l.mapM f) fun _ => P := by
  induction l with
  | nil =>
      rw [List.mapM_nil]
      exact .pure fun _ _ h => h
  | cons x l ih =>
      rw [List.mapM_cons]
      refine (hf x List.mem_cons_self).bind fun _ => ?_
      refine (ih fun y hy => hf y (List.mem_cons_of_mem x hy)).bind fun _ => ?_
      exact .pure fun _ _ h => h

end Outline

/-! ## Scripts that only make certain writes -/

namespace Script

variable {allowed : Write σ κ → Prop}

def Writes (allowed : Write σ κ → Prop) : Script σ κ α → Prop
  | .done _ => True
  | .fail => True
  | .query next => ∀ s, (next s).Writes allowed
  | .exec statement next => (∀ s w, statement s = some w → allowed w) ∧ next.Writes allowed

namespace Writes

theorem pure (a : α) : Writes allowed (Pure.pure a : Script σ κ α) := trivial

theorem raise : Writes allowed (Script.raise : Script σ κ α) := trivial

theorem select (f : σ → α) : Writes allowed (Script.select f : Script σ κ α) := fun _ => trivial

theorem write {statement : σ → Option (Write σ κ)}
    (h : ∀ s w, statement s = some w → allowed w) : Writes allowed (Script.write statement) :=
  ⟨h, trivial⟩

theorem bind {m : Script σ κ α} {f : α → Script σ κ β} (hm : m.Writes allowed)
    (hf : ∀ a, (f a).Writes allowed) : (m >>= f).Writes allowed := by
  change (m.bind f).Writes allowed
  induction m with
  | done a => exact hf a
  | fail => trivial
  | query next ih => exact fun s => ih s (hm s)
  | exec statement next ih => exact ⟨hm.1, ih hm.2⟩

theorem ite {c : Prop} [Decidable c] {m m' : Script σ κ α} (h : m.Writes allowed)
    (h' : m'.Writes allowed) : (if c then m else m').Writes allowed := by
  split
  · exact h
  · exact h'

theorem forM {l : List ι} {f : ι → Script σ κ PUnit} (hf : ∀ x, (f x).Writes allowed) :
    (l.forM f).Writes allowed := by
  induction l with
  | nil => trivial
  | cons x l ih => exact (hf x).bind fun _ => ih

theorem mapM {l : List ι} {f : ι → Script σ κ β} (hf : ∀ x, (f x).Writes allowed) :
    (l.mapM f).Writes allowed := by
  induction l with
  | nil => exact .pure _
  | cons x l ih =>
      rw [List.mapM_cons]
      exact (hf x).bind fun _ => ih.bind fun _ => .pure _

theorem foldlM {l : List ι} {f : β → ι → Script σ κ β} (hf : ∀ b x, (f b x).Writes allowed)
    (b : β) : (l.foldlM f b).Writes allowed := by
  induction l generalizing b with
  | nil => exact .pure _
  | cons x l ih =>
      rw [List.foldlM_cons]
      exact (hf b x).bind fun b' => ih b'

theorem mono {allowed' : Write σ κ → Prop} {m : Script σ κ α} (hm : m.Writes allowed)
    (h : ∀ w, allowed w → allowed' w) : m.Writes allowed' := by
  induction m with
  | done a => trivial
  | fail => trivial
  | query next ih => exact fun s => ih s (hm s)
  | exec statement next ih => exact ⟨fun s w hw => h w (hm.1 s w hw), ih hm.2⟩

/-- An assertion that the allowed writes keep holds throughout. -/
theorem outline {rely : Rely σ κ} {P : Assertion σ κ} {m : Script σ κ α} (h : m.Writes allowed)
    (stable : Stable rely P) (reads : ∀ s l, P s l → P s (l.saw s))
    (writes : ∀ s l w, allowed w → P s l → P s (l.wrote w)) :
    Outline rely .always P m fun _ => P := by
  induction m with
  | done a => exact .done fun _ _ hs => hs
  | fail => exact .fail fun _ _ _ => trivial
  | query next ih => exact .query (fun _ => P) (fun _ => stable) reads fun v => ih v (h v)
  | exec statement next ih =>
      exact .exec P stable (fun s l w hs hw => writes s l w (h.1 _ _ hw) hs)
        (fun _ _ _ _ => trivial) (ih h.2)

/-- An assertion that the allowed writes keep is carried along with an outline. -/
theorem carry {rely : Rely σ κ} {raises A P : Assertion σ κ} {m : Script σ κ α}
    {Q : α → Assertion σ κ} (hm : m.Writes allowed) (h : Outline rely raises P m Q)
    (stable : Stable rely A) (reads : ∀ s l, A s l → A s (l.saw s))
    (writes : ∀ s l w, allowed w → A s l → A s (l.wrote w)) :
    Outline rely raises (fun s l => P s l ∧ A s l) m fun a s l => Q a s l ∧ A s l := by
  have hboth {B : Assertion σ κ} (hB : Stable rely B) : Stable rely fun s l => B s l ∧ A s l :=
    fun s s' l hs hrely => ⟨hB hs.1 hrely, stable hs.2 hrely⟩
  induction h with
  | done h => exact .done fun s l hs => ⟨h s l hs.1, hs.2⟩
  | fail h => exact .fail fun s l hs => h s l hs.1
  | query mid hmid hreads _ ih =>
      refine .query _ (fun v => hboth (hmid v)) (fun s l hs => ?_) fun v => ih v (hm v)
      exact ⟨hreads s l hs.1, reads s l hs.2⟩
  | exec mid hmid hwrites refused _ ih =>
      refine .exec _ (hboth hmid) (fun s l w hs hw => ?_) (fun s l hs => refused s l hs.1)
        (ih hm.2)
      exact ⟨hwrites s l w hs.1 hw, writes s l w (hm.1 _ w hw) hs.2⟩

end Writes

end Script

/-! ## Worlds whose transactions keep to their outlines -/

structure Contract (σ κ : Type) [RowStore σ κ] (α : Type) where
  rely : Rely σ κ
  raises : Assertion σ κ
  /-- What holds when the transaction is about to commit with a result. -/
  commits : α → Assertion σ κ

variable {contract : Nat → Contract σ κ α} {w : World σ κ α} {i : Nat}

structure World.Obeys (contract : Nat → Contract σ κ α) (w : World σ κ α) : Prop where
  exclusive : ∀ (i j : Nat) (m m' : Script σ κ α) (l l' : Local σ κ), i ≠ j →
    w.parties[i]? = some (.active m l) → w.parties[j]? = some (.active m' l') →
    ∀ k ∈ l.held, k ∉ l'.held
  outlined : ∀ (i : Nat) (m : Script σ κ α) (l : Local σ κ),
    w.parties[i]? = some (.active m l) → ∃ P : Assertion σ κ,
      Stable (contract i).rely P ∧ P w.store l ∧
        Outline (contract i).rely (contract i).raises P m (contract i).commits

/-- The commit of transaction `i`, if it comes next, is one that all others rely on. -/
def World.Respects (contract : Nat → Contract σ κ α) (w : World σ κ α) (i : Nat) : Prop :=
  ∀ (a : α) (l : Local σ κ), w.parties[i]? = some (.active (.done a) l) →
    (contract i).commits a w.store l → ∀ (j : Nat) (m : Script σ κ α) (l' : Local σ κ), j ≠ i →
      w.parties[j]? = some (.active m l') → (∀ k ∈ l.held, k ∉ l'.held) →
      (contract j).rely l' w.store (l.pending w.store)

namespace World.Obeys

theorem start {store : σ} {scripts : List (Script σ κ α)}
    (h : ∀ (i : Nat) (m : Script σ κ α), scripts[i]? = some m → ∃ P : Assertion σ κ,
      Stable (contract i).rely P ∧ P store .start ∧
        Outline (contract i).rely (contract i).raises P m (contract i).commits) :
    (World.start store scripts).Obeys contract := by
  have hparty {i : Nat} {party : Party σ κ α}
      (hi : (World.start store scripts).parties[i]? = some party) :
      ∃ m, scripts[i]? = some m ∧ party = .active m .start := by
    obtain ⟨m, hm, rfl⟩ := Option.map_eq_some_iff.1 ((List.getElem?_map ..).symm.trans hi)
    exact ⟨m, hm, rfl⟩
  constructor
  · intro i j m m' l l' _ hi _ k hk
    obtain ⟨_, -, hactive⟩ := hparty hi
    cases hactive
    cases hk
  · intro i m l hi
    obtain ⟨m', hm, hactive⟩ := hparty hi
    cases hactive
    exact h i m hm

/-- A transaction that is about to commit has established its postcondition. -/
theorem commits (h : w.Obeys contract) {a : α} {l : Local σ κ}
    (hparty : w.parties[i]? = some (.active (.done a) l)) :
    (contract i).commits a w.store l := by
  obtain ⟨P, -, hP, houtline⟩ := h.outlined i _ l hparty
  cases houtline with
  | done hdone => exact hdone _ _ hP

/-- Where a transaction raises, its outline says so. -/
theorem raises (h : w.Obeys contract) {m : Script σ κ α} {l : Local σ κ}
    (hparty : w.parties[i]? = some (.active m l))
    (hraises : m = .fail ∨
      ∃ statement next, m = .exec statement next ∧ statement (l.visible w.store) = none) :
    (contract i).raises w.store l := by
  obtain ⟨P, -, hP, houtline⟩ := h.outlined i m l hparty
  rcases hraises with rfl | ⟨statement, next, rfl, hnone⟩
  · cases houtline with
    | fail hfail => exact hfail _ _ hP
  · cases houtline with
    | exec _ _ _ refused _ => exact refused _ _ hP hnone

/-- Replacing an active transaction by one that has come further. -/
theorem put {m m' : Script σ κ α} {l l' : Local σ κ} (h : w.Obeys contract)
    (hparty : w.parties[i]? = some (.active m l))
    (hheld : ∀ (j : Nat) (m₁ : Script σ κ α) (l₁ : Local σ κ), j ≠ i →
      w.parties[j]? = some (.active m₁ l₁) → ∀ k ∈ l'.held, k ∉ l₁.held)
    (houtline : ∃ P : Assertion σ κ, Stable (contract i).rely P ∧ P w.store l' ∧
      Outline (contract i).rely (contract i).raises P m' (contract i).commits) :
    (w.put i (.active m' l')).Obeys contract := by
  have hlength : i < w.parties.length := (List.getElem?_eq_some_iff.1 hparty).1
  have hself : (w.put i (.active m' l')).parties[i]? = some (.active m' l') := by
    simp [World.put, hlength]
  have hother {j : Nat} (hj : j ≠ i) :
      (w.put i (.active m' l')).parties[j]? = w.parties[j]? := by
    simp [World.put, List.getElem?_set_ne (Ne.symm hj)]
  constructor
  · intro a b m₁ m₂ l₁ l₂ hab ha hb k hk
    by_cases hai : a = i
    · subst hai
      rw [hself] at ha
      cases ha
      rw [hother hab.symm] at hb
      exact hheld b m₂ l₂ hab.symm hb k hk
    · rw [hother hai] at ha
      by_cases hbi : b = i
      · subst hbi
        rw [hself] at hb
        cases hb
        exact fun hk' => hheld a m₁ l₁ hai ha k hk' hk
      · rw [hother hbi] at hb
        exact h.exclusive a b m₁ m₂ l₁ l₂ hab ha hb k hk
  · intro a m₁ l₁ ha
    by_cases hai : a = i
    · subst hai
      rw [hself] at ha
      cases ha
      exact houtline
    · rw [hother hai] at ha
      exact h.outlined a m₁ l₁ ha

/-- Ending a transaction, which releases what it holds and leaves a store that the others rely
on. -/
theorem ended {party : Party σ κ α} {store : σ} (h : w.Obeys contract)
    (hparty : ∀ (m : Script σ κ α) (l : Local σ κ), party ≠ .active m l)
    (hrely : ∀ (j : Nat) (m : Script σ κ α) (l : Local σ κ), j ≠ i →
      w.parties[j]? = some (.active m l) →
      store = w.store ∨ (contract j).rely l w.store store) :
    World.Obeys contract ⟨store, w.parties.set i party⟩ := by
  have hactive {j : Nat} {m : Script σ κ α} {l : Local σ κ}
      (hj : (w.parties.set i party)[j]? = some (.active m l)) :
      j ≠ i ∧ w.parties[j]? = some (.active m l) := by
    rw [List.getElem?_set] at hj
    split_ifs at hj with hi hlength
    · exact absurd (Option.some.inj hj) (hparty m l)
    · exact ⟨Ne.symm hi, hj⟩
  constructor
  · intro a b m₁ m₂ l₁ l₂ hab ha hb
    exact h.exclusive a b m₁ m₂ l₁ l₂ hab (hactive ha).2 (hactive hb).2
  · intro a m l ha
    obtain ⟨hai, ha⟩ := hactive ha
    obtain ⟨P, hstable, hP, houtline⟩ := h.outlined a m l ha
    refine ⟨P, hstable, ?_, houtline⟩
    rcases hrely a m l hai ha with rfl | hrely
    · exact hP
    · exact hstable hP hrely

variable [DecidableEq κ]

theorem of_move {w' : World σ κ α} (h : w.Obeys contract) (hmove : w.Move i w')
    (hrespects : w.Respects contract i) : w'.Obeys contract := by
  cases hmove with
  | stays => exact h
  | raises hparty hraises => exact h.ended nofun fun _ _ _ _ _ => .inl rfl
  | reads hparty =>
      obtain ⟨P, -, hP, houtline⟩ := h.outlined i _ _ hparty
      cases houtline with
      | query mid stable reads rest =>
          refine h.put hparty (fun j m₁ l₁ hj hm₁ k hk => ?_) ⟨_, stable _, reads _ _ hP, rest _⟩
          exact h.exclusive i j _ m₁ _ l₁ hj.symm hparty hm₁ k hk
  | @writes _ _ _ write hparty hwrite hfree =>
      obtain ⟨P, -, hP, houtline⟩ := h.outlined i _ _ hparty
      cases houtline with
      | exec mid stable writes _ rest =>
          refine h.put hparty (fun j m₁ l₁ hj hm₁ k hk => ?_)
            ⟨mid, stable, writes _ _ _ hP hwrite, rest⟩
          rcases List.mem_append.1 hk with htaken | hheld
          · exact not_held_of_free (hfree k (List.mem_append_right _ htaken)) hj hm₁
          · exact h.exclusive i j _ m₁ _ l₁ hj.symm hparty hm₁ k hheld
  | @commits a l hparty =>
      refine h.ended nofun fun j m l' hj hm => .inr ?_
      refine hrespects a l hparty (h.commits hparty) j m l' hj hm ?_
      exact h.exclusive i j _ m l l' hj.symm hparty hm

/-- In a world that keeps to its outlines every step does, if its commit is one that the others
rely on. -/
theorem step (h : w.Obeys contract) (hrespects : w.Respects contract i) :
    (w.step i).Obeys contract :=
  h.of_move (w.move i) hrespects

end World.Obeys

end ReadCommitted
