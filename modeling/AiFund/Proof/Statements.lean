import AiFund.Concurrent.Statements
import AiFund.Library.Outline

/-!
# Outlines of statements
-/

namespace AiFund.Concurrent

open ReadCommitted

variable {α β ε ρ : Type} {rely : Rely Db RowKey} {raises : Assertion Db RowKey} {P : Assertion Db RowKey}
  {allowed : DbWrite → Prop}

theorem outline_getRow {table : Db → List ρ} {id : Nat} {Q : ρ → Assertion Db RowKey}
    (stable : ∀ row, Stable rely (Q row))
    (found : ∀ s l row, P s l → (table (l.visible s))[id]? = some row → Q row s (l.saw s))
    (missing : ∀ s l, P s l → (table (l.visible s))[id]? = none → raises s (l.saw s))
    (hraises : Stable rely raises) :
    Outline rely raises P (getRow table id) Q := by
  unfold getRow
  refine .bind (Q := fun row? s l => row?.elim (raises s l) fun row => Q row s l) ?_ fun row? => ?_
  · refine .select (fun row? => ?_) fun s l h => ?_
    · cases row? with
      | none => exact hraises
      | some row => exact stable row
    · cases hrow : (table (l.visible s))[id]? with
      | none => exact missing s l h hrow
      | some row => exact found s l row h hrow
  · cases row? with
    | none => exact .raise fun _ _ h => h
    | some row => exact .pure fun _ _ h => h

theorem outline_send {w : DbWrite} {Q : Unit → Assertion Db RowKey} (stable : Stable rely (Q ()))
    (h : ∀ s l, P s l → Q () s (l.wrote w)) : Outline rely raises P (send w) Q := by
  refine .write stable (fun s l w' hs hw => ?_) (fun s l _ hnone => nomatch hnone)
  obtain rfl := Option.some.inj hw
  exact h s l hs

theorem outline_sendUnless {unchanged : Prop} [Decidable unchanged] {w : DbWrite}
    {Q : Unit → Assertion Db RowKey} (stable : Stable rely (Q ()))
    (skipped : unchanged → ∀ s l, P s l → Q () s l)
    (sent : ¬ unchanged → ∀ s l, P s l → Q () s (l.wrote w)) :
    Outline rely raises P (sendUnless unchanged w) Q := by
  unfold sendUnless
  split_ifs with h
  · exact .pure (skipped h)
  · exact outline_send stable (sent h)

theorem outline_sendChecked {legal : Db → Bool} {w : DbWrite} {Q : Unit → Assertion Db RowKey}
    (stable : Stable rely (Q ()))
    (h : ∀ s l, P s l → legal (l.visible s) = true → Q () s (l.wrote w)) :
    Outline rely .always P (sendChecked legal w) Q := by
  refine .write stable (fun s l w' hs hw => ?_) fun _ _ _ _ => trivial
  split_ifs at hw with hlegal
  obtain rfl := Option.some.inj hw
  exact h s l hs hlegal

/-- A statement that no constraint refuses here. -/
theorem outline_sendLegal {legal : Db → Bool} {w : DbWrite} {Q : Unit → Assertion Db RowKey}
    (hlegal : ∀ s l, P s l → legal (l.visible s) = true) (stable : Stable rely (Q ()))
    (h : ∀ s l, P s l → Q () s (l.wrote w)) : Outline rely raises P (sendChecked legal w) Q := by
  refine .write stable (fun s l w' hs hw => ?_) fun s l hs hnone => ?_
  · rw [if_pos (hlegal s l hs)] at hw
    obtain rfl := Option.some.inj hw
    exact h s l hs
  · rw [if_pos (hlegal s l hs)] at hnone
    cases hnone

/-- Where the value is an error, the script raises. -/
theorem outline_ofExcept {x : Except ε α} {f : α → DbScript β} {R : β → Assertion Db RowKey}
    (h : ∀ a, x = .ok a → Outline rely raises P (f a) R)
    (herror : ∀ e, x = .error e → ∀ s l, P s l → raises s l) :
    Outline rely raises P (ofExcept x >>= f) R := by
  cases x with
  | ok a => exact h a rfl
  | error e => exact .raise (herror e rfl)

theorem outline_ofExcept_bind {x : Except ε α} {f : α → DbScript β} {R : β → Assertion Db RowKey}
    (h : ∀ a, x = .ok a → Outline rely .always P (f a) R) :
    Outline rely .always P (ofExcept x >>= f) R :=
  outline_ofExcept h fun _ _ _ _ _ => trivial

theorem writes_getRow {table : Db → List ρ} {id : Nat} :
    (getRow table id).Writes allowed := by
  refine .bind (.select _) fun row? => ?_
  cases row? with
  | none => exact .raise
  | some row => exact .pure row

theorem writes_send {w : DbWrite} (h : allowed w) : (send w).Writes allowed := by
  refine .write fun s w' hw => ?_
  obtain rfl := Option.some.inj hw
  exact h

theorem writes_sendChecked {legal : Db → Bool} {w : DbWrite} (h : allowed w) :
    (sendChecked legal w).Writes allowed := by
  refine .write fun s w' hw => ?_
  split_ifs at hw
  obtain rfl := Option.some.inj hw
  exact h

theorem writes_ofExcept {x : Except ε α} : (ofExcept x).Writes allowed := by
  cases x with
  | ok a => exact .pure a
  | error e => exact .raise

end AiFund.Concurrent
