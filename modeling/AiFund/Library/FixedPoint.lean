import Mathlib.Data.Rat.Floor
import Mathlib.Tactic.NormNum

/-!
# Fixed point

Numbers that are kept as multiples of a unit. A number is brought to the nearest multiple, and of two
that are equally near to the one away from zero.
-/

namespace FixedPoint

variable {α : Type} [Field α] [LinearOrder α] [IsStrictOrderedRing α] [FloorRing α]

/-- The nearest integer; a half goes away from zero. -/
def nearest (q : α) : ℤ := if 0 ≤ q then ⌊q + 1 / 2⌋ else ⌈q - 1 / 2⌉

theorem nearest_intCast (n : ℤ) : nearest (n : α) = n := by
  unfold nearest
  split_ifs with h
  · rw [Int.floor_intCast_add, Int.floor_eq_zero_iff.2 (by norm_num), add_zero]
  · rw [sub_eq_add_neg, Int.ceil_intCast_add, Int.ceil_eq_zero_iff.2 (by norm_num), add_zero]

/-- Among numbers that are not negative an integer can be rounded apart. -/
theorem nearest_intCast_add {n : ℤ} {q : α} (hn : 0 ≤ n) (hq : 0 ≤ q) :
    nearest (n + q) = n + nearest q := by
  have hsum : (0 : α) ≤ n + q := add_nonneg (Int.cast_nonneg hn) hq
  unfold nearest
  rw [if_pos hsum, if_pos hq, add_assoc, Int.floor_intCast_add]

/-! ## The grid of a unit -/

variable {unit p q : α}

def OnGrid (unit q : α) : Prop := ∃ n : ℤ, q = n * unit

def toGrid (unit q : α) : α := nearest (q / unit) * unit

theorem toGrid_of_onGrid (hunit : unit ≠ 0) (h : OnGrid unit q) : toGrid unit q = q := by
  obtain ⟨n, rfl⟩ := h
  rw [toGrid, mul_div_cancel_right₀ _ hunit, nearest_intCast]

theorem toGrid_eq_self_iff (hunit : unit ≠ 0) : toGrid unit q = q ↔ OnGrid unit q :=
  ⟨fun h => ⟨_, h.symm⟩, toGrid_of_onGrid hunit⟩

/-- A sum with a number on the grid is brought to the grid term by term, if neither is negative. -/
theorem toGrid_add (hunit : 0 < unit) (hp : OnGrid unit p) (hp₀ : 0 ≤ p) (hq : 0 ≤ q) :
    toGrid unit (p + q) = p + toGrid unit q := by
  obtain ⟨n, rfl⟩ := hp
  have hn : 0 ≤ n := by
    have hcast : (0 : α) ≤ n := nonneg_of_mul_nonneg_left hp₀ hunit
    exact_mod_cast hcast
  rw [toGrid, add_div, mul_div_cancel_right₀ _ hunit.ne', nearest_intCast_add hn
    (div_nonneg hq hunit.le), Int.cast_add, add_mul, toGrid]

end FixedPoint
