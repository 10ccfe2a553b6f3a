import AiFund.Domain.Rules
import AiFund.Library.Rotation
import Mathlib.Data.String.Basic
import Mathlib.Order.Monotone.Basic

/-!
# Verifier rotation

Rounds in which the least recently used contributors are picked and stamped with the time of the
round. The order of a round is a line that the next one rotates, so nobody is passed over for long.
-/

namespace AiFund

open Rotation

/-- The time by which contributors are ordered: a house that was never used counts as used at the
epoch. -/
def usedOrEpoch (lastUsedAt : String → Option Time) (house : String) : Time :=
  (lastUsedAt house).getD epoch

def stampUsed (lastUsedAt : String → Option Time) (picked : List String) (now : Time) :
    String → Option Time :=
  fun house => if house ∈ picked then some now else lastUsedAt house

/-- The times of last use after some rounds, the `n`th of which stamps its picks with `stamps n`. -/
def lastUsedAfter (contributors : List String) (k : Int) (lastUsedAt : String → Option Time)
    (stamps : Nat → Time) : Nat → String → Option Time
  | 0 => lastUsedAt
  | n + 1 =>
      let used := lastUsedAfter contributors k lastUsedAt stamps n
      stampUsed used (pickVerifiers (orderContributors contributors used) k) (stamps n)

/-- The verifiers that the `n`th round picks. -/
def roundPicks (contributors : List String) (k : Int) (lastUsedAt : String → Option Time)
    (stamps : Nat → Time) (n : Nat) : List String :=
  pickVerifiers (orderContributors contributors (lastUsedAfter contributors k lastUsedAt stamps n))
    k

theorem usedOrEpoch_stampUsed (lastUsedAt : String → Option Time) (picked : List String)
    (now : Time) (house : String) :
    usedOrEpoch (stampUsed lastUsedAt picked now) house =
      if house ∈ picked then now else usedOrEpoch lastUsedAt house := by
  unfold usedOrEpoch stampUsed
  split <;> rfl

theorem orderContributors_eq (contributors : List String) (lastUsedAt : String → Option Time) :
    orderContributors contributors lastUsedAt =
      contributors.insertionSort (Older (usedOrEpoch lastUsedAt)) := rfl

theorem orderContributors_perm (contributors : List String) (lastUsedAt : String → Option Time) :
    (orderContributors contributors lastUsedAt).Perm contributors :=
  List.perm_insertionSort _ _

/-- Without times of use the contributors are in the order of their keys. -/
theorem orderContributors_unused (contributors : List String) :
    orderContributors contributors (fun _ => none) = sorted contributors := by
  have holder : (orderContributors contributors fun _ => none).Pairwise (· ≤ ·) := by
    rw [orderContributors_eq]
    refine (List.pairwise_insertionSort _ _).imp fun {a b} h => ?_
    exact h.elim (fun hlt => absurd hlt (lt_irrefl _)) And.right
  exact List.Perm.eq_of_pairwise' holder (List.pairwise_insertionSort _ _)
    ((orderContributors_perm _ _).trans (List.perm_insertionSort _ _).symm)

section Rounds

variable {contributors : List String} {k : Int} {lastUsedAt : String → Option Time}
  {stamps : Nat → Time}

/-- Every round stamps later than all that was stamped before it. -/
theorem usedOrEpoch_lt_stamp
    (hinitial : ∀ house ∈ contributors, usedOrEpoch lastUsedAt house < stamps 0)
    (hstamps : StrictMono stamps) (n : Nat) :
    ∀ house ∈ contributors,
      usedOrEpoch (lastUsedAfter contributors k lastUsedAt stamps n) house < stamps n := by
  induction n with
  | zero => exact hinitial
  | succ n ih =>
      intro house hhouse
      have hnext : stamps n < stamps (n + 1) := hstamps (Nat.lt_succ_self n)
      rw [lastUsedAfter, usedOrEpoch_stampUsed]
      split
      · exact hnext
      · exact (ih house hhouse).trans hnext

/-- A round serves the front of the line of contributors and sends it to the back. -/
theorem rotates_round (hnodup : contributors.Nodup)
    (hinitial : ∀ house ∈ contributors, usedOrEpoch lastUsedAt house < stamps 0)
    (hstamps : StrictMono stamps) (n : Nat) :
    Rotates (max k 0).toNat
      (orderContributors contributors (lastUsedAfter contributors k lastUsedAt stamps n))
      (orderContributors contributors (lastUsedAfter contributors k lastUsedAt stamps (n + 1))) := by
  have hlater := usedOrEpoch_lt_stamp (k := k) hinitial hstamps n
  rw [orderContributors_eq, orderContributors_eq]
  refine rotates_insertionSort hnodup hlater ?_ ?_
  · intro house hhouse
    rw [lastUsedAfter, usedOrEpoch_stampUsed]
    exact if_pos hhouse
  · intro house hhouse
    rw [lastUsedAfter, usedOrEpoch_stampUsed]
    exact if_neg hhouse

/-- Rotation is fair. When every round stamps its picks later than all earlier uses, any
`⌈n / k⌉` consecutive rounds pick each of the `n` contributors, every round picks `min k n` distinct
contributors, and with more contributors than picks no round repeats the picks of the last. -/
theorem rotation_fair (contributors : List String) (k : Int) (lastUsedAt : String → Option Time)
    (stamps : Nat → Time) (hnodup : contributors.Nodup) (hk : 1 ≤ k)
    (hinitial : ∀ house ∈ contributors, usedOrEpoch lastUsedAt house < stamps 0)
    (hstamps : StrictMono stamps) :
    let picks := roundPicks contributors k lastUsedAt stamps
    (∀ n, ∀ house ∈ contributors, ∃ m, n ≤ m ∧ m < n + ⌈(contributors.length : ℚ) / k⌉₊ ∧
        house ∈ picks m) ∧
      (∀ n, (picks n).Nodup ∧ picks n ⊆ contributors ∧
        ((picks n).length : Int) = min k contributors.length) ∧
      (k < contributors.length → ∀ n, ¬ ∀ house, house ∈ picks n ↔ house ∈ picks (n + 1)) := by
  obtain ⟨size, rfl⟩ : ∃ size : Nat, k = size := ⟨k.toNat, by omega⟩
  have hsize : (max (size : Int) 0).toNat = size := by omega
  have hpos : 0 < size := by omega
  let line n := orderContributors contributors
    (lastUsedAfter contributors size lastUsedAt stamps n)
  have hperm : ∀ n, (line n).Perm contributors := fun n => orderContributors_perm _ _
  have hlength : ∀ n, (line n).length = contributors.length := fun n => (hperm n).length_eq
  have hline : ∀ n, (line n).Nodup := fun n => (hperm n).nodup_iff.2 hnodup
  have hrotates : ∀ n, Rotates size (line n) (line (n + 1)) := fun n => by
    have hround := rotates_round (k := size) hnodup hinitial hstamps n
    rwa [hsize] at hround
  have hpicks : ∀ n, roundPicks contributors size lastUsedAt stamps n = (line n).take size :=
    fun n => by rw [roundPicks, pickVerifiers, hsize]
  simp only [hpicks, Int.cast_natCast]
  clear_value line
  refine ⟨fun n house hhouse => ?_, fun n => ⟨?_, ?_, ?_⟩, fun hless n hsame => ?_⟩
  · obtain ⟨i, hi⟩ := List.getElem?_of_mem ((hperm n).mem_iff.2 hhouse)
    have hlt : i < contributors.length := by
      rw [← hlength n]
      exact (List.getElem?_eq_some_iff.1 hi).1
    exact ⟨n + i / size, Nat.le_add_right _ _, Nat.add_lt_add_left (div_lt_ceil hpos hlt) n,
      served hpos hrotates hi⟩
  · exact (hline n).sublist (List.take_sublist _ _)
  · exact fun house hhouse => (hperm n).mem_iff.1 (List.mem_of_mem_take hhouse)
  · rw [List.length_take, hlength]
    omega
  · have hless' : size < (line n).length := by
      rw [hlength]
      exact Int.ofNat_lt.1 hless
    obtain ⟨house, hnew, hold⟩ := (hrotates n).exists_new hpos hless' (hline n)
    exact hold ((hsame house).2 hnew)

/-- Three contributors that were never used, in pairs. -/
theorem rotation_fair_pairs :
    let picks := roundPicks ["claude", "gemini", "grok"] 2 (fun _ => none) fun n => n
    (∀ n, ∀ house ∈ ["claude", "gemini", "grok"],
        ∃ m, n ≤ m ∧ m < n + ⌈((3 : Nat) : ℚ) / (2 : Int)⌉₊ ∧ house ∈ picks m) ∧
      (∀ n, (picks n).Nodup ∧ picks n ⊆ ["claude", "gemini", "grok"] ∧
        ((picks n).length : Int) = min 2 (3 : Nat)) ∧
      ((2 : Int) < (3 : Nat) → ∀ n, ¬ ∀ house, house ∈ picks n ↔ house ∈ picks (n + 1)) :=
  rotation_fair ["claude", "gemini", "grok"] 2 (fun _ => none) (fun n => n) (by decide)
    (by decide) (fun _ _ => show epoch < ((0 : Nat) : Time) by decide +kernel) Nat.strictMono_cast

end Rounds

end AiFund
