import Mathlib.Data.Rat.Floor
import Mathlib.Data.List.Sort

/-!
# Rotation

A line of distinct people whose first `k` are served in each round and go back to its end. Sorting
by the time of the last service, and then by name, makes such a line.
-/

namespace Rotation

variable {α τ : Type} {k i n : Nat} {x : α} {before after line l : List α}

/-! ## Lines -/

/-- One round: the first `k` leave the line and come back at its end, in some order. -/
def Rotates (k : Nat) (before after : List α) : Prop :=
  ∃ back, back.Perm (before.take k) ∧ after = before.drop k ++ back

theorem Rotates.getElem?_sub (h : Rotates k before after) (hi : k ≤ i)
    (hx : before[i]? = some x) : after[i - k]? = some x := by
  obtain ⟨back, -, rfl⟩ := h
  have hdrop : (before.drop k)[i - k]? = some x := by
    rw [List.getElem?_drop, Nat.add_sub_cancel' hi]
    exact hx
  rw [List.getElem?_append_left (List.getElem?_eq_some_iff.1 hdrop).1, hdrop]

/-- Whoever stands at position `i` is served within `i / k` rounds. -/
theorem served {lines : Nat → List α} (hk : 0 < k)
    (hlines : ∀ n, Rotates k (lines n) (lines (n + 1))) (hx : (lines n)[i]? = some x) :
    x ∈ (lines (n + i / k)).take k := by
  induction i using Nat.strong_induction_on generalizing n with
  | _ i ih =>
      by_cases hi : i < k
      · rw [Nat.div_eq_of_lt hi, Nat.add_zero]
        exact List.mem_of_getElem? ((List.getElem?_take_of_lt hi).trans hx)
      · have hsub : i - k < i := by omega
        have hrest := ih (i - k) hsub ((hlines n).getElem?_sub (by omega) hx)
        have hdiv : i / k = (i - k) / k + 1 := by
          rw [← Nat.add_div_right _ hk, Nat.sub_add_cancel (by omega)]
        rw [hdiv]
        rwa [Nat.add_right_comm] at hrest

/-- A round that serves only some of the line serves someone else in the next one. -/
theorem Rotates.exists_new (h : Rotates k before after) (hk : 0 < k) (hlength : k < before.length)
    (hnodup : before.Nodup) : ∃ x ∈ after.take k, x ∉ before.take k := by
  refine ⟨before[k], ?_, ?_⟩
  · have hfirst := h.getElem?_sub (le_refl k) (List.getElem?_eq_getElem hlength)
    rw [Nat.sub_self] at hfirst
    exact List.mem_of_getElem? ((List.getElem?_take_of_lt hk).trans hfirst)
  · have hdisjoint := List.disjoint_take_drop hnodup (le_refl k)
    have hdrop : before[k] ∈ before.drop k := by
      rw [List.drop_eq_getElem_cons hlength]
      exact List.mem_cons_self
    exact fun hmem => hdisjoint hmem hdrop

/-- The round in which position `i` of `n` is served lies in a window of `⌈n / k⌉` rounds. -/
theorem div_lt_ceil (hk : 0 < k) (hi : i < n) : i / k < ⌈(n : ℚ) / k⌉₊ := by
  have hk' : (0 : ℚ) < k := Nat.cast_pos.2 hk
  rw [Nat.lt_ceil, lt_div_iff₀ hk']
  calc
    ((i / k : Nat) : ℚ) * k = ((i / k * k : Nat) : ℚ) := (Nat.cast_mul _ _).symm
    _ ≤ (i : ℚ) := Nat.cast_le.2 (Nat.div_mul_le_self i k)
    _ < n := Nat.cast_lt.2 hi

/-! ## Least recently served first -/

section Sorting

variable [LinearOrder α] [LinearOrder τ] {used : α → τ} {a b c : α} {t : τ}

/-- The order of service: an older last service first, the name breaking ties. -/
def Older (used : α → τ) (a b : α) : Prop := used a < used b ∨ (used a = used b ∧ a ≤ b)

instance : DecidableRel (Older used) := fun a b =>
  inferInstanceAs (Decidable (used a < used b ∨ (used a = used b ∧ a ≤ b)))

instance : Std.Total (Older used) := ⟨fun a b => by
  rcases lt_trichotomy (used a) (used b) with h | h | h
  · exact .inl (.inl h)
  · exact (le_total a b).imp (fun hle => .inr ⟨h, hle⟩) fun hle => .inr ⟨h.symm, hle⟩
  · exact .inr (.inl h)⟩

instance : IsTrans α (Older used) := ⟨fun a b c hab hbc => by
  rcases hab with hab | ⟨hab, hle⟩
  · exact .inl (hbc.elim hab.trans fun h => h.1 ▸ hab)
  · rcases hbc with hbc | ⟨hbc, hle'⟩
    · exact .inl (hab ▸ hbc)
    · exact .inr ⟨hab.trans hbc, hle.trans hle'⟩⟩

instance : Std.Antisymm (Older used) := ⟨fun a b hab hba => by
  rcases hab with hab | ⟨hab, hle⟩
  · rcases hba with hba | ⟨hba, -⟩
    · exact absurd hba hab.asymm
    · exact absurd hab hba.symm.not_lt
  · rcases hba with hba | ⟨-, hle'⟩
    · exact absurd hab.symm hba.ne
    · exact le_antisymm hle hle'⟩

/-- Serving the first `k` at a time later than every last service rotates the sorted line. -/
theorem rotates_insertionSort (hnodup : l.Nodup) (ht : ∀ x ∈ l, used x < t) {served : α → τ}
    (hserved : ∀ x ∈ (l.insertionSort (Older used)).take k, served x = t)
    (hrest : ∀ x ∉ (l.insertionSort (Older used)).take k, served x = used x) :
    Rotates k (l.insertionSort (Older used)) (l.insertionSort (Older served)) := by
  set line := l.insertionSort (Older used) with hline
  have hperm : line.Perm l := List.perm_insertionSort _ l
  have hsorted : line.Pairwise (Older used) := List.pairwise_insertionSort _ l
  have hmem : ∀ x ∈ line, used x < t := fun x hx => ht x (hperm.mem_iff.1 hx)
  have hdisjoint := List.disjoint_take_drop (hperm.nodup_iff.2 hnodup) (le_refl k)
  have hdrop : ∀ x ∈ line.drop k, served x = used x := fun x hx =>
    hrest x fun htake => hdisjoint htake hx
  -- the sorted line after the round: those passed over keep their order, those served come last
  let back := (line.take k).insertionSort (Older served)
  have hback : back.Perm (line.take k) := List.perm_insertionSort _ _
  refine ⟨back, hback, ?_⟩
  have hafter : (line.drop k ++ back).Pairwise (Older served) := by
    refine List.pairwise_append.2 ⟨?_, List.pairwise_insertionSort _ _, ?_⟩
    · refine (hsorted.sublist (List.drop_sublist k line)).imp_of_mem fun hx hy h => ?_
      rw [Older, hdrop _ hx, hdrop _ hy]
      exact h
    · intro x hx y hy
      refine .inl ?_
      rw [hdrop x hx, hserved y (hback.mem_iff.1 hy)]
      exact hmem x (List.mem_of_mem_drop hx)
  have hsplit : line.Perm (line.drop k ++ back) := by
    calc
      List.Perm line (line.take k ++ line.drop k) := by rw [List.take_append_drop]
      List.Perm _ (line.drop k ++ line.take k) := List.perm_append_comm
      List.Perm _ (line.drop k ++ back) := hback.symm.append_left _
  exact List.Perm.eq_of_pairwise' (List.pairwise_insertionSort _ l) hafter
    ((List.perm_insertionSort _ l).trans (hperm.symm.trans hsplit))

/-- The first `n` of a line in order of names are those with fewer than `n` names before theirs. -/
theorem mem_take_insertionSort {names : List α} :
    x ∈ (names.insertionSort (· ≤ ·)).take n ↔ x ∈ names ∧ names.countP (· < x) < n := by
  have hperm := List.perm_insertionSort (· ≤ ·) names
  rw [← hperm.mem_iff, ← hperm.countP_eq]
  have hsorted := List.pairwise_insertionSort (· ≤ ·) names
  generalize names.insertionSort (· ≤ ·) = line at hsorted
  induction line generalizing n with
  | nil => simp
  | cons first rest ih =>
      obtain ⟨hfirst, hrest⟩ := List.pairwise_cons.1 hsorted
      cases n with
      | zero => simp
      | succ n =>
          have htail : x ∈ rest.take n ↔ x ∈ rest ∧ rest.countP (· < x) < n := ih hrest
          rw [List.take_succ_cons, List.mem_cons, List.mem_cons, htail, List.countP_cons]
          by_cases hlt : first < x
          · simp [hlt, hlt.ne']
          · -- nobody stands before `x`, who is the first or is not in the line
            have hnone : rest.countP (· < x) = 0 := by
              refine List.countP_eq_zero.2 fun y hy => ?_
              simpa using (not_lt.1 hlt).trans (hfirst y hy)
            have hmem : x ∈ rest → x = first := fun hx => le_antisymm (not_lt.1 hlt) (hfirst x hx)
            simp only [hlt, hnone, decide_false, Bool.false_eq_true, if_false, Nat.add_zero,
              Nat.zero_lt_succ, and_true]
            exact ⟨fun h => h.imp_right And.left, fun h => .inl (h.elim id hmem)⟩

theorem head?_insertionSort {names : List α} :
    (names.insertionSort (· ≤ ·)).head? = some x ↔ x ∈ names ∧ ∀ y ∈ names, x ≤ y := by
  have hperm := List.perm_insertionSort (· ≤ ·) names
  have hsorted := List.pairwise_insertionSort (· ≤ ·) names
  simp only [← hperm.mem_iff]
  generalize names.insertionSort (· ≤ ·) = line at hsorted
  cases line with
  | nil => simp
  | cons first rest =>
      obtain ⟨hfirst, -⟩ := List.pairwise_cons.1 hsorted
      rw [List.head?_cons, Option.some.injEq]
      constructor
      · rintro rfl
        exact ⟨List.mem_cons_self, List.forall_mem_cons.2 ⟨le_rfl, hfirst⟩⟩
      · rintro ⟨hx, hleast⟩
        have hle := hleast first List.mem_cons_self
        exact (List.mem_cons.1 hx).elim Eq.symm fun hmem => le_antisymm (hfirst x hmem) hle

end Sorting

end Rotation
