import Mathlib.Data.List.Chain
import Mathlib.Data.List.Perm.Basic

/-!
# Walks

Rows that lead from one state to another. They make a walk if each starts where the one before it
arrives; rows in no particular order may be orderable into one.
-/

namespace Walks

variable {ρ ν : Type} {src : ρ → Option ν} {dst : ρ → ν} {rows ordered : List ρ} {row : ρ} {v x : ν}

/-- The rows make a walk that arrives in `v`. -/
structure Reaches (src : ρ → Option ν) (dst : ρ → ν) (rows : List ρ) (v : ν) : Prop where
  chain : rows.IsChain fun a b => src b = some (dst a)
  last : rows.getLast?.map dst = some v

/-- The rows can be put in an order in which they make a walk that arrives in `v`. -/
def Orderable (src : ρ → Option ν) (dst : ρ → ν) (rows : List ρ) (v : ν) : Prop :=
  ∃ ordered : List ρ, ordered.Perm rows ∧ Reaches src dst ordered v

theorem Reaches.orderable (h : Reaches src dst rows v) : Orderable src dst rows v := ⟨rows, .rfl, h⟩

theorem Reaches.single (row : ρ) : Reaches src dst [row] (dst row) :=
  ⟨List.isChain_singleton row, rfl⟩

/-- A walk goes on from where it has arrived. -/
theorem Reaches.append (h : Reaches src dst rows v) (hrow : src row = some v) :
    Reaches src dst (rows ++ [row]) (dst row) := by
  constructor
  · rw [List.isChain_append]
    refine ⟨h.chain, List.isChain_singleton row, fun a ha b hb => ?_⟩
    obtain rfl : row = b := by simpa using hb
    have hlast := h.last
    rw [Option.mem_def.1 ha] at hlast
    rw [hrow]
    exact hlast.symm
  · simp

/-- A walk takes a row that returns to where it starts wherever it has come by. -/
theorem Reaches.insert (h : Reaches src dst rows v) (hsrc : src row = some x) (hdst : dst row = x)
    (hx : ∃ old ∈ rows, dst old = x) :
    ∃ ordered : List ρ, ordered.Perm (rows ++ [row]) ∧ Reaches src dst ordered v := by
  obtain ⟨old, hold, rfl⟩ := hx
  obtain ⟨before, after, rfl⟩ := List.append_of_mem hold
  refine ⟨before ++ old :: row :: after, ?_, ?_, ?_⟩
  · have hperm : (row :: after).Perm (after ++ [row]) := (List.perm_append_singleton row after).symm
    rw [List.append_assoc, List.cons_append]
    exact .append_left before (.cons old hperm)
  · obtain ⟨hbefore, hafter, hjoin⟩ := List.isChain_append.1 h.chain
    refine List.isChain_append.2 ⟨hbefore, ?_, fun a ha b hb => hjoin a ha b (by simpa using hb)⟩
    refine .cons_cons hsrc ?_
    cases after with
    | nil => exact List.isChain_singleton row
    | cons next rest =>
        obtain ⟨hnext, hrest⟩ := List.isChain_cons_cons.1 hafter
        exact .cons_cons (hnext.trans (congrArg some hdst.symm)) hrest
  · have hlast := h.last
    cases after with
    | nil => simpa [hdst] using hlast
    | cons next rest => simpa using hlast

theorem Orderable.append (h : Orderable src dst rows v) (hrow : src row = some v) :
    Orderable src dst (rows ++ [row]) (dst row) := by
  obtain ⟨ordered, hperm, hreaches⟩ := h
  exact ⟨ordered ++ [row], hperm.append_right [row], hreaches.append hrow⟩

theorem Orderable.insert (h : Orderable src dst rows v) (hsrc : src row = some x)
    (hdst : dst row = x) (hx : ∃ old ∈ rows, dst old = x) :
    Orderable src dst (rows ++ [row]) v := by
  obtain ⟨ordered, hperm, hreaches⟩ := h
  obtain ⟨old, hold, hdstOld⟩ := hx
  obtain ⟨more, hmore, hreaches'⟩ :=
    hreaches.insert hsrc hdst ⟨old, hperm.mem_iff.2 hold, hdstOld⟩
  exact ⟨more, hmore.trans (hperm.append_right [row]), hreaches'⟩

theorem Orderable.arrived (h : Orderable src dst rows v) : ∃ row ∈ rows, dst row = v := by
  obtain ⟨ordered, hperm, hreaches⟩ := h
  obtain ⟨row, hrow, hv⟩ := Option.map_eq_some_iff.1 hreaches.last
  exact ⟨row, hperm.mem_iff.1 (List.mem_of_getLast? hrow), hv⟩

variable [DecidableEq ν]

/-- A walk leaves a state at most as often as it has arrived there, but for its start. -/
theorem countP_src_le (h : rows.IsChain fun a b => src b = some (dst a)) :
    rows.countP (fun row => src row = some x) ≤
      rows.countP (fun row => dst row = x) + if rows.head?.any (fun row => src row = some x) then 1
        else 0 := by
  induction rows with
  | nil => simp
  | cons first rest ih =>
      have hrest := ih h.tail
      have hnext : rest.head?.any (fun row => src row = some x) = true → dst first = x := by
        intro hany
        cases rest with
        | nil => cases hany
        | cons next rest =>
            have hchain := (List.isChain_cons_cons.1 h).1
            have hsrc : src next = some x := by simpa using hany
            exact Option.some.inj (hchain.symm.trans hsrc)
      simp only [List.countP_cons, List.head?_cons, Option.any_some, decide_eq_true_eq]
      by_cases hany : rest.head?.any (fun row => src row = some x) = true
      · simp only [hany, hnext hany, if_true] at hrest ⊢
        omega
      · simp only [hany] at hrest
        by_cases hdst : dst first = x <;> simp only [hdst, if_true, if_false] <;> simp at hrest <;>
          omega

/-- Rows of which one has no source leave a state at most as often as they arrive there. -/
theorem Orderable.countP_src_le (h : Orderable src dst rows v)
    (hstart : ∃ row ∈ rows, src row = none) :
    rows.countP (fun row => src row = some x) ≤ rows.countP (fun row => dst row = x) := by
  obtain ⟨ordered, hperm, hreaches⟩ := h
  obtain ⟨start, hmem, hnone⟩ := hstart
  rw [← hperm.countP_eq, ← hperm.countP_eq]
  have hhead : ordered.head? = some start := by
    obtain ⟨before, after, rfl⟩ := List.append_of_mem (hperm.mem_iff.2 hmem)
    rcases List.eq_nil_or_concat before with rfl | ⟨before, last, rfl⟩
    · rfl
    · obtain ⟨-, -, hjoin⟩ := List.isChain_append.1 hreaches.chain
      have hsrc := hjoin last (by simp) start (by simp)
      rw [hnone] at hsrc
      cases hsrc
  have hle := Walks.countP_src_le (x := x) hreaches.chain
  simpa [hhead, hnone] using hle

end Walks
