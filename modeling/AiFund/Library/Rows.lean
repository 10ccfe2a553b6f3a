import Mathlib.Data.List.Perm.Basic
import Mathlib.Data.List.Sort
import Mathlib.Tactic.Abel

/-!
# Tables

A table is a list of rows, the key of a row its position. A query that names no order returns the
matching rows in any order the store likes: a `RowOrder` is one such choice.
-/

namespace Rows

variable {ρ : Type} {rows : List ρ} {p : ρ → Bool} {id : Nat} {row : ρ}

/-- The keys of the rows that satisfy `p`. -/
def ids (p : ρ → Bool) (rows : List ρ) : List Nat :=
  (List.range rows.length).filter fun id => rows[id]?.any p

theorem mem_ids : id ∈ ids p rows ↔ ∃ row, rows[id]? = some row ∧ p row = true := by
  simp only [ids, List.mem_filter, List.mem_range, Option.any_eq_true]
  constructor
  · rintro ⟨-, row, hrow, hp⟩
    exact ⟨row, hrow, hp⟩
  · rintro ⟨row, hrow, hp⟩
    exact ⟨(List.getElem?_eq_some_iff.1 hrow).1, row, hrow, hp⟩

theorem nodup_ids : (ids p rows).Nodup := List.Nodup.filter _ List.nodup_range

/-- Every row that a fallible map returns comes from the row in its place. -/
theorem of_getElem?_mapM {α β ε : Type} {f : α → Except ε β} {l : List α} {result : List β}
    (h : l.mapM f = .ok result) {i : Nat} {y : β} (hy : result[i]? = some y) :
    ∃ x, l[i]? = some x ∧ f x = .ok y := by
  induction l generalizing result i with
  | nil =>
      rw [List.mapM_nil] at h
      cases h
      simp at hy
  | cons first rest ih =>
      rw [List.mapM_cons] at h
      cases hfirst : f first with
      | error error =>
          rw [hfirst] at h
          cases h
      | ok b =>
          cases hrest : rest.mapM f with
          | error error =>
              rw [hfirst, hrest] at h
              cases h
          | ok bs =>
              rw [hfirst, hrest] at h
              cases h
              cases i with
              | zero =>
                  obtain rfl : b = y := by simpa using hy
                  exact ⟨first, rfl, hfirst⟩
              | succ i => exact ih hrest hy

theorem of_mem_mapM {α β ε : Type} {f : α → Except ε β} {l : List α} {result : List β}
    (h : l.mapM f = .ok result) {y : β} (hy : y ∈ result) : ∃ x ∈ l, f x = .ok y := by
  obtain ⟨i, hi⟩ := List.getElem?_of_mem hy
  obtain ⟨x, hx, hxy⟩ := of_getElem?_mapM h hi
  exact ⟨x, List.mem_of_getElem? hx, hxy⟩

theorem exists_mem_mapM {α β ε : Type} {f : α → Except ε β} {l : List α} {result : List β}
    (h : l.mapM f = .ok result) {x : α} (hx : x ∈ l) : ∃ y ∈ result, f x = .ok y := by
  induction l generalizing result with
  | nil => cases hx
  | cons first rest ih =>
      rw [List.mapM_cons] at h
      cases hfirst : f first with
      | error error =>
          rw [hfirst] at h
          cases h
      | ok b =>
          cases hrest : rest.mapM f with
          | error error =>
              rw [hfirst, hrest] at h
              cases h
          | ok bs =>
              rw [hfirst, hrest] at h
              cases h
              rcases List.mem_cons.1 hx with rfl | hx
              · exact ⟨b, List.mem_cons_self, hfirst⟩
              · obtain ⟨y, hy, hxy⟩ := ih hrest hx
                exact ⟨y, List.mem_cons_of_mem _ hy, hxy⟩

/-- A filter that a column without repetitions tells apart matches one row at most. -/
theorem countP_eq_one {β : Type} {g : ρ → β} (hnodup : (rows.map g).Nodup) (hrow : row ∈ rows)
    (hp : p row = true) (hg : ∀ other ∈ rows, p other = true → g other = g row) :
    rows.countP p = 1 := by
  have hinj := List.inj_on_of_nodup_map hnodup
  have hall : ∀ other ∈ rows.filter p, other = row := by
    intro other hother
    obtain ⟨hmem, hother⟩ := List.mem_filter.1 hother
    exact hinj hmem hrow (hg other hmem hother)
  have hmem : row ∈ rows.filter p := List.mem_filter.2 ⟨hrow, hp⟩
  have hfilter : (rows.filter p).Nodup := (List.Nodup.of_map g hnodup).filter p
  rw [List.eq_replicate_of_mem hall] at hfilter hmem
  have hle := List.nodup_replicate.1 hfilter
  have hpos := List.length_pos_of_mem hmem
  rw [List.length_replicate] at hpos
  rw [List.countP_eq_length_filter]
  omega

theorem all_congr_of_map {κ : Type} {rows' : List ρ} {key : ρ → κ}
    (h : rows.map key = rows'.map key) (p : κ → Bool) :
    (rows.all fun row => p (key row)) = rows'.all fun row => p (key row) := by
  calc
    (rows.all fun row => p (key row)) = (rows.map key).all p := List.all_map.symm
    _ = (rows'.map key).all p := by rw [h]
    _ = rows'.all fun row => p (key row) := List.all_map

theorem map_congr_of_map {κ β : Type} {rows' : List ρ} {key : ρ → κ}
    (h : rows.map key = rows'.map key) (g : κ → β) :
    (rows.map fun row => g (key row)) = rows'.map fun row => g (key row) := by
  have hmap := congrArg (List.map g) h
  rwa [List.map_map, List.map_map] at hmap

section Modify

variable {β : Type} {f : ρ → ρ} {g : ρ → β}

theorem ids_modify (h : ∀ row, rows[id]? = some row → p (f row) = p row) :
    ids p (rows.modify id f) = ids p rows := by
  unfold ids
  rw [List.length_modify]
  refine List.filter_congr fun key _ => ?_
  rw [List.getElem?_modify]
  cases hrow : rows[key]? with
  | none => rfl
  | some row =>
      by_cases hkey : id = key
      · subst hkey
        simp [h row hrow]
      · simp [hkey]

/-- A row after a rewrite is the rewritten row or an old one. -/
theorem getElem?_modify_cases {key : Nat} (h : (rows.modify id f)[key]? = some row) :
    (key = id ∧ ∃ old, rows[id]? = some old ∧ row = f old) ∨
      (key ≠ id ∧ rows[key]? = some row) := by
  rw [List.getElem?_modify] at h
  rcases eq_or_ne id key with rfl | hkey
  · cases hold : rows[id]? with
    | none => simp [hold] at h
    | some old => exact .inl ⟨rfl, old, rfl, by simpa [hold] using h.symm⟩
  · exact .inr ⟨hkey.symm, by simpa [hkey] using h⟩

theorem getElem?_modify_self (h : rows[id]? = some row) : (rows.modify id f)[id]? = some (f row) := by
  simp [h]

theorem getElem?_modify_of_ne {key : Nat} (hkey : key ≠ id) :
    (rows.modify id f)[key]? = rows[key]? := by
  simp [hkey.symm]

theorem map_modify {f' : β → β} (h : ∀ row, g (f row) = f' (g row)) :
    (rows.modify id f).map g = (rows.map g).modify id f' := by
  refine List.ext_getElem? fun key => ?_
  rw [List.getElem?_map, List.getElem?_modify, List.getElem?_modify, List.getElem?_map]
  cases rows[key]? with
  | none => rfl
  | some row => by_cases hkey : id = key <;> simp [hkey, h]

theorem map_modify_of_eq (h : ∀ row, g (f row) = g row) : (rows.modify id f).map g = rows.map g := by
  calc
    (rows.modify id f).map g = (rows.map g).modify id (fun column => column) := map_modify h
    _ = rows.map g := List.modify_id _ _

/-- A row after an insertion at the end is the new row or an old one. -/
theorem getElem?_concat_cases {key : Nat} {new : ρ} (h : (rows ++ [new])[key]? = some row) :
    rows[key]? = some row ∨ (key = rows.length ∧ row = new) := by
  rw [List.getElem?_append] at h
  split at h
  · exact .inl h
  · rw [List.getElem?_singleton] at h
    split_ifs at h with hkey
    exact .inr ⟨by omega, (Option.some.inj h).symm⟩

theorem getElem?_append_of_some {key : Nat} {more : List ρ} (h : rows[key]? = some row) :
    (rows ++ more)[key]? = some row := by
  rw [List.getElem?_append_left (List.getElem?_eq_some_iff.1 h).1, h]

theorem getElem?_of_grown {later : List ρ} {key : Nat} (hgrows : rows <+: later)
    (h : rows[key]? = some row) : later[key]? = some row := by
  obtain ⟨more, rfl⟩ := hgrows
  exact getElem?_append_of_some h

/-- What holds of every row, and of the new row, holds of every row after a rewrite. -/
theorem forall_mem_modify {P : ρ → Prop} (h : ∀ row ∈ rows, P row)
    (hf : ∀ row, P row → P (f row)) : ∀ row ∈ rows.modify id f, P row := by
  intro row hrow
  obtain ⟨key, hkey⟩ := List.getElem?_of_mem hrow
  rw [List.getElem?_modify] at hkey
  cases hold : rows[key]? with
  | none => simp [hold] at hkey
  | some old =>
      have hP := h old (List.mem_of_getElem? hold)
      rw [hold] at hkey
      by_cases hid : id = key
      · obtain rfl : f old = row := by simpa [hid] using hkey
        exact hf old hP
      · obtain rfl : old = row := by simpa [hid] using hkey
        exact hP

/-- Rewriting some rows, each of them once. -/
theorem getElem?_foldl_modify {ids : List Nat} {f : Nat → ρ → ρ} (hnodup : ids.Nodup) :
    (ids.foldl (fun rows id => rows.modify id (f id)) rows)[id]? =
      if id ∈ ids then rows[id]?.map (f id) else rows[id]? := by
  induction ids generalizing rows with
  | nil => rfl
  | cons first rest ih =>
      rw [List.nodup_cons] at hnodup
      rw [List.foldl_cons, ih hnodup.2, List.getElem?_modify]
      rcases eq_or_ne first id with rfl | hid
      · rw [if_neg hnodup.1, if_pos List.mem_cons_self]
        simp
      · have hmem : id ∈ first :: rest ↔ id ∈ rest := by simp [hid.symm]
        simp only [hmem, if_neg hid]
        cases rows[id]? <;> rfl

/-- Rewriting a row without touching the column `g` or the filter leaves the column as it was. -/
theorem map_filter_modify
    (h : ∀ row, rows[id]? = some row → p (f row) = p row ∧ g (f row) = g row) :
    ((rows.modify id f).filter p).map g = (rows.filter p).map g := by
  induction rows generalizing id with
  | nil => rw [List.modify_nil]
  | cons first rest ih =>
      cases id with
      | zero =>
          obtain ⟨hp, hg⟩ := h first rfl
          rw [List.modify_zero_cons, List.filter_cons, List.filter_cons, hp]
          split <;> simp [hg]
      | succ id =>
          have hrest := @ih id h
          rw [List.modify_succ_cons, List.filter_cons, List.filter_cons]
          split <;> simp [hrest]

/-- Rewriting a row out of the filter removes one match. -/
theorem countP_modify (hrow : rows[id]? = some row) (hp : p row = true) (hf : p (f row) = false) :
    (rows.modify id f).countP p + 1 = rows.countP p := by
  induction rows generalizing id with
  | nil => simp at hrow
  | cons first rest ih =>
      cases id with
      | zero =>
          obtain rfl : first = row := by simpa using hrow
          simp [hp, hf]
      | succ id =>
          have hrest := @ih id hrow
          rw [List.modify_succ_cons, List.countP_cons, List.countP_cons]
          omega

/-- Rewriting a row changes the sum of a column by what it changes in that row. -/
theorem sum_modify [AddCommGroup β] (hrow : rows[id]? = some row) (hp : p (f row) = p row) :
    (((rows.modify id f).filter p).map g).sum =
      ((rows.filter p).map g).sum + if p row then g (f row) - g row else 0 := by
  induction rows generalizing id with
  | nil => simp at hrow
  | cons first rest ih =>
      cases id with
      | zero =>
          obtain rfl : first = row := by simpa using hrow
          rw [List.modify_zero_cons, List.filter_cons, List.filter_cons, hp]
          split <;> simp
          abel
      | succ id =>
          have hrest := @ih id hrow
          rw [List.modify_succ_cons, List.filter_cons, List.filter_cons]
          split <;> simp [hrest, add_assoc]

end Modify

/-- The order in which the store happens to return rows. -/
structure RowOrder where
  arrange : List Nat → List Nat
  perm : ∀ keys, (arrange keys).Perm keys

def RowOrder.byKey : RowOrder := ⟨fun keys => keys, fun _ => .rfl⟩

namespace RowOrder

variable (order : RowOrder)

/-- All matches of an unordered query. -/
def all (p : ρ → Bool) (rows : List ρ) : List Nat := order.arrange (ids p rows)

/-- The first match of an unordered query. -/
def first (p : ρ → Bool) (rows : List ρ) : Option Nat := (order.all p rows).head?

theorem mem_all : id ∈ order.all p rows ↔ ∃ row, rows[id]? = some row ∧ p row = true :=
  (order.perm _).mem_iff.trans mem_ids

theorem nodup_all : (order.all p rows).Nodup := (order.perm _).nodup_iff.2 nodup_ids

theorem of_first (h : order.first p rows = some id) : ∃ row, rows[id]? = some row ∧ p row = true :=
  order.mem_all.1 (List.mem_of_mem_head? h)

theorem first_eq_none : order.first p rows = none ↔ ∀ row ∈ rows, p row = false := by
  simp only [first, List.head?_eq_none_iff]
  constructor
  · intro h row hrow
    obtain ⟨id, hid⟩ := List.getElem?_of_mem hrow
    by_contra hp
    have : id ∈ order.all p rows := order.mem_all.2 ⟨row, hid, by simpa using hp⟩
    simp [h] at this
  · intro h
    refine List.eq_nil_iff_forall_not_mem.2 fun id hid => ?_
    obtain ⟨row, hrow, hp⟩ := order.mem_all.1 hid
    simp [h row (List.mem_of_getElem? hrow)] at hp

end RowOrder

end Rows
