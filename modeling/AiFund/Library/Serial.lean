import AiFund.Library.ReadCommitted

/-!
# Serial schedules

A transaction that is scheduled without a break leaves what it leaves when it runs alone, so a
schedule that takes the transactions in turn leaves what they leave one after another.
-/

namespace ReadCommitted.World

open History

variable {σ κ α : Type} [RowStore σ κ] {w : World σ κ α} {i : Nat} {order : List Nat}

/-- Transaction `i` runs to its end without interference. -/
def alone (w : World σ κ α) (i : Nat) : World σ κ α :=
  match w.parties[i]? with
  | some (.active script l) =>
      match script.eval (l.pending w.store) with
      | some (a, s) => ⟨s, w.parties.set i (.committed a)⟩
      | none => w.put i .rolledBack
  | _ => w

/-- No transaction that is still at work has done anything yet. -/
def Unstarted (w : World σ κ α) : Prop :=
  ∀ (j : Nat) (script : Script σ κ α) (l : Local σ κ),
    w.parties[j]? = some (.active script l) → l = .start

theorem alone_of_active {script : Script σ κ α} {l : Local σ κ}
    (h : w.parties[i]? = some (.active script l)) :
    w.alone i =
      match script.eval (l.pending w.store) with
      | some (a, s) => ⟨s, w.parties.set i (.committed a)⟩
      | none => w.put i .rolledBack := by
  unfold alone
  rw [h]

theorem alone_put {script : Script σ κ α} {l : Local σ κ} (hi : i < w.parties.length) :
    (w.put i (.active script l)).alone i =
      match script.eval (l.pending w.store) with
      | some (a, s) => ⟨s, w.parties.set i (.committed a)⟩
      | none => w.put i .rolledBack := by
  have hput : (w.put i (.active script l)).parties[i]? = some (.active script l) :=
    List.getElem?_set_self hi
  rw [alone_of_active hput]
  simp only [put, List.set_set]

theorem alone_parties_of_ne {j : Nat} (h : j ≠ i) :
    (w.alone i).parties[j]? = w.parties[j]? := by
  unfold alone
  split
  · split
    · exact List.getElem?_set_ne (Ne.symm h)
    · exact List.getElem?_set_ne (Ne.symm h)
  · rfl

/-- What has been run to its end is no longer at work. -/
theorem not_active_alone {script : Script σ κ α} {l : Local σ κ} :
    (w.alone i).parties[i]? ≠ some (.active script l) := by
  intro hactive
  unfold alone at hactive
  split at hactive
  · rename_i found l' hfound
    have hi : i < w.parties.length := (List.getElem?_eq_some_iff.1 hfound).1
    split at hactive
    · rw [List.getElem?_set_self hi] at hactive
      cases hactive
    · rw [put, List.getElem?_set_self hi] at hactive
      cases hactive
  · rename_i hother
    exact hother _ _ hactive

theorem Unstarted.alone (h : w.Unstarted) : (w.alone i).Unstarted := by
  intro j script l hj
  by_cases hji : j = i
  · subst hji
    exact absurd hj not_active_alone
  · rw [alone_parties_of_ne hji] at hj
    exact h j script l hj

theorem unstarted_start {s : σ} {scripts : List (Script σ κ α)} :
    (World.start s scripts).Unstarted := by
  intro j script l hj
  obtain ⟨found, -, hfound⟩ := List.mem_map.1 (List.mem_of_getElem? hj)
  cases hfound
  rfl

variable [DecidableEq κ]

/-- The other transactions hold no row. -/
def Idle (w : World σ κ α) (i : Nat) : Prop := ∀ k, w.heldByOther i k = false

theorem Idle.put {party : Party σ κ α} (h : w.Idle i) : (w.put i party).Idle i := by
  intro k
  have hk := h k
  rw [heldByOther, List.any_eq_false] at hk ⊢
  rintro ⟨other, j⟩ hmem
  rw [List.mem_zipIdx_iff_getElem?] at hmem
  by_cases hji : j = i
  · simp [hji]
  · rw [World.put, List.getElem?_set_ne (Ne.symm hji)] at hmem
    exact hk (other, j) (List.mem_zipIdx_iff_getElem?.2 hmem)

theorem Unstarted.idle (h : w.Unstarted) : w.Idle i := by
  intro k
  rw [heldByOther, List.any_eq_false]
  rintro ⟨party, j⟩ hmem
  rw [List.mem_zipIdx_iff_getElem?] at hmem
  cases party with
  | active script l =>
      rw [h j script l hmem]
      simp [Party.holds, Local.start]
  | committed a => simp [Party.holds]
  | rolledBack => simp [Party.holds]

/-- A statement that need not wait takes a step. -/
theorem step_exec {statement : σ → Option (Write σ κ)} {next : Script σ κ α} {l : Local σ κ}
    {write : Write σ κ} (hidle : w.Idle i)
    (h : w.parties[i]? = some (.active (.exec statement next) l))
    (hwrite : statement (l.visible w.store) = some write) :
    w.step i = w.put i (.active next (l.wrote write)) := by
  have hfree : (write.waits ++ write.takes).any (w.heldByOther i) = false := by
    rw [List.any_eq_false]
    intro k _
    rw [hidle k]
    exact Bool.false_ne_true
  simp only [World.step, h, hwrite, hfree]
  rfl

/-- If the transaction can go on alone once it has taken a step, it can go on alone. -/
theorem exists_run_of_step {script : Script σ κ α} {l : Local σ κ} {w' : World σ κ α}
    (hi : i < w.parties.length) (hstep : w.step i = w.put i (.active script l))
    (h : ∃ n, (w.put i (.active script l)).run (List.replicate n i) =
      (w.put i (.active script l)).alone i)
    (halone : (match script.eval (l.pending w.store) with
      | some (a, s) => ⟨s, w.parties.set i (.committed a)⟩
      | none => w.put i .rolledBack) = w') :
    ∃ n, w.run (List.replicate n i) = w' := by
  obtain ⟨n, hn⟩ := h
  refine ⟨n + 1, ?_⟩
  rw [List.replicate_succ]
  change (w.step i).run (List.replicate n i) = w'
  rw [hstep, hn, alone_put hi, halone]

theorem exists_run_active {script : Script σ κ α} {l : Local σ κ} (hidle : w.Idle i)
    (h : w.parties[i]? = some (.active script l)) :
    ∃ n, w.run (List.replicate n i) = w.alone i := by
  have hi : i < w.parties.length := (List.getElem?_eq_some_iff.1 h).1
  have hput (party : Party σ κ α) : (w.put i party).parties[i]? = some party :=
    List.getElem?_set_self hi
  induction script generalizing w l with
  | done a =>
      refine ⟨1, ?_⟩
      simp [World.run, World.step, alone, h, Script.eval]
  | fail =>
      refine ⟨1, ?_⟩
      simp [World.run, World.step, alone, h, Script.eval]
  | query next ih =>
      have hstep : w.step i = w.put i (.active (next (l.visible w.store)) (l.saw w.store)) := by
        simp [World.step, h]
      refine exists_run_of_step hi hstep (ih _ hidle.put (hput _) ?_ ?_) (alone_of_active h).symm
      · simpa [World.put] using hi
      · intro party
        exact List.getElem?_set_self (by simpa [World.put] using hi)
  | exec statement next ih =>
      rw [alone_of_active h]
      cases hwrite : statement (l.pending w.store) with
      | none =>
          refine ⟨1, ?_⟩
          have hrefused : statement (l.visible w.store) = none := hwrite
          simp [World.run, World.step, h, Script.eval, hrefused, hwrite]
      | some write =>
          refine exists_run_of_step hi (step_exec hidle h hwrite) (ih hidle.put (hput _) ?_ ?_) ?_
          · simpa [World.put] using hi
          · intro party
            exact List.getElem?_set_self (by simpa [World.put] using hi)
          · simp only [Script.eval, hwrite, Option.bind_some]
            rfl

/-- A transaction whose rows nobody holds gets to its end in some number of steps. -/
theorem exists_run_alone (hidle : w.Idle i) :
    ∃ n, w.run (List.replicate n i) = w.alone i := by
  cases hparty : w.parties[i]? with
  | none => exact ⟨0, by simp [World.run, alone, hparty]⟩
  | some party =>
      cases party with
      | committed a => exact ⟨0, by simp [World.run, alone, hparty]⟩
      | rolledBack => exact ⟨0, by simp [World.run, alone, hparty]⟩
      | active script l => exact exists_run_active hidle hparty

/-- Transactions that have not begun can be scheduled one after another. -/
theorem exists_run_serial (h : w.Unstarted) (horder : order.Nodup) :
    ∃ steps : Nat → Nat, w.run (order.flatMap fun i => List.replicate (steps i) i) =
      order.foldl World.alone w := by
  induction order generalizing w with
  | nil => exact ⟨fun _ => 0, rfl⟩
  | cons i rest ih =>
      obtain ⟨hnew, hrest⟩ := List.nodup_cons.1 horder
      obtain ⟨n, hn⟩ := exists_run_alone (i := i) h.idle
      obtain ⟨steps, hsteps⟩ := ih h.alone hrest
      refine ⟨fun j => if j = i then n else steps j, ?_⟩
      have hblocks : (rest.flatMap fun j => List.replicate (if j = i then n else steps j) j) =
          rest.flatMap fun j => List.replicate (steps j) j := by
        refine List.flatMap_congr fun j hj => ?_
        have hne : j ≠ i := fun heq => hnew (heq ▸ hj)
        rw [if_neg hne]
      simp only [List.flatMap_cons, if_true, hblocks]
      calc
        w.run (List.replicate n i ++ rest.flatMap fun j => List.replicate (steps j) j) =
            (w.run (List.replicate n i)).run (rest.flatMap fun j => List.replicate (steps j) j) :=
          run_append _
        _ = (w.alone i).run (rest.flatMap fun j => List.replicate (steps j) j) := by rw [hn]
        _ = rest.foldl World.alone (w.alone i) := hsteps

end ReadCommitted.World
