import Mathlib.Data.List.Chain
import Mathlib.Data.List.DropRight

/-!
# Runs of a list

The maximal runs of the elements that satisfy a predicate, and the text in which whatever stands
between two runs has collapsed to one separator. Stripped of separators at both ends, that text is
the runs joined by the separator, and the runs can be read off it again.
-/

namespace Tokens

variable {α : Type} {p : α → Bool} {sep : α} {text run : List α} {tokens tokens' : List (List α)}

/-- The maximal runs of elements that satisfy `p`, in order. -/
def runs (p : α → Bool) : List α → List (List α)
  | [] => []
  | a :: rest =>
      if p a then
        if rest.head?.any p then (runs p rest).modifyHead (a :: ·) else [a] :: runs p rest
      else runs p rest

/-- Replace everything between the runs by one separator; `inGap` says that the gap before the
first element has already left its separator. -/
def collapse (p : α → Bool) (sep : α) (inGap : Bool) : List α → List α
  | [] => []
  | a :: rest =>
      if p a then a :: collapse p sep false rest
      else if inGap then collapse p sep true rest
      else sep :: collapse p sep true rest

/-- Drop at both ends what satisfies `q`. -/
def strip (q : α → Bool) (text : List α) : List α := (text.dropWhile q).rdropWhile q

/-! ## Maximal runs -/

/-- The text is cut into gaps and the tokens: a token is a run that cannot be made longer. -/
inductive Cuts (p : α → Bool) : List α → List (List α) → Prop where
  | nil {gap : List α} (hgap : ∀ a ∈ gap, p a = false) : Cuts p gap []
  | cons {gap run rest : List α} {tokens : List (List α)} (hgap : ∀ a ∈ gap, p a = false)
      (hrun : ∀ a ∈ run, p a = true) (hne : run ≠ []) (hmax : ∀ a ∈ rest.head?, p a = false)
      (hrest : Cuts p rest tokens) : Cuts p (gap ++ (run ++ rest)) (run :: tokens)

/-- The tokens are not empty, and consist of elements that satisfy `p`. -/
def Words (p : α → Bool) (tokens : List (List α)) : Prop :=
  ∀ run ∈ tokens, run ≠ [] ∧ ∀ a ∈ run, p a = true

theorem Cuts.words (h : Cuts p text tokens) : Words p tokens := by
  induction h with
  | nil => exact List.forall_mem_nil _
  | cons _ hrun hne _ _ ih => exact List.forall_mem_cons.2 ⟨⟨hne, hrun⟩, ih⟩

theorem runs_gap {gap rest : List α} (hgap : ∀ a ∈ gap, p a = false) :
    runs p (gap ++ rest) = runs p rest := by
  induction gap with
  | nil => rfl
  | cons a gap ih =>
      rw [List.forall_mem_cons] at hgap
      rw [List.cons_append, runs, hgap.1, if_neg Bool.false_ne_true, ih hgap.2]

theorem runs_run {rest : List α} (hrun : ∀ a ∈ run, p a = true) (hne : run ≠ [])
    (hmax : ∀ a ∈ rest.head?, p a = false) : runs p (run ++ rest) = run :: runs p rest := by
  induction run with
  | nil => exact absurd rfl hne
  | cons a run ih =>
      rw [List.forall_mem_cons] at hrun
      rw [List.cons_append, runs, if_pos hrun.1]
      cases run with
      | nil =>
          have hstop : ¬ rest.head?.any p = true := by
            rw [Option.any_eq_true]
            rintro ⟨b, hb, hpb⟩
            rw [hmax b hb] at hpb
            cases hpb
          rw [List.nil_append, if_neg hstop]
      | cons b run =>
          have hgoes : ((b :: run) ++ rest).head?.any p = true := hrun.2 b List.mem_cons_self
          rw [if_pos hgoes, ih hrun.2 (List.cons_ne_nil b run), List.modifyHead_cons]

/-- There is only one way to cut a text. -/
theorem Cuts.eq_runs (h : Cuts p text tokens) : tokens = runs p text := by
  induction h with
  | nil hgap =>
      have hnone : runs p (_ ++ []) = runs p [] := runs_gap hgap
      rw [List.append_nil] at hnone
      exact hnone.symm
  | cons hgap hrun hne hmax _ ih => rw [runs_gap hgap, runs_run hrun hne hmax, ih]

theorem Cuts.skip {a : α} (ha : p a = false) (h : Cuts p text tokens) :
    Cuts p (a :: text) tokens := by
  cases h with
  | nil hgap => exact .nil (List.forall_mem_cons.2 ⟨ha, hgap⟩)
  | cons hgap hrun hne hmax hrest =>
      exact .cons (List.forall_mem_cons.2 ⟨ha, hgap⟩) hrun hne hmax hrest

theorem Cuts.token {rest : List α} (hrun : ∀ a ∈ run, p a = true) (hne : run ≠ [])
    (hmax : ∀ a ∈ rest.head?, p a = false) (hrest : Cuts p rest tokens) :
    Cuts p (run ++ rest) (run :: tokens) :=
  .cons (List.forall_mem_nil _) hrun hne hmax hrest

/-- Every text is cut into its runs. -/
theorem cuts_runs (text : List α) : Cuts p text (runs p text) := by
  induction text with
  | nil => exact .nil (List.forall_mem_nil _)
  | cons a rest ih =>
      unfold runs
      split_ifs with ha hgoes
      · -- The run at the head of the rest has no gap before it, and grows by one.
        generalize hruns : runs p rest = tokens at ih
        cases ih with
        | nil hgap =>
            obtain ⟨b, hb, hpb⟩ := (Option.any_eq_true _ _).1 hgoes
            rw [hgap b (List.mem_of_mem_head? hb)] at hpb
            cases hpb
        | @cons gap run rest tokens hgap hrun hne hmax hrest =>
            cases gap with
            | nil =>
                exact .token (List.forall_mem_cons.2 ⟨ha, hrun⟩) (List.cons_ne_nil a run) hmax hrest
            | cons b gap =>
                have hb : p b = true := hgoes
                rw [hgap b List.mem_cons_self] at hb
                cases hb
      · refine .token (List.forall_mem_singleton.2 ha) (List.cons_ne_nil a []) (fun b hb => ?_) ih
        by_contra hpb
        exact hgoes ((Option.any_eq_true _ _).2 ⟨b, hb, by simpa using hpb⟩)
      · exact ih.skip (Bool.eq_false_iff.2 ha)

/-! ## Joined runs -/

theorem join_ne_nil (h : Words p (run :: tokens)) : [sep].intercalate (run :: tokens) ≠ [] := by
  have hne := (h run List.mem_cons_self).1
  cases tokens with
  | nil => rwa [List.intercalate_singleton]
  | cons t tokens =>
      rw [List.intercalate_cons_cons]
      simp [hne]

/-- A joined text starts and ends in a token. -/
theorem Words.ends (h : Words p tokens) :
    (∀ a ∈ ([sep].intercalate tokens).head?, p a = true) ∧
      ∀ a ∈ ([sep].intercalate tokens).getLast?, p a = true := by
  induction tokens with
  | nil => exact ⟨nofun, nofun⟩
  | cons run tokens ih =>
      obtain ⟨⟨hne, hrun⟩, hrest⟩ := List.forall_mem_cons.1 h
      cases tokens with
      | nil =>
          rw [List.intercalate_singleton]
          exact ⟨fun a ha => hrun a (List.mem_of_mem_head? ha),
            fun a ha => hrun a (List.mem_of_mem_getLast? ha)⟩
      | cons t tokens =>
          rw [List.intercalate_cons_cons, List.append_assoc]
          constructor
          · intro a ha
            rw [List.head?_append_of_ne_nil _ hne] at ha
            exact hrun a (List.mem_of_mem_head? ha)
          · intro a ha
            rw [← List.append_assoc, List.getLast?_append_of_ne_nil _ (join_ne_nil hrest)] at ha
            exact (ih hrest).2 a ha

theorem Words.mem_join {a : α} (h : Words p tokens) (ha : a ∈ [sep].intercalate tokens) :
    p a = true ∨ a = sep := by
  induction tokens with
  | nil => cases ha
  | cons run tokens ih =>
      obtain ⟨⟨-, hrun⟩, hrest⟩ := List.forall_mem_cons.1 h
      cases tokens with
      | nil =>
          rw [List.intercalate_singleton] at ha
          exact .inl (hrun a ha)
      | cons t tokens =>
          rw [List.intercalate_cons_cons, List.append_assoc, List.mem_append, List.mem_append,
            List.mem_singleton] at ha
          rcases ha with ha | ha | ha
          · exact .inl (hrun a ha)
          · exact .inr ha
          · exact ih hrest ha

/-- Joined tokens are cut where they were joined. -/
theorem Words.cuts (hsep : p sep = false) (h : Words p tokens) :
    Cuts p ([sep].intercalate tokens) tokens := by
  induction tokens with
  | nil => exact .nil (List.forall_mem_nil _)
  | cons run tokens ih =>
      obtain ⟨⟨hne, hrun⟩, hrest⟩ := List.forall_mem_cons.1 h
      cases tokens with
      | nil =>
          have hcuts : Cuts p (run ++ []) [run] :=
            .token hrun hne nofun (.nil (List.forall_mem_nil _))
          rw [List.append_nil] at hcuts
          rwa [List.intercalate_singleton]
      | cons t tokens =>
          rw [List.intercalate_cons_cons, List.append_assoc]
          refine .token hrun hne (fun a ha => ?_) ((ih hrest).skip hsep)
          obtain rfl : sep = a := by simpa using ha
          exact hsep

theorem Words.runs_join (hsep : p sep = false) (h : Words p tokens) :
    runs p ([sep].intercalate tokens) = tokens :=
  (h.cuts hsep).eq_runs.symm

theorem Words.join_inj (hsep : p sep = false) (h : Words p tokens) (h' : Words p tokens') :
    [sep].intercalate tokens = [sep].intercalate tokens' ↔ tokens = tokens' := by
  constructor
  · intro hjoin
    rw [← h.runs_join hsep, hjoin, h'.runs_join hsep]
  · rintro rfl
    rfl

/-- No two separators stand side by side in a joined text. -/
theorem Words.isChain_join (hsep : p sep = false) (h : Words p tokens) :
    ([sep].intercalate tokens).IsChain fun a b => ¬ (a = sep ∧ b = sep) := by
  have hne {a : α} (ha : p a = true) : a ≠ sep := by
    rintro rfl
    rw [hsep] at ha
    cases ha
  induction tokens with
  | nil => exact List.isChain_nil
  | cons run tokens ih =>
      obtain ⟨-, hrun⟩ := h run List.mem_cons_self
      have hrest : Words p tokens := fun l hl => h l (List.mem_cons_of_mem _ hl)
      have hchain : run.IsChain fun a b => ¬ (a = sep ∧ b = sep) :=
        (List.pairwise_of_forall_mem_list fun a ha b _ (hboth : a = sep ∧ b = sep) =>
          hne (hrun a ha) hboth.1).isChain
      cases tokens with
      | nil => rwa [List.intercalate_singleton]
      | cons t tokens =>
          rw [List.intercalate_cons_cons, List.append_assoc, List.isChain_append]
          refine ⟨hchain, ?_, fun a ha _ _ hboth => ?_⟩
          · rw [List.isChain_append]
            refine ⟨List.isChain_singleton _, ih hrest, fun _ _ b hb hboth => ?_⟩
            exact hne (hrest.ends.1 b hb) hboth.2
          · exact hne (hrun a (List.mem_of_mem_getLast? ha)) hboth.1

/-! ## Collapsed texts -/

theorem collapse_inGap {gap rest : List α} (hgap : ∀ a ∈ gap, p a = false) :
    collapse p sep true (gap ++ rest) = collapse p sep true rest := by
  induction gap with
  | nil => rfl
  | cons a gap ih =>
      rw [List.forall_mem_cons] at hgap
      rw [List.cons_append, collapse, hgap.1, if_neg Bool.false_ne_true, if_pos rfl, ih hgap.2]

theorem collapse_gap {a : α} {gap rest : List α} (hgap : ∀ b ∈ a :: gap, p b = false) :
    collapse p sep false (a :: gap ++ rest) = sep :: collapse p sep true rest := by
  rw [List.forall_mem_cons] at hgap
  rw [List.cons_append, collapse, hgap.1, if_neg Bool.false_ne_true, if_neg Bool.false_ne_true,
    collapse_inGap hgap.2]

theorem collapse_run {inGap : Bool} {rest : List α} (hrun : ∀ a ∈ run, p a = true)
    (hne : run ≠ []) :
    collapse p sep inGap (run ++ rest) = run ++ collapse p sep false rest := by
  induction run generalizing inGap with
  | nil => exact absurd rfl hne
  | cons a run ih =>
      rw [List.forall_mem_cons] at hrun
      rw [List.cons_append, collapse, if_pos hrun.1, List.cons_append]
      cases run with
      | nil => rfl
      | cons b run => rw [ih hrun.2 (List.cons_ne_nil b run)]

/-- A collapsed text is the joined tokens, with a separator at most on either side. -/
theorem Cuts.collapse_eq (h : Cuts p text tokens) :
    ∃ lead trail, collapse p sep false text = lead ++ [sep].intercalate tokens ++ trail ∧
      (lead = [] ∨ lead = [sep]) ∧ (trail = [] ∨ trail = [sep]) ∧ (tokens = [] → trail = []) ∧
        ((∀ a ∈ text.head?, p a = false) → tokens ≠ [] → lead = [sep]) := by
  induction h with
  | @nil gap hgap =>
      cases gap with
      | nil => exact ⟨[], [], rfl, .inl rfl, .inl rfl, fun _ => rfl, fun _ h => absurd rfl h⟩
      | cons a gap =>
          have hall : collapse p sep false (a :: gap ++ []) = [sep] := collapse_gap hgap
          rw [List.append_nil] at hall
          exact ⟨[sep], [], hall, .inr rfl, .inl rfl, fun _ => rfl, fun _ _ => rfl⟩
  | @cons gap run rest tokens hgap hrun hne hmax hrest ih =>
      have hafter : ∃ trail, run ++ collapse p sep false rest =
          [sep].intercalate (run :: tokens) ++ trail ∧ (trail = [] ∨ trail = [sep]) := by
        obtain ⟨lead, trail, hall, hlead, htrail, hnil, hstarts⟩ := ih
        rw [hall]
        cases tokens with
        | nil =>
            refine ⟨lead, ?_, hlead⟩
            rw [hnil rfl, List.intercalate_singleton, List.intercalate_nil, List.append_nil,
              List.append_nil]
        | cons t tokens =>
            refine ⟨trail, ?_, htrail⟩
            rw [hstarts hmax (List.cons_ne_nil t tokens), List.intercalate_cons_cons]
            simp only [List.append_assoc]
      obtain ⟨trail, hafter, htrail⟩ := hafter
      cases gap with
      | nil =>
          refine ⟨[], trail, ?_, .inl rfl, htrail, nofun, fun hstarts _ => ?_⟩
          · rw [List.nil_append, collapse_run hrun hne, hafter, List.nil_append]
          · cases run with
            | nil => exact absurd rfl hne
            | cons a run =>
                have ha := hstarts a rfl
                rw [hrun a List.mem_cons_self] at ha
                cases ha
      | cons a gap =>
          refine ⟨[sep], trail, ?_, .inr rfl, htrail, nofun, fun _ _ => rfl⟩
          rw [collapse_gap hgap, collapse_run hrun hne, hafter, List.append_assoc]
          rfl

theorem strip_pad {q : α → Bool} {lead trail : List α} (hlead : ∀ a ∈ lead, q a = true)
    (htrail : ∀ a ∈ trail, q a = true) (hhead : ∀ a ∈ text.head?, q a = false)
    (hlast : ∀ a ∈ text.getLast?, q a = false) : strip q (lead ++ text ++ trail) = text := by
  unfold strip
  rw [List.append_assoc, List.dropWhile_append_of_pos hlead]
  cases text with
  | nil =>
      rw [List.nil_append, List.dropWhile_eq_nil_iff.2 htrail]
      rfl
  | cons a rest =>
      have hdrop : (a :: rest ++ trail).dropWhile q = a :: rest ++ trail := by
        rw [List.cons_append, List.dropWhile_cons, hhead a rfl, if_neg Bool.false_ne_true]
      rw [hdrop, List.rdropWhile, List.reverse_append,
        List.dropWhile_append_of_pos fun b hb => htrail b (List.mem_reverse.1 hb)]
      refine List.rdropWhile_eq_self_iff.2 fun hne => ?_
      rw [hlast _ (List.getLast?_eq_some_getLast hne)]
      exact Bool.false_ne_true

/-- A text collapsed and stripped is its runs, joined. -/
theorem strip_collapse [DecidableEq α] (hsep : p sep = false) (text : List α) :
    strip (fun a => decide (a = sep)) (collapse p sep false text) =
      [sep].intercalate (runs p text) := by
  obtain ⟨lead, trail, hall, hlead, htrail, -, -⟩ :=
    @Cuts.collapse_eq _ p sep _ _ (cuts_runs text)
  have hwords := (cuts_runs (p := p) text).words
  have hpad {l : List α} (h : l = [] ∨ l = [sep]) (a : α) (ha : a ∈ l) :
      decide (a = sep) = true := by
    rcases h with rfl | rfl
    · cases ha
    · exact decide_eq_true (List.mem_singleton.1 ha)
  have hends {a : α} (ha : p a = true) : decide (a = sep) = false := by
    refine decide_eq_false ?_
    rintro rfl
    rw [hsep] at ha
    cases ha
  rw [hall]
  exact strip_pad (hpad hlead) (hpad htrail) (fun a ha => hends (hwords.ends.1 a ha))
    fun a ha => hends (hwords.ends.2 a ha)

end Tokens
