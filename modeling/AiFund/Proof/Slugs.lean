import AiFund.Domain.Rules
import AiFund.Library.Tokens

/-!
# Dossier slugs

A slug is the runs of `[a-z0-9]` in the lowered exchange and ticker, joined by underscores. The
runs can be read off it again, so two equities share a slug exactly if they share their runs.
-/

namespace AiFund

open Tokens

variable {text : List Char} {inRun : Bool}

/-- The maximal runs of `[a-z0-9]` in the text that a slug is computed from. -/
def slugRuns (lower : String → String) (exchange ticker : String) : List (List Char) :=
  runs isSlugChar (lower (exchange ++ "_" ++ ticker)).toList

/-- The substitution and the strip on their own. -/
def collapseAndStrip (text : String) : String :=
  String.ofList (stripUnderscores (subNonAlnum false text.toList))

/-- The text is its own slug: its characters are in `[a-z0-9_]`, and there is no underscore at
either end and no two in a row. -/
structure SlugForm (slug : String) : Prop where
  chars : ∀ c ∈ slug.toList, isSlugChar c = true ∨ c = '_'
  leading : slug.toList.head? ≠ some '_'
  trailing : slug.toList.getLast? ≠ some '_'
  doubled : slug.toList.IsChain fun a b => ¬ (a = '_' ∧ b = '_')
  fixed : collapseAndStrip slug = slug

theorem isSlugChar_underscore : isSlugChar '_' = false := by decide

theorem subNonAlnum_eq : subNonAlnum inRun text = collapse isSlugChar '_' inRun text := by
  induction text generalizing inRun with
  | nil => rfl
  | cons c rest ih =>
      unfold subNonAlnum collapse
      simp only [ih]

theorem stripUnderscores_subNonAlnum (text : List Char) :
    stripUnderscores (subNonAlnum false text) = ['_'].intercalate (runs isSlugChar text) := by
  rw [subNonAlnum_eq]
  exact strip_collapse isSlugChar_underscore text

/-- Joined runs are in slug form. -/
theorem slugForm_join {tokens : List (List Char)} (h : Words isSlugChar tokens) :
    SlugForm (String.ofList (['_'].intercalate tokens)) where
  chars c hc := by
    rw [String.toList_ofList] at hc
    exact h.mem_join hc
  leading hhead := by
    rw [String.toList_ofList] at hhead
    exact Bool.false_ne_true (isSlugChar_underscore.symm.trans (h.ends.1 _ hhead))
  trailing hlast := by
    rw [String.toList_ofList] at hlast
    exact Bool.false_ne_true (isSlugChar_underscore.symm.trans (h.ends.2 _ hlast))
  doubled := by
    rw [String.toList_ofList]
    exact h.isChain_join isSlugChar_underscore
  fixed := by
    rw [collapseAndStrip, String.toList_ofList, stripUnderscores_subNonAlnum,
      h.runs_join isSlugChar_underscore]

/-- A slug is the maximal runs joined by underscores; it is in slug form, and it determines the
runs. -/
theorem computeDossierSlug_runs (lower : String → String)
    (exchange ticker exchange' ticker' : String) :
    Cuts isSlugChar (lower (exchange ++ "_" ++ ticker)).toList (slugRuns lower exchange ticker) ∧
      computeDossierSlug lower exchange ticker =
        String.ofList (['_'].intercalate (slugRuns lower exchange ticker)) ∧
      SlugForm (computeDossierSlug lower exchange ticker) ∧
      (computeDossierSlug lower exchange ticker = computeDossierSlug lower exchange' ticker' ↔
        slugRuns lower exchange ticker = slugRuns lower exchange' ticker') := by
  have heq (exchange ticker : String) : computeDossierSlug lower exchange ticker =
      String.ofList (['_'].intercalate (slugRuns lower exchange ticker)) :=
    congrArg String.ofList (stripUnderscores_subNonAlnum _)
  have hwords (exchange ticker : String) : Words isSlugChar (slugRuns lower exchange ticker) :=
    (cuts_runs _).words
  refine ⟨cuts_runs _, heq exchange ticker, ?_, ?_⟩
  · rw [heq]
    exact slugForm_join (hwords exchange ticker)
  · rw [heq, heq, String.ofList_inj]
    exact (hwords exchange ticker).join_inj isSlugChar_underscore (hwords exchange' ticker')

example : computeDossierSlug String.toLower "HK EX" "0700.HK" = "hk_ex_0700_hk" := by
  decide +kernel

end AiFund
