import AiFund.Domain.Values
import Mathlib.Data.List.Sort

/-!
# Pure rules

Retry backoff, contributor resolution and rotation, and the dossier slug.
-/

namespace AiFund

/-! ## Backoff -/

structure BackoffPolicy where
  baseS : Int
  maxS : Int
  jitter : ℚ

/-- The delay before a failed stage's next attempt; `jitterFactor` is in [-1, 1]. -/
def backoffSeconds (attempts : Nat) (policy : BackoffPolicy) (jitterFactor : ℚ) : ℚ :=
  let raw : ℚ := min (policy.baseS * 2 ^ (attempts - 1)) policy.maxS
  max 0 (raw * (1 + policy.jitter * jitterFactor))

/-! ## Contributors -/

structure HouseInfo where
  key : String
  enabled : Bool
  assignable : Bool
  isMeta : Bool

def sorted (keys : List String) : List String := keys.insertionSort (· ≤ ·)

/-- Default contributor set: enabled, assignable, non-meta houses, excluding the lead. -/
def resolveDefault (leadHouse : Option String) (houses : List HouseInfo) : List String :=
  sorted ((houses.filter fun h =>
    h.enabled && h.assignable && !h.isMeta && some h.key ≠ leadHouse).map (·.key))

/-- `datetime.min`, the time of a house that was never used. -/
def epoch : Time := -62135596800

/-- Least-recently-used first, the key breaking ties. -/
def orderContributors (contributors : List String) (lastUsedAt : String → Option Time) :
    List String :=
  let used key := (lastUsedAt key).getD epoch
  contributors.insertionSort fun a b => used a < used b ∨ (used a = used b ∧ a ≤ b)

def pickVerifiers (ordered : List String) (n : Int) : List String := ordered.take (max n 0).toNat

/-! ## Dossier slug -/

def isSlugChar (c : Char) : Bool := ('a' ≤ c ∧ c ≤ 'z') ∨ ('0' ≤ c ∧ c ≤ '9')

/-- Replace every run of characters outside `[a-z0-9]` by one underscore; `inRun` says that the run
before the first character has already left its underscore. -/
def subNonAlnum (inRun : Bool) : List Char → List Char
  | [] => []
  | c :: rest =>
      if isSlugChar c then c :: subNonAlnum false rest
      else if inRun then subNonAlnum true rest
      else '_' :: subNonAlnum true rest

def stripUnderscores (text : List Char) : List Char :=
  ((text.dropWhile (· = '_')).reverse.dropWhile (· = '_')).reverse

def computeDossierSlug (lower : String → String) (exchange ticker : String) : String :=
  String.ofList (stripUnderscores (subNonAlnum false (lower (exchange ++ "_" ++ ticker)).toList))

end AiFund
