import AiFund.Library.SkipLocked
import AiFund.Proof.Attempts
import AiFund.Proof.Legal
import AiFund.Proof.Reports

/-!
# Concurrent claims

Workers claim stages with `FOR UPDATE SKIP LOCKED`: the claim query passes over the stages that
other transactions have locked. However their transactions interleave, no stage goes to two workers,
and claims that all commit have been made one after another.
-/

namespace Rows

/-- A store that returns these rows in the order of `l`. -/
def RowOrder.giving (l : List ℕ) : RowOrder where
  arrange keys := if keys.Perm l then l else keys
  perm keys := by
    split_ifs with h
    · exact h.symm
    · exact .rfl

theorem RowOrder.all_giving {ρ : Type} {l : List ℕ} {p : ρ → Bool} {rows : List ρ}
    (h : l.Perm (ids p rows)) : (RowOrder.giving l).all p rows = l :=
  if_pos h.symm

end Rows

namespace AiFund

open UnitOfWork Rows SkipLocked

structure ClaimRequest where
  env : Env
  workerId : String
  substrates : List Substrate
  houses : List String
  leaseSeconds : ℚ

namespace ClaimRequest

/-- What the commit of a claim writes for one stage. -/
def claim (r : ClaimRequest) (db : Db) (stageId : Nat) : Db :=
  db.stages[stageId]?.elim db fun stage =>
    db.claimed r.env stageId stage r.workerId r.leaseSeconds

/-- A claim that meets no other, when the store returns unordered rows in this order. -/
def exec (r : ClaimRequest) (order : RowOrder) (db : Db) : Outcome Db PyError (Option Nat) :=
  commit (claimStage { r.env with rows := Function.update r.env.rows .claimable order }
    r.workerId r.substrates r.houses r.leaseSeconds) db

/-- The stages that the claim query matches. -/
def stages (r : ClaimRequest) (db : Db) : List Nat :=
  ids (claimable db r.env.now r.substrates r.houses) db.stages

end ClaimRequest

def Db.withoutAttempts (db : Db) : Db := { db with attempts := [] }

/-- The same database but for the order in which the attempts were added. -/
def Db.Alike (a b : Db) : Prop :=
  a.attempts.Perm b.attempts ∧ a.withoutAttempts = b.withoutAttempts

namespace Db.Alike

variable {a b c : Db}

theorem refl (db : Db) : db.Alike db := ⟨.refl _, rfl⟩

theorem symm (h : a.Alike b) : b.Alike a := ⟨h.1.symm, h.2.symm⟩

theorem trans (h : a.Alike b) (h' : b.Alike c) : a.Alike c := ⟨h.1.trans h'.1, h.2.trans h'.2⟩

theorem stages (h : a.Alike b) : a.stages = b.stages := by
  have hrest := congrArg Db.stages h.2
  exact hrest

theorem runs (h : a.Alike b) : a.runs = b.runs := by
  have hrest := congrArg Db.runs h.2
  exact hrest

end Db.Alike

/-! ## What a claim reads and writes -/

section Claim

variable {r r' : ClaimRequest} {a b db : Db} {id id' : Nat} {stage : RunStage} {now : Time}
  {substrates : List Substrate} {houses : List String} {xs ys : List Nat}

theorem claimable_congr (hruns : a.runs = b.runs)
    (hdependencies : ∀ stage, dependencySatisfied a stage = dependencySatisfied b stage) :
    claimable a now substrates houses = claimable b now substrates houses := by
  funext stage
  simp only [claimable, hruns, hdependencies]

/-- The claim order reads only the runs, and which run a stage belongs to and its place there. -/
theorem claimBefore_congr (hruns : a.runs = b.runs)
    (hstages : a.stages.map (fun stage => (stage.runId, stage.seq)) =
      b.stages.map fun stage => (stage.runId, stage.seq)) : claimBefore a = claimBefore b := by
  have hread (id : Nat) : (do
      let stage ← a.stages[id]?
      let run ← a.runs[stage.runId]?
      return (-run.priority, run.createdAt, stage.seq) : Option (Int × Time × Int)) = do
      let stage ← b.stages[id]?
      let run ← b.runs[stage.runId]?
      return (-run.priority, run.createdAt, stage.seq) := by
    have hkey : (a.stages[id]?.map fun stage => (stage.runId, stage.seq)) =
        b.stages[id]?.map fun stage => (stage.runId, stage.seq) := by
      rw [← List.getElem?_map, hstages, List.getElem?_map]
    cases ha : a.stages[id]? <;> cases hb : b.stages[id]? <;> simp_all
  funext i j
  simp only [claimBefore, hread]

theorem ClaimRequest.claim_eq (h : db.stages[id]? = some stage) :
    r.claim db id = db.claimed r.env id stage r.workerId r.leaseSeconds := by
  simp [claim, h]

theorem ClaimRequest.claim_eq_self (h : db.stages[id]? = none) : r.claim db id = db := by
  simp [claim, h]

@[simp] theorem ClaimRequest.claim_runs : (r.claim db id).runs = db.runs := by
  cases h : db.stages[id]? with
  | none => rw [claim_eq_self h]
  | some stage =>
      rw [claim_eq h]
      rfl

theorem ClaimRequest.claim_stages : (r.claim db id).stages = db.stages.modify id fun stage =>
    stage.claimedFor r.workerId r.env.now (r.env.now + r.leaseSeconds) := by
  cases h : db.stages[id]? with
  | none =>
      rw [claim_eq_self h, List.modify_eq_self]
      exact List.getElem?_eq_none_iff.1 h
  | some stage =>
      rw [claim_eq h]
      rfl

theorem ClaimRequest.claimBefore_claim : claimBefore (r.claim db id) = claimBefore db := by
  refine claimBefore_congr r.claim_runs ?_
  rw [claim_stages]
  exact map_modify_of_eq fun _ => rfl

/-- No stage has to wait for this one to be claimed. -/
def Db.Unfinished (db : Db) (id : Nat) : Prop :=
  ∀ stage, db.stages[id]? = some stage → stage.status.satisfied = false

theorem ClaimRequest.unfinished (h : id ∈ r.stages db) : db.Unfinished id := by
  intro stage hstage
  obtain ⟨row, hrow, hok⟩ := mem_ids.1 h
  cases hstage.symm.trans hrow
  simp only [claimable, Bool.and_eq_true, decide_eq_true_eq] at hok
  rw [hok.1.1.1.1.1]
  rfl

theorem Db.Unfinished.claim (h : db.Unfinished id) : (r.claim db id').Unfinished id := by
  intro stage hstage
  rw [ClaimRequest.claim_stages] at hstage
  obtain ⟨rfl, old, -, rfl⟩ | ⟨-, hold⟩ := getElem?_modify_cases hstage
  · rfl
  · exact h stage hold

theorem any_modify {ρ : Type} {rows : List ρ} {f : ρ → ρ} {p : ρ → Bool}
    (h : ∀ row, rows[id]? = some row → p (f row) = p row) :
    (rows.modify id f).any p = rows.any p := by
  rw [Bool.eq_iff_iff, List.any_eq_true, List.any_eq_true]
  constructor
  · rintro ⟨row, hrow, hp⟩
    obtain ⟨k, hk⟩ := List.getElem?_of_mem hrow
    obtain ⟨rfl, old, hold, rfl⟩ | ⟨-, hold⟩ := getElem?_modify_cases hk
    · exact ⟨old, List.mem_of_getElem? hold, (h old hold).symm.trans hp⟩
    · exact ⟨row, List.mem_of_getElem? hold, hp⟩
  · rintro ⟨row, hrow, hp⟩
    obtain ⟨k, hk⟩ := List.getElem?_of_mem hrow
    by_cases hid : k = id
    · subst hid
      exact ⟨f row, List.mem_of_getElem? (getElem?_modify_self hk), (h row hk).trans hp⟩
    · exact ⟨row, List.mem_of_getElem? ((getElem?_modify_of_ne hid).trans hk), hp⟩

theorem ClaimRequest.claimable_claim (h : db.Unfinished id) :
    claimable (r.claim db id) now substrates houses = claimable db now substrates houses := by
  refine claimable_congr r.claim_runs fun stage => ?_
  simp only [dependencySatisfied, claim_stages]
  cases stage.dependsOnSeq with
  | none => rfl
  | some seq =>
      refine any_modify fun row hrow => ?_
      rw [h row hrow, Bool.and_false]
      exact Bool.and_false _

/-- The claim of one stage takes that stage from every query's sight, and no other. -/
theorem ClaimRequest.stages_claim (h : db.Unfinished id) :
    r.stages (r'.claim db id) = (r.stages db).filter (· ≠ id) := by
  unfold stages ids
  rw [claimable_claim h, claim_stages, List.length_modify, List.filter_filter]
  refine List.filter_congr fun k _ => ?_
  by_cases hk : k = id
  · subst hk
    cases hstage : db.stages[k]? with
    | none => simp [hstage]
    | some stage => simp [hstage, claimable, RunStage.claimedFor]
  · rw [getElem?_modify_of_ne hk]
    simp [hk]

/-- Claims of different stages commute, but for the order of the attempts. -/
theorem ClaimRequest.claim_comm (h : id ≠ id') :
    (r.claim (r'.claim db id') id).Alike (r'.claim (r.claim db id) id') := by
  cases hstage : db.stages[id]? with
  | none =>
      have hafter : (r'.claim db id').stages[id]? = none := by
        rw [claim_stages, getElem?_modify_of_ne h, hstage]
      rw [claim_eq_self hstage, claim_eq_self hafter]
      exact .refl _
  | some stage =>
      cases hstage' : db.stages[id']? with
      | none =>
          have hafter : (r.claim db id).stages[id']? = none := by
            rw [claim_stages, getElem?_modify_of_ne h.symm, hstage']
          rw [claim_eq_self hstage', claim_eq_self hafter]
          exact .refl _
      | some stage' =>
          have hafter : (r'.claim db id').stages[id]? = some stage := by
            rw [claim_stages, getElem?_modify_of_ne h, hstage]
          have hafter' : (r.claim db id).stages[id']? = some stage' := by
            rw [claim_stages, getElem?_modify_of_ne h.symm, hstage']
          rw [claim_eq hafter, claim_eq hafter', claim_eq hstage, claim_eq hstage']
          refine ⟨?_, ?_⟩
          · simp only [Db.claimed, List.append_assoc]
            exact (List.Perm.swap _ _ []).append_left _
          · simp only [Db.claimed, Db.withoutAttempts]
            rw [List.modify_modify_ne _ _ _ h.symm]

theorem ClaimRequest.claim_alike (h : a.Alike b) : (r.claim a id).Alike (r.claim b id) := by
  cases hstage : b.stages[id]? with
  | none =>
      rw [claim_eq_self hstage, claim_eq_self (h.stages ▸ hstage)]
      exact h
  | some stage =>
      rw [claim_eq hstage, claim_eq (h.stages ▸ hstage)]
      refine ⟨h.1.append_right _, ?_⟩
      exact congrArg (fun db : Db => db.updateStage id fun stage =>
        stage.claimedFor r.workerId r.env.now (r.env.now + r.leaseSeconds)) h.2

/-! ## The pool of stages -/

/-- What the commit of a claim writes. -/
def ClaimRequest.claimAll (r : ClaimRequest) (claimed : List Nat) (db : Db) : Db :=
  claimed.foldl r.claim db

theorem ClaimRequest.claimAll_alike (h : a.Alike b) :
    (r.claimAll xs a).Alike (r.claimAll xs b) := by
  induction xs generalizing a b with
  | nil => exact h
  | cons id xs ih => exact ih (claim_alike h)

theorem ClaimRequest.claimAll_claim (h : id ∉ xs) :
    (r.claimAll xs (r'.claim db id)).Alike (r'.claim (r.claimAll xs db) id) := by
  induction xs generalizing db with
  | nil => exact .refl _
  | cons x xs ih =>
      rw [List.mem_cons, not_or] at h
      exact (claimAll_alike (claim_comm (Ne.symm h.1))).trans (ih h.2)

theorem ClaimRequest.claimAll_comm (h : xs.Disjoint ys) :
    (r.claimAll xs (r'.claimAll ys db)).Alike (r'.claimAll ys (r.claimAll xs db)) := by
  induction ys generalizing db with
  | nil => exact .refl _
  | cons y ys ih =>
      rw [List.disjoint_cons_right] at h
      exact (ih h.2).trans (claimAll_alike (claimAll_claim h.1))

theorem ClaimRequest.claimBefore_claimAll : claimBefore (r.claimAll xs db) = claimBefore db := by
  induction xs generalizing db with
  | nil => rfl
  | cons x xs ih => exact ih.trans claimBefore_claim

theorem ClaimRequest.stages_claimAll (h : ∀ id ∈ ys, db.Unfinished id) :
    r.stages (r'.claimAll ys db) = (r.stages db).filter (· ∉ ys) := by
  induction ys generalizing db with
  | nil => simp [claimAll]
  | cons y ys ih =>
      have hrest : ∀ id ∈ ys, (r'.claim db y).Unfinished id := fun id hid =>
        (h id (List.mem_cons_of_mem _ hid)).claim
      refine (ih hrest).trans ?_
      rw [stages_claim (h y List.mem_cons_self), List.filter_filter]
      refine List.filter_congr fun k _ => ?_
      simp [Bool.and_comm]

end Claim

/-- The stages as a pool that workers claim from, one at a time. -/
def claimPool : Pool ClaimRequest Nat Db where
  rows := ClaimRequest.stages
  before db a b := claimBefore db a b
  limit _ := 1
  take := ClaimRequest.claimAll
  legal db := Schema.violation db = none
  alike := ⟨Db.Alike, .refl, .symm, .trans⟩
  rows_alike h := by
    simp only [ClaimRequest.stages, claimable_congr h.runs fun stage => by
      simp only [dependencySatisfied, h.stages], h.stages]
  before_alike h := by rw [claimBefore_congr h.runs (by rw [h.stages])]
  take_alike h := ClaimRequest.claimAll_alike h
  take_comm h := ClaimRequest.claimAll_comm h
  before_take := by
    intros
    simp only [ClaimRequest.claimBefore_claimAll]
  rows_take h := ClaimRequest.stages_claimAll fun id hid => ClaimRequest.unfinished (h id hid)

/-! ## Claims one after another -/

/-- The claims are made one after another, each in a transaction of its own, and ties in the claim
order are broken as the store likes. -/
inductive ClaimedInTurn (db : Db) : List (ClaimRequest × List Nat) → Db → Prop
  | nil : ClaimedInTurn db [] db
  | snoc {served : List (ClaimRequest × List Nat)} {db' : Db} {r : ClaimRequest}
      {claimed : Option Nat} (h : ClaimedInTurn db served db') (order : RowOrder)
      (hresult : (r.exec order db').result = .ok claimed) :
      ClaimedInTurn db (served ++ [(r, claimed.toList)]) (r.exec order db').after

section InTurn

variable {r : ClaimRequest} {db : Db} {id : Nat} {stage : RunStage} {xs : List Nat}

theorem Db.legal_addAttempt {row : StageAttempt} (hdb : Schema.violation db = none)
    (hnew : ∀ a ∈ db.attempts, (a.stageId, a.attemptNo) ≠ (row.stageId, row.attemptNo)) :
    Schema.violation { db with attempts := db.attempts ++ [row] } = none := by
  refine Db.legal_of_rules hdb ?_
  have hruns : Db.isRun { db with attempts := db.attempts ++ [row] } = db.isRun := rfl
  have hhouses : Db.isHouse { db with attempts := db.attempts ++ [row] } = db.isHouse := rfl
  have hcoverages : Db.isCoverage { db with attempts := db.attempts ++ [row] } =
      db.isCoverage := rfl
  simp only [constraints, List.forall_mem_cons, hruns, hhouses, hcoverages, imp_self, true_and,
    decide_eq_true_eq]
  exact ⟨fun hnodup => nodup_concat hnodup hnew, fun _ hrule => absurd hrule List.not_mem_nil⟩

/-- The next attempt of a stage has a number of its own. -/
theorem AttemptInv.violation_claimed {env : Env} {workerId : String} {leaseSeconds : ℚ}
    (h : AttemptInv db) (hdb : Schema.violation db = none) (hstage : db.stages[id]? = some stage) :
    Schema.violation (db.claimed env id stage workerId leaseSeconds) = none := by
  have hadded : Schema.violation
      { db with attempts := db.attempts ++ [newAttempt id stage workerId] } = none := by
    refine Db.legal_addAttempt hdb fun a ha heq => ?_
    simp only [newAttempt, Prod.mk.injEq] at heq
    have hmem : a ∈ db.attemptsOf id := by simp [Db.attemptsOf, ha, heq.1]
    have hno := List.mem_map_of_mem (f := fun a : StageAttempt => a.attemptNo) hmem
    rw [(h.accounted id stage hstage).numbers, List.mem_range'_1, heq.2] at hno
    omega
  generalize hmore : db.attempts ++ [newAttempt id stage workerId] = attempts at hadded
  rw [Db.claimed, hmore]
  have hstages : (db.stages.modify id fun stage =>
      stage.claimedFor workerId env.now (env.now + leaseSeconds)).map RunStage.keys =
        db.stages.map RunStage.keys := map_modify_of_eq fun _ => rfl
  refine Eq.trans ?_ hadded
  have hcongr : ∀ db' : Db, db'.runs = db.runs → db'.stages = db.stages → Schema.violation
      { db' with
        runs := db.runs
        stages := db.stages.modify id fun stage =>
          stage.claimedFor workerId env.now (env.now + leaseSeconds)
        attempts := db'.attempts } = Schema.violation db' := fun db' hruns hstages' =>
    Db.violation_congr (by rw [hruns]) (by rw [hstages, hstages']) rfl
  exact hcongr { db with attempts } rfl rfl

/-- A claim whose query finds nothing returns nothing. -/
theorem claimStage_none {env : Env} {workerId : String} {substrates : List Substrate}
    {houses : List String} {leaseSeconds : ℚ} (written : List Db)
    (hcandidate : claimCandidate env substrates houses db = none) :
    Returns (claimStage env workerId substrates houses leaseSeconds) ⟨db, db, written⟩ none
      ⟨db, db, written⟩ := by
  unfold claimStage
  rw [returns_select_bind, hcandidate]
  exact returns_pure.2 ⟨rfl, rfl⟩

/-- A claim whose query finds a stage takes it. -/
theorem claimStage_some {env : Env} {workerId : String} {substrates : List Substrate}
    {houses : List String} {leaseSeconds : ℚ} (written : List Db) (hattempts : AttemptInv db)
    (hdb : Schema.violation db = none) (hstage : db.stages[id]? = some stage)
    (hcandidate : claimCandidate env substrates houses db = some id) {after : Db}
    (hafter : after = db.claimed env id stage workerId leaseSeconds) :
    Schema.violation after = none ∧
      Returns (claimStage env workerId substrates houses leaseSeconds) ⟨db, db, written⟩ (some id)
        ⟨after, after, written ++ [after]⟩ := by
  have hlegal : Schema.violation after = none := by
    rw [hafter]
    exact hattempts.violation_claimed hdb hstage
  refine ⟨hlegal, ?_⟩
  subst hafter
  unfold claimStage
  rw [returns_select_bind, hcandidate]
  refine returns_getRow_bind.2 ⟨(List.getElem?_eq_some_iff.1 hstage).1, stage, hstage, ?_⟩
  refine returns_assign_bind.2 (returns_assign_bind.2 (returns_flush_bind.2 ⟨hlegal, ?_⟩))
  exact returns_pure.2 ⟨rfl, rfl⟩

/-- A claim returns the stage that comes first in some order of its query, and takes it. -/
theorem ClaimRequest.exec_giving {l : List Nat} (hattempts : AttemptInv db)
    (hdb : Schema.violation db = none) (hperm : l.Perm (r.stages db))
    (hsorted : l.Pairwise fun a b => claimBefore db a b = true) :
    (r.exec (.giving l) db).result = .ok l.head? ∧
      (r.exec (.giving l) db).after = r.claimAll (l.take 1) db := by
  have hcandidate : claimCandidate
      { r.env with rows := Function.update r.env.rows .claimable (.giving l) }
      r.substrates r.houses db = l.head? := by
    have horder : Function.update r.env.rows .claimable (.giving l) .claimable =
      RowOrder.giving l := Function.update_self ..
    simp only [claimCandidate, horder, RowOrder.all_giving hperm]
    rw [List.Pairwise.insertionSort_eq hsorted]
  unfold exec
  cases l with
  | nil =>
      rw [commit_of_returns (claimStage_none [] hcandidate) hdb]
      exact ⟨rfl, rfl⟩
  | cons id l =>
      obtain ⟨stage, hstage, hok⟩ := mem_ids.1 (hperm.mem_iff.1 List.mem_cons_self)
      obtain ⟨hlegal, hreturns⟩ := claimStage_some [] hattempts hdb hstage hcandidate rfl
      rw [commit_of_returns hreturns hlegal]
      exact ⟨rfl, (claim_eq hstage).symm⟩

theorem ClaimRequest.keeps_books (hattempts : AttemptInv db) (hdb : Schema.violation db = none)
    (hid : id ∈ r.stages db) :
    AttemptInv (r.claim db id) ∧ Schema.violation (r.claim db id) = none := by
  obtain ⟨stage, hstage, hok⟩ := mem_ids.1 hid
  simp only [claimable, Bool.and_eq_true, decide_eq_true_eq] at hok
  rw [claim_eq hstage]
  exact ⟨hattempts.claimed hstage hok.1.1.1.1.1, hattempts.violation_claimed hdb hstage⟩

/-- What a query returns, one at a time at most, it may claim. -/
theorem claimAll_keeps_books {db : Db} (hattempts : AttemptInv db)
    (hdb : Schema.violation db = none) (hxs : ∀ x ∈ xs, x ∈ r.stages db) (hone : xs.length ≤ 1) :
    AttemptInv (r.claimAll xs db) ∧ Schema.violation (r.claimAll xs db) = none := by
  cases xs with
  | nil => exact ⟨hattempts, hdb⟩
  | cons id xs =>
      obtain rfl : xs = [] := List.eq_nil_of_length_eq_zero (by simpa using hone)
      exact ClaimRequest.keeps_books hattempts hdb (hxs id List.mem_cons_self)

/-- Serial claims from the pool are claims one after another. -/
theorem claimedInTurn_of_serial {served : List (ClaimRequest × List Nat)} {db' : Db}
    (h : claimPool.Serial db served db') (hattempts : AttemptInv db)
    (hdb : Schema.violation db = none) :
    ClaimedInTurn db served db' ∧ AttemptInv db' ∧ Schema.violation db' = none := by
  induction h with
  | nil => exact ⟨.nil, hattempts, hdb⟩
  | @snoc served db' r xs _ hpicks ih =>
      obtain ⟨hturn, hattempts', hdb'⟩ := ih
      have hrows : ∀ x ∈ xs, x ∈ r.stages db' := fun x hx => (hpicks.mem_rows x hx).1
      have hkept := claimAll_keeps_books hattempts' hdb' hrows hpicks.length_le
      obtain ⟨l, hperm, hsorted, rfl⟩ := hpicks
      have hall : l.Perm (r.stages db') := by
        refine hperm.trans (.of_eq ?_)
        simp [claimPool]
      obtain ⟨hresult, hafter⟩ := r.exec_giving hattempts' hdb' hall hsorted
      have hserved : l.head?.toList = l.take 1 := by cases l <;> rfl
      refine ⟨?_, hkept⟩
      have hsnoc := hturn.snoc (.giving l) hresult
      rw [hafter, hserved] at hsnoc
      exact hsnoc

end InTurn

/-! ## Every interleaving -/

variable {db : Db} {requests : List ClaimRequest} {w : World ClaimRequest Nat Db}

/-- The stage is running for the worker of the claim, under the lease that the claim gave, and its
open attempt is the worker's, numbered one more than the attempts that it had before. -/
structure ClaimRequest.Hands (r : ClaimRequest) (stageId : Nat) (old stage : RunStage)
    (attempt : StageAttempt) : Prop where
  status : stage.status = .running
  claimedBy : stage.claimedBy = some r.workerId
  leaseExpiresAt : stage.leaseExpiresAt = some (r.env.now + r.leaseSeconds)
  attempts : stage.attempts = old.attempts + 1
  attemptOf : attempt.stageId = stageId
  attemptStatus : attempt.status = .running
  attemptBy : attempt.workerId = some r.workerId
  attemptNo : attempt.attemptNo = old.attempts + 1

def ClaimRequest.Has (r : ClaimRequest) (stageId : Nat) (before after : Db) : Prop :=
  ∃ old stage attempt, before.stages[stageId]? = some old ∧ after.stages[stageId]? = some stage ∧
    attempt ∈ after.attempts ∧ r.Hands stageId old stage attempt

theorem ClaimRequest.attempts_claim (r : ClaimRequest) (db : Db) (id : Nat) :
    db.attempts <+: (r.claim db id).attempts := by
  cases hstage : db.stages[id]? with
  | none => simpa only [claim_eq_self hstage] using List.prefix_refl db.attempts
  | some stage =>
      rw [claim_eq hstage]
      exact List.prefix_append _ _

theorem ClaimRequest.Has.claimAll {r r' : ClaimRequest} {id : Nat} {xs : List Nat} {before db : Db}
    (h : r.Has id before db) (hid : id ∉ xs) : r.Has id before (r'.claimAll xs db) := by
  induction xs generalizing db with
  | nil => exact h
  | cons x xs ih =>
      rw [List.mem_cons, not_or] at hid
      obtain ⟨old, stage, attempt, hold, hstage, hattempt, hhands⟩ := h
      refine ih ⟨old, stage, attempt, hold, ?_, ?_, hhands⟩ hid.2
      · rw [claim_stages, getElem?_modify_of_ne hid.1, hstage]
      · exact (r'.attempts_claim db x).subset hattempt

/-- Every stage that is not running is as it was. -/
def Db.Untaken (before db : Db) : Prop :=
  ∀ (id : Nat) (stage : RunStage), db.stages[id]? = some stage →
    stage.status = .running ∨ before.stages[id]? = some stage

theorem Db.Untaken.claim {r : ClaimRequest} {id : Nat} {before db : Db} (h : before.Untaken db) :
    before.Untaken (r.claim db id) := by
  intro k stage hstage
  rw [ClaimRequest.claim_stages] at hstage
  obtain ⟨rfl, old, -, rfl⟩ | ⟨-, hkept⟩ := getElem?_modify_cases hstage
  · exact .inl rfl
  · exact h k stage hkept

theorem Db.Untaken.claimAll {r : ClaimRequest} {xs : List Nat} {before db : Db}
    (h : before.Untaken db) : before.Untaken (r.claimAll xs db) := by
  induction xs generalizing db with
  | nil => exact h
  | cons x xs ih => exact ih h.claim

theorem ClaimRequest.has_claim {r : ClaimRequest} {id : Nat} {before db : Db}
    (huntaken : before.Untaken db) (hid : id ∈ r.stages db) :
    r.Has id before (r.claim db id) := by
  obtain ⟨stage, hstage, hclaimable⟩ := mem_ids.1 hid
  have hqueued : stage.status = .queued := by
    simp only [claimable, Bool.and_eq_true, decide_eq_true_eq] at hclaimable
    exact hclaimable.1.1.1.1.1
  have hbefore : before.stages[id]? = some stage := by
    refine (huntaken id stage hstage).resolve_left fun hrunning => ?_
    cases hqueued.symm.trans hrunning
  refine ⟨stage, stage.claimedFor r.workerId r.env.now (r.env.now + r.leaseSeconds),
    newAttempt id stage r.workerId, hbefore, ?_, ?_, rfl, rfl, rfl, rfl, rfl, rfl, rfl, rfl⟩
  · rw [claim_stages]
    exact getElem?_modify_self hstage
  · rw [claim_eq hstage]
    exact List.mem_append_right _ (List.mem_singleton_self _)

theorem ClaimRequest.has_claimAll {r : ClaimRequest} {xs : List Nat} {before db : Db}
    (huntaken : before.Untaken db) (hrows : ∀ x ∈ xs, x ∈ r.stages db) (hone : xs.length ≤ 1) :
    ∀ x ∈ xs, r.Has x before (r.claimAll xs db) := by
  cases xs with
  | nil => exact List.forall_mem_nil _
  | cons first xs =>
      obtain rfl : xs = [] := List.eq_nil_of_length_eq_zero (by simpa using hone)
      intro x hx
      obtain rfl := List.mem_singleton.1 hx
      exact has_claim huntaken (hrows x List.mem_cons_self)

/-- However the claims interleave and whichever of them roll back, no stage goes to two workers:
each claimed stage is running for the worker whose claim committed, and the books of all stages are
kept. -/
theorem claims_exclusive (hdb : Schema.violation db = none) (hattempts : AttemptInv db)
    (h : claimPool.Reaches db requests w) :
    (w.taken.Pairwise fun a b => a.2.Disjoint b.2) ∧
      (∀ e ∈ w.done, ∀ stageId ∈ e.2, e.1.Has stageId db w.store) ∧ AttemptInv w.store := by
  let I (db : Db) : Prop := AttemptInv db ∧ Schema.violation db = none
  have hstart : I db := ⟨hattempts, hdb⟩
  have hbooks : I w.store := h.invariant hstart fun db r xs hbooks hrows hone =>
    claimAll_keeps_books hbooks.1 hbooks.2 hrows hone
  refine ⟨h.exclusive.apart, ?_, hbooks.1⟩
  exact h.lasting (I := db.Untaken) (fun _ _ hstage => .inr hstage)
    (fun _ _ _ huntaken _ _ => huntaken.claimAll)
    (fun _ _ _ huntaken hrows hone => ClaimRequest.has_claimAll huntaken hrows hone)
    fun _ _ _ _ _ hid hhas => hhas.claimAll hid

/-- Claims that all commit, in any interleaving, have been made one after another in the order of
their queries. -/
theorem claims_serializable (hdb : Schema.violation db = none) (hattempts : AttemptInv db)
    (h : claimPool.Reaches db requests w) (hall : ∀ t ∈ w.takers, t.done.isSome) :
    w.given.Perm w.done ∧ ∃ db', ClaimedInTurn db w.given db' ∧ db'.Alike w.store := by
  obtain ⟨hperm, db', hserial, halike⟩ := h.serial hall
  exact ⟨hperm, db', (claimedInTurn_of_serial hserial hattempts hdb).1, halike⟩

/-! ## Two workers -/

/-- A running run with two stages that do not wait for each other. -/
def Db.twoStages : Db :=
  runQueue (Db.oneRun none).withoutStages
    [.addStages (.quiet 0) 0 [.pmQuery, { StageIn.pmQuery with seq := 2 }]]

def claimBy (workerId : String) : ClaimRequest := ⟨.quiet 1, workerId, [], [], 60⟩

theorem attemptInv_twoStages : AttemptInv .twoStages :=
  History.invariant_of_forall (fun _ _ h => h.step) (.withoutStages _)

/-- The second worker skips the stage that the first has locked, and commits before it. -/
theorem reaches_twoStages : ∃ w, claimPool.Reaches .twoStages [claimBy "w1", claimBy "w2"] w ∧
    w.takers = [.committed (claimBy "w1") [0], .committed (claimBy "w2") [1]] := by
  have hfirst : claimPool.Picks (claimBy "w1") [] .twoStages [0] :=
    ⟨[0, 1], by decide +kernel, by decide +kernel, rfl⟩
  have hsecond : claimPool.Picks (claimBy "w2") [0] .twoStages [1] :=
    ⟨[1], by decide +kernel, by decide +kernel, rfl⟩
  have hlegal : Schema.violation ((claimBy "w2").claimAll [1] .twoStages) = none ∧
      Schema.violation ((claimBy "w1").claimAll [0] ((claimBy "w2").claimAll [1] .twoStages)) =
        none := by
    decide +kernel
  have hstart : claimPool.Reaches .twoStages [claimBy "w1", claimBy "w2"] (.start _ _) := .refl
  have hone := hstart.tail (.queries [] [.waiting (claimBy "w2")] (claimBy "w1") [0] hfirst)
  have htwo := hone.tail (.queries [.holding (claimBy "w1") [0]] [] (claimBy "w2") [1] hsecond)
  have hthree := htwo.tail (.commits [.holding (claimBy "w1") [0]] [] _ _ hlegal.1)
  have hfour := hthree.tail (.commits [] [.committed (claimBy "w2") [1]] _ _ hlegal.2)
  exact ⟨_, hfour, rfl⟩

theorem claims_exclusive_twoStages : ∃ w : World ClaimRequest Nat Db,
    w.takers = [.committed (claimBy "w1") [0], .committed (claimBy "w2") [1]] ∧
      (w.taken.Pairwise fun a b => a.2.Disjoint b.2) ∧
      (∀ e ∈ w.done, ∀ stageId ∈ e.2, e.1.Has stageId .twoStages w.store) ∧
      AttemptInv w.store := by
  obtain ⟨w, hreach, htakers⟩ := reaches_twoStages
  exact ⟨w, htakers, claims_exclusive (by decide +kernel) attemptInv_twoStages hreach⟩

theorem claims_serializable_twoStages : ∃ w : World ClaimRequest Nat Db,
    w.takers = [.committed (claimBy "w1") [0], .committed (claimBy "w2") [1]] ∧
      w.given.Perm w.done ∧ ∃ db', ClaimedInTurn .twoStages w.given db' ∧ db'.Alike w.store := by
  obtain ⟨w, hreach, htakers⟩ := reaches_twoStages
  refine ⟨w, htakers, claims_serializable (by decide +kernel) attemptInv_twoStages hreach ?_⟩
  rw [htakers]
  decide

end AiFund
