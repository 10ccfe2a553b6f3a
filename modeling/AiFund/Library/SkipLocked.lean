import Mathlib.Data.List.Basic
import Mathlib.Data.List.Perm.Basic
import Mathlib.Data.Setoid.Basic
import Mathlib.Logic.Relation

/-!
# Taking rows under SKIP LOCKED

Transactions take rows from one store: a query returns the first rows of those it matches and locks
them, leaving out the rows that other transactions have locked, and the commit writes to the locked
rows. `Pool` is what the takers ask for, together with the laws under which their runs are serial.
-/

namespace SkipLocked

/-- Requests `ρ` for rows `ι` of a store `σ`. A commit has to leave a `legal` store, and `alike`
stores differ in nothing that a request can tell. -/
structure Pool (ρ ι σ : Type) [DecidableEq ι] where
  /-- The rows that the query of a request matches. -/
  rows : ρ → σ → List ι
  before : σ → ι → ι → Bool
  limit : ρ → Nat
  take : ρ → List ι → σ → σ
  legal : σ → Prop
  alike : Setoid σ
  rows_alike {r : ρ} {s s' : σ} : alike s s' → rows r s = rows r s'
  before_alike {s s' : σ} : alike s s' → before s = before s'
  take_alike {r : ρ} {xs : List ι} {s s' : σ} : alike s s' → alike (take r xs s) (take r xs s')
  take_comm {r r' : ρ} {xs ys : List ι} {s : σ} :
    xs.Disjoint ys → alike (take r xs (take r' ys s)) (take r' ys (take r xs s))
  before_take {r : ρ} {xs : List ι} {s : σ} : before (take r xs s) = before s
  rows_take {r r' : ρ} {ys : List ι} {s : σ} :
    (∀ y ∈ ys, y ∈ rows r' s) → rows r (take r' ys s) = (rows r s).filter (· ∉ ys)

/-- A transaction: before its query, with the rows it has locked, or at its end. -/
inductive Taker (ρ ι : Type) where
  | waiting (request : ρ)
  | holding (request : ρ) (rows : List ι)
  | committed (request : ρ) (rows : List ι)
  | rolledBack (request : ρ)

/-- The committed store, the transactions, and what they were given in the order of their
queries. -/
structure World (ρ ι σ : Type) where
  store : σ
  takers : List (Taker ρ ι)
  given : List (ρ × List ι) := []

namespace Taker

variable {ρ ι : Type}

def request : Taker ρ ι → ρ
  | .waiting r | .holding r _ | .committed r _ | .rolledBack r => r

/-- What the transaction has locked and not yet committed. -/
def hold : Taker ρ ι → Option (ρ × List ι)
  | .holding r xs => some (r, xs)
  | _ => none

/-- What the transaction has locked or committed. -/
def taken : Taker ρ ι → Option (ρ × List ι)
  | .holding r xs | .committed r xs => some (r, xs)
  | _ => none

def done : Taker ρ ι → Option (ρ × List ι)
  | .committed r xs => some (r, xs)
  | _ => none

def isRolledBack : Taker ρ ι → Bool
  | .rolledBack _ => true
  | _ => false

end Taker

namespace World

variable {ρ ι σ : Type} (w : World ρ ι σ)

def start (s : σ) (requests : List ρ) : World ρ ι σ := ⟨s, requests.map .waiting, []⟩

def holds : List (ρ × List ι) := w.takers.filterMap Taker.hold

def taken : List (ρ × List ι) := w.takers.filterMap Taker.taken

def done : List (ρ × List ι) := w.takers.filterMap Taker.done

/-- The rows that are locked. -/
def locked : List ι := w.holds.flatMap (·.2)

end World

namespace Pool

variable {ρ ι σ : Type} [DecidableEq ι] (pool : Pool ρ ι σ)

/-- What the query of a request may return while others have locked some rows: the first rows of
the others, in some order that puts none before a row it has to follow. -/
def Picks (r : ρ) (locked : List ι) (s : σ) (xs : List ι) : Prop :=
  ∃ l : List ι, l.Perm ((pool.rows r s).filter (· ∉ locked)) ∧
    l.Pairwise (fun a b => pool.before s a b) ∧ xs = l.take (pool.limit r)

inductive Step : World ρ ι σ → World ρ ι σ → Prop
  | queries {s : σ} {given : List (ρ × List ι)} (pre post : List (Taker ρ ι)) (r : ρ)
      (xs : List ι) (h : pool.Picks r
        (World.mk s (pre ++ .waiting r :: post) given).locked s xs) :
      Step ⟨s, pre ++ .waiting r :: post, given⟩
        ⟨s, pre ++ .holding r xs :: post, given ++ [(r, xs)]⟩
  | commits {s : σ} {given : List (ρ × List ι)} (pre post : List (Taker ρ ι)) (r : ρ)
      (xs : List ι) (h : pool.legal (pool.take r xs s)) :
      Step ⟨s, pre ++ .holding r xs :: post, given⟩
        ⟨pool.take r xs s, pre ++ .committed r xs :: post, given⟩
  | rollsBack {s : σ} {given : List (ρ × List ι)} (pre post : List (Taker ρ ι)) (r : ρ)
      (xs : List ι) :
      Step ⟨s, pre ++ .holding r xs :: post, given⟩
        ⟨s, pre ++ .rolledBack r :: post, given⟩

/-- The worlds that the transactions of `requests` can reach, in any order of their steps. -/
def Reaches (s : σ) (requests : List ρ) (w : World ρ ι σ) : Prop :=
  Relation.ReflTransGen pool.Step (.start s requests) w

/-- The requests are served one after another, each in a transaction that meets no other. -/
inductive Serial (s : σ) : List (ρ × List ι) → σ → Prop
  | nil : Serial s [] s
  | snoc {served : List (ρ × List ι)} {s' : σ} {r : ρ} {xs : List ι} (h : Serial s served s')
      (hpicks : pool.Picks r [] s' xs) : Serial s (served ++ [(r, xs)]) (pool.take r xs s')

/-- The store after the given takers have written. -/
def settle (holds : List (ρ × List ι)) (s : σ) : σ :=
  holds.foldl (fun s hold => pool.take hold.1 hold.2 s) s

variable {pool} {r : ρ} {locked xs : List ι} {s s' : σ} {w w' : World ρ ι σ}

theorem Picks.mem_rows (h : pool.Picks r locked s xs) :
    ∀ x ∈ xs, x ∈ pool.rows r s ∧ x ∉ locked := by
  obtain ⟨l, hperm, -, rfl⟩ := h
  intro x hx
  have hmem := hperm.mem_iff.1 (List.mem_of_mem_take hx)
  simpa using hmem

theorem Picks.length_le (h : pool.Picks r locked s xs) : xs.length ≤ pool.limit r := by
  obtain ⟨l, -, -, rfl⟩ := h
  exact List.length_take_le _ _

theorem Picks.alike (h : pool.Picks r locked s xs) (hs : pool.alike s s') :
    pool.Picks r locked s' xs := by
  obtain ⟨l, hperm, hsorted, rfl⟩ := h
  refine ⟨l, ?_, ?_, rfl⟩
  · rwa [← pool.rows_alike hs]
  · rwa [← pool.before_alike hs]

/-- A request that skips locked rows is given what it finds once their holders have written. -/
theorem Picks.settled {s' : σ} (h : pool.Picks r locked s xs)
    (hrows : pool.rows r s' = (pool.rows r s).filter (· ∉ locked))
    (hbefore : pool.before s' = pool.before s) : pool.Picks r [] s' xs := by
  obtain ⟨l, hperm, hsorted, rfl⟩ := h
  refine ⟨l, ?_, ?_, rfl⟩
  · rw [hrows]
    simpa using hperm
  · rwa [hbefore]

section Settle

variable {holds holds' : List (ρ × List ι)} {hold : ρ × List ι}

@[simp] theorem settle_nil : pool.settle [] s = s := rfl

@[simp] theorem settle_cons :
    pool.settle (hold :: holds) s = pool.settle holds (pool.take hold.1 hold.2 s) := rfl

theorem settle_alike (h : pool.alike s s') :
    pool.alike (pool.settle holds s) (pool.settle holds s') := by
  induction holds generalizing s s' with
  | nil => exact h
  | cons hold holds ih => exact ih (pool.take_alike h)

/-- Takers of disjoint rows may write in any order. -/
theorem settle_perm (hperm : holds.Perm holds')
    (happart : holds.Pairwise fun a b => a.2.Disjoint b.2) :
    pool.alike (pool.settle holds s) (pool.settle holds' s) := by
  induction hperm generalizing s with
  | nil => exact pool.alike.refl' _
  | cons hold _ ih => exact ih (List.pairwise_cons.1 happart).2
  | swap a b l =>
      have hdisjoint := (List.pairwise_cons.1 happart).1 a List.mem_cons_self
      exact settle_alike (pool.take_comm fun _ ha hb => hdisjoint hb ha)
  | trans hl _ ih ih' =>
      have happart' := (hl.pairwise_iff List.disjoint_symm).1 happart
      exact pool.alike.trans' (ih happart) (ih' happart')

theorem settle_concat :
    pool.settle (holds ++ [hold]) s = pool.take hold.1 hold.2 (pool.settle holds s) := by
  simp [settle, List.foldl_append]

theorem before_settle : pool.before (pool.settle holds s) = pool.before s := by
  induction holds generalizing s with
  | nil => rfl
  | cons hold holds ih => exact ih.trans pool.before_take

/-- What holders of disjoint rows take is out of every query's sight. -/
theorem rows_settle (happart : holds.Pairwise fun a b => a.2.Disjoint b.2)
    (hrows : ∀ hold ∈ holds, ∀ x ∈ hold.2, x ∈ pool.rows hold.1 s) :
    pool.rows r (pool.settle holds s) =
      (pool.rows r s).filter (· ∉ holds.flatMap (·.2)) := by
  induction holds generalizing s with
  | nil => simp
  | cons hold holds ih =>
      have hfirst := pool.rows_take (r := r) (hrows hold List.mem_cons_self)
      rw [settle_cons, ih (List.pairwise_cons.1 happart).2, hfirst, List.filter_filter]
      · refine List.filter_congr fun x _ => ?_
        simp only [List.flatMap_cons, List.mem_append, not_or, Bool.decide_and, Bool.and_comm]
      · intro other hother x hx
        rw [pool.rows_take (hrows hold List.mem_cons_self), List.mem_filter]
        refine ⟨hrows other (List.mem_cons_of_mem _ hother) x hx, ?_⟩
        have hdisjoint := (List.pairwise_cons.1 happart).1 other hother
        simpa using fun hmem => hdisjoint hmem hx

end Settle

/-! ## Runs -/

/-- No two transactions have the same row, what is locked is still to be had, and what is committed
no longer is. -/
structure Exclusive (pool : Pool ρ ι σ) (w : World ρ ι σ) : Prop where
  apart : w.taken.Pairwise fun a b => a.2.Disjoint b.2
  held : ∀ hold ∈ w.holds, ∀ x ∈ hold.2, x ∈ pool.rows hold.1 w.store
  few : ∀ hold ∈ w.holds, hold.2.length ≤ pool.limit hold.1
  gone : ∀ e ∈ w.done, ∀ x ∈ e.2, ∀ r, x ∉ pool.rows r w.store

omit [DecidableEq ι] in
theorem taken_perm : w.taken.Perm (w.holds ++ w.done) := by
  unfold World.taken World.holds World.done
  induction w.takers with
  | nil => exact .refl _
  | cons t takers ih =>
      cases t with
      | waiting | rolledBack => exact ih
      | holding r xs => exact ih.cons (r, xs)
      | committed r xs => exact (ih.cons (r, xs)).trans List.perm_middle.symm

omit [DecidableEq ι] in
theorem apart_perm {l l' : List (ρ × List ι)} (h : l.Perm l') :
    (l.Pairwise fun a b => a.2.Disjoint b.2) ↔ l'.Pairwise fun a b => a.2.Disjoint b.2 :=
  h.pairwise_iff List.disjoint_symm

theorem Exclusive.start (s : σ) (requests : List ρ) : pool.Exclusive (.start s requests) := by
  have hnone (f : Taker ρ ι → Option (ρ × List ι)) (hf : ∀ r, f (.waiting r) = none) :
      (World.start s requests).takers.filterMap f = [] := by
    simp [World.start, List.filterMap_map, hf]
  constructor
  · rw [World.taken, hnone _ fun _ => rfl]
    exact .nil
  · rw [World.holds, hnone _ fun _ => rfl]
    simp
  · rw [World.holds, hnone _ fun _ => rfl]
    simp
  · rw [World.done, hnone _ fun _ => rfl]
    simp

section Takers

variable {α β : Type} {f : α → Option β} {pre post : List α} {a a' : α} {b : β}

omit [DecidableEq ι] in
theorem filterMap_middle_of_none (h : f a = none) (h' : f a' = none) :
    (pre ++ a :: post).filterMap f = (pre ++ a' :: post).filterMap f := by
  simp [h, h']

omit [DecidableEq ι] in
theorem filterMap_middle (h : f a = some b) (h' : f a' = none) :
    ((pre ++ a :: post).filterMap f).Perm (b :: (pre ++ a' :: post).filterMap f) := by
  simp only [List.filterMap_append, List.filterMap_cons_some h, List.filterMap_cons_none h']
  exact List.perm_middle

end Takers

/-- What one step does to the rows that are held, taken and committed. -/
inductive Move (pool : Pool ρ ι σ) (w w' : World ρ ι σ) : Prop
  | queries (r : ρ) (xs : List ι) (hpicks : pool.Picks r w.locked w.store xs)
      (hstore : w'.store = w.store) (hgiven : w'.given = w.given ++ [(r, xs)])
      (hholds : w'.holds.Perm ((r, xs) :: w.holds)) (hdone : w'.done = w.done)
  | commits (r : ρ) (xs : List ι) (hlegal : pool.legal (pool.take r xs w.store))
      (hstore : w'.store = pool.take r xs w.store) (hgiven : w'.given = w.given)
      (hholds : w.holds.Perm ((r, xs) :: w'.holds)) (hdone : w'.done.Perm ((r, xs) :: w.done))
  | rollsBack (r : ρ) (xs : List ι) (hback : ∃ t ∈ w'.takers, t.isRolledBack = true)
      (hstore : w'.store = w.store)
      (hholds : w.holds.Perm ((r, xs) :: w'.holds)) (hdone : w'.done = w.done)

theorem Step.move (h : pool.Step w w') : pool.Move w w' := by
  cases h with
  | queries pre post r xs hpicks =>
      exact .queries r xs hpicks rfl rfl (filterMap_middle (f := Taker.hold) rfl rfl)
        (filterMap_middle_of_none (f := Taker.done) rfl rfl)
  | commits pre post r xs hlegal =>
      exact .commits r xs hlegal rfl rfl (filterMap_middle (f := Taker.hold) rfl rfl)
        (filterMap_middle (f := Taker.done) rfl rfl)
  | rollsBack pre post r xs =>
      exact .rollsBack r xs ⟨.rolledBack r, by simp, rfl⟩ rfl
        (filterMap_middle (f := Taker.hold) rfl rfl)
        (filterMap_middle_of_none (f := Taker.done) rfl rfl)

theorem Exclusive.disjoint_held (h : pool.Exclusive w) :
    w.holds.Pairwise fun a b => a.2.Disjoint b.2 :=
  (List.pairwise_append.1 ((apart_perm taken_perm).1 h.apart)).1

/-- What a query picks is disjoint from all that has been taken before. -/
theorem Exclusive.picks_disjoint (h : pool.Exclusive w)
    (hpicks : pool.Picks r w.locked w.store xs) : ∀ e ∈ w.taken, xs.Disjoint e.2 := by
  intro e he x hx hxe
  obtain ⟨hrow, hfree⟩ := hpicks.mem_rows x hx
  rcases List.mem_append.1 (taken_perm.mem_iff.1 he) with hheld | hdone
  · exact hfree (List.mem_flatMap.2 ⟨e, hheld, hxe⟩)
  · exact h.gone e hdone x hxe r hrow

theorem Exclusive.step (h : pool.Exclusive w) (hstep : pool.Step w w') : pool.Exclusive w' := by
  cases hstep.move with
  | queries r xs hpicks hstore hgiven hholds hdone =>
      have htaken : w'.taken.Perm ((r, xs) :: w.taken) := by
        refine taken_perm.trans ?_
        rw [hdone]
        exact (hholds.append_right _).trans (taken_perm.symm.cons _)
      refine ⟨(apart_perm htaken).2 ?_, ?_, ?_, ?_⟩
      · exact List.pairwise_cons.2 ⟨h.picks_disjoint hpicks, h.apart⟩
      · rw [hstore]
        intro hold hhold
        rcases List.mem_cons.1 (hholds.mem_iff.1 hhold) with rfl | hhold
        · exact fun x hx => (hpicks.mem_rows x hx).1
        · exact h.held hold hhold
      · intro hold hhold
        rcases List.mem_cons.1 (hholds.mem_iff.1 hhold) with rfl | hhold
        · exact hpicks.length_le
        · exact h.few hold hhold
      · rw [hstore, hdone]
        exact h.gone
  | commits r xs hlegal hstore hgiven hholds hdone =>
      have htaken : w'.taken.Perm w.taken := by
        refine (taken_perm.trans (hdone.append_left _)).trans ?_
        refine (List.perm_middle.trans ?_).trans taken_perm.symm
        exact hholds.symm.append_right w.done
      have hheld := h.held _ (hholds.mem_iff.2 List.mem_cons_self)
      have hapart := List.pairwise_cons.1 ((apart_perm hholds).1 h.disjoint_held)
      refine ⟨(apart_perm htaken).2 h.apart, ?_, ?_, ?_⟩
      · intro hold hhold x hx
        rw [hstore, pool.rows_take hheld, List.mem_filter]
        refine ⟨h.held hold (hholds.mem_iff.2 (List.mem_cons_of_mem _ hhold)) x hx, ?_⟩
        simpa using fun hmem => hapart.1 hold hhold hmem hx
      · exact fun hold hhold => h.few hold (hholds.mem_iff.2 (List.mem_cons_of_mem _ hhold))
      · intro e he x hx r'
        rw [hstore, pool.rows_take hheld, List.mem_filter]
        rcases List.mem_cons.1 (hdone.mem_iff.1 he) with rfl | he
        · simp [hx]
        · exact fun hmem => h.gone e he x hx r' hmem.1
  | rollsBack r xs hback hstore hholds hdone =>
      have htaken : w.taken.Perm ((r, xs) :: w'.taken) := by
        refine taken_perm.trans ((hholds.append_right _).trans ?_)
        rw [← hdone]
        exact taken_perm.symm.cons _
      refine ⟨(List.pairwise_cons.1 ((apart_perm htaken).1 h.apart)).2, ?_, ?_, ?_⟩
      · intro hold hhold
        rw [hstore]
        exact h.held hold (hholds.mem_iff.2 (List.mem_cons_of_mem _ hhold))
      · exact fun hold hhold => h.few hold (hholds.mem_iff.2 (List.mem_cons_of_mem _ hhold))
      · rw [hstore, hdone]
        exact h.gone

/-- In every interleaving no row is given to two transactions that have not rolled back. -/
theorem Reaches.exclusive {requests : List ρ} (h : pool.Reaches s requests w) :
    pool.Exclusive w := by
  induction h with
  | refl => exact .start s requests
  | tail _ hstep ih => exact ih.step hstep

/-- A property of the store that what a query picks preserves holds in every interleaving. -/
theorem Reaches.invariant {I : σ → Prop} {requests : List ρ} (h : pool.Reaches s requests w)
    (hstart : I s)
    (htake : ∀ s r xs, I s → (∀ x ∈ xs, x ∈ pool.rows r s) → xs.length ≤ pool.limit r →
      I (pool.take r xs s)) :
    I w.store := by
  induction h with
  | refl => exact hstart
  | @tail w w' hreach hstep ih =>
      cases hstep.move with
      | queries r xs hpicks hstore => exact hstore ▸ ih
      | commits r xs hlegal hstore hgiven hholds =>
          rw [hstore]
          have hexclusive : pool.Exclusive w := Reaches.exclusive hreach
          have hheld := hholds.mem_iff.2 List.mem_cons_self
          exact htake _ r xs ih (hexclusive.held _ hheld) (hexclusive.few _ hheld)
      | rollsBack r xs hback hstore => exact hstore ▸ ih

/-- What a commit makes of its rows lasts: later commits have other rows. -/
theorem Reaches.lasting {I : σ → Prop} {Q : ρ → ι → σ → Prop} {requests : List ρ}
    (h : pool.Reaches s requests w) (hstart : I s)
    (htake : ∀ s r xs, I s → (∀ x ∈ xs, x ∈ pool.rows r s) → xs.length ≤ pool.limit r →
      I (pool.take r xs s))
    (hnew : ∀ s r xs, I s → (∀ x ∈ xs, x ∈ pool.rows r s) → xs.length ≤ pool.limit r →
      ∀ x ∈ xs, Q r x (pool.take r xs s))
    (hlater : ∀ s r xs r' x, x ∉ xs → Q r' x s → Q r' x (pool.take r xs s)) :
    ∀ e ∈ w.done, ∀ x ∈ e.2, Q e.1 x w.store := by
  induction h with
  | refl =>
      intro e he
      simp [World.start, World.done, List.filterMap_map, Taker.done] at he
  | @tail w w' hreach hstep ih =>
      have hexclusive : pool.Exclusive w := Reaches.exclusive hreach
      cases hstep.move with
      | queries r xs hpicks hstore hgiven hholds hdone =>
          rw [hstore, hdone]
          exact ih
      | commits r xs hlegal hstore hgiven hholds hdone =>
          have hmem := hholds.mem_iff.2 List.mem_cons_self
          have hheld := hexclusive.held _ hmem
          rw [hstore]
          intro e he x hx
          rcases List.mem_cons.1 (hdone.mem_iff.1 he) with rfl | he
          · have hbefore : I w.store := Reaches.invariant hreach hstart htake
            exact hnew _ _ _ hbefore hheld (hexclusive.few _ hmem) x hx
          · have hother : x ∉ xs := fun hx' => hexclusive.gone e he x hx r (hheld x hx')
            exact hlater _ _ _ _ x hother (ih e he x hx)
      | rollsBack r xs hback hstore hholds hdone =>
          rw [hstore, hdone]
          exact ih

/-- The transactions so far are serial in the order of their queries, once the holders of locks have
written. -/
def SerialSoFar (pool : Pool ρ ι σ) (s : σ) (w : World ρ ι σ) : Prop :=
  w.given.Perm w.taken ∧
    ∃ s', pool.Serial s w.given s' ∧ pool.alike s' (pool.settle w.holds w.store)

theorem SerialSoFar.step (h : pool.SerialSoFar s w) (hexclusive : pool.Exclusive w)
    (hstep : pool.Step w w') (hback : ∀ t ∈ w'.takers, t.isRolledBack = false) :
    pool.SerialSoFar s w' := by
  obtain ⟨hperm, s', hserial, halike⟩ := h
  cases hstep.move with
  | queries r xs hpicks hstore hgiven hholds hdone =>
      have hrows : pool.rows r (pool.settle w.holds w.store) =
          (pool.rows r w.store).filter (· ∉ w.locked) :=
        rows_settle hexclusive.disjoint_held hexclusive.held
      have hserved := (hpicks.settled hrows before_settle).alike (pool.alike.symm' halike)
      have happart : ((r, xs) :: w.holds).Pairwise fun a b => a.2.Disjoint b.2 := by
        refine (apart_perm hholds).1 ?_
        exact (hexclusive.step hstep).disjoint_held
      refine ⟨?_, _, hgiven ▸ hserial.snoc hserved, ?_⟩
      · rw [hgiven]
        refine List.perm_append_comm.trans ((hperm.cons _).trans ?_)
        refine (taken_perm.cons _).trans (.trans ?_ taken_perm.symm)
        rw [hdone]
        exact hholds.symm.append_right _
      · rw [hstore]
        refine pool.alike.trans' (pool.take_alike halike) ?_
        have hmoved : (w.holds ++ [(r, xs)]).Perm w'.holds :=
          List.perm_append_comm.trans hholds.symm
        have hlast : pool.alike (pool.settle (w.holds ++ [(r, xs)]) w.store)
            (pool.settle w'.holds w.store) :=
          settle_perm hmoved ((apart_perm List.perm_append_comm).2 happart)
        rwa [settle_concat] at hlast
  | commits r xs hlegal hstore hgiven hholds hdone =>
      refine ⟨?_, s', hgiven ▸ hserial, ?_⟩
      · rw [hgiven]
        refine (hperm.trans taken_perm).trans ((hholds.append_right _).trans ?_)
        exact (List.perm_middle.symm.trans (hdone.symm.append_left _)).trans taken_perm.symm
      · rw [hstore]
        exact pool.alike.trans' halike (settle_perm hholds hexclusive.disjoint_held)
  | rollsBack r xs hrolled =>
      obtain ⟨t, ht, hrolled⟩ := hrolled
      rw [hback t ht] at hrolled
      cases hrolled

theorem Step.keeps_rolledBack (h : pool.Step w w') {t : Taker ρ ι} (ht : t ∈ w.takers)
    (hback : t.isRolledBack = true) : t ∈ w'.takers := by
  have hother {pre post : List (Taker ρ ι)} {a b : Taker ρ ι} (hmem : t ∈ pre ++ a :: post)
      (hne : t ≠ a) : t ∈ pre ++ b :: post := by
    simp only [List.mem_append, List.mem_cons] at hmem ⊢
    tauto
  cases h with
  | queries | commits | rollsBack =>
      refine hother ht ?_
      rintro rfl
      cases hback

/-- Transactions that all commit have been served one after another, in the order of their
queries. -/
theorem Reaches.serial {requests : List ρ} (h : pool.Reaches s requests w)
    (hall : ∀ t ∈ w.takers, t.done.isSome) :
    w.given.Perm w.done ∧ ∃ s', pool.Serial s w.given s' ∧ pool.alike s' w.store := by
  have hsofar : (∀ t ∈ w.takers, t.isRolledBack = false) → pool.SerialSoFar s w := by
    clear hall
    induction h with
    | refl =>
        intro _
        refine ⟨?_, s, .nil, ?_⟩
        · simp [World.start, World.taken, List.filterMap_map, Taker.taken]
        · have hholds : (World.start s requests : World ρ ι σ).holds = [] := by
            simp [World.start, World.holds, List.filterMap_map, Taker.hold]
          rw [hholds]
          exact pool.alike.refl' _
    | @tail w w' hreach hstep ih =>
        intro hback
        have hbefore : ∀ t ∈ w.takers, t.isRolledBack = false := by
          intro t ht
          by_contra hrolled
          rw [Bool.not_eq_false] at hrolled
          have hkept := hback t (hstep.keeps_rolledBack ht hrolled)
          rw [hrolled] at hkept
          cases hkept
        exact (ih hbefore).step (Reaches.exclusive hreach) hstep hback
  have hholds : w.holds = [] := by
    refine List.filterMap_eq_nil_iff.2 fun t ht => ?_
    have hdone := hall t ht
    cases t <;> simp_all [Taker.done, Taker.hold]
  obtain ⟨hperm, s', hserial, halike⟩ := hsofar fun t ht => by
    have hdone := hall t ht
    cases t <;> simp_all [Taker.done, Taker.isRolledBack]
  refine ⟨?_, s', hserial, ?_⟩
  · have htaken := hperm.trans taken_perm
    rwa [hholds, List.nil_append] at htaken
  · rwa [hholds] at halike

end Pool

end SkipLocked
