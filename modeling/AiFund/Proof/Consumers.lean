import AiFund.Proof.Claims
import AiFund.Proof.Outbox

/-!
# Concurrent consumers

Workers consume the outbox with `FOR UPDATE SKIP LOCKED`. However their transactions interleave, no
event is handed to two of them while the leases run, and consumers that all commit have been served
one after another.
-/

namespace AiFund

open UnitOfWork Rows SkipLocked

/-- A consumption that has begun by the time `t`, under a lease that does not run out before. -/
structure ConsumeRequest (t : Time) where
  env : Env
  workerId : String
  limit : Nat
  leaseSeconds : ℚ
  begun : env.now ≤ t
  leased : t ≤ env.now + leaseSeconds

namespace ConsumeRequest

variable {t : Time}

def leaseEnd (r : ConsumeRequest t) : Time := r.env.now + r.leaseSeconds

/-- The events that the consume query matches. -/
def events (r : ConsumeRequest t) (db : Db) : List Nat :=
  ids (·.deliverable r.env.now) db.outbox

/-- What the commit of a consumption writes. -/
def hand (r : ConsumeRequest t) (handed : List Nat) (db : Db) : Db :=
  { db with outbox := claimed handed r.workerId r.leaseEnd db.outbox }

/-- A consumption that meets no other, when the store returns unordered rows in this order. -/
def exec (r : ConsumeRequest t) (order : RowOrder) (db : Db) : Outcome Db PyError (List Nat) :=
  commit (consume { r.env with rows := Function.update r.env.rows .pendingEvents order } []
    r.workerId r.limit r.leaseSeconds) db

end ConsumeRequest

/-! ## What a consumption reads and writes -/

section Consume

variable {t : Time} {r r' : ConsumeRequest t} {db : Db} {xs ys : List Nat} {id : Nat}

theorem claimed_comm {workerId workerId' : String} {leaseEnd leaseEnd' : Time}
    {rows : List OutboxEvent} (h : xs.Disjoint ys) :
    claimed xs workerId leaseEnd (claimed ys workerId' leaseEnd' rows) =
      claimed ys workerId' leaseEnd' (claimed xs workerId leaseEnd rows) := by
  have hone (x : Nat) (ys : List Nat) (rows : List OutboxEvent) (hx : x ∉ ys) :
      (claimed ys workerId' leaseEnd' rows).modify x
        (fun event => event.consumedBy workerId leaseEnd) =
      claimed ys workerId' leaseEnd'
        (rows.modify x fun event => event.consumedBy workerId leaseEnd) := by
    induction ys generalizing rows with
    | nil => rfl
    | cons y ys ih =>
        rw [List.mem_cons, not_or] at hx
        refine (ih _ hx.2).trans ?_
        exact congrArg (claimed ys workerId' leaseEnd')
          (List.modify_modify_ne _ _ _ (Ne.symm hx.1))
  induction xs generalizing rows with
  | nil => rfl
  | cons x xs ih =>
      rw [List.disjoint_cons_left] at h
      calc
        claimed (x :: xs) workerId leaseEnd (claimed ys workerId' leaseEnd' rows) =
            claimed xs workerId leaseEnd (claimed ys workerId' leaseEnd'
              (rows.modify x fun event => event.consumedBy workerId leaseEnd)) :=
          congrArg (claimed xs workerId leaseEnd) (hone x ys rows h.1)
        _ = claimed ys workerId' leaseEnd' (claimed (x :: xs) workerId leaseEnd rows) := ih h.2

theorem length_claimed {workerId : String} {leaseEnd : Time} {rows : List OutboxEvent} :
    (claimed xs workerId leaseEnd rows).length = rows.length := by
  have hmap : (claimed xs workerId leaseEnd rows).map (fun _ => ()) = rows.map fun _ => () :=
    map_claimed fun _ => rfl
  simpa using congrArg List.length hmap

theorem getElem?_claimed_of_not_mem {workerId : String} {leaseEnd : Time}
    {rows : List OutboxEvent} (h : id ∉ xs) :
    (claimed xs workerId leaseEnd rows)[id]? = rows[id]? := by
  induction xs generalizing rows with
  | nil => rfl
  | cons x xs ih =>
      rw [List.mem_cons, not_or] at h
      exact (ih h.2).trans (getElem?_modify_of_ne h.1)

/-- The last of the writes to an event gives it the lease of the consumption. -/
theorem getElem?_claimed_of_mem {workerId : String} {leaseEnd : Time} {rows : List OutboxEvent}
    {row : OutboxEvent} (h : id ∈ xs)
    (hrow : (claimed xs workerId leaseEnd rows)[id]? = some row) :
    row.leaseExpiresAt = some leaseEnd ∧ row.claimedBy = some workerId := by
  induction xs generalizing rows with
  | nil => cases h
  | cons x xs ih =>
      by_cases hid : id ∈ xs
      · exact ih hid hrow
      · obtain rfl : id = x := (List.mem_cons.1 h).resolve_right hid
        have hwritten : (rows.modify id fun event => event.consumedBy workerId leaseEnd)[id]? =
            some row := (getElem?_claimed_of_not_mem hid).symm.trans hrow
        obtain ⟨-, old, -, rfl⟩ | ⟨hne, -⟩ := getElem?_modify_cases hwritten
        · exact ⟨rfl, rfl⟩
        · exact absurd rfl hne

theorem ConsumeRequest.availableBefore_hand :
    availableBefore (r.hand xs db) = availableBefore db := by
  have hmap : (r.hand xs db).outbox.map (·.availableAt) = db.outbox.map (·.availableAt) :=
    map_claimed fun _ => rfl
  funext a b
  simp only [availableBefore, ← List.getElem?_map, hmap]

/-- What is handed out is out of sight until its lease runs out. -/
theorem ConsumeRequest.events_hand :
    r.events (r'.hand ys db) = (r.events db).filter (· ∉ ys) := by
  unfold events ids
  rw [hand, length_claimed, List.filter_filter]
  refine List.filter_congr fun k _ => ?_
  by_cases hk : k ∈ ys
  · cases hrow : (claimed ys r'.workerId r'.leaseEnd db.outbox)[k]? with
    | none => simp [hk]
    | some row =>
        have hlease := (getElem?_claimed_of_mem hk hrow).1
        have hlate : ¬ r'.leaseEnd < r.env.now := not_lt.2 (r.begun.trans r'.leased)
        simp [hk, OutboxEvent.deliverable, hlease, hlate]
  · rw [getElem?_claimed_of_not_mem hk]
    simp [hk]

end Consume

/-- The outbox as a pool that workers consume from. -/
def consumePool (t : Time) : Pool (ConsumeRequest t) Nat Db where
  rows := ConsumeRequest.events
  before db a b := availableBefore db a b
  limit r := r.limit
  take := ConsumeRequest.hand
  legal db := Schema.violation db = none
  alike := ⟨Eq, eq_equivalence⟩
  rows_alike h := by rw [show _ = _ from h]
  before_alike h := by rw [show _ = _ from h]
  take_alike h := congrArg _ h
  take_comm h := by
    change ConsumeRequest.hand _ _ _ = ConsumeRequest.hand _ _ _
    simp only [ConsumeRequest.hand, claimed_comm h]
  before_take := by
    intros
    simp only [ConsumeRequest.availableBefore_hand]
  rows_take _ := ConsumeRequest.events_hand

/-! ## Consumptions one after another -/

/-- The consumptions are made one after another, each in a transaction of its own; events that
became available together are ordered as the store likes. -/
inductive ConsumedInTurn {t : Time} (db : Db) : List (ConsumeRequest t × List Nat) → Db → Prop
  | nil : ConsumedInTurn db [] db
  | snoc {served : List (ConsumeRequest t × List Nat)} {db' : Db} {r : ConsumeRequest t}
      {handed : List Nat} (h : ConsumedInTurn db served db') (order : RowOrder)
      (hresult : (r.exec order db').result = .ok handed) :
      ConsumedInTurn db (served ++ [(r, handed)]) (r.exec order db').after

section InTurn

variable {t : Time} {r : ConsumeRequest t} {db : Db} {xs : List Nat}

theorem ConsumeRequest.violation_hand (hdb : Schema.violation db = none) :
    Schema.violation (r.hand xs db) = none :=
  (Db.violation_outbox (map_claimed fun _ => rfl)).trans hdb

/-- A consumption returns the first events in some order of its query, and leases them. -/
theorem ConsumeRequest.exec_giving {l : List Nat} (hdb : Schema.violation db = none)
    (hperm : l.Perm (r.events db))
    (hsorted : l.Pairwise fun a b => availableBefore db a b = true) :
    (r.exec (.giving l) db).result = .ok (l.take r.limit) ∧
      (r.exec (.giving l) db).after = r.hand (l.take r.limit) db := by
  have hconsumable : consumable
      { r.env with rows := Function.update r.env.rows .pendingEvents (.giving l) } [] r.limit db =
      l.take r.limit := by
    have horder : Function.update r.env.rows .pendingEvents (.giving l) .pendingEvents =
      RowOrder.giving l := Function.update_self ..
    have hall : l.filter (fun id => decide (id ∉ ([] : List Nat))) = l := by simp
    simp only [consumable, horder, RowOrder.all_giving hperm, hall]
    rw [List.Pairwise.insertionSort_eq hsorted]
  have hlegal : Schema.violation (r.hand (l.take r.limit) db) = none := violation_hand hdb
  have hreturns : Returns (consume
      { r.env with rows := Function.update r.env.rows .pendingEvents (.giving l) } [] r.workerId
      r.limit r.leaseSeconds) (Session.clean db) (l.take r.limit)
      ((Session.clean db).write (r.hand (l.take r.limit) db) (r.hand (l.take r.limit) db)) := by
    unfold consume
    rw [if_neg (not_lt.2 (Int.natCast_nonneg r.limit)), returns_select_bind, Int.toNat_natCast,
      show (Session.clean db).stored = db from rfl, hconsumable]
    refine returns_bind.2 ⟨⟨⟩, _, returns_forM_updateEvent.2 rfl, ?_⟩
    exact returns_flush_bind.2 ⟨hlegal, returns_pure.2 ⟨rfl, rfl⟩⟩
  unfold exec
  rw [commit_of_returns hreturns hlegal]
  exact ⟨rfl, rfl⟩

/-- Serial consumptions from the pool are consumptions one after another. -/
theorem consumedInTurn_of_serial {served : List (ConsumeRequest t × List Nat)} {db' : Db}
    (h : (consumePool t).Serial db served db') (hdb : Schema.violation db = none) :
    ConsumedInTurn db served db' ∧ Schema.violation db' = none := by
  induction h with
  | nil => exact ⟨.nil, hdb⟩
  | @snoc served db' r xs _ hpicks ih =>
      obtain ⟨hturn, hdb'⟩ := ih
      obtain ⟨l, hperm, hsorted, rfl⟩ := hpicks
      have hall : l.Perm (r.events db') := by
        refine hperm.trans (.of_eq ?_)
        simp [consumePool]
      obtain ⟨hresult, hafter⟩ := r.exec_giving hdb' hall hsorted
      refine ⟨?_, ConsumeRequest.violation_hand hdb'⟩
      have hsnoc := hturn.snoc (.giving l) hresult
      rw [hafter] at hsnoc
      exact hsnoc

end InTurn

/-! ## Every interleaving -/

variable {t : Time} {db : Db} {requests : List (ConsumeRequest t)}
  {w : World (ConsumeRequest t) Nat Db}

/-- The event is leased to the worker of the consumption. -/
def ConsumeRequest.Has (r : ConsumeRequest t) (eventId : Nat) (db : Db) : Prop :=
  ∃ event, db.outbox[eventId]? = some event ∧ event.claimedBy = some r.workerId ∧
    event.leaseExpiresAt = some r.leaseEnd

theorem ConsumeRequest.has_hand {r : ConsumeRequest t} {xs : List Nat}
    (hrows : ∀ x ∈ xs, x ∈ r.events db) : ∀ x ∈ xs, r.Has x (r.hand xs db) := by
  intro x hx
  obtain ⟨event, hevent, -⟩ := mem_ids.1 (hrows x hx)
  have hlt : x < (r.hand xs db).outbox.length := by
    rw [hand, length_claimed]
    exact (List.getElem?_eq_some_iff.1 hevent).1
  have hrow := List.getElem?_eq_getElem hlt
  obtain ⟨hlease, hworker⟩ := getElem?_claimed_of_mem hx hrow
  exact ⟨_, hrow, hworker, hlease⟩

theorem ConsumeRequest.Has.hand {r r' : ConsumeRequest t} {id : Nat} {xs : List Nat}
    (h : r.Has id db) (hid : id ∉ xs) : r.Has id (r'.hand xs db) := by
  obtain ⟨event, hevent, hrest⟩ := h
  exact ⟨event, (getElem?_claimed_of_not_mem hid).trans hevent, hrest⟩

/-- However the consumptions interleave and whichever of them roll back, no event goes to two of
them: each event that was handed out is leased to the worker whose consumption committed. -/
theorem consumers_exclusive (h : (consumePool t).Reaches db requests w) :
    (w.taken.Pairwise fun a b => a.2.Disjoint b.2) ∧
      ∀ e ∈ w.done, ∀ eventId ∈ e.2, e.1.Has eventId w.store := by
  refine ⟨h.exclusive.apart, ?_⟩
  exact h.lasting (I := fun _ => True) trivial (fun _ _ _ _ _ _ => trivial)
    (fun _ _ _ _ hrows _ => ConsumeRequest.has_hand hrows)
    fun _ _ _ _ _ hid hhas => hhas.hand hid

/-- Consumptions that all commit, in any interleaving, have been made one after another in the order
of their queries. -/
theorem consumers_serializable (hdb : Schema.violation db = none)
    (h : (consumePool t).Reaches db requests w) (hall : ∀ taker ∈ w.takers, taker.done.isSome) :
    w.given.Perm w.done ∧ ConsumedInTurn db w.given w.store := by
  obtain ⟨hperm, db', hserial, halike⟩ := h.serial hall
  obtain rfl : db' = w.store := halike
  exact ⟨hperm, (consumedInTurn_of_serial hserial hdb).1⟩

/-! ## Two workers -/

def finishedEvent (dedupeKey : String) (availableAt : Time) : OutboxEvent :=
  { kind := "run.finished", coverageId := none, runId := none, payload := [],
    dedupeKey := .named dedupeKey, availableAt }

def Db.twoEvents : Db := { outbox := [finishedEvent "a" 0, finishedEvent "b" 1] }

def consumeBy (workerId : String) : ConsumeRequest 5 :=
  ⟨.quiet 5, workerId, 1, 60, by decide +kernel, by decide +kernel⟩

/-- The second worker skips the event that the first has locked, and commits before it. -/
theorem reaches_twoEvents : ∃ w, (consumePool 5).Reaches .twoEvents
    [consumeBy "w1", consumeBy "w2"] w ∧
    w.takers = [.committed (consumeBy "w1") [0], .committed (consumeBy "w2") [1]] := by
  have hfirst : (consumePool 5).Picks (consumeBy "w1") [] .twoEvents [0] :=
    ⟨[0, 1], by decide +kernel, by decide +kernel, rfl⟩
  have hsecond : (consumePool 5).Picks (consumeBy "w2") [0] .twoEvents [1] :=
    ⟨[1], by decide +kernel, by decide +kernel, rfl⟩
  have hlegal : Schema.violation ((consumeBy "w2").hand [1] .twoEvents) = none ∧
      Schema.violation ((consumeBy "w1").hand [0] ((consumeBy "w2").hand [1] .twoEvents)) =
        none := by
    decide +kernel
  have hstart : (consumePool 5).Reaches .twoEvents [consumeBy "w1", consumeBy "w2"]
      (.start _ _) := .refl
  have hone := hstart.tail (.queries [] [.waiting (consumeBy "w2")] (consumeBy "w1") [0] hfirst)
  have htwo := hone.tail (.queries [.holding (consumeBy "w1") [0]] [] (consumeBy "w2") [1] hsecond)
  have hthree := htwo.tail (.commits [.holding (consumeBy "w1") [0]] [] _ _ hlegal.1)
  have hfour := hthree.tail (.commits [] [.committed (consumeBy "w2") [1]] _ _ hlegal.2)
  exact ⟨_, hfour, rfl⟩

theorem consumers_exclusive_twoEvents : ∃ w : World (ConsumeRequest 5) Nat Db,
    w.takers = [.committed (consumeBy "w1") [0], .committed (consumeBy "w2") [1]] ∧
      (w.taken.Pairwise fun a b => a.2.Disjoint b.2) ∧
      ∀ e ∈ w.done, ∀ eventId ∈ e.2, e.1.Has eventId w.store := by
  obtain ⟨w, hreach, htakers⟩ := reaches_twoEvents
  exact ⟨w, htakers, consumers_exclusive hreach⟩

theorem consumers_serializable_twoEvents : ∃ w : World (ConsumeRequest 5) Nat Db,
    w.takers = [.committed (consumeBy "w1") [0], .committed (consumeBy "w2") [1]] ∧
      w.given.Perm w.done ∧ ConsumedInTurn .twoEvents w.given w.store := by
  obtain ⟨w, hreach, htakers⟩ := reaches_twoEvents
  refine ⟨w, htakers, consumers_serializable (by decide +kernel) hreach ?_⟩
  rw [htakers]
  decide

end AiFund
