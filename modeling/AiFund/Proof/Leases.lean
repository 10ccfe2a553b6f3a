import AiFund.Proof.Outbox

/-!
# Leases of events

While a lease runs, an event that is not delivered stays with its holder, unless somebody hands it
back.
-/

namespace AiFund

open UnitOfWork Rows History

variable {db : Db} {op : OutboxOp} {id : Nat} {rows : List OutboxEvent} {workerId : String}
  {leaseEnd now : Time}

/-- The lease is over by `now`, or the event is delivered, or it is the holder's under that
lease. -/
def Leased (rows : List OutboxEvent) (id : Nat) (workerId : String) (leaseEnd now : Time) : Prop :=
  leaseEnd ≤ now ∨ ∃ row, rows[id]? = some row ∧ (row.deliveredAt ≠ none ∨
    row.claimedBy = some workerId ∧ row.leaseExpiresAt = some leaseEnd)

/-- An event that is handed out is leased. -/
theorem OutboxOp.Moves.leased {effect : OutboxEffect} (h : op.Moves db effect)
    (hid : id ∈ effect.handed) : Leased effect.outbox id op.workerId op.leaseEnd op.env.now := by
  cases h with
  | raises | repeats | publishes | acks | nacks => cases hid
  | @consumes locked limit leaseSeconds hcall =>
      obtain ⟨row, hrow, -⟩ := of_mem_consumable hid
      refine .inr ⟨row.consumedBy op.workerId op.leaseEnd, ?_, .inr ⟨rfl, rfl⟩⟩
      have hend : op.leaseEnd = op.env.now + leaseSeconds := by rw [leaseEnd, hcall]
      change (claimed _ _ _ db.outbox)[id]? = _
      rw [getElem?_claimed nodup_consumable, if_pos hid, hrow, hend]
      rfl

/-- The lease of an event outlasts every operation that does not hand it back. -/
theorem OutboxOp.Moves.keepsLease {effect : OutboxEffect} (h : op.Moves db effect)
    (hleased : Leased db.outbox id workerId leaseEnd now) (hclock : now ≤ op.env.now)
    (hspares : op.SparesLeases db)
    (hback : ¬ (op.workerId = workerId ∧ op.call.nacks = some id)) :
    Leased effect.outbox id workerId leaseEnd op.env.now := by
  by_cases hover : leaseEnd ≤ op.env.now
  · exact .inl hover
  have hruns : op.env.now < leaseEnd := not_le.1 hover
  refine .inr ?_
  obtain hover' | ⟨row, hrow, hdelivered | ⟨hholder, hlease⟩⟩ := hleased
  · exact absurd (hover'.trans hclock) hover
  · obtain ⟨row', hrow', hmoved⟩ := h.row_after hrow
    exact ⟨row', hrow', .inl fun hnone => hdelivered (hmoved.delivered.1 hnone).1⟩
  have hsame (hrow' : effect.outbox[id]? = some row) : ∃ row, effect.outbox[id]? = some row ∧
      (row.deliveredAt ≠ none ∨ row.claimedBy = some workerId ∧
        row.leaseExpiresAt = some leaseEnd) :=
    ⟨row, hrow', .inr ⟨hholder, hlease⟩⟩
  cases h with
  | raises | repeats => exact hsame hrow
  | publishes => exact hsame (getElem?_append_of_some hrow)
  | @consumes locked limit leaseSeconds hcall =>
      refine hsame ?_
      change (claimed _ _ _ db.outbox)[id]? = some row
      rw [getElem?_claimed nodup_consumable, if_neg fun hid => ?_, hrow]
      -- The query passes over a row whose lease runs.
      obtain ⟨found, hfound, hdeliverable⟩ := of_mem_consumable hid
      cases hrow.symm.trans hfound
      simp only [OutboxEvent.deliverable, hlease, Bool.and_eq_true, Option.all_some,
        decide_eq_true_eq] at hdeliverable
      exact absurd hdeliverable.2 (not_lt.2 hruns.le)
  | @acks acked _ hcall =>
      by_cases hid : id = acked
      · subst hid
        exact ⟨_, getElem?_modify_self hrow, .inl (Option.some_ne_none _)⟩
      · exact hsame ((getElem?_modify_of_ne hid).trans hrow)
  | @nacks nacked _ error backoffSeconds hcall =>
      by_cases hid : id = nacked
      · subst hid
        have hnacks : op.call.nacks = some id := by rw [hcall]; rfl
        by_cases hdelivered : row.deliveredAt = none
        · have howner := hspares id row leaseEnd hnacks hrow hdelivered hlease hruns
          exact absurd ⟨Option.some.inj (howner.symm.trans hholder), hnacks⟩ hback
        · exact ⟨_, getElem?_modify_self hrow, .inl hdelivered⟩
      · exact hsame ((getElem?_modify_of_ne hid).trans hrow)

/-- So does it outlast a history. -/
theorem Leased.run {ops : List OutboxOp} (h : Leased db.outbox id workerId leaseEnd now)
    (hclock : ∀ op ∈ ops, now ≤ op.env.now) (hclocked : Clocked ops)
    (hspares : EachStep OutboxOp.step (fun db op => op.SparesLeases db) db ops)
    (hback : ∀ op ∈ ops, ¬ (op.workerId = workerId ∧ op.call.nacks = some id)) :
    ∃ later, Leased (runOutbox db ops).outbox id workerId leaseEnd later ∧
      (later = now ∨ ∃ op ∈ ops, op.env.now = later) := by
  induction ops generalizing db now with
  | nil => exact ⟨now, h, .inl rfl⟩
  | cons op ops ih =>
      have hstep := (op.moves db).keepsLease h (hclock op List.mem_cons_self) hspares.1
        (hback op List.mem_cons_self)
      have hlater := (List.pairwise_cons.1 hclocked).1
      obtain ⟨later, hleased, rfl | ⟨last, hlast, rfl⟩⟩ :=
        ih hstep hlater (List.pairwise_cons.1 hclocked).2 hspares.2
          fun op' hop' => hback op' (List.mem_cons_of_mem op hop')
      · exact ⟨_, hleased, .inr ⟨op, List.mem_cons_self, rfl⟩⟩
      · exact ⟨_, hleased, .inr ⟨last, List.mem_cons_of_mem op hlast, rfl⟩⟩

/-- Nobody else is handed an event while its holder's lease runs, in every history in which no
worker hands back an event that another one holds. -/
theorem exclusiveLeases {ops : List OutboxOp} (hclocked : Clocked ops)
    (hspares : EachStep OutboxOp.step (fun db op => op.SparesLeases db) db ops) :
    ExclusiveLeases db ops := by
  intro before between after op op' id hops hid hid'
  subst hops
  by_cases hback : ∃ back ∈ between, back.workerId = op.workerId ∧ back.call.nacks = some id
  · exact .inr hback
  refine .inl ?_
  have hbetween := (eachStep_append.1 (eachStep_append.1 hspares).2.2).1
  obtain ⟨hlater, hrest⟩ := List.pairwise_cons.1 (List.pairwise_append.1 hclocked).2.1
  have hnow : ∀ op ∈ between, op.env.now ≤ op'.env.now := fun op hop =>
    (List.pairwise_append.1 hrest).2.2 op hop op' List.mem_cons_self
  obtain ⟨later, hleased, hbefore⟩ := ((op.moves _).leased hid).run
    (fun op hop => hlater op (List.mem_append_left _ hop)) (List.pairwise_append.1 hrest).1
    hbetween fun op hop hown => hback ⟨op, hop, hown⟩
  have hreached : runOutbox db (before ++ op :: between) =
      runOutbox (op.step (runOutbox db before)) between :=
    run_append _
  rw [hreached] at hid'
  have hpast : later ≤ op'.env.now := by
    obtain rfl | ⟨last, hlast, rfl⟩ := hbefore
    · exact hlater op' (List.mem_append_right _ List.mem_cons_self)
    · exact hnow last hlast
  obtain ⟨row, hrow, hdeliverable⟩ := (op'.moves _).bounded.1 id hid'
  simp only [OutboxEvent.deliverable, Bool.and_eq_true, Option.isNone_iff_eq_none,
    decide_eq_true_eq, Option.all_eq_true] at hdeliverable
  obtain hover | ⟨found, hfound, hdelivered | ⟨-, hlease⟩⟩ := hleased
  · exact hover.trans hpast
  · cases hrow.symm.trans hfound
    exact absurd hdeliverable.1.1 hdelivered
  · cases hrow.symm.trans hfound
    exact (hdeliverable.2 _ hlease).le

theorem OutboxOp.SparesLeases.of_others (h : op.call.nacks = none) : op.SparesLeases db := by
  intro id row lease hnacks
  rw [h] at hnacks
  cases hnacks

namespace OutboxOp

def publishedAt (time : Time) : OutboxOp :=
  ⟨.quiet time, "core", .publish "run.finished" [] none none "run.finished:0"⟩

def consumedAt (time : Time) (workerId : String) (leaseSeconds : ℚ) : OutboxOp :=
  ⟨.quiet time, workerId, .consume [] 10 leaseSeconds⟩

def nackedAt (time : Time) (workerId : String) : OutboxOp :=
  ⟨.quiet time, workerId, .nack 0 "post failed" 0⟩

/-- The first holder's lease lapses, the second holder hands the event back. -/
def handedBack : List OutboxOp :=
  [publishedAt 0, consumedAt 0 "a" 10, consumedAt 20 "b" 100, nackedAt 30 "b", consumedAt 40 "c" 10]

/-- The same, but it is the first holder who hands the event back, while the second one holds it. -/
def handedBackLate : List OutboxOp :=
  [publishedAt 0, consumedAt 0 "a" 10, consumedAt 20 "b" 100, nackedAt 30 "a", consumedAt 40 "c" 10]

end OutboxOp

theorem exclusiveLeases_handedBack :
    entitled {} [] OutboxOp.handedBack = true ∧ ExclusiveLeases {} OutboxOp.handedBack := by
  refine ⟨by decide +kernel, exclusiveLeases (by unfold Clocked; decide +kernel) ?_⟩
  refine ⟨.of_others rfl, .of_others rfl, .of_others rfl, ?_, .of_others rfl, trivial⟩
  rintro id row lease hnacks hrow - - -
  cases hnacks
  have hholder : (runOutbox {} (OutboxOp.handedBack.take 3)).outbox[0]?.map (·.claimedBy) =
      some (some "b") := by
    decide +kernel
  obtain ⟨found, hfound, hclaimed⟩ := Option.map_eq_some_iff.1 hholder
  cases hrow.symm.trans hfound
  exact hclaimed

/-- The late hand-back ends the lease of the second holder, and a third worker is handed the event
while that lease runs. -/
theorem not_exclusiveLeases_handedBackLate :
    Clocked OutboxOp.handedBackLate ∧ entitled {} [] OutboxOp.handedBackLate = true ∧
      ¬ ExclusiveLeases {} OutboxOp.handedBackLate := by
  refine ⟨by unfold Clocked; decide +kernel, by decide +kernel, fun h => ?_⟩
  obtain hover | ⟨back, hback, hown, -⟩ := h [.publishedAt 0, .consumedAt 0 "a" 10]
    [.nackedAt 30 "a"] [] (.consumedAt 20 "b" 100) (.consumedAt 40 "c" 10) 0 rfl
    (by decide +kernel) (by decide +kernel)
  · revert hover
    decide +kernel
  · rw [List.mem_singleton.1 hback] at hown
    revert hown
    decide

end AiFund
