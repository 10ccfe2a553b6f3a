import AiFund.OutboxSystem

/-!
# What the outbox keeps

What one operation does to the events, and from it what every history keeps of them.
-/

namespace AiFund

open UnitOfWork Rows

variable {db : Db} {env : Env} {op : OutboxOp} {id : Nat} {row : OutboxEvent}

/-! ## One operation -/

/-- The outbox after an operation, the events that it hands out, what it publishes and which event
it acknowledges. -/
structure OutboxEffect where
  outbox : List OutboxEvent
  handed : List Nat := []
  published : Option (String × String × JsonObject) := none
  acked : Option Nat := none

/-- The outbox after a worker has consumed some events. -/
def claimed (ids : List Nat) (workerId : String) (leaseEnd : Time) (rows : List OutboxEvent) :
    List OutboxEvent :=
  ids.foldl (fun rows id => rows.modify id fun event => event.consumedBy workerId leaseEnd) rows

inductive OutboxOp.Moves (db : Db) (op : OutboxOp) : OutboxEffect → Prop
  | raises : Moves db op ⟨db.outbox, [], none, none⟩
  | repeats {kind key : String} {payload : JsonObject} {coverageId runId : Option Nat}
      {event : OutboxEvent} (hcall : op.call = .publish kind payload coverageId runId key)
      (hevent : event ∈ db.outbox) (hkey : event.dedupeKey = .named key) :
      Moves db op ⟨db.outbox, [], some (key, kind, payload), none⟩
  | publishes {kind key : String} {payload : JsonObject} {coverageId runId : Option Nat}
      (hcall : op.call = .publish kind payload coverageId runId key)
      (hnew : ∀ event ∈ db.outbox, event.dedupeKey ≠ .named key) :
      Moves db op
        ⟨db.outbox ++ [{ kind, coverageId, runId, payload, dedupeKey := .named key,
                         availableAt := op.env.now }], [], some (key, kind, payload), none⟩
  | consumes {locked : List Nat} {limit : Int} {leaseSeconds : ℚ}
      (hcall : op.call = .consume locked limit leaseSeconds) :
      Moves db op
        ⟨claimed (consumable op.env locked limit.toNat db) op.workerId
          (op.env.now + leaseSeconds) db.outbox, consumable op.env locked limit.toNat db, none, none⟩
  | acks {id : Nat} {row : OutboxEvent} (hcall : op.call = .ack id)
      (hrow : db.outbox[id]? = some row) :
      Moves db op
        ⟨db.outbox.modify id fun event => event.acked op.env.now, [], none, some id⟩
  | nacks {id : Nat} {row : OutboxEvent} {error : String} {backoffSeconds : ℚ}
      (hcall : op.call = .nack id error backoffSeconds) (hrow : db.outbox[id]? = some row) :
      Moves db op
        ⟨db.outbox.modify id fun event => event.nacked error (op.env.now + backoffSeconds),
          [], none, none⟩

theorem returns_publish {kind key : String} {payload : JsonObject} {coverageId runId : Option Nat}
    {u : Unit} {s' : Session Db}
    (h : Returns (publish env kind payload coverageId runId key) (Session.clean db) u s') :
    (s' = Session.clean db ∧ ∃ event ∈ db.outbox, event.dedupeKey = .named key) ∨
      (∀ event ∈ db.outbox, event.dedupeKey ≠ .named key) ∧
        s'.loaded.outbox = db.outbox ++
          [{ kind, coverageId, runId, payload, dedupeKey := .named key,
             availableAt := env.now }] := by
  unfold publish at h
  rw [returns_select_bind] at h
  cases hfind : (Session.clean db).stored.outbox.find? fun event =>
      event.dedupeKey = .named key with
  | some event =>
      rw [hfind] at h
      obtain ⟨-, rfl⟩ := returns_pure.1 h
      exact .inl ⟨rfl, event, List.mem_of_find?_eq_some hfind, by simpa using List.find?_some hfind⟩
  | none =>
      rw [hfind] at h
      have hflush := returns_assign_bind.1 h
      obtain ⟨-, rfl⟩ := returns_flush.1 hflush
      refine .inr ⟨fun event hevent => ?_, rfl⟩
      simpa using List.find?_eq_none.1 hfind event hevent

theorem returns_forM_updateEvent {ids : List Nat} {f : OutboxEvent → OutboxEvent} {u : Unit}
    {s s' : Session Db} :
    Returns (ids.forM fun id => assign fun db => db.updateEvent id f : DbTxn Unit) s u s' ↔
      s' = { s with
        loaded :=
          { s.loaded with
            outbox := ids.foldl (fun rows id => rows.modify id f) s.loaded.outbox } } := by
  have houtbox : ids.foldl (fun db id => db.updateEvent id f) s.loaded = { s.loaded with
      outbox := ids.foldl (fun rows id => rows.modify id f) s.loaded.outbox } :=
    List.foldl_hom (fun rows => { s.loaded with outbox := rows }) fun _ _ => rfl
  rw [returns_forM_assign, houtbox]

theorem returns_consume {locked ids : List Nat} {workerId : String} {limit : Int}
    {leaseSeconds : ℚ} {s' : Session Db}
    (h : Returns (consume env locked workerId limit leaseSeconds) (Session.clean db) ids s') :
    ids = consumable env locked limit.toNat db ∧
      s'.loaded.outbox = claimed ids workerId (env.now + leaseSeconds) db.outbox := by
  unfold consume at h
  split at h
  · exact absurd h not_returns_raise
  · rw [returns_select_bind] at h
    obtain ⟨_, s₁, hclaim, hrest⟩ := returns_bind.1 h
    obtain rfl := returns_forM_updateEvent.1 hclaim
    obtain ⟨-, hpure⟩ := returns_flush_bind.1 hrest
    obtain ⟨rfl, rfl⟩ := returns_pure.1 hpure
    exact ⟨rfl, rfl⟩

theorem returns_ack {u : Unit} {s' : Session Db}
    (h : Returns (ack env id) (Session.clean db) u s') :
    (∃ row, db.outbox[id]? = some row) ∧
      s'.loaded.outbox = db.outbox.modify id fun event => event.acked env.now := by
  obtain ⟨-, row, hrow, hrest⟩ := returns_getRow_bind.1 h
  obtain ⟨-, rfl⟩ := returns_flush.1 (returns_assign_bind.1 hrest)
  exact ⟨⟨row, hrow⟩, rfl⟩

theorem returns_nack {error : String} {backoffSeconds : ℚ} {u : Unit} {s' : Session Db}
    (h : Returns (nack env id error backoffSeconds) (Session.clean db) u s') :
    (∃ row, db.outbox[id]? = some row) ∧
      s'.loaded.outbox = db.outbox.modify id fun event =>
        event.nacked error (env.now + backoffSeconds) := by
  obtain ⟨-, row, hrow, hrest⟩ := returns_getRow_bind.1 h
  obtain ⟨-, rfl⟩ := returns_flush.1 (returns_assign_bind.1 hrest)
  exact ⟨⟨row, hrow⟩, rfl⟩

/-- Every operation makes one of the moves. -/
theorem OutboxOp.moves (db : Db) (op : OutboxOp) :
    op.Moves db ⟨(op.step db).outbox, op.handsOut db, op.publishes db, op.acks db⟩ := by
  unfold step handsOut publishes acks exec
  obtain ⟨error, hcommit⟩ | ⟨ids, s, hperform, -, hcommit⟩ := commit_cases op.perform db
  · rw [hcommit]
    cases op.call <;> exact .raises
  rw [hcommit]
  unfold perform at hperform
  split at hperform
  · rename_i hcall
    obtain ⟨_, s₁, hpublish, hpure⟩ := returns_bind.1 hperform
    obtain ⟨rfl, rfl⟩ := returns_pure.1 hpure
    simp only [hcall]
    obtain ⟨rfl, event, hevent, hkey⟩ | ⟨hnew, houtbox⟩ := returns_publish hpublish
    · exact .repeats hcall hevent hkey
    · rw [houtbox]
      exact .publishes hcall hnew
  · rename_i hcall
    obtain ⟨rfl, houtbox⟩ := returns_consume hperform
    simp only [hcall, houtbox]
    exact .consumes hcall
  · rename_i hcall
    obtain ⟨_, s₁, hack, hpure⟩ := returns_bind.1 hperform
    obtain ⟨rfl, rfl⟩ := returns_pure.1 hpure
    obtain ⟨⟨row, hrow⟩, houtbox⟩ := returns_ack hack
    simp only [hcall, houtbox]
    exact .acks hcall hrow
  · rename_i hcall
    obtain ⟨_, s₁, hnack, hpure⟩ := returns_bind.1 hperform
    obtain ⟨rfl, rfl⟩ := returns_pure.1 hpure
    obtain ⟨⟨row, hrow⟩, houtbox⟩ := returns_nack hnack
    simp only [hcall, houtbox]
    exact .nacks hcall hrow

/-! ## The events -/

theorem nodup_consumable {locked : List Nat} {limit : Nat} :
    (consumable env locked limit db).Nodup := by
  have hfound : (((env.rows .pendingEvents).all (·.deliverable env.now) db.outbox).filter fun id =>
      id ∉ locked).Nodup :=
    (RowOrder.nodup_all _).filter _
  exact ((List.perm_insertionSort _ _).nodup_iff.2 hfound).sublist (List.take_sublist _ _)

theorem of_mem_consumable {locked : List Nat} {limit : Nat}
    (h : id ∈ consumable env locked limit db) :
    ∃ row, db.outbox[id]? = some row ∧ row.deliverable env.now = true := by
  have hsorted := List.mem_of_mem_take h
  rw [List.mem_insertionSort, List.mem_filter] at hsorted
  exact (RowOrder.mem_all _).1 hsorted.1

theorem getElem?_claimed {ids : List Nat} {workerId : String} {leaseEnd : Time}
    {rows : List OutboxEvent} (hnodup : ids.Nodup) :
    (claimed ids workerId leaseEnd rows)[id]? =
      if id ∈ ids then rows[id]?.map fun event => event.consumedBy workerId leaseEnd
      else rows[id]? :=
  getElem?_foldl_modify hnodup

/-- An operation leaves what a row was published with, counts the handovers and marks the row that
it acknowledges. -/
structure OutboxEvent.Moved (effect : OutboxEffect) (id : Nat) (row row' : OutboxEvent) : Prop where
  dedupeKey : row'.dedupeKey = row.dedupeKey
  kind : row'.kind = row.kind
  payload : row'.payload = row.payload
  attempts : row'.attempts = row.attempts + if id ∈ effect.handed then 1 else 0
  delivered : row'.deliveredAt = none ↔ row.deliveredAt = none ∧ effect.acked ≠ some id

theorem OutboxOp.Moves.row_after {effect : OutboxEffect} (h : op.Moves db effect)
    (hrow : db.outbox[id]? = some row) :
    ∃ row', effect.outbox[id]? = some row' ∧ row.Moved effect id row' := by
  cases h with
  | raises => exact ⟨row, hrow, rfl, rfl, rfl, by simp, by simp⟩
  | repeats => exact ⟨row, hrow, rfl, rfl, rfl, by simp, by simp⟩
  | publishes => exact ⟨row, getElem?_append_of_some hrow, rfl, rfl, rfl, by simp, by simp⟩
  | @consumes locked limit leaseSeconds hcall =>
      by_cases hid : id ∈ consumable op.env locked limit.toNat db
      · refine ⟨row.consumedBy op.workerId (op.env.now + leaseSeconds), ?_, rfl, rfl, rfl,
          by simp [hid, OutboxEvent.consumedBy], by simp [OutboxEvent.consumedBy]⟩
        simp [getElem?_claimed nodup_consumable, hid, hrow]
      · refine ⟨row, ?_, rfl, rfl, rfl, by simp [hid], by simp⟩
        simp [getElem?_claimed nodup_consumable, hid, hrow]
  | @acks acked =>
      by_cases hid : id = acked
      · subst hid
        exact ⟨_, getElem?_modify_self hrow, rfl, rfl, rfl, by simp [OutboxEvent.acked],
          by simp [OutboxEvent.acked]⟩
      · refine ⟨row, (getElem?_modify_of_ne hid).trans hrow, rfl, rfl, rfl, by simp, ?_⟩
        simp [Ne.symm hid]
  | @nacks nacked =>
      by_cases hid : id = nacked
      · subst hid
        exact ⟨_, getElem?_modify_self hrow, rfl, rfl, rfl, by simp [OutboxEvent.nacked],
          by simp [OutboxEvent.nacked]⟩
      · exact ⟨row, (getElem?_modify_of_ne hid).trans hrow, rfl, rfl, rfl, by simp, by simp⟩

/-- A row after an operation was there before, or it has just been published. -/
theorem OutboxOp.Moves.row_before {effect : OutboxEffect} (h : op.Moves db effect)
    {row' : OutboxEvent} (hrow : effect.outbox[id]? = some row') :
    (∃ row, db.outbox[id]? = some row ∧ row.Moved effect id row') ∨
      id = db.outbox.length ∧ row'.deliveredAt = none ∧ row'.attempts = 0 ∧ ∃ key,
        row'.dedupeKey = .named key ∧ effect.published = some (key, row'.kind, row'.payload) := by
  have hold (hlength : id < db.outbox.length) :
      ∃ row, db.outbox[id]? = some row ∧ row.Moved effect id row' := by
    obtain ⟨row'', hrow'', hmoved⟩ := h.row_after (List.getElem?_eq_getElem hlength)
    cases hrow.symm.trans hrow''
    exact ⟨_, List.getElem?_eq_getElem hlength, hmoved⟩
  have hlength := (List.getElem?_eq_some_iff.1 hrow).1
  cases h with
  | raises | repeats => exact .inl (hold hlength)
  | publishes =>
      rcases getElem?_concat_cases hrow with hbefore | ⟨rfl, rfl⟩
      · exact .inl (hold (List.getElem?_eq_some_iff.1 hbefore).1)
      · exact .inr ⟨rfl, rfl, rfl, _, rfl, rfl⟩
  | consumes =>
      refine .inl (hold ?_)
      by_contra hmissing
      have hnone : db.outbox[id]? = none := List.getElem?_eq_none (not_lt.1 hmissing)
      change (claimed _ _ _ db.outbox)[id]? = some row' at hrow
      rw [getElem?_claimed nodup_consumable, hnone] at hrow
      simp at hrow
  | acks | nacks => exact .inl (hold (by simpa using hlength))

/-- An operation hands out and acknowledges rows that are there. -/
theorem OutboxOp.Moves.bounded {effect : OutboxEffect} (h : op.Moves db effect) :
    (∀ id ∈ effect.handed, ∃ row, db.outbox[id]? = some row ∧
      row.deliverable op.env.now = true) ∧
    ∀ id, effect.acked = some id → id < db.outbox.length := by
  cases h with
  | raises | repeats | publishes => exact ⟨nofun, nofun⟩
  | nacks => exact ⟨nofun, nofun⟩
  | consumes => exact ⟨fun id hid => of_mem_consumable hid, nofun⟩
  | acks hcall hrow =>
      refine ⟨nofun, fun id hid => ?_⟩
      cases hid
      exact (List.getElem?_eq_some_iff.1 hrow).1

/-- A publication finds the row of its key, or adds it. -/
theorem OutboxOp.Moves.published {effect : OutboxEffect} (h : op.Moves db effect) {key kind : String}
    {payload : JsonObject} (hpublished : effect.published = some (key, kind, payload)) :
    (∃ event ∈ db.outbox, event.dedupeKey = .named key) ∨
      ∃ row ∈ effect.outbox, row.dedupeKey = .named key ∧ row.kind = kind ∧
        row.payload = payload := by
  cases h with
  | raises | consumes | acks | nacks => cases hpublished
  | repeats hcall hevent hkey =>
      cases hpublished
      exact .inl ⟨_, hevent, hkey⟩
  | publishes =>
      cases hpublished
      exact .inr ⟨_, List.mem_append_right _ (List.mem_singleton_self _), rfl, rfl, rfl⟩

/-! ## Every history -/

theorem runOutbox_violation {ops : List OutboxOp} (hdb : Schema.violation db = none) :
    Schema.violation (runOutbox db ops) = none :=
  History.invariant_of_forall (I := fun db : Db => Schema.violation db = none)
    (fun _ _ h => commit_violation h) hdb

/-- What the rows of the outbox tell of the history that led to them. -/
structure Recounts (db : Db) (published : List (String × String × JsonObject)) (acked : List Nat)
    (handed : List (List Nat)) : Prop where
  named : ∀ row ∈ db.outbox, ∀ key, row.dedupeKey = .named key →
    ∃ publication ∈ published, publication.1 = key
  first : ∀ key kind payload,
    published.find? (fun publication => publication.1 = key) = some (key, kind, payload) →
    ∃ row ∈ db.outbox, row.dedupeKey = .named key ∧ row.kind = kind ∧ row.payload = payload
  delivered : ∀ (id : Nat) (row : OutboxEvent), db.outbox[id]? = some row →
    (row.deliveredAt = none ↔ id ∉ acked)
  attempts : ∀ (id : Nat) (row : OutboxEvent), db.outbox[id]? = some row →
    row.attempts = handed.countP fun ids => id ∈ ids
  bounded : (∀ id ∈ acked, id < db.outbox.length) ∧
    ∀ ids ∈ handed, ∀ id ∈ ids, id < db.outbox.length

theorem Recounts.start (hdb : ∀ event ∈ db.outbox, event.Unseen) : Recounts db [] [] [] where
  named row hrow key hkey := absurd hkey ((hdb row hrow).unnamed key)
  first _ _ _ h := nomatch h
  delivered id row hrow := by simpa using (hdb row (List.mem_of_getElem? hrow)).undelivered
  attempts id row hrow := (hdb row (List.mem_of_getElem? hrow)).attempts
  bounded := ⟨nofun, nofun⟩

variable {published : List (String × String × JsonObject)} {acked : List Nat}
  {handed : List (List Nat)}

theorem Recounts.step (h : Recounts db published acked handed) (op : OutboxOp) :
    Recounts (op.step db) (published ++ (op.publishes db).toList)
      (acked ++ (op.acks db).toList) (handed ++ [op.handsOut db]) := by
  have hmoves := op.moves db
  have hgrows : db.outbox.length ≤ (op.step db).outbox.length := by
    by_contra hless
    have hrow := List.getElem?_eq_getElem (not_le.1 hless)
    obtain ⟨row', hrow', -⟩ := hmoves.row_after hrow
    exact absurd (List.getElem?_eq_some_iff.1 hrow').1 (lt_irrefl _)
  have hkept {row : OutboxEvent} (hrow : row ∈ db.outbox) : ∃ row' ∈ (op.step db).outbox,
      row'.dedupeKey = row.dedupeKey ∧ row'.kind = row.kind ∧ row'.payload = row.payload := by
    obtain ⟨id, hid⟩ := List.getElem?_of_mem hrow
    obtain ⟨row', hrow', hmoved⟩ := hmoves.row_after hid
    exact ⟨row', List.mem_of_getElem? hrow', hmoved.dedupeKey, hmoved.kind, hmoved.payload⟩
  constructor
  · intro row' hrow' key hkey
    obtain ⟨id, hid⟩ := List.getElem?_of_mem hrow'
    obtain ⟨row, hrow, hmoved⟩ | ⟨-, -, -, key', hkey', hnew⟩ := hmoves.row_before hid
    · obtain ⟨publication, hmem, hpublication⟩ :=
        h.named row (List.mem_of_getElem? hrow) key (hmoved.dedupeKey.symm.trans hkey)
      exact ⟨publication, List.mem_append_left _ hmem, hpublication⟩
    · cases hkey'.symm.trans hkey
      exact ⟨_, List.mem_append_right _ (Option.mem_toList.2 hnew), rfl⟩
  · intro key kind payload hfind
    rw [List.find?_append, Option.or_eq_some_iff] at hfind
    obtain hold | ⟨hnone, hnew⟩ := hfind
    · obtain ⟨row, hrow, hkey, hkind, hpayload⟩ := h.first key kind payload hold
      obtain ⟨row', hrow', hkey', hkind', hpayload'⟩ := hkept hrow
      exact ⟨row', hrow', hkey'.trans hkey, hkind'.trans hkind, hpayload'.trans hpayload⟩
    · have hpublished := Option.mem_toList.1 (List.mem_of_find?_eq_some hnew)
      obtain ⟨event, hevent, hkey⟩ | hadded := hmoves.published hpublished
      · obtain ⟨publication, hmem, hpublication⟩ := h.named event hevent key hkey
        exact absurd hpublication (by simpa using List.find?_eq_none.1 hnone publication hmem)
      · exact hadded
  · intro id row' hrow'
    rw [List.mem_append, not_or, Option.mem_toList]
    obtain ⟨row, hrow, hmoved⟩ | ⟨rfl, hundelivered, -⟩ := hmoves.row_before hrow'
    · rw [hmoved.delivered, h.delivered id row hrow]
    · refine iff_of_true hundelivered ⟨fun hacked => ?_, fun hacked => ?_⟩
      · exact absurd (h.bounded.1 _ hacked) (lt_irrefl _)
      · exact absurd (hmoves.bounded.2 _ hacked) (lt_irrefl _)
  · intro id row' hrow'
    rw [List.countP_append, List.countP_singleton]
    obtain ⟨row, hrow, hmoved⟩ | ⟨rfl, -, hattempts, -⟩ := hmoves.row_before hrow'
    · rw [hmoved.attempts, h.attempts id row hrow]
      simp
    · have hnever : db.outbox.length ∉ op.handsOut db := by
        intro hmem
        obtain ⟨row, hrow, -⟩ := hmoves.bounded.1 _ hmem
        exact absurd (List.getElem?_eq_some_iff.1 hrow).1 (lt_irrefl _)
      have hbefore : handed.countP (fun ids => decide (db.outbox.length ∈ ids)) = 0 := by
        refine List.countP_eq_zero.2 fun ids hids hmem => ?_
        exact absurd (h.bounded.2 ids hids _ (of_decide_eq_true hmem)) (lt_irrefl _)
      rw [hattempts, hbefore]
      simp [hnever]
  · refine ⟨fun id hid => ?_, fun ids hids id hid => ?_⟩
    · rcases List.mem_append.1 hid with hold | hnew
      · exact (h.bounded.1 id hold).trans_le hgrows
      · exact (hmoves.bounded.2 id (Option.mem_toList.1 hnew)).trans_le hgrows
    · rcases List.mem_append.1 hids with hold | hnew
      · exact (h.bounded.2 ids hold id hid).trans_le hgrows
      · rw [List.mem_singleton.1 hnew] at hid
        obtain ⟨row, hrow, -⟩ := hmoves.bounded.1 id hid
        exact (List.getElem?_eq_some_iff.1 hrow).1.trans_le hgrows

theorem runOutbox_recounts (hdb : ∀ event ∈ db.outbox, event.Unseen) (ops : List OutboxOp) :
    Recounts (runOutbox db ops) (publications db ops) (acknowledged db ops)
      (handovers db ops) := by
  induction ops using List.reverseRecOn with
  | nil => exact .start hdb
  | append_singleton ops op ih =>
      have hstep := ih.step op
      unfold runOutbox publications acknowledged handovers at hstep ⊢
      rw [History.run_append, History.trace_append, History.trace_append, History.trace_append]
      simpa [History.trace] using hstep

/-- The columns of the events that constraints read. -/
def OutboxEvent.keys (event : OutboxEvent) : Option Nat × Option Nat × DedupeKey :=
  (event.coverageId, event.runId, event.dedupeKey)

/-- The constraints accept any change of the events in the columns that they do not read. -/
theorem Db.violation_outbox {rows : List OutboxEvent}
    (h : rows.map OutboxEvent.keys = db.outbox.map OutboxEvent.keys) :
    Schema.violation { db with outbox := rows } = Schema.violation db := by
  have hrun : Db.isRun { db with outbox := rows } = db.isRun := rfl
  have hhouse : Db.isHouse { db with outbox := rows } = db.isHouse := rfl
  have hcoverage : Db.isCoverage { db with outbox := rows } = db.isCoverage := rfl
  have hkeys : (rows.map fun event => event.dedupeKey) = db.outbox.map fun event => event.dedupeKey :=
    map_congr_of_map h fun key => key.2.2
  refine Db.violation_of_rules ?_
  simp only [constraints, List.forall_mem_cons, hrun, hhouse, hcoverage, true_and]
  refine ⟨?_, ?_, ?_, nofun⟩
  · exact all_congr_of_map h fun key => key.1.all db.isCoverage
  · exact all_congr_of_map h fun key => key.2.1.all db.isRun
  · rw [hkeys]

theorem map_claimed {β : Type} {g : OutboxEvent → β} {ids : List Nat} {workerId : String}
    {leaseEnd : Time} {rows : List OutboxEvent}
    (hg : ∀ event : OutboxEvent, g (event.consumedBy workerId leaseEnd) = g event) :
    (claimed ids workerId leaseEnd rows).map g = rows.map g := by
  induction ids generalizing rows with
  | nil => rfl
  | cons id ids ih =>
      calc
        (claimed (id :: ids) workerId leaseEnd rows).map g =
            (rows.modify id fun event => event.consumedBy workerId leaseEnd).map g := ih
        _ = rows.map g := map_modify_of_eq hg

/-- A consumption with a limit returns. -/
theorem OutboxOp.handsOut_consume {locked : List Nat} {limit : Int} {leaseSeconds : ℚ}
    (hdb : Schema.violation db = none) (hcall : op.call = .consume locked limit leaseSeconds)
    (hlimit : 0 ≤ limit) : op.handsOut db = consumable op.env locked limit.toNat db := by
  let rows := claimed (consumable op.env locked limit.toNat db) op.workerId
    (op.env.now + leaseSeconds) db.outbox
  have hlegal : Schema.violation { db with outbox := rows } = none :=
    (Db.violation_outbox (map_claimed fun _ => rfl)).trans hdb
  have hreturns : Returns op.perform (Session.clean db) (consumable op.env locked limit.toNat db)
      ((Session.clean db).write { db with outbox := rows } { db with outbox := rows }) := by
    unfold perform
    simp only [hcall, consume, if_neg (not_lt.2 hlimit)]
    rw [returns_select_bind]
    refine returns_bind.2 ⟨⟨⟩, _, returns_forM_updateEvent.2 rfl, ?_⟩
    exact returns_flush_bind.2 ⟨hlegal, returns_pure.2 ⟨rfl, rfl⟩⟩
  unfold handsOut exec
  rw [commit_of_returns hreturns hlegal]

theorem mem_consumable {locked : List Nat} {limit : Nat} (hrow : db.outbox[id]? = some row)
    (hdeliverable : row.deliverable env.now = true) (hfree : id ∉ locked)
    (hlimit : db.outbox.length ≤ limit) : id ∈ consumable env locked limit db := by
  unfold consumable
  rw [List.take_of_length_le, List.mem_insertionSort, List.mem_filter]
  · exact ⟨(RowOrder.mem_all _).2 ⟨row, hrow, hdeliverable⟩, by simpa using hfree⟩
  · rw [List.length_insertionSort]
    refine (List.length_filter_le _ _).trans (le_trans ?_ hlimit)
    rw [RowOrder.all, (RowOrder.perm _ _).length_eq, ids]
    exact (List.length_filter_le _ _).trans_eq List.length_range

/-- Whatever the workers do, no event is lost, repeated or handed out again once acknowledged. -/
theorem keepsEvents (hdb : Schema.violation db = none) (hunseen : ∀ event ∈ db.outbox, event.Unseen)
    (ops : List OutboxOp) : KeepsEvents db ops := by
  have hrecounts := runOutbox_recounts hunseen ops
  have hlegal : Schema.violation (runOutbox db ops) = none := runOutbox_violation hdb
  have hdeliverable {op : OutboxOp} {id : Nat} (hid : id ∈ op.handsOut (runOutbox db ops)) :
      ∃ row, (runOutbox db ops).outbox[id]? = some row ∧ row.deliveredAt = none ∧
        row.availableAt ≤ op.env.now ∧
        ∀ lease, row.leaseExpiresAt = some lease → lease < op.env.now := by
    obtain ⟨row, hrow, hrule⟩ := (op.moves _).bounded.1 id hid
    simp only [OutboxEvent.deliverable, Bool.and_eq_true, Option.isNone_iff_eq_none,
      decide_eq_true_eq, Option.all_eq_true] at hrule
    exact ⟨row, hrow, hrule.1.1, hrule.1.2, hrule.2⟩
  constructor
  · intro key kind payload hfind
    obtain ⟨row, hrow, hkey, hkind, hpayload⟩ := hrecounts.first key kind payload hfind
    have hrule := Db.violation_eq_none.1 hlegal ("uq_outbox_events_dedupe_key",
      fun db => (db.outbox.map (·.dedupeKey)).Nodup) (by simp [constraints])
    have hone : (runOutbox db ops).outbox.countP
        (fun event => decide (event.dedupeKey = .named key)) = 1 := by
      refine countP_eq_one (of_decide_eq_true hrule) hrow (by simpa using hkey) ?_
      intro other _ hother
      exact (of_decide_eq_true hother).trans hkey.symm
    rw [List.countP_eq_length_filter, List.length_eq_one_iff] at hone
    obtain ⟨found, hfound⟩ := hone
    have hmem : row ∈ [found] := hfound ▸ List.mem_filter.2 ⟨hrow, by simpa using hkey⟩
    obtain rfl := List.mem_singleton.1 hmem
    exact ⟨row, hfound, hkind, hpayload⟩
  · exact fun op id hid => hdeliverable hid
  · intro op id hacked hid
    obtain ⟨row, hrow, hundelivered, -⟩ := hdeliverable hid
    exact (hrecounts.delivered id row hrow).1 hundelivered hacked
  · intro op id row locked limit leaseSeconds hrow hacked hcall hfree hlimit havailable hlease
    have hpositive : 0 ≤ limit := (Int.natCast_nonneg _).trans hlimit
    rw [OutboxOp.handsOut_consume hlegal hcall hpositive]
    refine mem_consumable hrow ?_ hfree (by omega)
    have hundelivered := (hrecounts.delivered id row hrow).2 hacked
    simp only [OutboxEvent.deliverable, Bool.and_eq_true, Option.isNone_iff_eq_none,
      decide_eq_true_eq, Option.all_eq_true]
    exact ⟨⟨hundelivered, havailable⟩, hlease⟩
  · exact fun id row hrow => hrecounts.attempts id row hrow

/-- An event that is published twice, handed back once and then acknowledged. -/
def OutboxOp.republished : List OutboxOp :=
  [⟨.quiet 0, "core", .publish "run.finished" [] none none "run.finished:0"⟩,
    ⟨.quiet 0, "core", .publish "gate.opened" [] none none "run.finished:0"⟩,
    ⟨.quiet 0, "a", .consume [] 10 10⟩, ⟨.quiet 5, "a", .nack 0 "post failed" 60⟩,
    ⟨.quiet 65, "b", .consume [] 10 10⟩, ⟨.quiet 70, "b", .ack 0⟩,
    ⟨.quiet 80, "a", .nack 0 "post failed" 0⟩]

theorem keepsEvents_republished :
    deliveries 0 {} OutboxOp.republished = 2 ∧ KeepsEvents {} OutboxOp.republished :=
  ⟨by decide +kernel, keepsEvents (by decide +kernel) (List.forall_mem_nil _) _⟩

end AiFund
