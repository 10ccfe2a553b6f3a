import AiFund.CoverageSystem
import AiFund.Proof.EngineErrors
import AiFund.Proof.Ledger

/-!
# The audit chain

Every operation of the coverage repository writes a transition with its audit row and its event, or
nothing. From it, what every history keeps of the three tables.
-/

namespace AiFund

open UnitOfWork Rows

variable {db : Db} {env : Env} {op : CoverageOp} {journal next : Journal} {row : CoverageTransition}
  {audit : AuditLog} {event : OutboxEvent} {s s' : Session Db} {u : Unit}

/-! ## Journals -/

/-- The rows of every coverage start with its proposal, and each row is audited and told of. -/
structure Journal.Told (journal : Journal) : Prop where
  starts : ∀ covId < journal.ledger.coverages.length,
    (journal.ledger.rowsOf covId).head?.map (fun row => (row.fromState, row.toState)) =
      some (none, .proposed)
  edges : ∀ row ∈ journal.ledger.transitions, row.Edge
  audits : journal.audits.length = journal.ledger.transitions.length
  changes : journal.changes.length = journal.ledger.transitions.length
  recorded : ∀ (i : Nat) (row : CoverageTransition), journal.ledger.transitions[i]? = some row →
    ∃ audit event, journal.audits[i]? = some audit ∧ journal.changes[i]? = some event ∧
      Recorded row audit event

/-- A row that is recorded with its audit row and its event, of a coverage that has been proposed
or that it proposes. -/
theorem Journal.Told.append (h : journal.Told) {coverages : List (String × CoverageState)}
    (hedge : row.Edge) (hrecorded : Recorded row audit event)
    (hstarts : ∀ covId < coverages.length, covId < journal.ledger.coverages.length ∨
      (journal.ledger.rowsOf covId = [] ∧ row.coverageId = covId ∧ row.fromState = none ∧
        row.toState = .proposed)) :
    Told ⟨⟨coverages, journal.ledger.transitions ++ [row]⟩, journal.audits ++ [audit],
      journal.changes ++ [event]⟩ := by
  constructor
  · intro covId hcovId
    have hrows : Ledger.rowsOf ⟨coverages, journal.ledger.transitions ++ [row]⟩ covId =
        journal.ledger.rowsOf covId ++ [row].filter fun row => row.coverageId = covId :=
      List.filter_append ..
    change (Ledger.rowsOf ⟨coverages, journal.ledger.transitions ++ [row]⟩ covId).head?.map _ = _
    rw [hrows]
    rcases hstarts covId hcovId with hold | ⟨hnone, hcov, hfrom, hto⟩
    · have hstart := h.starts covId hold
      cases hfound : journal.ledger.rowsOf covId with
      | nil => simp [hfound] at hstart
      | cons first rest =>
          rw [hfound] at hstart
          exact hstart
    · simp [hnone, hcov, hfrom, hto]
  · intro other hother
    rcases List.mem_append.1 hother with hold | hnew
    · exact h.edges other hold
    · rw [List.mem_singleton.1 hnew]
      exact hedge
  · simp [h.audits]
  · simp [h.changes]
  · intro i other hother
    rcases getElem?_concat_cases hother with hold | ⟨rfl, rfl⟩
    · obtain ⟨audit', event', haudit, hevent, hrecorded'⟩ := h.recorded i other hold
      exact ⟨audit', event', getElem?_append_of_some haudit, getElem?_append_of_some hevent,
        hrecorded'⟩
    · refine ⟨audit, event, ?_, ?_, hrecorded⟩
      · change (journal.audits ++ [audit])[journal.ledger.transitions.length]? = _
        rw [← h.audits, List.getElem?_concat_length]
      · change (journal.changes ++ [event])[journal.ledger.transitions.length]? = _
        rw [← h.changes, List.getElem?_concat_length]

theorem Journal.Next.told (h : journal.Next next) (hkept : journal.ledger.Kept)
    (htold : journal.Told) : next.Told := by
  cases h with
  | propose hcov hfrom hto hedge hrecorded =>
      refine htold.append hedge hrecorded fun covId hcovId => ?_
      rw [List.length_append, List.length_singleton] at hcovId
      rcases Nat.lt_succ_iff_lt_or_eq.1 hcovId with hold | rfl
      · exact .inl hold
      · refine .inr ⟨List.filter_eq_nil_iff.2 fun other hother => ?_, hcov, hfrom, hto⟩
        simpa using (hkept.owned other hother).ne
  | move hstate hcov hfrom hedge hrecorded =>
      refine htold.append hedge hrecorded fun covId hcovId => .inl ?_
      rwa [List.length_modify] at hcovId

theorem Journal.Next.appends (h : journal.Next next) :
    ∃ row audit event, next.ledger.transitions = journal.ledger.transitions ++ [row] ∧
      next.audits = journal.audits ++ [audit] ∧ next.changes = journal.changes ++ [event] ∧
      Recorded row audit event := by
  cases h with
  | propose hcov hfrom hto hedge hrecorded => exact ⟨_, _, _, rfl, rfl, rfl, hrecorded⟩
  | move hstate hcov hfrom hedge hrecorded => exact ⟨_, _, _, rfl, rfl, rfl, hrecorded⟩

/-! ## One operation -/

theorem CoverageOp.next_perform (h : Returns op.perform s u s') :
    s.loaded.journal.Next s'.loaded.journal := by
  unfold perform at h
  split at h
  · obtain ⟨covId, s₁, hpropose, hpure⟩ := returns_bind.1 h
    obtain ⟨-, rfl⟩ := returns_pure.1 hpure
    exact (next_propose hpropose).1
  · exact (next_transitionCoverage h).1
  · exact (next_setLead h).1

/-- An operation is rolled back, or it goes on to a next journal. -/
theorem CoverageOp.journal_step (db : Db) (op : CoverageOp) :
    (op.step db).journal = db.journal ∨ db.journal.Next (op.step db).journal := by
  unfold step exec
  obtain ⟨error, hcommit⟩ | ⟨u, s, h, -, hcommit⟩ := commit_cases op.perform (op.surround db)
  · rw [hcommit]
    exact .inl rfl
  · rw [hcommit]
    exact .inr (op.next_perform h)

/-! ## Refusals -/

/-- The error is the illegal coverage transition. -/
abbrev Illegal (error : PyError) : Prop := error.isTransition = true

theorem refuses_of_legal {α : Type} {m : DbTxn α} (h : Legal m) : Refuses Illegal m := by
  refine .of_raisesOnly fun s error herror hillegal => ?_
  have hlegal : error.isTransition = false := h herror
  rw [hillegal] at hlegal
  cases hlegal

theorem refuses_ofExcept {ε α : Type} (wrap : ε → PyError) (x : Except ε α) :
    Refuses Illegal (ofExcept wrap x) := by
  cases x with
  | ok a => exact refuses_of_legal (.pure _)
  | error error => exact .throw

theorem refuses_getCoverage {action : Action} {covId : Nat} :
    Refuses Illegal (getCoverage action covId) := by
  refine .bind (refuses_of_legal (.lookup _ _)) (fun s a s' h => (returns_lookup.1 h).2) fun found => ?_
  cases found with
  | none => exact .throw
  | some cov => exact refuses_of_legal (.pure _)

theorem returns_getCoverage {action : Action} {covId : Nat} {cov : Coverage}
    (h : Returns (getCoverage action covId) s cov s') : s' = s := by
  unfold getCoverage at h
  rw [returns_lookup_bind] at h
  split at h
  · exact (returns_pure.1 h).2
  · exact absurd h not_returns_raise

/-- What an operation of the repository refuses, it refuses before it touches the session. -/
theorem CoverageOp.refuses (op : CoverageOp) : Refuses Illegal op.perform := by
  unfold perform
  split
  · refine refuses_of_legal (.bind ?_ fun _ => .pure _)
    refine .bind (.inspect _) fun covId => .bind (.assign _) fun _ => .bind legal_flush fun _ => ?_
    exact .bind (.pure _) fun _ => .bind legal_record fun _ => .pure _
  · refine .bind refuses_getCoverage (fun _ _ _ h => returns_getCoverage h) fun cov => ?_
    refine .bind (refuses_of_legal ?_) (fun _ _ _ h => (returns_buildCtx h).1) fun ctx => ?_
    · exact .bind (.select _) fun _ => .bind (.select _) fun _ => .pure _
    refine .bind (refuses_ofExcept _ _) (fun _ _ _ h => (returns_ofExcept.1 h).2) fun sm => ?_
    exact refuses_of_legal (.bind (.assign _) fun _ => legal_record)
  · refine .bind refuses_getCoverage (fun _ _ _ h => returns_getCoverage h) fun cov => ?_
    refine .bind (refuses_of_legal (.select _)) (fun _ _ _ h => (returns_select.1 h).2) fun h => ?_
    refine .bind (refuses_ofExcept _ _) (fun _ _ _ h => (returns_ofExcept.1 h).2) fun sm => ?_
    exact refuses_of_legal (.bind (.assign _) fun _ => .bind legal_record fun _ => .assign _)

theorem CoverageOp.writesTogether (db : Db) (op : CoverageOp) : op.WritesTogether db := by
  refine ⟨?_, fun s s' illegal h => op.refuses h rfl⟩
  rcases op.journal_step db with hsame | hnext
  · exact .inl ⟨congrArg (·.ledger.transitions) hsame, congrArg (·.audits) hsame,
      congrArg (·.changes) hsame⟩
  · exact .inr hnext.appends

/-! ## Every history -/

theorem auditChain_of_journal (hkept : db.ledger.Kept) (htold : db.journal.Told) :
    AuditChain db := by
  have hlength : db.journal.ledger.coverages.length = db.coverages.length := List.length_map _
  refine ⟨fun covId hcovId => htold.starts covId (hlength ▸ hcovId), fun covId hcovId => ?_,
    fun covId cov hcov => ?_, htold.edges, htold.audits, htold.changes, htold.recorded⟩
  · obtain ⟨_, -, hreaches⟩ := hkept.traced covId (by simpa [Db.ledger] using hcovId)
    exact hreaches.chain
  · have hcovId : covId < db.ledger.coverages.length := by
      simpa [Db.ledger] using (List.getElem?_eq_some_iff.1 hcov).1
    obtain ⟨state, hstate, hreaches⟩ := hkept.traced covId hcovId
    rw [hreaches.last, ← hstate]
    exact Db.ledger_state hcov

/-- In every history of the repository, the transitions of each coverage make a chain, and each is
audited and told of once, in the transaction that writes it. -/
theorem runCoverages_auditChain (hcoverages : db.coverages = []) (htransitions : db.transitions = [])
    (haudits : db.auditLog = []) (hchanges : db.stateChanges = []) (ops : List CoverageOp) :
    AuditChain (runCoverages db ops) ∧
      History.EachStep CoverageOp.step CoverageOp.WritesTogether db ops := by
  have hstart : db.journal.ledger.Kept ∧ db.journal.Told := by
    constructor
    · constructor
      · intro row hrow
        simp [Db.journal, Db.ledger, htransitions] at hrow
      · intro covId hcovId
        simp [Db.journal, Db.ledger, hcoverages] at hcovId
    · constructor <;> simp [Db.journal, Db.ledger, hcoverages, htransitions, haudits, hchanges]
  have hrun : (runCoverages db ops).journal.ledger.Kept ∧ (runCoverages db ops).journal.Told := by
    refine History.invariant_of_forall
      (I := fun db : Db => db.journal.ledger.Kept ∧ db.journal.Told) (fun db op h => ?_) hstart
    rcases op.journal_step db with hsame | hnext
    · rw [hsame]
      exact h
    · exact ⟨hnext.kept h.1, hnext.told h.1 h.2⟩
  exact ⟨auditChain_of_journal hrun.1 hrun.2, History.eachStep_of_forall fun db op =>
    op.writesTogether db⟩

/-- A coverage that is adopted, given another lead and exited, with a refused promotion between. -/
def CoverageOp.adoptsAndExits : List CoverageOp :=
  let move (action : Action) (runId : Option Nat) : CoverageCall :=
    .transition 0 action .pm "pm" runId false none none
  let initiation : Run :=
    { coverageId := some 0, type := .initiation, status := .running, trigger := "pm",
      mutatesDossier := true, params := [("lead_house", .str "gpt")], createdAt := 0 }
  [⟨.quiet 0, fun db => db, .propose "AAPL" "US" "Apple" "USD" "pm" none none (some "key")⟩,
    ⟨.quiet 1, fun db => { db with runs := [initiation] }, move .startInitiation (some 0)⟩,
    ⟨.quiet 2, fun db => db, move .initiationDelivered (some 0)⟩,
    ⟨.quiet 3, fun db => db, move .decideActive (some 0)⟩,
    ⟨.quiet 4, fun db => db, move .promote none⟩,
    ⟨.quiet 5, fun db => db, .setLead 0 "gpt" "pm" none none⟩,
    ⟨.quiet 6, fun db => db, move .exit none⟩]

theorem runCoverages_auditChain_exited :
    ((runCoverages .small CoverageOp.adoptsAndExits).transitions.map fun row =>
        (row.fromState, row.toState)) =
      [(none, .proposed), (some .proposed, .initiating), (some .initiating, .decisionPending),
        (some .decisionPending, .active), (some .active, .active), (some .active, .exited)] ∧
      AuditChain (runCoverages .small CoverageOp.adoptsAndExits) ∧
      History.EachStep CoverageOp.step CoverageOp.WritesTogether .small CoverageOp.adoptsAndExits :=
  ⟨by decide +kernel, runCoverages_auditChain rfl rfl rfl rfl _⟩

end AiFund
