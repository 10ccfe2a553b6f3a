import AiFund.Proof.Writes

/-!
# What is written stays written

No operation takes a row of a table with a history away or gives it another identity, whatever comes
between. The relation is a preorder, and each kind of write is in it.
-/

namespace AiFund

open UnitOfWork

variable {app : App} {db db' db'' : Db}

/-! ## Columns that grow -/

section Columns

variable {ρ γ : Type} {rows : List ρ} {g : ρ → γ}

theorem map_prefix_concat (row : ρ) : rows.map g <+: (rows ++ [row]).map g :=
  (List.prefix_append _ _).map g

theorem map_prefix_modify {f : ρ → ρ} (hf : ∀ row, g (f row) = g row) (id : Nat) :
    rows.map g <+: (rows.modify id f).map g := by
  have hmap : (rows.modify id f).map g = rows.map g := Rows.map_modify_of_eq hf
  exact hmap ▸ List.prefix_rfl

theorem map_prefix_map {f : ρ → ρ} (hf : ∀ row, g (f row) = g row) :
    rows.map g <+: (rows.map f).map g := by
  have hmap : (rows.map f).map g = rows.map g := by simp [hf]
  exact hmap ▸ List.prefix_rfl

end Columns

/-! ## A preorder -/

namespace Db.Preserved

theorem refl (db : Db) : db.Preserved db where
  coverages := List.prefix_rfl
  levels := List.prefix_rfl
  runs := List.prefix_rfl
  stages := List.prefix_rfl
  attempts := List.prefix_rfl
  gates := List.prefix_rfl
  outbox := List.prefix_rfl
  events := List.prefix_rfl
  predictions := List.prefix_rfl
  transitions := List.prefix_rfl
  leadHistory := List.prefix_rfl
  auditLog := List.prefix_rfl
  schedulerJobLogs := List.prefix_rfl
  houses := rfl
  contributors := rfl
  positions := rfl

theorem trans (h : db.Preserved db') (h' : db'.Preserved db'') : db.Preserved db'' where
  coverages := h.coverages.trans h'.coverages
  levels := h.levels.trans h'.levels
  runs := h.runs.trans h'.runs
  stages := h.stages.trans h'.stages
  attempts := h.attempts.trans h'.attempts
  gates := h.gates.trans h'.gates
  outbox := h.outbox.trans h'.outbox
  events := h.events.trans h'.events
  predictions := h.predictions.trans h'.predictions
  transitions := h.transitions.trans h'.transitions
  leadHistory := h.leadHistory.trans h'.leadHistory
  auditLog := h.auditLog.trans h'.auditLog
  schedulerJobLogs := h.schedulerJobLogs.trans h'.schedulerJobLogs
  houses := h'.houses.trans h.houses
  contributors := h'.contributors.trans h.contributors
  positions := h'.positions.trans h.positions

end Db.Preserved

/-! ## The writes are in it -/

theorem Db.Told.preserved (h : db.Told db') : db.Preserved db' := by
  have hkept := Db.Preserved.refl db
  cases h with
  | kept => exact hkept
  | addCoverage row => exact { hkept with coverages := map_prefix_concat row }
  | coverage id f hf => exact { hkept with coverages := map_prefix_modify hf id }
  | addTransition row => exact { hkept with transitions := List.prefix_append _ _ }
  | addLead row => exact { hkept with leadHistory := List.prefix_append _ _ }
  | addLevel row => exact { hkept with levels := map_prefix_concat row }
  | level id f hf => exact { hkept with levels := map_prefix_modify hf id }
  | addRun row => exact { hkept with runs := map_prefix_concat row }
  | run id f hf => exact { hkept with runs := map_prefix_modify hf id }
  | addGate row => exact { hkept with gates := map_prefix_concat row }
  | gate id f hf => exact { hkept with gates := map_prefix_modify hf id }
  | gates f hf => exact { hkept with gates := map_prefix_map hf }
  | addPrediction row => exact { hkept with predictions := List.prefix_append _ _ }
  | event id f hf => exact { hkept with events := map_prefix_modify hf id }
  | addOutbox row => exact { hkept with outbox := map_prefix_concat row }
  | outbox id f hf => exact { hkept with outbox := map_prefix_modify hf id }
  | addAudit row => exact { hkept with auditLog := List.prefix_append _ _ }
  | addJobLog row => exact { hkept with schedulerJobLogs := List.prefix_append _ _ }
  | locks => exact { hkept with }

theorem Db.Worked.preserved (h : db.Worked db') : db.Preserved db' := by
  have hkept := Db.Preserved.refl db
  cases h with
  | told h => exact h.preserved
  | stage id f hf => exact { hkept with stages := map_prefix_modify hf id }
  | attempt key f hf =>
      cases key with
      | none => exact hkept
      | some id => exact { hkept with attempts := map_prefix_modify hf id }
  | addAttempt row => exact { hkept with attempts := map_prefix_concat row }

theorem Db.Written.preserved (h : db.Written db') : db.Preserved db' := by
  cases h with
  | worked h => exact h.preserved
  | addStages rows =>
      exact { Db.Preserved.refl db with stages := (List.prefix_append _ rows).map _ }

theorem Db.Changed.preserved (h : db.Changed db') : db.Preserved db' := by
  cases h with
  | written h => exact h.preserved
  | idempotencyKeys | newsArticles => exact { Db.Preserved.refl db with }

/-- Whatever happens, in whatever order, the rows of the past keep their places and their
identities, and the logs their rows. -/
theorem runAny_preserves (app : App) (db : Db) (ops : List AnyOp) :
    db.Preserved (runAny app db ops) :=
  runAny_stays Db.Preserved.refl (fun _ _ _ h h' => h.trans h') (fun _ _ h => h.preserved) db ops

end AiFund
