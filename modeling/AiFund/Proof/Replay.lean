import AiFund.Api.Replay
import AiFund.System

/-!
# Replays

A stored response answers every later request of its key whose body has the stored hash, whatever
else the request asks for.
-/

namespace AiFund

open UnitOfWork

variable {app : App} {env : Env} {request : Request} {pm route : String} {statusCode : Nat}
  {handler : String → String → DbTxn Handled} {s s' : Session Db} {db db' : Db}
  {a first second : Arrival} {response : JsonObject} {row : IdempotencyKey}

/-- What the idempotency check makes of a key that is stored. -/
theorem returns_idempotency_stored {idem : Idempotency}
    (hrow : s.stored.idempotencyKeys.find?
      (fun row => row.key = request.idempotencyKey.getD "") = some row) :
    Returns (idempotency env request) s idem s' ↔
      request.idempotencyKey.getD "" ≠ "" ∧
        row.response.bodyHash = env.runtime.sha256 request.rawBody ∧ s' = s ∧
        idem = ⟨request.idempotencyKey.getD "", env.runtime.sha256 request.rawBody,
          some row.response.body⟩ := by
  dsimp only [idempotency]
  split_ifs with hkey
  · simp [hkey]
  · rw [returns_select_bind, hrow]
    dsimp only
    split_ifs with hhash
    · simp [hhash]
    · rw [not_not] at hhash
      simp only [returns_pure, hkey, hhash, ne_eq, not_false_eq_true, true_and]
      exact and_comm

/-- A route whose key is stored answers with the stored response exactly if the body's hash is the
stored one; it runs no handler. -/
theorem returns_mutation_stored
    (hrow : s.stored.idempotencyKeys.find?
      (fun row => row.key = request.idempotencyKey.getD "") = some row)
    (hpm : requirePm env app request = .ok pm) :
    Returns (mutation env app request route statusCode handler) s response s' ↔
      request.idempotencyKey.getD "" ≠ "" ∧
        row.response.bodyHash = env.runtime.sha256 request.rawBody ∧
        response = row.response.body ∧ s' = s := by
  unfold mutation
  rw [returns_ofExcept_bind]
  constructor
  · rintro ⟨_, _, h⟩
    obtain ⟨idem, s₁, hidem, h⟩ := returns_bind.1 h
    obtain ⟨hkey, hhash, rfl, rfl⟩ := (returns_idempotency_stored hrow).1 hidem
    obtain ⟨rfl, rfl⟩ := returns_pure.1 h
    exact ⟨hkey, hhash, rfl, rfl⟩
  · rintro ⟨hkey, hhash, rfl, rfl⟩
    have hidem := (returns_idempotency_stored hrow).2 ⟨hkey, hhash, rfl, rfl⟩
    exact ⟨pm, hpm, returns_bind.2 ⟨_, _, hidem, returns_pure.2 ⟨rfl, rfl⟩⟩⟩

/-- A row whose key nothing else has is the one found under its key. -/
theorem find?_concat_of_nodup {rows : List IdempotencyKey}
    (h : ((rows ++ [row]).map (·.key)).Nodup) :
    (rows ++ [row]).find? (fun other => other.key = row.key) = some row := by
  have hnone : rows.find? (fun other => other.key = row.key) = none := by
    rw [List.find?_eq_none]
    intro other hother hkey
    rw [List.map_append, List.nodup_append] at h
    exact h.2.2 _ (List.mem_map_of_mem hother) row.key (by simp) (of_decide_eq_true hkey)
  rw [List.find?_append, hnone]
  simp

theorem Db.nodup_idempotencyKeys (h : Schema.violation db = none) :
    (db.idempotencyKeys.map (·.key)).Nodup := by
  have hrule := Db.violation_eq_none.1 h ("pk_idempotency_keys", fun db =>
    (db.idempotencyKeys.map (·.key)).Nodup) (by simp [constraints])
  exact of_decide_eq_true hrule

/-- A route that returns and whose key was new leaves its response stored under the key. -/
theorem stored_of_returns_mutation
    (hnew : s.stored.idempotencyKeys.find?
      (fun row => row.key = request.idempotencyKey.getD "") = none)
    (h : Returns (mutation env app request route statusCode handler) s response s') :
    ∃ row, s'.loaded.idempotencyKeys.find?
        (fun row => row.key = request.idempotencyKey.getD "") = some row ∧
      row.response.body = response ∧
      row.response.bodyHash = env.runtime.sha256 request.rawBody ∧
      request.idempotencyKey.getD "" ≠ "" := by
  unfold mutation at h
  obtain ⟨pm, -, hchecked⟩ := returns_ofExcept_bind.1 h
  obtain ⟨idem, s₁, hidem, hrun⟩ := returns_bind.1 hchecked
  dsimp only [idempotency] at hidem
  split_ifs at hidem with hkey
  · exact absurd hidem not_returns_raise
  rw [returns_select_bind, hnew] at hidem
  obtain ⟨rfl, rfl⟩ := returns_pure.1 hidem
  obtain ⟨handled, s₂, -, haudit⟩ := returns_bind.1 hrun
  obtain ⟨_, s₃, -, hlast⟩ := returns_bind.1 haudit
  obtain ⟨_, s₄, hstore, hpure⟩ := returns_bind.1 hlast
  obtain ⟨rfl, rfl⟩ := returns_pure.1 hpure
  unfold Idempotency.store at hstore
  rw [returns_assign_bind, returns_flush] at hstore
  obtain ⟨hlegal, rfl⟩ := hstore
  exact ⟨_, find?_concat_of_nodup (Db.nodup_idempotencyKeys hlegal), rfl, rfl, hkey⟩

namespace Arrival

/-- A request that stored its response left it under its key, with the hash of its body. -/
theorem Stores.stored (h : first.Stores app db response) :
    ∃ row, (first.answer app db).after.idempotencyKeys.find? (fun row => row.key = first.key) =
        some row ∧ row.response.body = response ∧ row.response.bodyHash = first.bodyHash ∧
      first.key ≠ "" := by
  obtain ⟨s, hreturns, -, hafter⟩ := commit_result h.succeeds
  rw [show (first.answer app db).after = s.loaded from hafter]
  exact stored_of_returns_mutation (s := Session.clean db) h.new hreturns

/-- A request whose key is stored replays exactly if its body has the stored hash. -/
theorem replays_iff_hash (hlegal : Schema.violation db = none)
    (hpm : requirePm a.env app a.request = .ok pm) (hkey : a.key ≠ "")
    (hrow : db.idempotencyKeys.find? (fun row => row.key = a.key) = some row) :
    a.Replays app db row.response.body ↔ row.response.bodyHash = a.bodyHash := by
  have hreturns {response : JsonObject} {s : Session Db} :
      Returns (a.call.perform a.env app a.request) (Session.clean db) response s ↔
        a.key ≠ "" ∧ row.response.bodyHash = a.bodyHash ∧ response = row.response.body ∧
          s = Session.clean db :=
    returns_mutation_stored (s := Session.clean db) hrow hpm
  constructor
  · rintro ⟨hresult, -⟩
    obtain ⟨s, h, -, -⟩ := commit_result hresult
    exact (hreturns.1 h).2.1
  · intro hhash
    have hcommit : a.answer app db = _ :=
      commit_of_returns (hreturns.2 ⟨hkey, hhash, rfl, rfl⟩) hlegal
    rw [Replays, hcommit]
    exact ⟨rfl, rfl⟩

/-- While the response that the first request stored is there, an authenticated second request of
the same key is answered with it only for asking the same, if and only if its body either has
another hash or comes with the same route, path, PM and body. -/
theorem replays_same_iff (hfirst : first.Stores app db response) (hkey : second.key = first.key)
    (hpm : requirePm second.env app second.request = .ok pm) (hlegal : Schema.violation db' = none)
    (hkept : db'.idempotencyKeys.find? (fun row => row.key = first.key) =
      (first.answer app db).after.idempotencyKeys.find? fun row => row.key = first.key) :
    (second.Replays app db' response → second.Same app first) ↔
      (second.bodyHash = first.bodyHash → second.Same app first) := by
  obtain ⟨row, hrow, rfl, hhash, hne⟩ := hfirst.stored
  rw [← hkept, ← hkey] at hrow
  rw [replays_iff_hash hlegal hpm (hkey ▸ hne) hrow, hhash]
  exact imp_congr_left eq_comm

/-- The PM's request, under one key, to cancel a run. -/
def cancel (r : Nat) : Arrival where
  env := .quiet 0
  request := .fromPm "cancel"
  call := .cancelRun r none

end Arrival

/-- Apple with two initiations queued. -/
def Db.twoQueued : Db :=
  run .small .small
    (Op.initiateApple ++ [.ask "again" (.initiate "us_aapl" (some "gpt") (some 0))])

theorem Arrival.requirePm_cancel :
    requirePm (cancel 1).env .small (cancel 1).request = .ok "pm" := by
  decide +kernel

theorem Arrival.cancel_stores :
    ∃ response, (Arrival.cancel 0).Stores .small .twoQueued response := by
  have hok : ((Arrival.cancel 0).answer .small .twoQueued).result.toOption.isSome = true := by
    decide +kernel
  cases hresult : ((Arrival.cancel 0).answer .small .twoQueued).result with
  | ok response => exact ⟨response, by decide +kernel, hresult⟩
  | error error =>
      rw [hresult] at hok
      cases hok

theorem Db.twoQueued_cancelled :
    Schema.violation ((Arrival.cancel 0).answer .small .twoQueued).after = none := by
  decide +kernel

theorem Arrival.replays_same_iff_cancel :
    ∃ response, ((Arrival.cancel 1).Replays .small
        ((Arrival.cancel 0).answer .small .twoQueued).after response →
      (Arrival.cancel 1).Same .small (.cancel 0)) ↔
      ((Arrival.cancel 1).bodyHash = (Arrival.cancel 0).bodyHash →
        (Arrival.cancel 1).Same .small (.cancel 0)) := by
  obtain ⟨response, hstores⟩ := Arrival.cancel_stores
  exact ⟨response, Arrival.replays_same_iff hstores rfl Arrival.requirePm_cancel
    Db.twoQueued_cancelled rfl⟩

/-- The second of two cancellations under one key is answered with the response to the first, and
its run stays queued. -/
theorem Arrival.not_same_cancelled :
    ∃ response, (Arrival.cancel 0).Stores .small .twoQueued response ∧
      requirePm (Arrival.cancel 1).env .small (Arrival.cancel 1).request = .ok "pm" ∧
      (Arrival.cancel 1).key = (Arrival.cancel 0).key ∧
      (Arrival.cancel 1).Replays .small
        ((Arrival.cancel 0).answer .small .twoQueued).after response ∧
      ¬ (Arrival.cancel 1).Same .small (.cancel 0) := by
  obtain ⟨response, hstores⟩ := Arrival.cancel_stores
  obtain ⟨row, hrow, rfl, hhash, hkey⟩ := hstores.stored
  refine ⟨_, hstores, Arrival.requirePm_cancel, rfl, ?_, fun hsame => ?_⟩
  · exact (Arrival.replays_iff_hash (a := .cancel 1) Db.twoQueued_cancelled
      Arrival.requirePm_cancel hkey hrow).2 hhash
  · have hpath := hsame.path
    cases hpath

end AiFund
