import AiFund.Proof.Keys
import AiFund.Proof.Permanence
import AiFund.Proof.Replay
import AiFund.Proof.Retention
import AiFund.RequestSystem

/-!
# The store accounts for the requests

A request that is carried out appends its audit row and its key, one that is not carried out changes
nothing, and no other operation adds a key or takes one away that does not expire.
-/

namespace AiFund

open UnitOfWork

variable {app : App} {env : Env} {fund : FundConfig} {request : Request} {call : ApiCall}
  {db db' : Db} {s s' : Session Db} {op : Op} {ops : List Op}

/-! ## One request -/

/-- The idempotency check of a key that is not stored. -/
theorem returns_idempotency_new {idem : Idempotency}
    (hnew : s.stored.idempotencyKeys.find?
      (fun row => row.key = request.idempotencyKey.getD "") = none)
    (h : Returns (idempotency env request) s idem s') :
    s' = s ∧ request.idempotencyKey.getD "" ≠ "" ∧
      idem = ⟨request.idempotencyKey.getD "", env.runtime.sha256 request.rawBody, none⟩ := by
  dsimp only [idempotency] at h
  split_ifs at h with hkey
  · exact absurd h not_returns_raise
  · rw [returns_select_bind, hnew] at h
    obtain ⟨rfl, rfl⟩ := returns_pure.1 h
    exact ⟨rfl, hkey, rfl⟩

/-- What a request that is carried out leaves: what its handler wrote, then its audit row and its
key. -/
theorem returns_mutation_new {route : String} {statusCode : Nat}
    {handler : String → String → DbTxn Handled} {response : JsonObject}
    (hnew : s.stored.idempotencyKeys.find?
      (fun row => row.key = request.idempotencyKey.getD "") = none)
    (h : Returns (mutation env app request route statusCode handler) s response s') :
    ∃ pm handled s₁, requirePm env app request = .ok pm ∧ request.idempotencyKey.getD "" ≠ "" ∧
      Returns (handler pm (request.idempotencyKey.getD "")) s handled s₁ ∧
      s'.loaded.auditLog = s₁.loaded.auditLog ++
        [{ action := route, actorType := .pm, actorId := pm, target := some handled.target,
           afterState := handled.after, requestId := some request.requestId }] ∧
      s'.loaded.idempotencyKeys = s₁.loaded.idempotencyKeys ++
        [{ key := request.idempotencyKey.getD "", route, actorId := pm,
           response := ⟨response, statusCode, env.runtime.sha256 request.rawBody⟩, statusCode,
           expiresAt := datetimeMax, createdAt := env.now }] := by
  unfold mutation at h
  obtain ⟨pm, hpm, hchecked⟩ := returns_ofExcept_bind.1 h
  obtain ⟨idem, s₀, hidem, hrun⟩ := returns_bind.1 hchecked
  obtain ⟨rfl, hkey, rfl⟩ := returns_idempotency_new hnew hidem
  obtain ⟨handled, s₁, hhandler, haudit⟩ := returns_bind.1 hrun
  obtain ⟨_, s₂, hwrite, hlast⟩ := returns_bind.1 haudit
  obtain ⟨_, s₃, hstore, hpure⟩ := returns_bind.1 hlast
  obtain ⟨rfl, rfl⟩ := returns_pure.1 hpure
  unfold writeAudit addAudit at hwrite
  rw [returns_assign_bind, returns_flush] at hwrite
  obtain ⟨-, rfl⟩ := hwrite
  unfold Idempotency.store at hstore
  rw [returns_assign_bind, returns_flush] at hstore
  obtain ⟨-, rfl⟩ := hstore
  exact ⟨pm, handled, s₁, hpm, hkey, hhandler, rfl, rfl⟩

theorem find?_key_eq_none {key : String} :
    db.idempotencyKeys.find? (fun row => row.key = key) = none ↔
      ∀ row ∈ db.idempotencyKeys, row.key ≠ key := by
  simp [List.find?_eq_none]

theorem Arrival.execution_eq_some {a : Arrival} {e : Execution} :
    a.execution app db = some e ↔ e.toArrival = a ∧ requirePm a.env app a.request = .ok e.pm ∧
      (a.answer app db).result = .ok e.response ∧ ∀ row ∈ db.idempotencyKeys, row.key ≠ a.key := by
  unfold Arrival.execution
  cases requirePm a.env app a.request with
  | error error => simp [Except.toOption]
  | ok pm =>
      cases (a.answer app db).result with
      | error error => simp [Except.toOption]
      | ok response =>
          cases e
          simp [Except.toOption]
          grind

/-- A request that is carried out adds its key and, last, its audit row. -/
theorem Arrival.executes {a : Arrival} {e : Execution} (h : a.execution app db = some e) :
    (a.answer app db).after.idempotencyKeys = db.idempotencyKeys ++ [e.keyRow app] ∧ e.key ≠ "" ∧
      ∃ rows row, (a.answer app db).after.auditLog = db.auditLog ++ rows ++ [row] ∧
        row.signature = e.signature app := by
  obtain ⟨rfl, hpm, hresult, hnew⟩ := Arrival.execution_eq_some.1 h
  obtain ⟨s, hreturns, -, hafter⟩ := commit_result hresult
  obtain ⟨pm, handled, s₁, hpm', hkey, hhandler, haudit, hkeys⟩ :=
    returns_mutation_new (s := Session.clean db) (find?_key_eq_none.2 hnew) hreturns
  obtain rfl : e.pm = pm := Except.ok.inj (hpm.symm.trans hpm')
  have hkept : s₁.loaded.idempotencyKeys = db.idempotencyKeys := (e.call.fixes_keys hhandler).1
  have hpreserved : db.Preserved s₁.loaded :=
    ((within_handler e.call).upholds (J := db.Preserved) (fun _ _ hwrite hdb =>
      hdb.trans hwrite.preserved) hhandler ⟨.refl db, .refl db⟩).2
  obtain ⟨rows, hrows⟩ := hpreserved.auditLog
  have hanswer : (e.answer app db).after = s.loaded := hafter
  rw [hanswer, hkeys, hkept, haudit, ← hrows]
  exact ⟨rfl, hkey, rows, _, rfl, rfl⟩

/-- A request that is not carried out is refused or replayed, and changes nothing. -/
theorem Arrival.traceless {a : Arrival} (h : a.execution app db = none) :
    (a.answer app db).after = db := by
  obtain ⟨error, hcommit⟩ | ⟨response, s, hreturns, -, hcommit⟩ :=
    commit_cases (a.call.perform a.env app a.request) db
  · exact congrArg Outcome.after hcommit
  · obtain ⟨pm, hpm, -⟩ := returns_ofExcept_bind.1 hreturns
    have hresult : (a.answer app db).result = .ok response := congrArg Outcome.result hcommit
    cases hfind : db.idempotencyKeys.find? (fun row => row.key = a.key) with
    | none =>
        have hexecuted : a.execution app db = some { a with pm, response } :=
          Arrival.execution_eq_some.2 ⟨rfl, hpm, hresult, find?_key_eq_none.1 hfind⟩
        rw [h] at hexecuted
        cases hexecuted
    | some row =>
        obtain ⟨-, -, -, rfl⟩ :=
          (returns_mutation_stored (s := Session.clean db) hfind hpm).1 hreturns
        exact congrArg Outcome.after hcommit

/-! ## One operation -/

theorem Db.Told.idempotencyKeys (h : db.Told db') : db'.idempotencyKeys = db.idempotencyKeys := by
  cases h <;> rfl

theorem Db.Written.idempotencyKeys (h : db.Written db') :
    db'.idempotencyKeys = db.idempotencyKeys := by
  cases h with
  | addStages => rfl
  | worked h =>
      cases h with
      | told h => exact h.idempotencyKeys
      | attempt key => cases key <;> rfl
      | _ => rfl

/-- Keys that never expire outlive the retention. -/
theorem keys_retention {leader : Bool} {n : Nat}
    (hkeys : ∀ row ∈ db.idempotencyKeys, row.expiresAt = datetimeMax)
    (h : Returns (retention env fund leader) (Session.clean db) n s) :
    s.loaded.idempotencyKeys = db.idempotencyKeys := by
  cases leader with
  | false =>
      obtain ⟨-, rfl⟩ := returns_pure.1 h
      rfl
  | true =>
      obtain ⟨expired, agedOut, logs, hexpired, -, -, hloaded⟩ := of_returns_retention h
      rw [Db.swept_eq hkeys hexpired] at hloaded
      rw [hloaded]

theorem keys_runJob_retention {leader : Bool}
    (hkeys : ∀ row ∈ db.idempotencyKeys, row.expiresAt = datetimeMax) :
    (runJob env fund leader .retention db).after.idempotencyKeys = db.idempotencyKeys := by
  have hlog (status : String) (detail : Option String) :
      (commit (do logJob env "retention" status 0 detail; return 0 : DbTxn Nat)
        db).after.idempotencyKeys = db.idempotencyKeys := by
    have hwithin : Within Db.Told
        (do logJob env "retention" status 0 detail; return 0 : DbTxn Nat) :=
      .bind within_logJob fun _ => .pure _
    exact hwithin.commit (P := fun a b => b.idempotencyKeys = a.idempotencyKeys) (fun _ => rfl)
      (fun _ _ _ h h' => h'.idempotencyKeys.trans h) db
  unfold runJob
  dsimp only
  split
  · rename_i n hresult
    obtain ⟨s, hreturns, -, hafter⟩ := commit_result hresult
    rw [hafter]
    exact keys_retention hkeys hreturns
  · exact hlog _ _
  · exact hlog _ _

theorem step_keys (hkeys : ∀ row ∈ db.idempotencyKeys, row.expiresAt = datetimeMax) (op : Op) :
    (step app db op).idempotencyKeys =
      db.idempotencyKeys ++ (op.execution app db).toList.map (·.keyRow app) := by
  have hplain (hop : op.Plain) (hnone : op.execution app db = none) :
      (step app db op).idempotencyKeys =
        db.idempotencyKeys ++ (op.execution app db).toList.map (·.keyRow app) := by
    have hstays : (step app db op).idempotencyKeys = db.idempotencyKeys :=
      step_stays_plain (P := fun a b => b.idempotencyKeys = a.idempotencyKeys) (fun _ => rfl)
        (fun _ _ _ h h' => h'.idempotencyKeys.trans h) db hop
    rw [hstays, hnone]
    simp
  cases op with
  | api env request call =>
      have hstep : step app db (.api env request call) =
          (Arrival.answer app ⟨env, request, call⟩ db).after := rfl
      cases hexecution : (Op.api env request call).execution app db with
      | none =>
          rw [hstep, Arrival.traceless hexecution]
          simp
      | some e =>
          rw [hstep]
          exact (Arrival.executes hexecution).1
  | job env leader job =>
      cases job with
      | retention =>
          rw [show (Op.job env leader .retention).execution app db = none from rfl]
          exact (keys_runJob_retention hkeys).trans (List.append_nil _).symm
      | _ => exact hplain trivial rfl
  | _ => exact hplain trivial rfl

/-- No operation takes a row from the audit log, and a request that is carried out adds its own. -/
theorem step_audits (op : Op) :
    ∃ rows, (step app db op).auditLog = db.auditLog ++ rows ∧
      ((op.execution app db).toList.map (·.signature app)).Sublist (rows.map (·.signature)) := by
  have hpreserved : db.Preserved (step app db op) :=
    step_stays Db.Preserved.refl (fun _ _ _ h h' => h.trans h'.preserved) db op
  obtain ⟨rows, hrows⟩ := hpreserved.auditLog
  cases hexecution : op.execution app db with
  | none => exact ⟨rows, hrows.symm, by simp⟩
  | some e =>
      cases op with
      | api env request call =>
          obtain ⟨-, -, before, row, haudit, hrow⟩ := Arrival.executes hexecution
          refine ⟨before ++ [row], haudit.trans (List.append_assoc ..), ?_⟩
          rw [List.map_append]
          exact .trans (by simp [hrow]) (List.sublist_append_right _ _)
      | _ => cases hexecution

theorem execution_fresh {e : Execution} (h : op.execution app db = some e) :
    e.key ≠ "" ∧ ∀ row ∈ db.idempotencyKeys, row.key ≠ e.key := by
  cases op with
  | api env request call =>
      obtain ⟨ha, -, -, hnew⟩ := Arrival.execution_eq_some.1 h
      rw [← ha] at hnew
      exact ⟨(Arrival.executes h).2.1, hnew⟩
  | _ => cases h

/-! ## Histories -/

theorem executions_cons :
    executions app db (op :: ops) =
      (op.execution app db).toList ++ executions app (step app db op) ops := rfl

/-- From a store whose keys never expire, every history leaves the store accounting for exactly the
requests that it carried out. -/
theorem run_accountsForRequests (hkeys : ∀ row ∈ db.idempotencyKeys, row.expiresAt = datetimeMax)
    (ops : List Op) : AccountsForRequests app db ops := by
  induction ops generalizing db with
  | nil =>
      refine ⟨?_, ?_, ?_, ⟨[], ?_, ?_⟩, fun a h => a.traceless h⟩ <;>
        simp [executions, run, History.trace]
  | cons op ops ih =>
      have hstep : (step app db op).idempotencyKeys =
          db.idempotencyKeys ++ (op.execution app db).toList.map (·.keyRow app) :=
        step_keys hkeys op
      have hkept : ∀ row ∈ (step app db op).idempotencyKeys, row.expiresAt = datetimeMax := by
        intro row hrow
        rw [hstep, List.mem_append, List.mem_map] at hrow
        rcases hrow with hold | ⟨e, -, rfl⟩
        · exact hkeys row hold
        · rfl
      obtain ⟨hrest, honce, hfresh, ⟨rows, hrows, haudited⟩, htraceless⟩ := ih hkept
      obtain ⟨rows₀, hrows₀, haudited₀⟩ : ∃ rows, (step app db op).auditLog = db.auditLog ++ rows ∧
          ((op.execution app db).toList.map (·.signature app)).Sublist (rows.map (·.signature)) :=
        step_audits op
      have hnew (e : Execution) (he : e ∈ executions app (step app db op) ops) :
          (∀ row ∈ db.idempotencyKeys, row.key ≠ e.key) ∧
            ∀ e₀ ∈ (op.execution app db).toList, e₀.key ≠ e.key := by
        have hall := (hfresh e he).2
        rw [hstep, List.forall_mem_append, List.forall_mem_map] at hall
        exact hall
      constructor
      · calc
          (run app db (op :: ops)).idempotencyKeys =
              (step app db op).idempotencyKeys ++
                (executions app (step app db op) ops).map (·.keyRow app) := hrest
          _ = db.idempotencyKeys ++ (executions app db (op :: ops)).map (·.keyRow app) := by
              rw [hstep, executions_cons, List.map_append, List.append_assoc]
      · rw [executions_cons, List.map_append, List.nodup_append]
        refine ⟨?_, honce, ?_⟩
        · cases op.execution app db <;> simp
        · intro key hkey key' hkey'
          obtain ⟨e₀, he₀, rfl⟩ := List.mem_map.1 hkey
          obtain ⟨e, he, rfl⟩ := List.mem_map.1 hkey'
          exact (hnew e he).2 e₀ he₀
      · intro e he
        rw [executions_cons, List.mem_append] at he
        rcases he with hfirst | hlater
        · exact execution_fresh (Option.mem_toList.1 hfirst)
        · exact ⟨(hfresh e hlater).1, (hnew e hlater).1⟩
      · refine ⟨rows₀ ++ rows, ?_, ?_⟩
        · calc
            (run app db (op :: ops)).auditLog = (step app db op).auditLog ++ rows := hrows
            _ = db.auditLog ++ (rows₀ ++ rows) := by rw [hrows₀, List.append_assoc]
        · rw [executions_cons, List.map_append, List.map_append]
          exact haudited₀.append haudited
      · exact htraceless

/-- Apple is proposed and initiated, and the same is asked for again: two requests are carried out. -/
theorem run_accountsForRequests_repeated :
    (executions App.small Db.small (Op.initiateApple ++ Op.initiateApple)).length = 2 ∧
      AccountsForRequests App.small Db.small (Op.initiateApple ++ Op.initiateApple) := by
  refine ⟨by decide +kernel, run_accountsForRequests ?_ _⟩
  simp [Db.small]

end AiFund
