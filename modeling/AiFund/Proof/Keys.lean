import AiFund.Concurrent.Keys
import AiFund.Proof.Program
import AiFund.Proof.Requests
import AiFund.Proof.StageTables

/-!
# Exactly once for each key

A key is committed together with the effects of its request, and a second insert of it waits for the
first one and is then refused. So the effects of one request at most are committed for each key, and
whoever finds the key replays.
-/

namespace AiFund

/-! ## The handlers of the routes -/

section Handlers

open UnitOfWork

variable {env : Env} {app : App} {slug pm key : String} {covId : Nat} {notes : Option String}

theorem Aside.idempotencyKeys : Aside Db.idempotencyKeys := by
  constructor <;> exact fun _ _ => rfl

theorem fixes_propose {ticker exchange name currency actorId : String}
    {isin requestId : Option String} :
    Fixes Db.idempotencyKeys
      (propose env ticker exchange name currency actorId notes isin requestId) :=
  .bind (.inspect _) fun _ => .bind (.assign fun _ => rfl) fun _ => .bind .flush fun _ =>
    .bind (fixes_ofExcept _ _) fun _ => .bind Aside.idempotencyKeys.record fun _ => .pure _

theorem fixes_setLead {house actorId : String} {runId : Option Nat} {rationale : Option String} :
    Fixes Db.idempotencyKeys (setLead env covId house actorId runId rationale) :=
  .bind reads_getCoverage.fixes fun _ => .bind (.select _) fun _ =>
    .bind (fixes_ofExcept _ _) fun _ => .bind (.assign fun _ => rfl) fun _ =>
      .bind Aside.idempotencyKeys.record fun _ => .assign fun _ => rfl

theorem fixes_setLevels {levels : List LevelIn} {setBy : String} {runId : Option Nat} :
    Fixes Db.idempotencyKeys (setLevels env covId levels setBy runId) :=
  .forM fun _ => .bind (.select _) fun _ => .bind (.forM fun _ => .assign fun _ => rfl) fun _ =>
    .assign fun _ => rfl

theorem fixes_createRunFor {runType : String} {coverageId : Option Nat} {params : JsonObject} :
    Fixes Db.idempotencyKeys (createRunFor env app runType coverageId params pm) := by
  refine .bind (fixes_ofExcept _ _) fun policy => .bind reads_findCoverage.fixes fun cov =>
    .bind reads_contributorsFor.fixes fun contributors => ?_
  split
  · exact .throw _
  · refine .bind (fixes_ofExcept _ _) fun stages => .bind ?_ fun runId => .bind ?_ fun _ => .pure _
    · exact .bind (fixes_ofExcept _ _) fun _ => .bind (.inspect _) fun _ =>
        .bind (.assign fun _ => rfl) fun _ => .bind .flush fun _ => .pure _
    · exact .bind (fixes_ofExcept _ _) fun _ => .bind (.assign fun _ => rfl) fun _ => .flush

theorem fixes_answerGate {gateId : Nat} {answer actorId : String} :
    Fixes Db.idempotencyKeys (answerGate env gateId answer actorId notes key) :=
  .bind (fixes_getRow _ _) fun _ => .ite (.pure _) (.bind (.assign fun _ => rfl) fun _ =>
    .bind .flush fun _ => fixes_getRow _ _)

theorem fixes_handleTransition {action : Action} {force : Bool} :
    Fixes Db.idempotencyKeys (handleTransition env slug action force notes pm) :=
  .bind reads_requireCoverage.fixes fun _ =>
    .bind (.adaptExcept Aside.idempotencyKeys.transitionCoverage) fun _ =>
      .bind (fixes_getRow _ _) fun _ => .pure _

theorem fixes_handleDecide {decision : String} :
    Fixes Db.idempotencyKeys (handleDecide env slug decision notes pm) := by
  refine .bind reads_requireCoverage.fixes fun covId => ?_
  split
  · exact .throw _
  · refine .bind (.select _) fun runId =>
      .bind (.adaptExcept Aside.idempotencyKeys.transitionCoverage) fun _ => .bind ?_ fun _ =>
        .bind (fixes_getRow _ _) fun _ => .pure _
    cases runId with
    | none => exact .pure _
    | some r => exact Aside.idempotencyKeys.finishRun

/-- The handler of every route leaves the keys to the code that all routes share. -/
theorem ApiCall.fixes_keys (call : ApiCall) :
    Fixes Db.idempotencyKeys ((call.route env app).2.2 pm key) := by
  cases call with
  | propose => exact .bind fixes_propose fun _ => .bind (fixes_getRow _ _) fun _ => .pure _
  | initiate =>
      exact .bind reads_requireCoverage.fixes fun _ => .bind fixes_createRunFor fun _ =>
        reads_handledRun.fixes
  | decide => exact fixes_handleDecide
  | promote | demote | exit | rePropose => exact fixes_handleTransition
  | setLead =>
      exact .bind reads_requireCoverage.fixes fun _ =>
        .bind (.adaptExcept fixes_setLead) fun _ => .pure _
  | setLevels =>
      exact .bind reads_requireCoverage.fixes fun _ => .bind (fixes_ofExcept _ _) fun _ =>
        .bind fixes_setLevels fun _ => .pure _
  | newRun type coverage params =>
      refine .bind ?_ fun _ => .bind fixes_createRunFor fun _ => reads_handledRun.fixes
      cases coverage with
      | none => exact .pure _
      | some slug => exact .ite (.pure _) (.bind reads_requireCoverage.fixes fun _ => .pure _)
  | cancelRun => exact .bind Aside.idempotencyKeys.finishRun fun _ => .pure _
  | answerGate => exact .bind fixes_answerGate fun _ => .pure _
  | retryRun runId =>
      refine .bind (.lookup _ _) fun found => ?_
      cases found with
      | none => exact .throw _
      | some old =>
          exact .ite (.throw _) (.bind fixes_createRunFor fun _ => reads_handledRun.fixes)
  | rateEvent eventId rating =>
      refine .bind (.lookup _ _) fun found => ?_
      cases found with
      | none => exact .throw _
      | some event => exact .bind (.assign fun _ => rfl) fun _ => .pure _
  | newQuery =>
      exact .bind reads_requireCoverage.fixes fun _ => .bind fixes_createRunFor fun _ =>
        reads_handledRun.fixes

end Handlers

namespace Concurrent

open ReadCommitted

variable {app : App} {db : Db} {requests : List Posted} {w : RequestWorld} {i j : Nat}
  {p q : Posted} {l : Local Db RowKey} {s s' : Db} {body : JsonObject} {pm : String}

/-! ### Statement by statement -/

section Handlers

variable {α : Type} {env : Env} {slug : String} {notes : Option String}

theorem HandlesAside.bind {m : DbScript α} {f : α → DbScript Handling}
    (hm : m.Writes KeepsKeys) (hf : ∀ a, HandlesAside (f a)) : HandlesAside (m >>= f) := by
  change HandlesAside (m.bind f)
  induction m with
  | done a => exact hf a
  | fail => trivial
  | query next ih => exact fun s => ih s (hm s)
  | exec statement next ih => exact ⟨hm.1, ih hm.2⟩

theorem HandlesAside.raise : HandlesAside Script.raise := trivial

theorem HandlesAside.pure {handling : Handling} (h : handling.flush.Writes KeepsKeys) :
    HandlesAside (Pure.pure handling) := h

theorem CoverageWrite.keepsKeys {w : DbWrite} (h : CoverageWrite w) : KeepsKeys w := by
  cases h <;> exact fun _ => rfl

theorem FinishWrite.keepsKeys {w : DbWrite} (h : FinishWrite w) : KeepsKeys w := by
  cases h <;> exact fun _ => rfl

theorem aside_handleTransition {action : Action} {force : Bool} :
    HandlesAside (handleTransition env slug action force notes pm) :=
  .bind writes_requireCoverage fun _ =>
    .bind (writes_transitionCoverage.mono fun _ => CoverageWrite.keepsKeys) fun _ =>
      .pure (.pure _)

theorem aside_handleSetLead {house : String} {rationale : Option String} :
    HandlesAside (handleSetLead env slug house rationale pm) :=
  .bind writes_requireCoverage fun _ =>
    .bind (writes_setLead.mono fun _ => CoverageWrite.keepsKeys) fun _ =>
      .pure (writes_send fun _ => rfl)

theorem aside_handleDecide {decision : String} :
    HandlesAside (handleDecide env slug decision notes pm) := by
  refine .bind writes_requireCoverage fun found => ?_
  cases decisionAction decision with
  | none => exact .raise
  | some action =>
      refine .bind (.select _) fun gate =>
        .bind (writes_transitionCoverage.mono fun _ => CoverageWrite.keepsKeys) fun _ =>
          .bind ?_ fun _ => .pure (.pure _)
      cases gate with
      | none => exact .pure _
      | some gate => exact writes_finishRun.mono fun _ => FinishWrite.keepsKeys

theorem aside_handleCancelRun {runId : Nat} :
    HandlesAside (handleCancelRun env runId notes pm) :=
  .bind (writes_finishRun.mono fun _ => FinishWrite.keepsKeys) fun _ => .pure (.pure _)

end Handlers

/-- The row that is stored under a key, if there is one. -/
def keyRow (s : Db) (key : String) : Option IdempotencyKey :=
  s.idempotencyKeys.find? fun row => row.key = key

theorem keyRow_eq_none {key : String} :
    keyRow s key = none ↔ ∀ row ∈ s.idempotencyKeys, row.key ≠ key := by
  simp [keyRow]

theorem keyRow_congr {key : String} (h : s'.idempotencyKeys = s.idempotencyKeys) :
    keyRow s' key = keyRow s key := by
  rw [keyRow, h, keyRow]

/-! ## One request -/

/-- What a request relies on: keys that are stored stay, and so do the rows that it holds. -/
def KeyRely : Rely Db RowKey := fun l s s' =>
  (∀ key row, keyRow s key = some row → keyRow s' key = some row) ∧
    ∀ k ∈ l.held, RowStore.Keeps k s s'

/-- The request has written nothing. -/
def Unwritten : Assertion Db RowKey := fun _ l => ∀ s, l.pending s = s

/-- The request has written no key. -/
def Keyless : Assertion Db RowKey := fun _ l =>
  ∀ s, (l.pending s).idempotencyKeys = s.idempotencyKeys

/-- The key is stored with the response of the request's body. -/
def Found (p : Posted) (body : JsonObject) : Assertion Db RowKey := fun s l =>
  (∀ s, l.pending s = s) ∧ ∃ row, keyRow s p.key = some row ∧ row.response.body = body ∧
    row.response.bodyHash = p.bodyHash

/-- The request is the one that stores its key. -/
def Keyed (p : Posted) (body : JsonObject) : Assertion Db RowKey := fun s l =>
  p.key ≠ "" ∧ RowKey.idempotencyKey p.key ∈ l.held ∧ keyRow s p.key = none ∧
    ∃ row : IdempotencyKey, row.key = p.key ∧ row.response.body = body ∧
      row.response.bodyHash = p.bodyHash ∧
      ∀ s, (l.pending s).idempotencyKeys = s.idempotencyKeys ++ [row]

theorem stable_unwritten : Stable KeyRely Unwritten := fun _ _ _ h _ => h

theorem stable_keyless : Stable KeyRely Keyless := fun _ _ _ h _ => h

theorem stable_keyed : Stable KeyRely (Keyed p body) := by
  rintro s s' l ⟨hkey, hheld, hnone, hrow⟩ hrely
  have hkeeps : keyRow s' p.key = keyRow s p.key := hrely.2 _ hheld
  exact ⟨hkey, hheld, hkeeps.trans hnone, hrow⟩

/-- What the lookup of the key leaves: a response to replay is stored under it. -/
def LookedUp (p : Posted) (idem : Idempotency) : Assertion Db RowKey := fun s l =>
  (p.key ≠ "" ∧ idem.key = p.key ∧ idem.bodyHash = p.bodyHash) ∧ match idem.replay with
    | none => Unwritten s l
    | some body => Found p body s l

theorem outline_lookup (p : Posted) :
    Outline KeyRely .always Unwritten (idempotency p.env p.request) (LookedUp p) := by
  unfold idempotency
  by_cases hkey : p.key = ""
  · rw [show p.request.idempotencyKey.getD "" = p.key from rfl, if_pos hkey]
    exact .raise fun _ _ _ => trivial
  rw [show p.request.idempotencyKey.getD "" = p.key from rfl, if_neg hkey]
  refine .bind (Q := fun row? s l => row?.elim (Unwritten s l) fun row =>
    Unwritten s l ∧ keyRow s p.key = some row) ?_ fun row? => ?_
  · refine .select (fun row? => ?_) fun s l h => ?_
    · cases row? with
      | none => exact stable_unwritten
      | some row => exact fun s s' l hs hrely => ⟨hs.1, hrely.1 _ _ hs.2⟩
    · change (keyRow (l.pending s) p.key).elim _ _
      rw [h s]
      cases hrow : keyRow s p.key with
      | none => exact h
      | some row => exact ⟨h, rfl⟩
  · cases row? with
    | none => exact .pure fun s l h => ⟨⟨hkey, rfl, rfl⟩, h⟩
    | some row =>
        change Outline _ _ _ (if row.response.bodyHash ≠ p.bodyHash then Script.raise
          else pure (⟨p.key, p.bodyHash, some row.response.body⟩ : Idempotency)) _
        split_ifs with hhash
        · exact .raise fun _ _ _ => trivial
        · exact .pure fun s l h => ⟨⟨hkey, rfl, rfl⟩, h.1, row, h.2, rfl, not_not.1 hhash⟩

/-- A handler that leaves the keys alone, and the rows that it leaves to be flushed. -/
theorem outline_aside {m : DbScript Handling} (h : HandlesAside m) :
    Outline KeyRely .always Keyless m fun handling s l =>
      handling.flush.Writes KeepsKeys ∧ Keyless s l := by
  induction m with
  | done handling => exact .done fun _ _ hs => ⟨h, hs⟩
  | fail => exact .fail fun _ _ _ => trivial
  | query next ih =>
      exact .query (fun _ => Keyless) (fun _ => stable_keyless) (fun _ _ hs => hs)
        fun v => ih v (h v)
  | exec statement next ih =>
      refine .exec Keyless stable_keyless (fun s l w hs hw s' => ?_) (fun _ _ _ _ => trivial)
        (ih h.2)
      exact (h.1 _ w hw _).trans (hs s')

theorem outline_flush {m : DbScript Unit} (h : m.Writes KeepsKeys) :
    Outline KeyRely .always Keyless m fun _ => Keyless :=
  h.outline stable_keyless (fun _ _ hs => hs) fun _ _ _ hw hs s' => (hw _).trans (hs s')

/-- The insert of the key is refused where the key is stored, and holds it otherwise. -/
theorem outline_storeKey {idem : Idempotency} {response : JsonObject} {statusCode : Nat}
    {route actorId : String} (hgiven : p.key ≠ "") (hkey : idem.key = p.key)
    (hhash : idem.bodyHash = p.bodyHash) :
    Outline KeyRely .always Keyless (storeKey p.env idem response statusCode route actorId)
      fun _ => Keyed p response := by
  refine outline_sendChecked stable_keyed fun s l h hlegal => ?_
  have hnone : keyRow (l.visible s) idem.key = none :=
    keyRow_eq_none.2 fun row hrow => by simpa using List.all_eq_true.1 hlegal row hrow
  refine ⟨hgiven, List.mem_append_left _ (by simp [DbWrite.addIdempotencyKey, hkey]), ?_,
    { key := idem.key, route, actorId, response := ⟨response, statusCode, idem.bodyHash⟩,
      statusCode, expiresAt := datetimeMax, createdAt := p.env.now }, hkey, rfl, hhash,
    fun s' => ?_⟩
  · rw [← hkey, ← hnone]
    exact (keyRow_congr (h s)).symm
  · change (l.pending s').idempotencyKeys ++ [_] = _
    rw [h s']

def PostedCommits (p : Posted) : Reply → Assertion Db RowKey
  | .replayed body => Found p body
  | .performed body => Keyed p body

theorem outline_posted (app : App) (hp : ∀ pm, HandlesAside (p.handler pm)) :
    Outline KeyRely .always Unwritten (p.script app) (PostedCommits p) := by
  unfold Posted.script mutation
  refine outline_ofExcept_bind fun pm _ => .bind (outline_lookup p) fun idem => ?_
  refine .assuming fun hidem => ?_
  cases idem.replay with
  | some body => exact .pure fun _ _ h => h
  | none =>
      have hkeyless : ∀ s l, Unwritten s l → Keyless s l := fun s l h s' => by rw [h s']
      refine (Outline.bind (outline_aside (hp pm)) fun handling => ?_).pre hkeyless
      refine .assuming fun hflush => ?_
      have haudit (row : AuditLog) : Outline KeyRely .always Keyless (send (.addAudit row))
          fun _ => Keyless :=
        outline_send stable_keyless fun s l h s' => h s'
      refine .bind (haudit _) fun _ => ?_
      refine .bind (outline_flush hflush) fun _ => ?_
      refine .bind (outline_storeKey hidem.1 hidem.2.1 hidem.2.2) fun _ => ?_
      exact .pure fun _ _ h => h

/-! ## All of them -/

def keyContract (requests : List Posted) (i : Nat) : Contract Db RowKey Reply where
  rely := KeyRely
  raises := .always
  commits reply s l := ∀ p, requests[i]? = some p → PostedCommits p reply s l

theorem obeys_posts (haside : ∀ p ∈ requests, ∀ pm, HandlesAside (p.handler pm)) :
    (posts app db requests).Obeys (keyContract requests) := by
  refine .start fun i m hm => ?_
  obtain ⟨p, hp, rfl⟩ := Option.map_eq_some_iff.1 ((List.getElem?_map ..).symm.trans hm)
  refine ⟨Unwritten, stable_unwritten, fun _ => rfl, ?_⟩
  refine (outline_posted app (haside p (List.mem_of_getElem? hp))).post fun reply s l h p' hp' => ?_
  obtain rfl := Option.some.inj (hp.symm.trans hp')
  exact h

/-- What a commit does to the keys: nothing, or it stores that of its request. -/
theorem PostedCommits.keys {reply : Reply} (h : PostedCommits p reply s l) :
    (∀ s, l.pending s = s) ∨ ∃ row : IdempotencyKey, row.key = p.key ∧ keyRow s p.key = none ∧
      ∀ s, (l.pending s).idempotencyKeys = s.idempotencyKeys ++ [row] := by
  cases reply with
  | replayed body => exact .inl h.1
  | performed body =>
      obtain ⟨-, -, hnone, row, hkey, -, -, hpending⟩ := h
      exact .inr ⟨row, hkey, hnone, hpending⟩

theorem keyRow_concat {row : IdempotencyKey} {key : String}
    (h : s'.idempotencyKeys = s.idempotencyKeys ++ [row]) :
    keyRow s' key = (keyRow s key).or (if row.key = key then some row else none) := by
  rw [keyRow, h, List.find?_append]
  simp [keyRow]

theorem respects_posts (hi : ∃ p, requests[i]? = some p) :
    w.Respects (keyContract requests) i := by
  obtain ⟨p, hp⟩ := hi
  intro reply l hparty hcommits j m l' hj hm hexclusive
  refine ⟨fun key row hrow => ?_, fun k hk => l.frame k (fun hheld => hexclusive k hheld hk) _⟩
  rcases (hcommits p hp).keys with hsame | ⟨row', -, -, hpending⟩
  · rwa [hsame]
  · rw [keyRow_concat (hpending _), hrow]
    rfl

/-- What has been reached: the keys that are stored are the old ones and those of the requests that
have been performed, each with the response of the one that was. -/
structure Posting (db : Db) (requests : List Posted) (w : RequestWorld) : Prop where
  obeys : w.Obeys (keyContract requests)
  length : w.parties.length = requests.length
  stored : ∀ (i : Nat) (p : Posted) (body : JsonObject), requests[i]? = some p →
    w.result i = some (.performed body) → p.key ≠ "" ∧
      ∃ row, keyRow w.store p.key = some row ∧ row.response.body = body ∧
        row.response.bodyHash = p.bodyHash
  once : ∀ (i j : Nat) (p q : Posted), requests[i]? = some p → requests[j]? = some q →
    p.key = q.key → Performed w i → Performed w j → i = j
  unused : ∀ key, keyRow db key = none →
    (∀ (i : Nat) (p : Posted), requests[i]? = some p → p.key = key → ¬ Performed w i) →
    keyRow w.store key = none

theorem Posting.request (h : Posting db requests w) {party : Party Db RowKey Reply}
    (hparty : w.parties[i]? = some party) : ∃ p, requests[i]? = some p := by
  have hlength := (List.getElem?_eq_some_iff.1 hparty).1
  rw [h.length] at hlength
  exact ⟨_, List.getElem?_eq_getElem hlength⟩

theorem posting_start (haside : ∀ p ∈ requests, ∀ pm, HandlesAside (p.handler pm)) :
    Posting db requests (posts app db requests) := by
  have hnone (i : Nat) (reply : Reply) : (posts app db requests).result i ≠ some reply := by
    intro hresult
    rw [World.result_eq_some] at hresult
    simp [posts, World.start] at hresult
  refine ⟨obeys_posts haside, by simp [posts, World.start], ?_, ?_, fun _ h _ => h⟩
  · exact fun i p body _ hresult => absurd hresult (hnone i _)
  · exact fun i j p q _ _ _ hi => hi.elim fun body hbody => absurd hbody (hnone i _)

/-- A step performs nothing and leaves the database as it is, or it is the commit that performs its
request. -/
theorem Posting.step_cases (h : Posting db requests w) (i : Nat) :
    ((w.step i).store = w.store ∧ ∀ j body, (w.step i).result j = some (.performed body) →
      w.result j = some (.performed body)) ∨
    ∃ p body l, requests[i]? = some p ∧ Keyed p body w.store l ∧ ¬ Performed w i ∧
      (w.step i).store = l.pending w.store ∧ (w.step i).result i = some (.performed body) ∧
      ∀ j body', (w.step i).result j = some (.performed body') →
        w.result j = some (.performed body') ∨ (j = i ∧ body' = body) := by
  by_cases hdone : ∃ body l, w.parties[i]? = some (.active (.done (.performed body)) l)
  · obtain ⟨body, l, hparty⟩ := hdone
    obtain ⟨p, hp⟩ := h.request hparty
    have hstep : w.step i =
        ⟨l.pending w.store, w.parties.set i (.committed (.performed body))⟩ := by
      simp [World.step, hparty]
    have hlength := (List.getElem?_eq_some_iff.1 hparty).1
    refine .inr ⟨p, body, l, hp, h.obeys.commits hparty p hp, ?_, by rw [hstep], ?_, ?_⟩
    · rintro ⟨body', hresult⟩
      rw [World.result_eq_some, hparty] at hresult
      cases hresult
    · rw [World.result_eq_some, hstep]
      exact List.getElem?_set_self hlength
    · intro j body' hj
      rw [World.result_eq_some] at hj
      obtain ⟨hold, -⟩ | ⟨rfl, l', hparty', -⟩ := (w.move i).committed_cases hj
      · exact .inl (World.result_eq_some.2 hold)
      · cases hparty.symm.trans hparty'
        exact .inr ⟨rfl, rfl⟩
  · refine .inl ⟨?_, fun j body hj => ?_⟩
    · obtain hsame | ⟨reply, l, hparty, hstore, -⟩ := (w.move i).store_cases
      · exact hsame
      · cases reply with
        | replayed body =>
            obtain ⟨p, hp⟩ := h.request hparty
            rw [hstore]
            exact (h.obeys.commits hparty p hp).1 w.store
        | performed body => exact absurd ⟨body, l, hparty⟩ hdone
    · rw [World.result_eq_some] at hj
      obtain ⟨hold, -⟩ | ⟨rfl, l, hparty, -⟩ := (w.move i).committed_cases hj
      · exact World.result_eq_some.2 hold
      · exact absurd ⟨body, l, hparty⟩ hdone

theorem Posting.step (h : Posting db requests w) (i : Nat) :
    Posting db requests (w.step i) := by
  have hobeys : (w.step i).Obeys (keyContract requests) := by
    refine h.obeys.step ?_
    intro reply l hparty
    exact respects_posts (h.request hparty) reply l hparty
  have hlength : (w.step i).parties.length = requests.length := by
    rw [(w.move i).length, h.length]
  have hkept {j : Nat} (hj : Performed w j) : Performed (w.step i) j := by
    obtain ⟨body, hbody⟩ := hj
    exact ⟨body, World.result_eq_some.2 ((w.move i).committed (World.result_eq_some.1 hbody))⟩
  obtain ⟨hstore, hresults⟩ | ⟨p, body, l, hp, hkeyed, -, hstore, hresult, hresults⟩ :=
    h.step_cases i
  · have hperformed {j : Nat} (hj : Performed (w.step i) j) : Performed w j :=
      hj.imp fun body hbody => hresults j body hbody
    refine ⟨hobeys, hlength, ?_, ?_, fun key hdb hkey => ?_⟩
    · intro j q body hq hj
      rw [hstore]
      exact h.stored j q body hq (hresults j body hj)
    · exact fun j k q r hq hr hsame hj hk =>
        h.once j k q r hq hr hsame (hperformed hj) (hperformed hk)
    · rw [hstore]
      exact h.unused key hdb fun j q hq hsame hj => hkey j q hq hsame (hkept hj)
  · obtain ⟨hgiven, -, hnone, row, hkey, hbody, hhash, hpending⟩ := hkeyed
    have hrow (key : String) : keyRow (w.step i).store key =
        (keyRow w.store key).or (if row.key = key then some row else none) :=
      keyRow_concat (hstore ▸ hpending w.store)
    -- The request that performs now is the first one with its key.
    have hfirst {j : Nat} {q : Posted} (hq : requests[j]? = some q) (hsame : q.key = p.key) :
        ¬ Performed w j := by
      rintro ⟨body', hj⟩
      obtain ⟨-, row', hrow', -⟩ := h.stored j q body' hq hj
      rw [hsame, hnone] at hrow'
      cases hrow'
    refine ⟨hobeys, hlength, ?_, ?_, fun key hdb hunused => ?_⟩
    · intro j q body' hq hj
      rw [hrow]
      rcases hresults j body' hj with hold | ⟨rfl, rfl⟩
      · obtain ⟨hgiven', row', hrow', hresponse⟩ := h.stored j q body' hq hold
        exact ⟨hgiven', row', by rw [hrow', Option.some_or], hresponse⟩
      · obtain rfl := Option.some.inj (hp.symm.trans hq)
        exact ⟨hgiven, row, by rw [hnone, Option.none_or, if_pos hkey], hbody, hhash⟩
    · rintro j k q r hq hr hsame ⟨body₁, hj⟩ ⟨body₂, hk⟩
      rcases hresults j body₁ hj with hj' | ⟨hji, -⟩ <;>
        rcases hresults k body₂ hk with hk' | ⟨hki, -⟩
      · exact h.once j k q r hq hr hsame ⟨body₁, hj'⟩ ⟨body₂, hk'⟩
      · obtain rfl : p = r := Option.some.inj (hp.symm.trans (hki ▸ hr))
        exact absurd ⟨body₁, hj'⟩ (hfirst hq hsame)
      · obtain rfl : p = q := Option.some.inj (hp.symm.trans (hji ▸ hq))
        exact absurd ⟨body₂, hk'⟩ (hfirst hr hsame.symm)
      · exact hji.trans hki.symm
    · have hne : row.key ≠ key := fun hsame =>
        hunused i p hp (hkey.symm.trans hsame) ⟨body, hresult⟩
      rw [hrow, if_neg hne, Option.or_none]
      exact h.unused key hdb fun j q hq hsame hj => hunused j q hq hsame (hkept hj)

theorem Posting.run (h : Posting db requests w) (schedule : List Nat) :
    Posting db requests (w.run schedule) :=
  History.invariant_of_forall (fun _ i h => h.step i) h

/-! ## A request that has not begun -/

/-- A request of a PM whose key is stored for its body answers with what is stored: it has not
begun, is about to commit the answer, or has committed it. -/
def Answering (app : App) (q : Posted) (body : JsonObject) (w : RequestWorld) (j : Nat)
    (steps : Nat) : Prop :=
  (steps = 0 ∧ w.parties[j]? = some (.active (q.script app) .start)) ∨
    (steps = 1 ∧ ∃ l, (∀ s, l.pending s = s) ∧
      w.parties[j]? = some (.active (.done (.replayed body)) l)) ∨
    (2 ≤ steps ∧ w.parties[j]? = some (.committed (.replayed body)))

theorem script_of_pm (hpm : requirePm q.env app q.request = .ok pm) (hkey : q.key ≠ "") :
    ∃ next, q.script app = .query next ∧
      (∀ row s, keyRow s q.key = some row → row.response.bodyHash = q.bodyHash →
        next s = .done (.replayed row.response.body)) ∧
      ∀ s, keyRow s q.key = none → next s = q.performs pm := by
  unfold Posted.script mutation
  rw [hpm]
  unfold idempotency
  rw [show q.request.idempotencyKey.getD "" = q.key from rfl, if_neg hkey]
  refine ⟨_, rfl, fun row s hrow hhash => ?_, fun s hnone => ?_⟩
  · have hfind : (s.idempotencyKeys.find? fun row => row.key = q.key) = some row := hrow
    dsimp only [Script.bind]
    rw [hfind]
    dsimp only
    rw [show q.env.runtime.sha256 q.request.rawBody = q.bodyHash from rfl,
      if_neg (not_not.2 hhash)]
    rfl
  · have hfind : (s.idempotencyKeys.find? fun row => row.key = q.key) = none := hnone
    dsimp only [Script.bind]
    rw [hfind]
    rfl

theorem Posting.keyRow_step (h : Posting db requests w) (i : Nat) {key : String}
    {row : IdempotencyKey} (hrow : keyRow w.store key = some row) :
    keyRow (w.step i).store key = some row := by
  obtain ⟨hstore, -⟩ | ⟨p, body, l, -, ⟨-, -, -, row', -, -, -, hpending⟩, -, hstore, -⟩ :=
    h.step_cases i
  · rwa [hstore]
  · rw [hstore, keyRow_concat (hpending _), hrow, Option.some_or]

/-- The key of the request is stored for its body, with the response that it is to be answered. -/
def StoredFor (q : Posted) (body : JsonObject) (s : Db) : Prop :=
  ∃ row, keyRow s q.key = some row ∧ row.response.body = body ∧
    row.response.bodyHash = q.bodyHash

theorem Answering.step {steps : Nat} (h : Answering app q body w j steps)
    (hpm : requirePm q.env app q.request = .ok pm) (hkey : q.key ≠ "")
    (hstored : StoredFor q body w.store) (i : Nat) :
    Answering app q body (w.step i) j (steps + if i = j then 1 else 0) := by
  by_cases hij : i = j
  · subst hij
    rw [if_pos rfl]
    obtain ⟨rfl, hparty⟩ | ⟨rfl, l, hpending, hparty⟩ | ⟨hsteps, hparty⟩ := h
    · obtain ⟨row, hrow, rfl, hhash⟩ := hstored
      obtain ⟨next, hscript, hreplays, -⟩ := script_of_pm hpm hkey
      rw [hscript] at hparty
      have hstep : w.step i = w.put i
          (.active (.done (.replayed row.response.body)) (Local.start.saw w.store)) := by
        simp only [World.step, hparty]
        rw [show Local.start.visible w.store = w.store from rfl, hreplays row _ hrow hhash]
      refine .inr (.inl ⟨rfl, Local.start.saw w.store, fun _ => rfl, ?_⟩)
      rw [hstep]
      exact List.getElem?_set_self (List.getElem?_eq_some_iff.1 hparty).1
    · have hstep : w.step i =
          ⟨l.pending w.store, w.parties.set i (.committed (.replayed body))⟩ := by
        simp [World.step, hparty]
      refine .inr (.inr ⟨le_rfl, ?_⟩)
      rw [hstep]
      exact List.getElem?_set_self (List.getElem?_eq_some_iff.1 hparty).1
    · exact .inr (.inr ⟨Nat.le_succ_of_le hsteps, (w.move i).committed hparty⟩)
  · rw [if_neg hij, Nat.add_zero]
    have hsame := (w.move i).parties_of_ne (Ne.symm hij)
    unfold Answering
    rw [hsame]
    exact h

theorem Answering.run {steps : Nat} (h : Answering app q body w j steps)
    (hw : Posting db requests w) (hpm : requirePm q.env app q.request = .ok pm)
    (hkey : q.key ≠ "") (hstored : StoredFor q body w.store) (later : List Nat) :
    Answering app q body (w.run later) j (steps + later.count j) := by
  induction later generalizing w steps with
  | nil => exact h
  | cons i later ih =>
      have hstored' : StoredFor q body (w.step i).store :=
        hstored.imp fun row hrow => ⟨hw.keyRow_step i hrow.1, hrow.2⟩
      have hrest := ih (h.step hpm hkey hstored i) (hw.step i) hstored'
      rw [List.count_cons]
      have hcount : steps + (later.count j + if i == j then 1 else 0) =
          (steps + if i = j then 1 else 0) + later.count j := by
        simp only [beq_iff_eq]
        omega
      rw [hcount]
      exact hrest

/-- It never raises, never writes, and answers with what is stored once it has taken two steps. -/
theorem Answering.answers {steps : Nat} (h : Answering app q body w j steps)
    (hpm : requirePm q.env app q.request = .ok pm) (hkey : q.key ≠ "") :
    (w.step j).store = w.store ∧ w.parties[j]? ≠ some .rolledBack ∧
      (∀ reply, w.result j = some reply → reply = .replayed body) ∧
      (2 ≤ steps → w.result j = some (.replayed body)) := by
  simp only [World.result_eq_some]
  obtain ⟨rfl, hparty⟩ | ⟨rfl, l, hpending, hparty⟩ | ⟨-, hparty⟩ := h
  · obtain ⟨next, hscript, -⟩ := script_of_pm hpm hkey
    rw [hscript] at hparty
    rw [hparty]
    refine ⟨?_, by simp, by simp, by simp⟩
    simp [World.step, hparty, World.put]
  · rw [hparty]
    refine ⟨?_, by simp, by simp, by simp⟩
    simp [World.step, hparty, hpending]
  · rw [hparty]
    refine ⟨by simp [World.step, hparty], by simp, fun reply hreply => ?_, fun _ => rfl⟩
    cases hreply
    rfl

/-- In every interleaving of any number of requests the effects of one at most are committed for
each key. -/
theorem posts_oncePerKey (db : Db) (haside : ∀ p ∈ requests, ∀ pm, HandlesAside (p.handler pm))
    (schedule : List Nat) :
    OncePerKey app db requests ((posts app db requests).run schedule) := by
  have hstart : Posting db requests (posts app db requests) := posting_start haside
  have h := hstart.run schedule
  generalize (posts app db requests).run schedule = w at h
  constructor
  · exact h.once
  · intro i hne
    obtain ⟨hstore, -⟩ | ⟨p, body, l, -, -, hnot, -, hresult, -⟩ := h.step_cases i
    · exact absurd hstore hne
    · exact ⟨hnot, body, hresult⟩
  · intro i p body hp hresult
    obtain ⟨-, row, hrow, hbody, hhash⟩ := h.stored i p body hp hresult
    refine ⟨row, List.mem_of_find?_eq_some hrow, ?_, hbody, hhash⟩
    simpa using List.find?_some hrow
  · rintro i j p q body pm hp hresult ⟨hq, hpm, hparty⟩ hkey hhash later
    obtain ⟨hgiven, row, hrow, hbody, hhash'⟩ := h.stored i p body hp hresult
    have hstored : StoredFor q body w.store :=
      ⟨row, by rwa [hkey], hbody, hhash'.trans hhash.symm⟩
    have hanswering : Answering app q body w j 0 := .inl ⟨rfl, hparty⟩
    have hlater := hanswering.run h hpm (hkey ▸ hgiven) hstored later
    rw [Nat.zero_add] at hlater
    exact hlater.answers hpm (hkey ▸ hgiven)
  · intro key hgiven hdb hunused
    have hnone := h.unused key (keyRow_eq_none.2 hdb) hunused
    refine ⟨keyRow_eq_none.1 hnone, fun j q pm hq hkey => ?_⟩
    obtain ⟨hq, hpm, hparty⟩ := hq
    subst hkey
    obtain ⟨next, hscript, -, hperforms⟩ := script_of_pm hpm hgiven
    rw [hscript] at hparty
    have hstep : w.step j = w.put j (.active (q.performs pm) (Local.start.saw w.store)) := by
      simp only [World.step, hparty]
      rw [show Local.start.visible w.store = w.store from rfl, hperforms _ hnone]
    rw [hstep]
    exact List.getElem?_set_self (List.getElem?_eq_some_iff.1 hparty).1

/-- The cancellation of Apple's initiation. -/
def Posted.cancelsApple : Posted where
  env := .quiet 0
  request := .fromPm "cancel"
  route := "run.cancel"
  statusCode := 200
  handler := handleCancelRun (.quiet 0) 0 none

/-- Two of the cancellations find the key unused, and the third one comes later. -/
def cancelsThrice : RequestWorld :=
  (posts .small (AiFund.run .small .small Op.initiateApple) (List.replicate 3 .cancelsApple)).run
    ([0, 1] ++ List.replicate 7 0 ++ List.replicate 7 1 ++ List.replicate 2 2)

theorem posts_oncePerKey_cancels :
    (cancelsThrice.result 0).any Reply.isPerformed = true ∧ (cancelsThrice.result 1).isNone = true ∧
      (cancelsThrice.result 2).any (!·.isPerformed) = true ∧
      OncePerKey .small (AiFund.run .small .small Op.initiateApple)
        (List.replicate 3 .cancelsApple) cancelsThrice := by
  have haside : ∀ p ∈ List.replicate 3 Posted.cancelsApple, ∀ pm, HandlesAside (p.handler pm) := by
    intro p hp pm
    obtain rfl := List.eq_of_mem_replicate hp
    change HandlesAside (handleCancelRun (.quiet 0) 0 none pm)
    exact aside_handleCancelRun
  exact ⟨by decide +kernel, by decide +kernel, by decide +kernel, posts_oncePerKey _ haside _⟩

end Concurrent

end AiFund
