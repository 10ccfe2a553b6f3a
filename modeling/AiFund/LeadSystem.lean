import AiFund.System

/-!
# Leads

An initiation is planned with one house, and its promotion makes a house the lead of the coverage.
The first comes from the params and the coverage when the run is created, the second from the
stored params when it is promoted.
-/

namespace AiFund

open UnitOfWork Rows

/-- The house that `createRun` plans a run with. -/
def Db.leadFor (db : Db) (coverageId : Option Nat) (params : JsonObject) : Json :=
  (params.get "lead").orElse
    (optStr ((coverageId.bind fun covId => db.coverages[covId]?).bind (·.leadHouse)))

/-- The params that `createRun` stores with a run planned with the house. -/
def storedParams (params : JsonObject) (lead : Json) : JsonObject :=
  if lead.truthy then params.setDefault "lead_house" lead else params

/-- The run type, the coverage and the params with which a request creates its run. -/
def ApiCall.asksFor (db : Db) : ApiCall → Option (String × Option Nat × JsonObject)
  | .initiate slug lead verifyCount => do
      let covId ← db.coverages.findIdx? fun cov => cov.dossierSlug = slug
      return ("initiation", some covId, initiateParams lead verifyCount)
  | .newRun type none params => some (type, none, params)
  | .newRun type (some slug) params =>
      if slug = "" then some (type, none, params)
      else do
        let covId ← db.coverages.findIdx? fun cov => cov.dossierSlug = slug
        return (type, some covId, params)
  | .retryRun runId => do
      let old ← db.runs[runId]?
      return (old.type.value, old.coverageId, old.params)
  | .newQuery slug question => do
      let covId ← db.coverages.findIdx? fun cov => cov.dossierSlug = slug
      return ("pm_query", some covId, [("question", .str question)])
  | _ => none

/-- The stored params name, as the driver binds it, the house that the run is planned with; if that
is no string, it does not bind to the key of a meta house. -/
def ApiCall.NamesItsLead (app : App) (env : Env) (db : Db) (call : ApiCall) : Prop :=
  ∀ type coverageId params, call.asksFor db = some (type, coverageId, params) →
    env.runtime.text ((storedParams params (db.leadFor coverageId params)).get "lead_house") =
      env.runtime.text (db.leadFor coverageId params) ∧
    ∀ house, env.runtime.text (db.leadFor coverageId params) = some (some house) →
      db.leadFor coverageId params = .str house ∨ house ∉ app.metaHouses

/-- A stage that the lead of an initiation works on. -/
def RunStage.isLeading (r : Nat) (stage : RunStage) : Bool :=
  stage.runId = r && (stage.role = .author || stage.role = .finalizer)

/-- The lead of the coverage is the house of the run's author and finalizer stages, and no meta
house. -/
def App.LeadWorks (app : App) (db : Db) (r covId : Nat) : Prop :=
  ∃ cov house, db.coverages[covId]? = some cov ∧ cov.leadHouse = some house ∧
    house ∉ app.metaHouses ∧
    (∃ stage ∈ db.stages, stage.runId = r ∧ stage.role = .author) ∧
    (∃ stage ∈ db.stages, stage.runId = r ∧ stage.role = .finalizer) ∧
    ∀ stage ∈ db.stages, stage.isLeading r = true → stage.house = house

/-- The run is there after the operation and was not there before. -/
def Op.CreatesRun (app : App) (db : Db) (op : Op) (r : Nat) : Prop :=
  db.runs[r]? = none ∧ (step app db op).runs[r]?.isSome

/-- The operation promotes the run, and on the way from `s` to `s'`. -/
def Op.Promotes (db : Db) (op : Op) (env : Env) (r : Nat) (s s' : Session Db) : Prop :=
  match op with
  | .promoteRun opEnv runId => opEnv = env ∧ runId = r ∧ s = Session.clean db ∧
      ∃ started, Returns (Engine.promoteRun env r) s started s'
  | .tick opEnv _ => opEnv = env ∧ ∃ before after,
      (env.rows .queuedRuns).all (fun run => run.status = .queued) db.runs = before ++ r :: after ∧
      Returns (before.forM fun runId => do let _ ← Engine.promoteRun env runId)
        (Session.clean db) ⟨⟩ s ∧
      ∃ started, Returns (Engine.promoteRun env r) s started s'
  | _ => False

/-- The coverage is moved from proposed to initiating. -/
def Db.Initiates (a b : Db) (covId : Nat) : Prop :=
  (∃ cov, a.coverages[covId]? = some cov ∧ cov.state = .proposed) ∧
    ∃ cov, b.coverages[covId]? = some cov ∧ cov.state = .initiating

end AiFund
