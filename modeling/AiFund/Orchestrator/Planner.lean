import AiFund.Db.RunsRepo
import AiFund.Domain.Rules

/-!
# Run planner

Fund policy, and the stage graph of each run type. A house comes from the request parameters or
from the database, so it is JSON, `null` where no house is known.
-/

namespace AiFund

structure RunPolicy where
  maxAttempts : Int
  budgetCapUsd : ℚ := 0
  verifyCount : Int := 2
  includeDataChecker : Bool := false

structure AutoCrossCheck where
  tpChangePct : ℚ := 10
  stanceChange : Bool := true
  thesisTripwire : Bool := true

structure FundConfig where
  runs : List (String × RunPolicy)
  monitorHouse : String := "gpt"
  autoCrossCheck : AutoCrossCheck := {}
  newsDays : Int := 180
  idempotencyDays : Int := 30

/-- Raises `KeyError` for a run type without a policy. -/
def FundConfig.policy (fund : FundConfig) (runType : String) : Except PyError RunPolicy :=
  match List.lookup runType fund.runs with
  | some policy => .ok policy
  | none => .error (.keyError ("no run policy configured for '" ++ runType ++ "'"))

/-- Refuses a meta house in an analyst role; a list or a dict cannot be looked up in a set. -/
def chk (metaHouses : List String) : Json → Except PyError Unit
  | .arr _ | .obj _ => .error .typeError
  | .str house =>
      if house ∈ metaHouses then
        .error (.planError ("a meta house (" ++ house ++ ") cannot fill an analyst role"))
      else .ok ()
  | _ => .ok ()

/-- `max(n, 0)` as a slice bound, for the `n` of the request parameters. -/
def sliceBound : Json → Except PyError Int
  | .float repr =>
      match Decimal.parse repr with
      | some (.finite coeff _) => if coeff < 0 then .ok 0 else .error .typeError
      | some (.infinity true) => .ok 0
      | _ => .error .typeError
  | value =>
      match value.toInt? with
      | some n => .ok n
      | none => .error .typeError

structure PlanArgs where
  lead : Json := .null
  contributors : List String := []
  verifyCount : Json := .int 2
  includeDataChecker : Bool := false
  monitorHouse : Json := .null
  metaHouse : Json := .null
  metaHouses : List String := []
  maxAttempts : Int

def planVerifiers (args : PlanArgs) (n : Json) : Except PyError (List String) := do
  return pickVerifiers (orderContributors args.contributors fun _ => none) (← sliceBound n)

def planInitiation (args : PlanArgs) : Except PyError (List StageIn) := do
  let stage (seq : Int) (role : StageRole) (house : Json) (dependsOnSeq : Option Int) : StageIn :=
    { seq, role, house, substrate := .harness, maxAttempts := args.maxAttempts, dependsOnSeq }
  chk args.metaHouses args.lead
  let verifiers ← planVerifiers args args.verifyCount
  verifiers.forM fun c => chk args.metaHouses (.str c)
  let verifierStages := verifiers.zipIdx.map fun (c, i) =>
    stage (i + 2) .verifier (.str c) (some (i + 1))
  let seq : Int := verifiers.length + 2
  let dataChecker : Json := (args.contributors.head?.map Json.str).getD args.lead
  return [stage 1 .author args.lead none] ++ verifierStages ++
    (if args.includeDataChecker then
      [stage seq .dataChecker dataChecker (some (seq - 1)),
        stage (seq + 1) .finalizer args.lead (some seq)]
    else [stage seq .finalizer args.lead (some (seq - 1))])

def planStages (runType : String) (args : PlanArgs) : Except PyError (List StageIn) := do
  let stage (seq : Int) (role : StageRole) (house : Json) (substrate : Substrate) : StageIn :=
    { seq, role, house, substrate, maxAttempts := args.maxAttempts }
  match runType with
  | "initiation" => planInitiation args
  | "deep_review" => do
      chk args.metaHouses args.lead
      let author := stage 1 .author args.lead .harness
      match ← planVerifiers args (.int 1) with
      | [] => return [author]
      | v :: _ => do
          chk args.metaHouses (.str v)
          return [author, { stage 2 .verifier (.str v) .harness with dependsOnSeq := some 1 }]
  | "event_analysis" => do
      chk args.metaHouses args.lead
      return [stage 1 .author args.lead .harness]
  | "monitor_tick" => return [stage 1 .monitor (args.monitorHouse.orElse args.lead) .api]
  | "pm_query" => do
      chk args.metaHouses args.lead
      return [stage 1 .pmQuery args.lead .api]
  | "lead_review" => do
      args.contributors.forM fun c => chk args.metaHouses (.str c)
      return args.contributors.zipIdx.map fun (c, i) => stage (i + 1) .leadReview (.str c) .api
  | "distillation" => return [stage 1 .distiller args.metaHouse .harness]
  | _ => throw (.planError ("unknown run type '" ++ runType ++ "'"))

end AiFund
