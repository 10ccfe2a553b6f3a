import AiFund.Library.UnitOfWork
import AiFund.Library.Frame
import AiFund.Library.Total
import AiFund.Library.Errors
import AiFund.Library.History
import AiFund.Library.Rows
import AiFund.Library.FixedPoint
import AiFund.Library.Walks
import AiFund.Library.Rotation
import AiFund.Library.ReadCommitted
import AiFund.Library.Outline
import AiFund.Domain.Enums
import AiFund.Domain.CoverageSm
import AiFund.Domain.RunSm
import AiFund.Domain.Values
import AiFund.Domain.Rules
import AiFund.Db.Models
import AiFund.Db.Schema
import AiFund.Db.Queue
import AiFund.Db.RunsRepo
import AiFund.Db.CoverageRepo
import AiFund.Db.PredictionsRepo
import AiFund.Db.Outbox
import AiFund.Orchestrator.Planner
import AiFund.Orchestrator.CrossCheck
import AiFund.Orchestrator.Engine
import AiFund.Api.Deps
import AiFund.Api.Routes
import AiFund.Scheduler.Jobs
import AiFund.System
import AiFund.QueueSystem
import AiFund.OutboxSystem
import AiFund.PredictionSystem
import AiFund.CoverageSystem
import AiFund.LeadSystem
import AiFund.LevelSystem
import AiFund.Lifecycle
import AiFund.Ledger
import AiFund.Api.Replay
import AiFund.Proof.Program
import AiFund.Proof.QueueSteps
import AiFund.Proof.Attempts
import AiFund.Proof.Costs
import AiFund.Safety
import AiFund.DeskSystem
import AiFund.Proof.LifeFields
import AiFund.Proof.LifeInvariants
import AiFund.Proof.Refinement
import AiFund.Proof.RunSteps
import AiFund.Proof.CoverageSteps
import AiFund.Proof.EngineSteps
import AiFund.Proof.OpSteps
import AiFund.Proof.Serialization
import AiFund.Proof.Adoption
import AiFund.Proof.Gates
import AiFund.Proof.Initiations
import AiFund.Proof.Coupling
import AiFund.Proof.EngineErrors
import AiFund.Proof.Reports
import AiFund.Proof.StageMachine
import AiFund.Proof.Fencing
import AiFund.StageSystem
import AiFund.Proof.StageTables
import AiFund.Proof.Plans
import AiFund.Proof.StageOrder
import AiFund.Proof.StageProgress
import AiFund.Proof.Replay
import AiFund.Proof.Ledger
import AiFund.Concurrent.Statements
import AiFund.Concurrent.Queue
import AiFund.Concurrent.Runs
import AiFund.Concurrent.Coverage
import AiFund.Concurrent.Requests
import AiFund.Concurrent.Decisions
import AiFund.Concurrent.Moves
import AiFund.Concurrent.Advance
import AiFund.Concurrent.Keys
import AiFund.Proof.Statements
import AiFund.Proof.Survival
import AiFund.Proof.LockRace
import AiFund.Proof.Requests
import AiFund.Proof.Decisions
import AiFund.Proof.Moves
import AiFund.Proof.Outbox
import AiFund.Proof.Leases
import AiFund.Proof.Predictions
import AiFund.Proof.AuditChain
import AiFund.Proof.Answers
import AiFund.Proof.Legal
import AiFund.Proof.Pending
import AiFund.Proof.Leads
import AiFund.Proof.Rotation
import AiFund.Proof.Creation
import AiFund.Proof.Houses
import AiFund.Proof.Policies
import AiFund.Proof.Registration
import AiFund.Proof.CrossChecks
import AiFund.Proof.Levels
import AiFund.Proof.Refusals
import AiFund.Proof.Retention
import AiFund.Proof.Books
import AiFund.ScheduleSystem
import AiFund.Proof.Schedule
import AiFund.Proof.Digests
import AiFund.Proof.Settling
import AiFund.Proof.Budget
import AiFund.Proof.Finalized
import AiFund.Library.Tokens
import AiFund.Proof.Slugs
import AiFund.Proof.PlanForms
import AiFund.Proof.Backoff
import AiFund.Proof.Reaper
import AiFund.Proof.Keys
import AiFund.Library.Turns
import AiFund.Containment
import AiFund.Proof.Turns
import AiFund.Proof.PromoteTurn
import AiFund.Proof.DigestTurn
import AiFund.Proof.SettleTurn
import AiFund.Proof.CallTurn
import AiFund.Proof.Containment
import AiFund.Proof.Cancels
import AiFund.Library.SkipLocked
import AiFund.Library.Serial
import AiFund.Library.Bridge
import AiFund.Concurrent.Calls
import AiFund.Proof.Claims
import AiFund.Proof.Consumers
import AiFund.Proof.Notices
import AiFund.Proof.Alone
import AiFund.Proof.Recorded
import AiFund.Proof.InTurn
import AiFund.Library.Traced
import AiFund.Library.Within
import AiFund.Orchestrator.FakeRunner
import AiFund.DrivenSystem
import AiFund.Progress
import AiFund.RequestSystem
import AiFund.Writes
import AiFund.Proof.Draining
import AiFund.Proof.Driving
import AiFund.Proof.Writes
import AiFund.Proof.Permanence
import AiFund.Proof.Executions
import AiFund.Proof.Sessions
import AiFund.Proof.Accounts
import AiFund.Proof.Reliable
import AiFund.Proof.Settled
import AiFund.Proof.Recovery
