import AiFund.Concurrent.Queue
import AiFund.Concurrent.Requests

/-!
# Transactions of the components

What the engine, the workers, the reaper and the PM ask of the database, each as the statements that
it sends and as the session that sends them.
-/

namespace AiFund

open ReadCommitted UnitOfWork

/-- The same surroundings, in which the calls of `uuid4` give the digits `uuidHex`. -/
abbrev Env.drawing (env : Env) (uuidHex : Nat → String) : Env := { env with uuidHex }

namespace Concurrent

inductive Call where
  | lock (call : LockCall)
  | worker (stageId : Nat) (call : WorkerCall)
  | reap (env : Env) (now : Time) (backoff : BackoffPolicy)
  | move (slug : String) (asked : Asked CoverageCall)
  | decide (slug : String) (asked : Asked DecideCall)
  | cancel (env : Env) (request : Request) (runId : Nat) (notes : Option String)

inductive Answer where
  | lock (reply : LockReply)
  | queue (reply : QueueReply)
  | response (body : JsonObject)

def Reply.body : Reply → JsonObject
  | .replayed body => body
  | .performed body => body

def Call.script (app : App) : Call → DbScript Answer
  | .lock call => return .lock (← call.script)
  | .worker stageId call => return .queue (← call.script stageId)
  | .reap env now backoff => return .queue (← reaper env now backoff)
  | .move slug asked => return .response (← asked.script app slug).body
  | .decide slug asked => return .response (← asked.decide app slug).body
  | .cancel env request runId notes =>
      return .response (← cancelRun env app request runId notes).body

def LockCall.perform : LockCall → DbTxn LockReply
  | .start env runId => return .started (← AiFund.startRun env runId)
  | .finish env runId status summary error => do
      AiFund.finishRun env runId status summary error
      return .finished

def WorkerCall.perform (stageId : Nat) : WorkerCall → DbTxn QueueReply
  | .complete env attempt result => do
      AiFund.completeStage env stageId attempt result
      return .completed
  | .heartbeat env workerId leaseSeconds =>
      return .beat (← AiFund.heartbeat env stageId workerId leaseSeconds)

def CoverageCall.apiCall (slug : String) : CoverageCall → ApiCall
  | .promote notes => .promote slug notes
  | .demote notes => .demote slug notes
  | .exit force notes => .exit slug force notes
  | .rePropose notes => .rePropose slug notes
  | .setLead house rationale => .setLead slug house rationale

/-- A request through the API, which draws one request id at most. -/
def performApi (app : App) (env : Env) (request : Request) (call : ApiCall) : DbTxn Answer := do
  let body ← call.perform (env.drawing fun _ => env.uuidHex 0) app request
  return .response body

def Call.perform (app : App) : Call → DbTxn Answer
  | .lock call => return .lock (← call.perform)
  | .worker stageId call => return .queue (← call.perform stageId)
  | .reap env now backoff => return .queue (.reaped (← AiFund.reapExpired env now backoff))
  | .move slug asked => performApi app asked.env asked.request (asked.call.apiCall slug)
  | .decide slug asked =>
      performApi app asked.env asked.request (.decide slug asked.call.decision asked.call.notes)
  | .cancel env request runId notes => performApi app env request (.cancelRun runId notes)

end Concurrent

end AiFund
