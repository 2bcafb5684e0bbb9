import Crucible.JobProcessor
import Crucible.RaisingScripts

/-!
# `JobProcessor.process` without other actors

The methods of `JobProcessor` as scripts over the stores, with an arbitrary
executor.  Each call of a repository, publisher or queue method takes effect or
raises without an effect; which of the two, and when, is given for each call.
-/

namespace Crucible

open RaisingScripts Script

/-- The exceptions that `_run` raises: the two rejections, and all others. -/
inductive RunError where
  | rejection (message : String)
  | exception (message : String)
  deriving DecidableEq, Repr

/-- One call: the time since the call before, the transaction's `NOW()` or the
caller's clock, and what it raises. -/
structure Call where
  elapsed : Nat
  now : Time
  raises : Option RunError
  deriving DecidableEq

/-- The places where `process` and `heartbeat` make a call. -/
inductive CallSite where
  | getJob
  | markRunning
  | publishRunning
  | getModelMeta
  | execute
  | heartbeat
  | publishHeartbeat
  | markCompleted
  | publishCompleted
  | markFailed
  | publishFailed
  | ack
  deriving DecidableEq, Repr

/-- The stores, and the calls made so far. -/
structure World where
  stores : SharedStores
  made : List CallSite

/-- Time passes and a call is made. -/
def World.enter (world : World) (site : CallSite) (elapsed : Nat) : World where
  stores := { world.stores with clock := world.stores.clock + elapsed }
  made := world.made ++ [site]

namespace Call

def read {Value : Type} (call : Call) (site : CallSite) (value : SharedStores → Value) :
    Script World RunError Value :=
  fun world =>
    let world := world.enter site call.elapsed
    match call.raises with
    | some error => (.error error, world)
    | none => (.ok (value world.stores), world)

def write (call : Call) (site : CallSite) (write : Write) : Script World RunError Unit :=
  fun world =>
    let world := world.enter site call.elapsed
    match call.raises with
    | some error => (.error error, world)
    | none => (.ok (), { world with stores := world.stores.write write })

end Call

/-- What an executor does between its start and its end: it calls `heartbeat`,
or it changes objects in Garage. -/
inductive ExecutorStep where
  | heartbeat (beat publish : Call)
  | store (objects : KeyedTable String Bytes) (outputs : UUID → List Directory)

/-- A call of `executor.run`: what it does, and what it returns or raises.  An
exception of `heartbeat` may pass through the executor or stop there. -/
structure Execution where
  steps : List ExecutorStep
  outcome : Except RunError String

/-- The calls of one invocation of `process`, and the row that comes first among
equal models. -/
structure ProcessCalls where
  getJob : Call
  markRunning : Call
  publishRunning : Call
  getModelMeta : Call
  pick : Nat
  execution : Execution
  markCompleted : Call
  publishCompleted : Call
  markFailed : Call
  publishFailed : Call
  ack : Call

/-- The closure `heartbeat` of `_run`. -/
def heartbeat (job : Job) (beat publish : Call) : Script World RunError Unit :=
  andThen (beat.write .heartbeat (.execute beat.now job.id .heartbeat)) fun _ =>
  publish.write .publishHeartbeat (.publish publish.now job.id .running false)

def ExecutorStep.perform (job : Job) : ExecutorStep → Script World RunError Unit
  | .heartbeat beat publish => caught (Crucible.heartbeat job beat publish) fun _ => done ()
  | .store objects outputs => fun world =>
      (.ok (), { world with stores := { world.stores with objects, outputs } })

/-- `executor.run`, which returns the checkpoint path. -/
def Execution.run (execution : Execution) (job : Job) : Script World RunError String :=
  fun world =>
    andThen (forEach execution.steps (ExecutorStep.perform job)) (fun _ =>
      match execution.outcome with
      | .ok checkpointPath => done checkpointPath
      | .error error => raise error)
    (world.enter .execute 0)

namespace JobProcessor

variable (calls : ProcessCalls)

/-- The end of `_run`, after the executor has returned. -/
def complete (job : Job) (checkpointPath : String) : Script World RunError Unit :=
  andThen (calls.markCompleted.write .markCompleted
    (.execute calls.markCompleted.now job.id (.markCompleted checkpointPath))) fun _ =>
  calls.publishCompleted.write .publishCompleted
    (.publish calls.publishCompleted.now job.id .completed true)

/-- `_run` from the dataset check on. -/
def checkAndExecute (job : Job) : Script World RunError Unit :=
  match validateDatasetFormat job.datasetPath with
  | .error message => raise (.rejection message)
  | .ok _ =>
  andThen (calls.getModelMeta.read .getModelMeta fun stores =>
    getModelMeta stores.models job.baseModel calls.pick) fun
  | none => raise (.rejection
      ("base model " ++ PythonText.repr job.baseModel ++ " is not in the allow-list"))
  | some model =>
  match checkModelFits model.paramCount model.vramHint with
  | .error message => raise (.rejection message)
  | .ok () => andThen (calls.execution.run job) (complete calls job)

def run (job : Job) : Script World RunError Unit :=
  andThen (calls.markRunning.write .markRunning
    (.execute calls.markRunning.now job.id .markRunning)) fun _ =>
  andThen (calls.publishRunning.write .publishRunning
    (.publish calls.publishRunning.now job.id .running false)) fun _ =>
  checkAndExecute calls job

def ack (rawJobId : String) : Script World RunError Unit :=
  calls.ack.write .ack (.ack rawJobId)

def fail (rawJobId : String) (id : UUID) (message : String) : Script World RunError Unit :=
  andThen (calls.markFailed.write .markFailed
    (.execute calls.markFailed.now id (.markFailed message))) fun _ =>
  andThen (calls.publishFailed.write .publishFailed
    (.publish calls.publishFailed.now id .failed true)) fun _ =>
  ack calls rawJobId

/-- The message with which `_fail` is called. -/
def failureMessage : RunError → String
  | .rejection message => message
  | .exception message => "worker error: " ++ message

def process (rawJobId : String) : Script World RunError Unit :=
  match UUID.parse rawJobId with
  | none => ack calls rawJobId
  | some id =>
  andThen (calls.getJob.read .getJob fun stores => stores.jobs.getJob id) fun
  | none => ack calls rawJobId
  | some job =>
  if job.status.terminal then
    ack calls rawJobId
  else
    caught (run calls job) fun
    | .ok () => ack calls rawJobId
    | .error error => fail calls rawJobId id (failureMessage error)

end JobProcessor

end Crucible
