import Crucible.DatasetFormat
import Crucible.SharedStores

/-!
# `CachingExecutor.run` and `JobProcessor.process`

Both as control points between calls.  A step makes the call of the current
control point and names the next one, so any interleaving of several workers is
an interleaving of steps.  Pure code between two calls belongs to the step of
the call before it.
-/

namespace Crucible

/-! ## The executor -/

def checkpointPrefix (id : UUID) : String :=
  "checkpoints/" ++ id.str ++ "/"

def checkpointKey (id : UUID) (relativePath : String) : String :=
  checkpointPrefix id ++ relativePath

/-- The three places where `heartbeat` is called. -/
inductive BeatSite where
  | afterEnsure
  | afterDownload
  | training
  deriving DecidableEq, Repr

/-- Control points of `CachingExecutor.run`. -/
inductive ExecutorPc where
  | ensure
  | heartbeat (site : BeatSite)
  | publishHeartbeat (site : BeatSite)
  | download
  | train
  | upload (output : Directory) (todo : List (String × Bytes))
  deriving DecidableEq

namespace BeatSite

/-- Where the executor continues after a heartbeat. -/
def next : BeatSite → ExecutorPc
  | afterEnsure => .download
  | afterDownload | training => .train

/-- Where a failed heartbeat leads.  During training the exception reaches the
trainer, which may let it pass or go on. -/
def failed (message : String) : BeatSite → Next ExecutorPc String
  | afterEnsure | afterDownload => .raised message
  | training => .goto .train

end BeatSite

/-- The message of `CheckpointUploadError` for an empty output directory. -/
def noFilesMessage (id : UUID) (localDir : String) : String :=
  "no checkpoint files produced for job " ++ id.str ++ " in " ++ localDir

/-- One call of `CachingExecutor.run`, which returns the checkpoint path. -/
def ExecutorPc.step (job : Job) (choice : Choice) :
    ExecutorPc → Write × Next ExecutorPc String
  | .ensure => attempt choice.fault .nothing (.goto (.heartbeat .afterEnsure))
      (.raised choice.error)
  | .heartbeat site => attempt choice.fault (.execute choice.now job.id .heartbeat)
      (.goto (.publishHeartbeat site)) (site.failed choice.error)
  | .publishHeartbeat site => attempt choice.fault (.publish choice.now job.id .running false)
      (.goto site.next) (site.failed choice.error)
  | .download => attempt choice.fault .nothing (.goto (.heartbeat .afterDownload))
      (.raised choice.error)
  | .train =>
      match choice.training with
      | .heartbeat => (.nothing, .goto (.heartbeat .training))
      | .fail => (.nothing, .raised choice.error)
      | .finish output =>
          (.trained job.id output,
            if output.files = [] then
              .raised (noFilesMessage job.id choice.error)
            else
              .goto (.upload output output.files))
  | .upload _ [] => (.nothing, .returned (checkpointPrefix job.id))
  | .upload output (file :: todo) =>
      attempt choice.fault (.uploadFile (checkpointKey job.id file.1) file.2)
        (.goto (.upload output todo)) (.raised choice.error)

/-! ## The processor -/

/-- Control points of `JobProcessor.process`.  The last three constructors are
those of `_fail`, of which `ack` is shared by every path. -/
inductive ProcessorPc where
  | getJob (id : UUID)
  | markRunning (job : Job)
  | publishRunning (job : Job)
  | getModelMeta (job : Job)
  | executing (job : Job) (model : ModelMeta) (pc : ExecutorPc)
  | markCompleted (job : Job) (checkpointPath : String)
  | publishCompleted (job : Job)
  | markFailed (id : UUID) (message : String)
  | publishFailed (id : UUID)
  | ack
  deriving DecidableEq

namespace ProcessorPc

/-- Where `process` starts: a malformed identifier is only acknowledged. -/
def start (rawJobId : String) : ProcessorPc :=
  match UUID.parse rawJobId with
  | none => .ack
  | some id => .getJob id

/-- How `process` reports an unexpected exception. -/
def workerError (id : UUID) (error : String) : ProcessorPc :=
  .markFailed id ("worker error: " ++ error)

def afterGetJob : Option Job → ProcessorPc
  | none => .ack
  | some job => if job.status.terminal then .ack else .markRunning job

/-- The dataset check that follows the first publication. -/
def afterPublishRunning (job : Job) : ProcessorPc :=
  match validateDatasetFormat job.datasetPath with
  | .error message => .markFailed job.id message
  | .ok _ => .getModelMeta job

/-- The guardrail that follows the model lookup. -/
def afterGetModelMeta (job : Job) : Option ModelMeta → ProcessorPc
  | none => .markFailed job.id
      ("base model " ++ PythonText.repr job.baseModel ++ " is not in the allow-list")
  | some model =>
      match checkModelFits model.paramCount model.vramHint with
      | .error message => .markFailed job.id message
      | .ok () => .executing job model .ensure

def afterExecutor (job : Job) (model : ModelMeta) : Next ExecutorPc String → ProcessorPc
  | .goto pc => .executing job model pc
  | .returned checkpointPath => .markCompleted job checkpointPath
  | .raised message => workerError job.id message

def step (rawJobId : String) (stores : SharedStores) (choice : Choice) :
    ProcessorPc → Option (Write × Next ProcessorPc Unit)
  | .getJob id => some (attempt choice.fault .nothing
      (.goto (afterGetJob (stores.jobs.getJob id))) (.raised choice.error))
  | .markRunning job => some (attempt choice.fault (.execute choice.now job.id .markRunning)
      (.goto (.publishRunning job)) (.goto (workerError job.id choice.error)))
  | .publishRunning job => some (attempt choice.fault
      (.publish choice.now job.id .running false)
      (.goto (afterPublishRunning job)) (.goto (workerError job.id choice.error)))
  | .getModelMeta job =>
      if PickAllowed stores.models job.baseModel choice.pick then
        some (attempt choice.fault .nothing
          (.goto (afterGetModelMeta job
            (Crucible.getModelMeta stores.models job.baseModel choice.pick)))
          (.goto (workerError job.id choice.error)))
      else
        none
  | .executing job model pc =>
      let (write, next) := pc.step job choice
      some (write, .goto (afterExecutor job model next))
  | .markCompleted job checkpointPath => some (attempt choice.fault
      (.execute choice.now job.id (.markCompleted checkpointPath))
      (.goto (.publishCompleted job)) (.goto (workerError job.id choice.error)))
  | .publishCompleted job => some (attempt choice.fault
      (.publish choice.now job.id .completed true)
      (.goto .ack) (.goto (workerError job.id choice.error)))
  | .markFailed id message => some (attempt choice.fault
      (.execute choice.now id (.markFailed message))
      (.goto (.publishFailed id)) (.raised choice.error))
  | .publishFailed id => some (attempt choice.fault
      (.publish choice.now id .failed true) (.goto .ack) (.raised choice.error))
  | .ack => some (attempt choice.fault (.ack rawJobId) (.returned ()) (.raised choice.error))

end ProcessorPc

/-! ## Writes -/

/-- The write of the executor's next call. -/
def ExecutorPc.call (job : Job) (choice : Choice) : ExecutorPc → Write
  | .heartbeat _ => .execute choice.now job.id .heartbeat
  | .publishHeartbeat _ => .publish choice.now job.id .running false
  | .train =>
      match choice.training with
      | .finish output => .trained job.id output
      | .heartbeat | .fail => .nothing
  | .upload _ (file :: _) => .uploadFile (checkpointKey job.id file.1) file.2
  | .ensure | .download | .upload _ [] => .nothing

def ProcessorPc.call (rawJobId : String) (choice : Choice) : ProcessorPc → Write
  | .markRunning job => .execute choice.now job.id .markRunning
  | .publishRunning job => .publish choice.now job.id .running false
  | .executing job _ pc => pc.call job choice
  | .markCompleted job checkpointPath =>
      .execute choice.now job.id (.markCompleted checkpointPath)
  | .publishCompleted job => .publish choice.now job.id .completed true
  | .markFailed id message => .execute choice.now id (.markFailed message)
  | .publishFailed id => .publish choice.now id .failed true
  | .ack => .ack rawJobId
  | .getJob _ | .getModelMeta _ => .nothing

/-- The writes that are part of an execution. -/
def Write.Executes : Write → Prop
  | .nothing | .execute _ _ .heartbeat | .publish _ _ .running false | .trained _ _
  | .uploadFile _ _ => True
  | _ => False

theorem ExecutorPc.executes_call (pc : ExecutorPc) (job : Job) (choice : Choice) :
    (pc.call job choice).Executes := by
  cases pc with
  | train =>
      simp only [call]
      split <;> trivial
  | upload output todo => cases todo <;> trivial
  | _ => trivial

theorem ExecutorPc.step_write (pc : ExecutorPc) (job : Job) (choice : Choice) :
    (pc.step job choice).1 = .nothing ∨ (pc.step job choice).1 = pc.call job choice := by
  cases pc with
  | train => cases training : choice.training <;> simp [step, call, training]
  | upload output todo =>
      cases todo with
      | nil => exact .inl rfl
      | cons file todo => exact attempt_made
  | _ => exact attempt_made

theorem ProcessorPc.step_executing {rawJobId : String} {stores : SharedStores}
    {choice : Choice} {job : Job} {model : ModelMeta} {pc : ExecutorPc} {write : Write}
    {next : Next ProcessorPc Unit}
    (stepped : step rawJobId stores choice (.executing job model pc) = some (write, next)) :
    write = (pc.step job choice).1 ∧
      next = .goto (afterExecutor job model (pc.step job choice).2) := by
  obtain ⟨made, continued⟩ := Prod.mk.inj (Option.some.inj stepped)
  exact ⟨made.symm, continued.symm⟩

theorem ProcessorPc.step_write {rawJobId : String} {stores : SharedStores} {choice : Choice}
    {pc : ProcessorPc} {write : Write} {next : Next ProcessorPc Unit}
    (stepped : pc.step rawJobId stores choice = some (write, next)) :
    write = .nothing ∨ write = pc.call rawJobId choice := by
  cases pc with
  | executing job model pc =>
      obtain ⟨rfl, _⟩ := step_executing stepped
      exact pc.step_write job choice
  | getModelMeta job =>
      obtain ⟨_, called⟩ := Option.ite_none_right_eq_some.mp stepped
      obtain rfl := congrArg Prod.fst (Option.some.inj called)
      exact attempt_made
  | _ =>
      obtain rfl := congrArg Prod.fst (Option.some.inj stepped)
      exact attempt_made

theorem ExecutorPc.call_possible {stores : SharedStores} {choice : Choice}
    (current : choice.now ≤ stores.clock) (job : Job) (pc : ExecutorPc) :
    stores.Possible (pc.call job choice) := by
  cases pc with
  | heartbeat site => exact current
  | train =>
      simp only [call]
      split <;> trivial
  | upload output todo => cases todo <;> trivial
  | _ => trivial

theorem ProcessorPc.call_possible {stores : SharedStores} {choice : Choice}
    (current : choice.now ≤ stores.clock) (rawJobId : String) (pc : ProcessorPc) :
    stores.Possible (pc.call rawJobId choice) := by
  cases pc with
  | markRunning job | markCompleted job path | markFailed id message => exact current
  | executing job model pc => exact pc.call_possible current job
  | _ => trivial

end Crucible
