import Crucible.HttpAnswers
import Crucible.SharedStores

/-!
# `JobHandler`

The three job endpoints of the backend as control points between calls.  Every
request runs concurrently with all others and with all workers.
-/

namespace Crucible

/-- A request on the job endpoints. -/
inductive RequestCall where
  | createJob (request : CreateJobRequest)
  | getJob (id : UUID)
  | updateJob (id : UUID) (action : String)
  deriving DecidableEq, Repr

/-- Control points of the handlers. -/
inductive RequestPc where
  | idle
  | create (request : CreateJobRequest)
  | enqueue (job : Job)
  | markEnqueueFailed (id : UUID) (errMsg : String)
  | getByID (id : UUID)
  | getJobStatus (job : Job)
  | update (id : UUID)
  | dequeue (job : Job)
  | answered (response : Response)
  deriving DecidableEq, Repr

namespace RequestPc

/-- What a handler does before its first call. -/
def start : RequestCall → RequestPc
  | .createJob request =>
      match validateCreateJob request with
      | some response => .answered response
      | none => .create request
  | .getJob id => .getByID id
  | .updateJob id action =>
      match validateJobUpdate action with
      | some response => .answered response
      | none => .update id

def enqueueError (id : UUID) (error : String) : String :=
  "enqueue job " ++ id.str ++ ": " ++ error

def isActiveStatus (status : JobStatus) : Bool :=
  status = .queued ∨ status = .running

/-- The overlay of `GetJob`: a hash that is newer than the row wins. -/
def overlay (job : Job) : Option StatusHash → Job
  | none => job
  | some hash =>
      if job.updatedAt < hash.updatedAt then
        { job with status := hash.status, updatedAt := hash.updatedAt }
      else
        job

def afterGetByID : Option Job → RequestPc
  | none => .answered ⟨404, .error .jobNotFound "job not found"⟩
  | some job =>
      if isActiveStatus job.status then .getJobStatus job else .answered ⟨200, .job job⟩

def afterUpdate : Except UpdateError Job → RequestPc
  | .ok job => .dequeue job
  | .error error => .answered (cancelAnswer (.error error))

/-- One call of a handler.  An `Enqueue` pushes its identifier at most once: the
client does not send the `LPUSH` again when its reply is lost. -/
def step (stores : SharedStores) (choice : Choice) : RequestPc → Option (Write × RequestPc)
  | .create request =>
      if stores.jobs.lookup choice.uuid = none then
        some (attempt choice.fault (.createJob choice.now choice.uuid request)
          (.enqueue { JobStore.newRow choice.now request with id := choice.uuid })
          (.answered ⟨500, .error .internalServer "failed to create job"⟩))
      else
        none
  | .enqueue job => some (attempt choice.fault (.enqueue job.id) (.answered ⟨201, .job job⟩)
      (.markEnqueueFailed job.id ("enqueue failed: " ++ enqueueError job.id choice.error)))
  | .markEnqueueFailed id errMsg =>
      let answer := .answered
        ⟨500, .error .internalServer "job created but could not be enqueued"⟩
      some (attempt choice.fault (.updateJob choice.now id (enqueueFailedFields errMsg))
        answer answer)
  | .getByID id => some (attempt choice.fault .nothing
      (afterGetByID (stores.jobs.getJob id))
      (.answered ⟨500, .error .internalServer "failed to fetch job"⟩))
  | .getJobStatus job => some (attempt choice.fault .nothing
      (.answered ⟨200, .job (overlay job (stores.getStatus job.id))⟩)
      (.answered ⟨200, .job job⟩))
  | .update id => some (attempt choice.fault (.updateJob choice.now id cancelFields)
      (afterUpdate (JobStore.update stores.jobs choice.now id cancelFields).1)
      (afterUpdate (.error .database)))
  | .dequeue job => some (attempt choice.fault (.dequeue job.id)
      (.answered (cancelAnswer (.ok job))) (.answered (cancelAnswer (.ok job))))
  | .idle | .answered _ => none

/-- The write of a handler's next call. -/
def call (choice : Choice) : RequestPc → Write
  | .create request => .createJob choice.now choice.uuid request
  | .enqueue job => .enqueue job.id
  | .markEnqueueFailed id errMsg => .updateJob choice.now id (enqueueFailedFields errMsg)
  | .update id => .updateJob choice.now id cancelFields
  | .dequeue job => .dequeue job.id
  | .getByID _ | .getJobStatus _ | .idle | .answered _ => .nothing

theorem step_write {stores : SharedStores} {choice : Choice} {pc pc' : RequestPc}
    {write : Write} (stepped : pc.step stores choice = some (write, pc')) :
    write = .nothing ∨ write = pc.call choice := by
  cases pc with
  | create request =>
      obtain ⟨_, called⟩ := Option.ite_none_right_eq_some.mp stepped
      obtain rfl := congrArg Prod.fst (Option.some.inj called)
      exact attempt_made
  | idle | answered response => cases stepped
  | _ =>
      obtain rfl := congrArg Prod.fst (Option.some.inj stepped)
      exact attempt_made

theorem step_possible {stores : SharedStores} {choice : Choice}
    (current : choice.now ≤ stores.clock) {pc pc' : RequestPc} {write : Write}
    (stepped : pc.step stores choice = some (write, pc')) :
    stores.Possible write := by
  rcases step_write stepped with rfl | rfl
  · trivial
  · cases pc with
    | create request => exact ⟨current, (Option.ite_none_right_eq_some.mp stepped).1⟩
    | markEnqueueFailed id errMsg | update id => exact ⟨current, _, rfl, rfl⟩
    | _ => trivial

end RequestPc

end Crucible
