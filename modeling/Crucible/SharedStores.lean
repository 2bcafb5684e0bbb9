import Crucible.JobTable
import Crucible.ModelCatalogue
import Crucible.RedisLists
import Mathlib.Logic.Function.Basic

/-!
# The stores that all processes share

Postgres, Redis and Garage as one state, and the writes that a single call of a
process makes there.  A call is one transaction, one Redis command or pipeline,
or one object upload; it may also fail before or after its write took effect.
-/

namespace Crucible

abbrev Bytes := List UInt8

/-- The files below a directory by relative path, in the order in which
`sorted(local_dir.rglob("*"))` lists them. -/
structure Directory where
  files : List (String × Bytes)
  distinct : (files.map Prod.fst).Nodup
  deriving DecidableEq

/-- The hash `jobs:status:{id}`, with the time at which it expires. -/
structure StatusHash where
  status : JobStatus
  updatedAt : Time
  expiresAt : Option Time
  deriving DecidableEq, Repr

def StatusHash.live (hash : StatusHash) (clock : Time) : Bool :=
  match hash.expiresAt with
  | none => true
  | some expiry => clock < expiry

def terminalTtlSeconds : Int :=
  24 * 3600

/-- `_now_rfc3339`: the time without its fraction of a second. -/
def nowRfc3339 (now : Time) : Time :=
  seconds (now / seconds 1)

/-- The contents of the stores.  `outputs` records, for each job, what its
training runs left in their output directories; no process reads it. -/
structure SharedStores where
  clock : Time
  jobs : JobTable
  models : List ModelRow
  queue : List String
  processing : List String
  statuses : UUID → Option StatusHash
  objects : KeyedTable String Bytes
  outputs : UUID → List Directory

/-- The write of one call. -/
inductive Write where
  | nothing
  | createJob (now : Time) (id : UUID) (request : CreateJobRequest)
  | updateJob (now : Time) (id : UUID) (fields : UpdateJobFields)
  | execute (now : Time) (id : UUID) (update : RepositoryUpdate)
  | enqueue (id : UUID)
  | dequeue (id : UUID)
  | claim
  | ack (rawJobId : String)
  | requeue (jobId : String)
  | publish (now : Time) (id : UUID) (status : JobStatus) (terminal : Bool)
  | uploadFile (key : String) (content : Bytes)
  | trained (id : UUID) (output : Directory)
  deriving DecidableEq

namespace SharedStores

/-- The status hash that `HGETALL` returns. -/
def getStatus (stores : SharedStores) (id : UUID) : Option StatusHash :=
  (stores.statuses id).filter fun hash => hash.live stores.clock

/-- `StatusPublisher.publish`: `HSET` keeps the expiry of a hash that exists. -/
def publish (stores : SharedStores) (now : Time) (id : UUID) (status : JobStatus)
    (terminal : Bool) : SharedStores :=
  let expiresAt := if terminal then
      some (stores.clock + seconds terminalTtlSeconds)
    else
      (stores.getStatus id).bind (·.expiresAt)
  { stores with
    statuses := Function.update stores.statuses id
      (some ⟨status, nowRfc3339 now, expiresAt⟩) }

def write (stores : SharedStores) : Write → SharedStores
  | .nothing => stores
  | .createJob now id request =>
      { stores with jobs := stores.jobs.insert id (JobStore.newRow now request) }
  | .updateJob now id fields =>
      { stores with jobs := (JobStore.update stores.jobs now id fields).2 }
  | .execute now id update => { stores with jobs := stores.jobs.execute now id update }
  | .enqueue id => { stores with queue := RedisLists.lpush stores.queue id.str }
  | .dequeue id => { stores with queue := RedisLists.lrem stores.queue id.str }
  | .claim =>
      match RedisLists.brpoplpush stores.queue stores.processing with
      | some (_, queue, processing) => { stores with queue := queue, processing := processing }
      | none => stores
  | .ack rawJobId =>
      { stores with processing := RedisLists.lrem stores.processing rawJobId }
  | .requeue jobId =>
      { stores with
        processing := RedisLists.lrem stores.processing jobId
        queue := RedisLists.lpush stores.queue jobId }
  | .publish now id status terminal => stores.publish now id status terminal
  | .uploadFile key content =>
      { stores with objects := stores.objects.insert key content }
  | .trained id output =>
      { stores with outputs := Function.update stores.outputs id (output :: stores.outputs id) }

def empty (clock : Time) (models : List ModelRow) : SharedStores where
  clock := clock
  jobs := ∅
  models := models
  queue := []
  processing := []
  statuses := fun _ => none
  objects := ∅
  outputs := fun _ => []

def HasStatus (stores : SharedStores) (id : UUID) (status : JobStatus) : Prop :=
  ∃ row, stores.jobs.lookup id = some row ∧ row.status = status

instance (stores : SharedStores) (id : UUID) (status : JobStatus) :
    Decidable (stores.HasStatus id status) :=
  decidable_of_iff ((stores.jobs.lookup id).any fun row => row.status = status)
    (by simp [HasStatus, Option.any_eq_true])

/-! ## What a write changes -/

/-- A write that its caller can make: times are not in the future, created
identifiers are new, and updates ask for a terminal status. -/
def Possible (stores : SharedStores) : Write → Prop
  | .createJob now id _ => now ≤ stores.clock ∧ stores.jobs.lookup id = none
  | .updateJob now _ fields =>
      now ≤ stores.clock ∧ ∃ target, fields.status = some target ∧ target.terminal = true
  | .execute now _ _ => now ≤ stores.clock
  | _ => True

@[simp]
theorem write_clock (stores : SharedStores) (write : Write) :
    (stores.write write).clock = stores.clock := by
  cases write with
  | claim =>
      simp only [SharedStores.write]
      split <;> rfl
  | _ => rfl

/-- On the table every write is one transaction, or none. -/
theorem write_tableStep {stores : SharedStores} {write : Write}
    (possible : Possible stores write) :
    TableStep stores.clock stores.jobs (stores.write write).jobs := by
  cases write with
  | createJob now id request => exact .create request possible.1 possible.2
  | updateJob now id fields =>
      obtain ⟨started, target, asked, _⟩ := possible
      exact .update id started asked
  | execute now id update => exact .execute id update possible
  | claim =>
      simp only [SharedStores.write]
      split <;> exact .same
  | _ => exact .same

/-- Where a row comes from that is there after a write. -/
inductive RowSource (stores : SharedStores) (id : UUID) (row' : JobRow) : Write → Prop where
  | kept {write : Write} (before : stores.jobs.lookup id = some row') :
      RowSource stores id row' write
  | created (now : Time) (request : CreateJobRequest)
      (written : row' = JobStore.newRow now request) :
      RowSource stores id row' (.createJob now id request)
  | updated (now : Time) (fields : UpdateJobFields) (row : JobRow)
      (before : stores.jobs.lookup id = some row)
      (valid : ∀ target, fields.status = some target →
        validateTransition row.status target = .ok ())
      (written : row' = fields.onRow now row) :
      RowSource stores id row' (.updateJob now id fields)
  | executed (now : Time) (update : RepositoryUpdate) (row : JobRow)
      (before : stores.jobs.lookup id = some row) (matched : row.status = update.guard)
      (written : row' = update.set now row) :
      RowSource stores id row' (.execute now id update)

theorem rowSource_write {stores : SharedStores} {write : Write} {id : UUID} {row' : JobRow}
    (found : (stores.write write).jobs.lookup id = some row') :
    RowSource stores id row' write := by
  cases write with
  | createJob now new request =>
      rw [SharedStores.write, KeyedTable.lookup_insert] at found
      split at found
      case isTrue same =>
        subst same
        exact .created now request (Option.some.inj found).symm
      case isFalse => exact .kept found
  | updateJob now target fields =>
      obtain same | ⟨rfl, row, before, valid, written⟩ :=
        JobStore.lookup_update stores.jobs now target id fields
      · exact .kept (same ▸ found)
      · exact .updated now fields row before valid (Option.some.inj (found.symm.trans written))
  | execute now target update =>
      rw [SharedStores.write, JobTable.lookup_execute] at found
      split at found
      case isFalse => exact .kept found
      case isTrue same =>
        subst same
        obtain ⟨row, before, rfl⟩ := Option.map_eq_some_iff.mp found
        unfold RepositoryUpdate.onRow
        split
        case isTrue matched => exact .executed now update row before matched rfl
        case isFalse => exact .kept before
  | claim =>
      simp only [SharedStores.write] at found
      split at found <;> exact .kept found
  | _ => exact .kept found

theorem terminal_of_updated {stores : SharedStores} {now : Time} {id : UUID}
    {fields : UpdateJobFields} (possible : stores.Possible (.updateJob now id fields))
    (row : JobRow) : (fields.onRow now row).status.terminal = true := by
  obtain ⟨_, target, asked, finished⟩ := possible
  simpa [UpdateJobFields.onRow, asked] using finished

end SharedStores

/-- Whether a call succeeds, or raises before or after its write took effect. -/
inductive Fault where
  | none
  | before
  | after
  deriving DecidableEq, Repr

/-- Make a call: its write, and where the caller continues. -/
def attempt {Next : Type} (fault : Fault) (write : Write) (success failure : Next) :
    Write × Next :=
  match fault with
  | .none => (write, success)
  | .before => (.nothing, failure)
  | .after => (write, failure)

/-- Where a piece of code is after one of its calls. -/
inductive Next (Pc Result : Type) where
  | goto (pc : Pc)
  | returned (result : Result)
  | raised (message : String)
  deriving DecidableEq

/-- What the trainer does next: it reports progress, ends with an output
directory, or raises. -/
inductive Training where
  | heartbeat
  | finish (output : Directory)
  | fail
  deriving DecidableEq

/-- Everything about one call that its caller does not determine: a fault, the
transaction's `NOW()` or the caller's clock, a generated identifier, the row
that comes first among equals, the order of selected rows, the trainer's
behaviour and the text of an exception. -/
structure Choice where
  fault : Fault
  now : Time
  uuid : UUID
  pick : Nat
  order : List UUID
  training : Training
  error : String
  deriving DecidableEq

theorem attempt_eq {Result : Type} {fault : Fault} {write write' : Write}
    {success failure result : Result}
    (made : attempt fault write success failure = (write', result)) :
    fault = .none ∧ write' = write ∧ result = success ∨
      fault = .before ∧ write' = .nothing ∧ result = failure ∨
        fault = .after ∧ write' = write ∧ result = failure := by
  cases fault <;> simp_all [attempt]

theorem attempt_timely {Result : Type} {fault : Fault} {write write' : Write}
    {success failure result : Result} (timely : fault ≠ .after)
    (made : attempt fault write success failure = (write', result)) :
    write' = write ∧ result = success ∨ write' = .nothing ∧ result = failure := by
  rcases attempt_eq made with ⟨_, succeeded⟩ | ⟨_, failed⟩ | ⟨late, _⟩
  · exact Or.inl succeeded
  · exact Or.inr failed
  · exact absurd late timely

theorem attempt_sound {Result : Type} {fault : Fault} {write write' : Write}
    {success failure result : Result} (sound : fault = .none)
    (made : attempt fault write success failure = (write', result)) :
    write' = write ∧ result = success := by
  subst sound
  exact ⟨(congrArg Prod.fst made).symm, (congrArg Prod.snd made).symm⟩

theorem attempt_made {Result : Type} {fault : Fault} {write : Write}
    {success failure : Result} :
    (attempt fault write success failure).1 = .nothing ∨
      (attempt fault write success failure).1 = write := by
  cases fault <;> simp [attempt]

/-- What holds of a call's write and of no write holds of what the call does. -/
theorem attempt_write {Result : Type} {property : Write → Prop} {fault : Fault} {write : Write}
    {success failure : Result} (nothing : property .nothing) (made : property write) :
    property (attempt fault write success failure).1 := by
  cases fault <;> assumption

end Crucible
