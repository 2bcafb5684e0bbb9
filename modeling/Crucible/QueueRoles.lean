import Crucible.Cluster
import Crucible.ReliableQueue

/-!
# The platform seen as a reliable queue

The two Redis lists, the rows and the control points of workers and requests
form a state of the kind that `ReliableQueue` describes.  This file gives the
view, says what each call does to it, and shows that every identifier in a list
or in a worker's hands is the text form of the job's own.
-/

namespace Crucible

open ReliableQueue (Phase Role)

/-! ## Abstraction -/

/-- How far `process` has come with the row of its job. -/
def ProcessorPc.phase : ProcessorPc → Phase
  | .getJob _ | .markRunning _ => .claimed
  | .publishRunning _ | .getModelMeta _ | .executing _ _ _ | .markCompleted _ _
  | .markFailed _ _ => .active
  | .publishCompleted _ | .publishFailed _ | .ack => .settled

/-- The job that a control point of `process` is about. -/
def ProcessorPc.jobId : ProcessorPc → Option UUID
  | .getJob id | .markFailed id _ | .publishFailed id => some id
  | .markRunning job | .publishRunning job | .getModelMeta job | .executing job _ _
  | .markCompleted job _ | .publishCompleted job => some job.id
  | .ack => none

def ReconcilerPc.role : ReconcilerPc → Role String
  | .findStaleRunning | .findOrphanQueued => .idle
  | .resetToQueued id rest => .recovering false ((id :: rest).map UUID.str)
  | .publishQueued id rest | .requeueAbandoned id rest =>
      .recovering true ((id :: rest).map UUID.str)
  | .queuedIds candidates => .comparing (candidates.map UUID.str)
  | .inFlightIds candidates queued =>
      .filtering ((candidates.map UUID.str).filter (· ∉ queued))
  | .requeueOrphan id rest live =>
      .restoring (((id :: rest).map UUID.str).filter (· ∉ live))

def WorkerPc.role : WorkerPc → Role String
  | .reconciling pc => pc.role
  | .processing _ rawJobId _ pc => .holding rawJobId pc.phase
  | .claiming _ | .checking _ | .dead => .idle

/-- The identifier that a request has still to push. -/
def RequestPc.owes : RequestPc → Option String
  | .enqueue job => some job.id.str
  | _ => none

namespace SharedStores

def Known (stores : SharedStores) (rawJobId : String) : Prop :=
  ∃ id : UUID, rawJobId = id.str ∧ ∃ row, stores.jobs.lookup id = some row

def Running (stores : SharedStores) (rawJobId : String) : Prop :=
  ∃ id : UUID, rawJobId = id.str ∧
    ∃ row, stores.jobs.lookup id = some row ∧ row.status = .running

def Expired (config : Config) (stores : SharedStores) (rawJobId : String) : Prop :=
  ∃ id : UUID, rawJobId = id.str ∧
    ∃ row, stores.jobs.lookup id = some row ∧
      row.createdAt + seconds config.orphanGraceSeconds < stores.clock

end SharedStores

/-- The platform seen as a reliable queue. -/
def Cluster.queueState {n m : Nat} (config : Config) (cluster : Cluster n m) :
    ReliableQueue.State String (Fin n) (Fin m) where
  queued rawJobId := cluster.stores.queue.count rawJobId
  inFlight rawJobId := cluster.stores.processing.count rawJobId
  known := cluster.stores.Known
  running := cluster.stores.Running
  expired := cluster.stores.Expired config
  owed request := (cluster.requests request).pc.owes
  role worker := (cluster.workers worker).pc.role

/-! ## What writes do to the lists and to running rows -/

/-- Writes that touch neither `jobs:queue` nor `jobs:processing`. -/
def Write.KeepsLists : Write → Prop
  | .enqueue _ | .dequeue _ | .claim | .ack _ | .requeue _ => False
  | _ => True

/-- Writes that touch neither list and start no job. -/
def Write.Ordinary (write : Write) : Prop :=
  write.KeepsLists ∧ ∀ now id, write ≠ .execute now id .markRunning

theorem Write.ordinary_nothing : Write.nothing.Ordinary :=
  ⟨trivial, fun _ _ => by simp⟩

theorem Write.ordinary_publish (now : Time) (id : UUID) (status : JobStatus)
    (terminal : Bool) : (Write.publish now id status terminal).Ordinary :=
  ⟨trivial, fun _ _ => by simp⟩

theorem Write.ordinary_execute (now : Time) (id : UUID) {update : RepositoryUpdate}
    (other : update ≠ .markRunning) : (Write.execute now id update).Ordinary :=
  ⟨trivial, fun _ _ same => other (by injection same)⟩

/-- Updates after which a row is not running. -/
def RepositoryUpdate.Stops : RepositoryUpdate → Prop
  | .markCompleted _ | .markFailed _ | .resetToQueued => True
  | .markRunning | .heartbeat => False

namespace SharedStores

variable {stores : SharedStores} {write : Write}

theorem queue_write (keeps : write.KeepsLists) : (stores.write write).queue = stores.queue := by
  cases write <;> first | rfl | cases keeps

theorem processing_write (keeps : write.KeepsLists) :
    (stores.write write).processing = stores.processing := by
  cases write <;> first | rfl | cases keeps

/-- A row starts to run only by `mark_running`. -/
theorem running_of_write (possible : stores.Possible write) {id : UUID} {row' : JobRow}
    (found : (stores.write write).jobs.lookup id = some row') (runs : row'.status = .running)
    (unmarked : ∀ now, write ≠ .execute now id .markRunning) :
    ∃ row, stores.jobs.lookup id = some row ∧ row.status = .running := by
  cases rowSource_write found with
  | kept before => exact ⟨row', before, runs⟩
  | created now request written => cases written; cases runs
  | updated now fields row before valid written =>
      subst written
      have finished := terminal_of_updated possible row
      rw [runs] at finished
      cases finished
  | executed now update row before matched written =>
      refine ⟨row, before, ?_⟩
      cases update with
      | markRunning => exact absurd rfl (unmarked now)
      | _ => exact matched

theorem not_running_execute (stores : SharedStores) (now : Time) (id : UUID)
    {update : RepositoryUpdate} (stops : update.Stops) {row' : JobRow}
    (found : (stores.write (.execute now id update)).jobs.lookup id = some row') :
    row'.status ≠ .running := by
  rw [SharedStores.write, JobTable.lookup_execute, if_pos rfl] at found
  obtain ⟨row, _, rfl⟩ := Option.map_eq_some_iff.mp found
  unfold RepositoryUpdate.onRow
  split
  case isTrue => cases update <;> first | exact False.elim stops | simp [RepositoryUpdate.set]
  case isFalse other => cases update <;> first | exact False.elim stops | exact other

end SharedStores

/-! ## What one call of `process` does -/

/-- A call of `process` that leads to another control point. -/
structure ProcessorPc.Advance (pc : ProcessorPc) (write : Write) (pc' : ProcessorPc) : Prop where
  lists : write.KeepsLists
  jobId : ∀ id, pc'.jobId = some id → pc.jobId = some id
  marks : ∀ now id, write = .execute now id .markRunning →
    pc.jobId = some id ∧ pc'.phase = .active
  settles : pc'.phase = .active ∨ pc.phase ≠ .active ∨
    ∃ now id update, write = .execute now id update ∧ pc.jobId = some id ∧ update.Stops

theorem ProcessorPc.jobId_start {rawJobId : String} {id : UUID} (parsed : rawJobId = id.str) :
    ProcessorPc.start rawJobId = .getJob id := by
  simp [ProcessorPc.start, parsed]

theorem ExecutorPc.step_ordinary (pc : ExecutorPc) (job : Job) (choice : Choice) :
    (pc.step job choice).1.Ordinary := by
  cases pc with
  | heartbeat site =>
      exact attempt_write Write.ordinary_nothing (Write.ordinary_execute _ _ (by simp))
  | publishHeartbeat site =>
      exact attempt_write Write.ordinary_nothing (Write.ordinary_publish ..)
  | train =>
      simp only [step]
      split <;> exact ⟨trivial, fun _ _ => by simp⟩
  | upload output todo =>
      cases todo with
      | nil => exact Write.ordinary_nothing
      | cons file todo =>
          exact attempt_write Write.ordinary_nothing ⟨trivial, fun _ _ => by simp⟩
  | _ => exact attempt_write Write.ordinary_nothing Write.ordinary_nothing

namespace ProcessorPc

/-- The usual call: the job stays in hand and its row may still be running. -/
theorem Advance.active {pc pc' : ProcessorPc} {write : Write} (ordinary : write.Ordinary)
    (jobId : pc'.jobId = pc.jobId) (phase : pc'.phase = .active) : Advance pc write pc' where
  lists := ordinary.1
  jobId id same := by rwa [jobId] at same
  marks now id made := absurd made (ordinary.2 now id)
  settles := .inl phase

theorem Advance.inactive {pc pc' : ProcessorPc} {write : Write} (ordinary : write.Ordinary)
    (jobId : ∀ id, pc'.jobId = some id → pc.jobId = some id) (phase : pc.phase ≠ .active) :
    Advance pc write pc' where
  lists := ordinary.1
  jobId := jobId
  marks now id made := absurd made (ordinary.2 now id)
  settles := .inr (.inl phase)

theorem Advance.stop {pc pc' : ProcessorPc} {now : Time} {id : UUID}
    {update : RepositoryUpdate} (jobId : pc'.jobId = pc.jobId) (own : pc.jobId = some id)
    (stops : update.Stops) : Advance pc (.execute now id update) pc' where
  lists := trivial
  jobId other same := by rwa [jobId] at same
  marks time other same := by
    cases same
    exact False.elim stops
  settles := .inr (.inr ⟨now, id, update, rfl, own, stops⟩)

theorem advance_workerError {pc : ProcessorPc} {write : Write} {id : UUID} {error : String}
    (ordinary : write.Ordinary) (jobId : pc.jobId = some id) :
    Advance pc write (workerError id error) :=
  .active ordinary jobId.symm rfl

theorem advance_afterGetJob (stores : SharedStores) (id : UUID) :
    Advance (.getJob id) .nothing (afterGetJob (stores.jobs.getJob id)) := by
  refine .inactive Write.ordinary_nothing (fun jobId same => ?_) nofun
  cases found : stores.jobs.lookup id with
  | none => simp [afterGetJob, JobTable.getJob, found, ProcessorPc.jobId] at same
  | some row =>
      simp only [afterGetJob, JobTable.getJob, found, Option.map_some] at same
      split at same
      case isTrue => cases same
      case isFalse => exact same

theorem advance_afterPublishRunning (job : Job) {write : Write} (ordinary : write.Ordinary) :
    Advance (.publishRunning job) write (afterPublishRunning job) := by
  unfold afterPublishRunning
  split <;> exact .active ordinary rfl rfl

theorem advance_afterGetModelMeta (job : Job) (found : Option ModelMeta) :
    Advance (.getModelMeta job) .nothing (afterGetModelMeta job found) := by
  unfold afterGetModelMeta
  split
  case h_1 => exact .active Write.ordinary_nothing rfl rfl
  case h_2 => split <;> exact .active Write.ordinary_nothing rfl rfl

theorem advance_afterExecutor (job : Job) (model : ModelMeta) (pc : ExecutorPc)
    (next : Next ExecutorPc String) {write : Write} (ordinary : write.Ordinary) :
    Advance (.executing job model pc) write (afterExecutor job model next) := by
  cases next <;> exact .active ordinary rfl rfl

theorem step_goto {rawJobId : String} {stores : SharedStores} {choice : Choice}
    {pc pc' : ProcessorPc} {write : Write}
    (stepped : pc.step rawJobId stores choice = some (write, .goto pc')) :
    Advance pc write pc' := by
  cases pc with
  | getJob id =>
      rcases attempt_eq (Option.some.inj stepped) with
        ⟨_, rfl, same⟩ | ⟨_, _, same⟩ | ⟨_, _, same⟩ <;> cases same
      exact advance_afterGetJob stores id
  | markRunning job =>
      have starts : ∀ pc', pc'.jobId = some job.id → pc'.phase = .active →
          Advance (.markRunning job) (.execute choice.now job.id .markRunning) pc' :=
        fun pc' own active => ⟨trivial, fun _ same => by rwa [own] at same,
          fun _ _ same => by cases same; exact ⟨rfl, active⟩, .inl active⟩
      rcases attempt_eq (Option.some.inj stepped) with
        ⟨_, rfl, same⟩ | ⟨_, rfl, same⟩ | ⟨_, rfl, same⟩ <;> cases same
      · exact starts _ rfl rfl
      · exact advance_workerError Write.ordinary_nothing rfl
      · exact starts _ rfl rfl
  | publishRunning job =>
      rcases attempt_eq (Option.some.inj stepped) with
        ⟨_, rfl, same⟩ | ⟨_, rfl, same⟩ | ⟨_, rfl, same⟩ <;> rw [Next.goto.inj same]
      · exact advance_afterPublishRunning job (Write.ordinary_publish ..)
      · exact advance_workerError Write.ordinary_nothing rfl
      · exact advance_workerError (Write.ordinary_publish ..) rfl
  | getModelMeta job =>
      obtain ⟨_, called⟩ := Option.ite_none_right_eq_some.mp stepped
      rcases attempt_eq (Option.some.inj called) with
        ⟨_, rfl, same⟩ | ⟨_, rfl, same⟩ | ⟨_, rfl, same⟩ <;> rw [Next.goto.inj same]
      · exact advance_afterGetModelMeta job _
      · exact advance_workerError Write.ordinary_nothing rfl
      · exact advance_workerError Write.ordinary_nothing rfl
  | executing job model pc =>
      obtain ⟨rfl, same⟩ := step_executing stepped
      rw [Next.goto.inj same]
      exact advance_afterExecutor job model pc _ (pc.step_ordinary job choice)
  | markCompleted job checkpointPath =>
      rcases attempt_eq (Option.some.inj stepped) with
        ⟨_, rfl, same⟩ | ⟨_, rfl, same⟩ | ⟨_, rfl, same⟩ <;> cases same
      · exact .stop rfl rfl trivial
      · exact advance_workerError Write.ordinary_nothing rfl
      · exact advance_workerError (Write.ordinary_execute _ _ (by simp)) rfl
  | publishCompleted job =>
      rcases attempt_eq (Option.some.inj stepped) with
        ⟨_, rfl, same⟩ | ⟨_, rfl, same⟩ | ⟨_, rfl, same⟩ <;> cases same
      · exact .inactive (Write.ordinary_publish ..) (fun _ => nofun) nofun
      · exact advance_workerError Write.ordinary_nothing rfl
      · exact advance_workerError (Write.ordinary_publish ..) rfl
  | markFailed id message =>
      rcases attempt_eq (Option.some.inj stepped) with
        ⟨_, rfl, same⟩ | ⟨_, _, same⟩ | ⟨_, _, same⟩ <;> cases same
      exact .stop rfl rfl trivial
  | publishFailed id =>
      rcases attempt_eq (Option.some.inj stepped) with
        ⟨_, rfl, same⟩ | ⟨_, _, same⟩ | ⟨_, _, same⟩ <;> cases same
      exact .inactive (Write.ordinary_publish ..) (fun _ => nofun) nofun
  | ack =>
      rcases attempt_eq (Option.some.inj stepped) with
        ⟨_, _, same⟩ | ⟨_, _, same⟩ | ⟨_, _, same⟩ <;> cases same

/-- A call of `process` that raises and so ends the worker is ordinary, unless
it acknowledges. -/
theorem step_raised {rawJobId : String} {stores : SharedStores} {choice : Choice}
    {pc : ProcessorPc} {write : Write} {message : String}
    (stepped : pc.step rawJobId stores choice = some (write, .raised message)) :
    write.Ordinary ∨ pc = .ack ∧ write = .ack rawJobId := by
  cases pc with
  | executing job model pc => cases (step_executing stepped).2
  | getModelMeta job =>
      obtain ⟨_, called⟩ := Option.ite_none_right_eq_some.mp stepped
      rcases attempt_eq (Option.some.inj called) with
        ⟨_, _, same⟩ | ⟨_, _, same⟩ | ⟨_, _, same⟩ <;> cases same
  | ack =>
      rcases attempt_eq (Option.some.inj stepped) with
        ⟨_, _, same⟩ | ⟨_, rfl, same⟩ | ⟨_, rfl, same⟩ <;> cases same
      · exact .inl Write.ordinary_nothing
      · exact .inr ⟨rfl, rfl⟩
  | getJob id =>
      rcases attempt_eq (Option.some.inj stepped) with
        ⟨_, _, same⟩ | ⟨_, rfl, same⟩ | ⟨_, rfl, same⟩ <;> cases same
      · exact .inl Write.ordinary_nothing
      · exact .inl Write.ordinary_nothing
  | markFailed id failure =>
      rcases attempt_eq (Option.some.inj stepped) with
        ⟨_, _, same⟩ | ⟨_, rfl, same⟩ | ⟨_, rfl, same⟩ <;> cases same
      · exact .inl Write.ordinary_nothing
      · exact .inl (Write.ordinary_execute _ _ (by simp))
  | publishFailed id =>
      rcases attempt_eq (Option.some.inj stepped) with
        ⟨_, _, same⟩ | ⟨_, rfl, same⟩ | ⟨_, rfl, same⟩ <;> cases same
      · exact .inl Write.ordinary_nothing
      · exact .inl (Write.ordinary_publish ..)
  | _ =>
      rcases attempt_eq (Option.some.inj stepped) with
        ⟨_, _, same⟩ | ⟨_, _, same⟩ | ⟨_, _, same⟩ <;> cases same

theorem step_returned {rawJobId : String} {stores : SharedStores} {choice : Choice}
    {pc : ProcessorPc} {write : Write}
    (stepped : pc.step rawJobId stores choice = some (write, .returned ())) :
    pc = .ack ∧ write = .ack rawJobId := by
  cases pc with
  | executing job model pc => cases (step_executing stepped).2
  | getModelMeta job =>
      obtain ⟨_, called⟩ := Option.ite_none_right_eq_some.mp stepped
      rcases attempt_eq (Option.some.inj called) with
        ⟨_, _, same⟩ | ⟨_, _, same⟩ | ⟨_, _, same⟩ <;> cases same
  | ack =>
      rcases attempt_eq (Option.some.inj stepped) with
        ⟨_, rfl, same⟩ | ⟨_, _, same⟩ | ⟨_, _, same⟩ <;> cases same
      exact ⟨rfl, rfl⟩
  | _ =>
      rcases attempt_eq (Option.some.inj stepped) with
        ⟨_, _, same⟩ | ⟨_, _, same⟩ | ⟨_, _, same⟩ <;> cases same

end ProcessorPc

/-! ## Names in the lists -/

/-- A worker holds the text form of the identifier that its job has. -/
def WorkerPc.Named : WorkerPc → Prop
  | .processing _ rawJobId _ pc =>
      ∃ id : UUID, rawJobId = id.str ∧ ∀ other, pc.jobId = some other → other = id
  | _ => True

/-- Every entry of the two lists is the text form of an identifier. -/
def SharedStores.Named (stores : SharedStores) : Prop :=
  ∀ rawJobId, rawJobId ∈ stores.queue ∨ rawJobId ∈ stores.processing →
    ∃ id : UUID, rawJobId = id.str

/-- An entry of the two lists was there before, or the write pushed it. -/
theorem SharedStores.entries_write {stores : SharedStores} {write : Write} {entry : String}
    (member : entry ∈ (stores.write write).queue ∨ entry ∈ (stores.write write).processing) :
    (entry ∈ stores.queue ∨ entry ∈ stores.processing) ∨
      (∃ id : UUID, write = .enqueue id ∧ entry = id.str) ∨ write = .requeue entry := by
  cases write with
  | enqueue id =>
      rcases member with queued | processing
      · rcases RedisLists.mem_lpush.mp queued with rfl | old
        · exact .inr (.inl ⟨id, rfl, rfl⟩)
        · exact .inl (.inl old)
      · exact .inl (.inr processing)
  | dequeue id =>
      exact .inl (member.imp_left fun queued => (RedisLists.mem_lrem.mp queued).1)
  | claim =>
      simp only [SharedStores.write] at member
      split at member
      case h_2 => exact .inl member
      case h_1 raw queue processing moved =>
        obtain ⟨split, rfl⟩ := RedisLists.brpoplpush_eq_some moved
        refine .inl ?_
        rcases member with queued | inFlight
        · exact .inl (by rw [split]; exact List.mem_append_left _ queued)
        · rcases List.mem_cons.mp inFlight with rfl | old
          · exact .inl (by rw [split]; simp)
          · exact .inr old
  | ack raw =>
      exact .inl (member.imp_right fun processing => (RedisLists.mem_lrem.mp processing).1)
  | requeue raw =>
      rcases member with queued | processing
      · rcases RedisLists.mem_lpush.mp queued with rfl | old
        · exact .inr (.inr rfl)
        · exact .inl (.inl old)
      · exact .inl (.inr (RedisLists.mem_lrem.mp processing).1)
  | _ => exact .inl member

theorem SharedStores.named_write {stores : SharedStores} {write : Write} (named : stores.Named)
    (requeued : ∀ rawJobId, write = .requeue rawJobId → ∃ id : UUID, rawJobId = id.str) :
    (stores.write write).Named := by
  intro rawJobId member
  rcases entries_write member with old | ⟨id, _, rfl⟩ | pushed
  · exact named rawJobId old
  · exact ⟨id, rfl⟩
  · exact requeued rawJobId pushed

theorem WorkerPc.call_requeue {choice : Choice} {pc : WorkerPc} {rawJobId : String}
    (made : pc.call choice = .requeue rawJobId) : ∃ id : UUID, rawJobId = id.str := by
  cases pc with
  | reconciling pc =>
      cases pc with
      | requeueAbandoned id rest | requeueOrphan id rest live =>
          exact ⟨id, (Write.requeue.inj made).symm⟩
      | _ => cases made
  | processing lastReconcile raw marked pc =>
      cases pc with
      | executing job model pc => exact (executes_of_call made).elim
      | _ => cases made
  | _ => cases made

theorem RequestPc.call_ne_requeue {choice : Choice} {pc : RequestPc} {rawJobId : String} :
    pc.call choice ≠ .requeue rawJobId := by
  cases pc <;> nofun

theorem WorkerPc.step_named {config : Config} {stores : SharedStores} {choice : Choice}
    {pc pc' : WorkerPc} {write : Write} (listed : stores.Named) (named : pc.Named)
    (stepped : pc.step config stores choice = some (write, pc')) : pc'.Named := by
  cases pc with
  | reconciling pc =>
      obtain ⟨next, _, rfl⟩ := step_reconciling stepped
      cases next <;> trivial
  | claiming lastReconcile =>
      simp only [step] at stepped
      split at stepped
      case h_1 =>
        rcases attempt_eq (Option.some.inj stepped) with
          ⟨_, _, rfl⟩ | ⟨_, _, rfl⟩ | ⟨_, _, rfl⟩ <;> trivial
      case h_2 raw last =>
        obtain ⟨id, parsed⟩ := listed raw (.inl (List.mem_of_getLast? last))
        rcases attempt_eq (Option.some.inj stepped) with
          ⟨_, _, same⟩ | ⟨_, _, same⟩ | ⟨_, _, same⟩ <;> rw [same]
        · refine ⟨id, parsed, fun other about => ?_⟩
          rw [ProcessorPc.jobId_start parsed] at about
          cases about
          rfl
        · trivial
        · trivial
  | processing lastReconcile raw marked pc =>
      obtain ⟨id, parsed, own⟩ := named
      obtain ⟨next, inner, rfl⟩ := step_processing stepped
      cases next with
      | goto pc' =>
          exact ⟨id, parsed, fun other same =>
            own other ((ProcessorPc.step_goto inner).jobId other same)⟩
      | _ => trivial
  | checking lastReconcile =>
      simp only [step] at stepped
      split at stepped <;> cases stepped <;> trivial
  | dead => cases stepped

namespace Cluster

variable {n m : Nat}

structure Named (cluster : Cluster n m) : Prop where
  listed : cluster.stores.Named
  held : ∀ worker, (cluster.workers worker).pc.Named

theorem named_initial (clock : Time) (models : List ModelRow) :
    Named (initial clock models : Cluster n m) :=
  ⟨fun _ member => (by rcases member with member | member <;> cases member), fun _ => trivial⟩

theorem Named.putWorker {cluster : Cluster n m} (named : Named cluster) {worker : Fin n}
    {write : Write} {pc : WorkerPc} (held : pc.Named)
    (requeued : ∀ rawJobId, write = .requeue rawJobId → ∃ id : UUID, rawJobId = id.str) :
    Named (cluster.putWorker worker write pc) := by
  refine ⟨SharedStores.named_write named.listed requeued, fun other => ?_⟩
  by_cases own : other = worker
  · subst own
    simpa [Cluster.putWorker] using held
  · simpa [Cluster.putWorker, Function.update_of_ne own] using named.held other

theorem Named.putRequest {cluster : Cluster n m} (named : Named cluster) {request : Fin m}
    {write : Write} {pc : RequestPc} (requeued : ∀ rawJobId, write ≠ .requeue rawJobId) :
    Named (cluster.putRequest request write pc) :=
  ⟨SharedStores.named_write named.listed fun rawJobId made => absurd made (requeued rawJobId),
    named.held⟩

theorem step_named {config : Config} {cluster next : Cluster n m} {action : Action n m}
    (named : Named cluster) (moved : step config cluster action = some next) : Named next := by
  cases action with
  | tick duration | setModels models => cases moved; exact ⟨named.listed, named.held⟩
  | start worker =>
      obtain ⟨_, rfl⟩ := step_start moved
      exact named.putWorker trivial nofun
  | crash worker => cases moved; exact named.putWorker trivial nofun
  | work worker choice =>
      obtain ⟨_, write, pc, stepped, rfl⟩ := step_work moved
      refine named.putWorker (WorkerPc.step_named named.listed (named.held worker) stepped) ?_
      rintro rawJobId rfl
      rcases WorkerPc.step_write stepped with made | made
      · cases made
      · exact WorkerPc.call_requeue made.symm
  | arrive request call => obtain rfl := step_arrive moved; exact named.putRequest nofun
  | serve request choice =>
      obtain ⟨_, write, pc, stepped, rfl⟩ := step_serve moved
      refine named.putRequest ?_
      rintro rawJobId rfl
      rcases RequestPc.step_write stepped with made | made
      · cases made
      · exact RequestPc.call_ne_requeue made.symm
  | drop request => cases moved; exact named.putRequest nofun

end Cluster

end Crucible
