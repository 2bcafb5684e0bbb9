import Crucible.RowCoherence
import Crucible.StatusOverlay

/-!
# What answers tell about jobs

The job endpoints answer with a job as a handler saw it, which may be out of
date and, after the overlay, a mixture of two stores.  What was posted is right
in every such answer at any later time, and a result or a cancellation that an
answer shows is that of the finished row.
-/

namespace Crucible

open LabelledRuns

/-! ## What never changes in a row -/

/-- What a client posted, with the time at which the row was created. -/
def JobRow.posted (row : JobRow) : CreateJobRequest × Time :=
  (⟨row.baseModel, row.datasetPath, row.hyperparameters⟩, row.createdAt)

theorem RepositoryUpdate.posted_onRow (update : RepositoryUpdate) (now : Time) (row : JobRow) :
    (update.onRow now row).posted = row.posted := by
  unfold onRow
  split
  case isTrue => cases update <;> rfl
  case isFalse => rfl

theorem TableStep.posted_eq {clock : Time} {table table' : JobTable}
    (step : TableStep clock table table') {id : UUID} {row row' : JobRow}
    (found : table.lookup id = some row) (found' : table'.lookup id = some row') :
    row'.posted = row.posted := by
  have kept (same : table'.lookup id = table.lookup id) : row'.posted = row.posted := by
    rw [found, found'] at same
    rw [Option.some.inj same]
  cases step with
  | same => exact kept rfl
  | @create now new request started fresh =>
      refine kept (AList.lookup_insert_ne ?_)
      rintro rfl
      simp [fresh] at found
  | @execute now target update started =>
      by_cases own : id = target
      · subst own
        rw [JobTable.lookup_execute, if_pos rfl, found] at found'
        rw [← Option.some.inj found', update.posted_onRow]
      · refine kept ?_
        rw [JobTable.lookup_execute, if_neg own]
  | @update now own fields target started asked =>
      rcases JobStore.lookup_update table now own id fields with
        unchanged | ⟨rfl, before, there, _, written⟩
      · exact kept unchanged
      · rw [found] at there
        rw [found'] at written
        cases there
        cases written
        rfl

/-! ## True snapshots -/

/-- What holds of a job that a client is shown, now and later: it was posted
like this, a result goes with its status, and a result or a cancellation is that
of the row. -/
structure Truthful (stores : SharedStores) (job : Job) : Prop where
  posted : ∃ row, stores.jobs.lookup job.id = some row ∧ row.posted = job.posted
  checkpoint : ∀ path, job.checkpointPath = some path → job.status = .completed ∧
    path = checkpointPrefix job.id ∧ stores.HasCheckpoint job.id
  failure : job.errorMessage ≠ none → job.status = .failed
  final : job.checkpointPath ≠ none ∨ job.errorMessage ≠ none ∨ job.status = .cancelled →
    stores.jobs.lookup job.id = some job.toJobRow

namespace Truthful

variable {stores : SharedStores} {id : UUID} {row : JobRow} {job : Job}

theorem of_row (coherent : RowCoherent stores id row)
    (found : stores.jobs.lookup id = some row) : Truthful stores { row with id := id } where
  posted := ⟨row, found, rfl⟩
  checkpoint path set := by
    change row.checkpointPath = some path at set
    have completed := coherent.completed.mpr (by simp [set])
    obtain ⟨same, stored⟩ := coherent.stored completed
    rw [same] at set
    exact ⟨completed, (Option.some.inj set).symm, stored⟩
  failure set := coherent.failed.mpr set
  final _ := found

theorem results_of_active (held : Truthful stores job) (active : job.status.terminal = false) :
    job.checkpointPath = none ∧ job.errorMessage = none := by
  constructor
  · cases set : job.checkpointPath with
    | none => rfl
    | some path => simp [(held.checkpoint path set).1, JobStatus.terminal] at active
  · by_contra set
    simp [held.failure set, JobStatus.terminal] at active

theorem overlay (held : Truthful stores job) (active : job.status.terminal = false)
    {hash : Option StatusHash} (uncancelled : ∀ shown, hash = some shown →
      shown.status ≠ .cancelled) : Truthful stores (RequestPc.overlay job hash) := by
  cases hash with
  | none => exact held
  | some shown =>
      unfold RequestPc.overlay
      dsimp only
      split
      case isFalse => exact held
      case isTrue newer =>
        obtain ⟨noPath, noError⟩ := held.results_of_active active
        refine ⟨held.posted, fun path set => ?_, fun set => absurd noError set, ?_⟩
        · simp [noPath] at set
        · rintro (set | set | cancelled)
          · exact absurd noPath set
          · exact absurd noError set
          · exact absurd cancelled (uncancelled shown rfl)

theorem terminal_of_final (held : Truthful stores job)
    (shown : job.checkpointPath ≠ none ∨ job.errorMessage ≠ none ∨ job.status = .cancelled) :
    job.status.terminal = true := by
  rcases shown with set | set | cancelled
  · obtain ⟨path, set⟩ := Option.ne_none_iff_exists'.mp set
    rw [(held.checkpoint path set).1]
    rfl
  · rw [held.failure set]
    rfl
  · rw [cancelled]
    rfl

end Truthful

/-! ## Handlers -/

/-- The job that a handler holds or has answered with. -/
def RequestPc.snapshot : RequestPc → Option Job
  | .enqueue job | .getJobStatus job | .dequeue job | .answered ⟨_, .job job⟩ => some job
  | _ => none

/-- A handler holds a true snapshot, asks for the hash of an active job only,
dequeues a cancelled one, and answers with a job only when it succeeds. -/
structure RequestPc.Faithful (stores : SharedStores) (pc : RequestPc) : Prop where
  truthful : ∀ job, pc.snapshot = some job → Truthful stores job
  active : ∀ job, pc = .getJobStatus job → job.status.terminal = false
  cancelled : ∀ job, pc = .dequeue job → job.status = .cancelled
  succeeded : ∀ code job, pc = .answered ⟨code, .job job⟩ → code = 200 ∨ code = 201

namespace RequestPc

variable {stores : SharedStores} {choice : Choice} {pc pc' : RequestPc} {write : Write}

theorem Faithful.of_silent (silent : pc.snapshot = none) : pc.Faithful stores where
  truthful job shown := by simp [silent] at shown
  active job at_ := by simp [at_, snapshot] at silent
  cancelled job at_ := by simp [at_, snapshot] at silent
  succeeded code job at_ := by simp [at_, snapshot] at silent

theorem Faithful.answer {job : Job} {code : Nat} (held : Truthful stores job)
    (success : code = 200 ∨ code = 201) : (answered ⟨code, .job job⟩).Faithful stores where
  truthful job' shown := by
    cases shown
    exact held
  active _ := nofun
  cancelled _ := nofun
  succeeded code' job' same := by
    cases same
    exact success

theorem Faithful.enqueue {job : Job} (held : Truthful stores job) :
    (enqueue job).Faithful stores where
  truthful job' shown := by
    cases shown
    exact held
  active _ := nofun
  cancelled _ := nofun
  succeeded _ _ := nofun

theorem Faithful.dequeue {job : Job} (held : Truthful stores job)
    (cancelled : job.status = .cancelled) : (dequeue job).Faithful stores where
  truthful job' shown := by
    cases shown
    exact held
  active _ := nofun
  cancelled job' at_ := by
    cases at_
    exact cancelled
  succeeded _ _ := nofun

theorem snapshot_start (call : RequestCall) : (start call).snapshot = none := by
  cases call with
  | getJob id => rfl
  | createJob request =>
      simp only [start, validateCreateJob]
      split_ifs <;> rfl
  | updateJob id action =>
      simp only [start, validateJobUpdate]
      split_ifs <;> rfl

theorem faithful_afterGetByID {id : UUID}
    (coherent : ∀ row, stores.jobs.lookup id = some row → RowCoherent stores id row) :
    (afterGetByID (stores.jobs.getJob id)).Faithful stores := by
  cases found : stores.jobs.lookup id with
  | none =>
      rw [JobTable.getJob, found]
      exact .of_silent rfl
  | some row =>
      have held := Truthful.of_row (coherent row found) found
      rw [JobTable.getJob, found, Option.map_some, afterGetByID]
      split
      case isTrue active =>
        refine ⟨fun job shown => ?_, fun job at_ => ?_, fun _ at_ => ?_, fun _ _ at_ => ?_⟩
        · cases shown
          exact held
        · cases at_
          cases status : row.status <;> simp_all [isActiveStatus, JobStatus.terminal]
        · cases at_
        · cases at_
      case isFalse => exact .answer held (.inl rfl)

/-- A call of a handler keeps its snapshot true.  The stores after the call are
coherent, and those before it hold true hashes. -/
theorem Faithful.step (held : pc.Faithful stores) (coherent : stores.Coherent)
    (coherent' : (stores.write write).Coherent)
    (stable : ∀ job, Truthful stores job → Truthful (stores.write write) job)
    (hashes : ∀ id hash, stores.statuses id = some hash → hash.status ≠ .cancelled)
    (stepped : pc.step stores choice = some (write, pc')) :
    pc'.Faithful (stores.write write) := by
  cases pc with
  | create request =>
      obtain ⟨_, called⟩ := Option.ite_none_right_eq_some.mp stepped
      rcases attempt_eq (Option.some.inj called) with
        ⟨_, rfl, rfl⟩ | ⟨_, _, rfl⟩ | ⟨_, _, rfl⟩
      · have found : (stores.write (.createJob choice.now choice.uuid request)).jobs.lookup
            choice.uuid = some (JobStore.newRow choice.now request) :=
          AList.lookup_insert _
        exact .enqueue (Truthful.of_row (coherent' _ _ found) found)
      · exact .of_silent rfl
      · exact .of_silent rfl
  | enqueue job =>
      have shown := stable job (held.truthful job rfl)
      rcases attempt_eq (Option.some.inj stepped) with
        ⟨_, _, rfl⟩ | ⟨_, _, rfl⟩ | ⟨_, _, rfl⟩
      · exact .answer shown (.inr rfl)
      · exact .of_silent rfl
      · exact .of_silent rfl
  | getByID id =>
      rcases attempt_eq (Option.some.inj stepped) with
        ⟨_, rfl, rfl⟩ | ⟨_, _, rfl⟩ | ⟨_, _, rfl⟩
      · exact faithful_afterGetByID fun row found => coherent id row found
      · exact .of_silent rfl
      · exact .of_silent rfl
  | getJobStatus job =>
      have shown := held.truthful job rfl
      have active := held.active job rfl
      rcases attempt_eq (Option.some.inj stepped) with
        ⟨_, rfl, rfl⟩ | ⟨_, rfl, rfl⟩ | ⟨_, rfl, rfl⟩
      · refine .answer (shown.overlay active fun hash found => ?_) (.inl rfl)
        exact hashes job.id hash (Option.filter_eq_some_iff.mp found).1
      · exact .answer shown (.inl rfl)
      · exact .answer shown (.inl rfl)
  | update id =>
      rcases attempt_eq (Option.some.inj stepped) with
        ⟨_, rfl, rfl⟩ | ⟨_, _, rfl⟩ | ⟨_, _, rfl⟩
      · cases result : (JobStore.update stores.jobs choice.now id cancelFields).1 with
        | error error => exact .of_silent (by cases error <;> rfl)
        | ok job =>
            obtain ⟨row, same, found⟩ := JobStore.lookup_of_update_ok result
            subst same
            exact .dequeue (Truthful.of_row (coherent' id row found) found)
              (JobStore.status_of_update_ok result rfl)
      · exact .of_silent rfl
      · exact .of_silent rfl
  | dequeue job =>
      have shown := stable job (held.truthful job rfl)
      rcases attempt_eq (Option.some.inj stepped) with
        ⟨_, _, rfl⟩ | ⟨_, _, rfl⟩ | ⟨_, _, rfl⟩ <;> exact .answer shown (.inl rfl)
  | markEnqueueFailed id errMsg =>
      rcases attempt_eq (Option.some.inj stepped) with
        ⟨_, _, rfl⟩ | ⟨_, _, rfl⟩ | ⟨_, _, rfl⟩ <;> exact .of_silent rfl
  | idle | answered response => cases stepped

end RequestPc

theorem WorkerPc.call_ne_publish_cancelled {choice : Choice} {pc : WorkerPc} {now : Time}
    {id : UUID} {terminal : Bool} : pc.call choice ≠ .publish now id .cancelled terminal := by
  intro made
  have publishes := published_of_call made rfl
  cases pc with
  | processing lastReconcile rawJobId marked pc =>
      cases pc <;> simp [published, ProcessorPc.published] at publishes
  | _ => cases publishes

namespace Cluster

variable {n m : Nat} {config : Config} {cluster next : Cluster n m}

/-! ## All runs -/

/-- The invariant: rows are coherent, no hash is a cancellation, and handlers
hold true snapshots. -/
structure Answerable (cluster : Cluster n m) : Prop where
  coherent : cluster.Coherent
  hashes : ∀ id hash, cluster.stores.statuses id = some hash → hash.status ≠ .cancelled
  requests : ∀ request, (cluster.requests request).pc.Faithful cluster.stores

theorem answerable_initial (clock : Time) (models : List ModelRow) :
    (initial clock models : Cluster n m).Answerable where
  coherent := coherent_initial clock models
  hashes _ _ := nofun
  requests _ := .of_silent rfl

theorem uncancelled_step {action : Action n m} (held : cluster.Answerable)
    (moved : step config cluster action = some next) {id : UUID} {hash : StatusHash}
    (found : next.stores.statuses id = some hash) : hash.status ≠ .cancelled := by
  cases action with
  | work worker choice =>
      obtain ⟨_, write, pc, stepped, rfl⟩ := step_work moved
      rcases SharedStores.statuses_write found with old | ⟨now, terminal, rfl⟩
      · exact held.hashes id hash old
      · intro cancelled
        rcases WorkerPc.step_write stepped with made | made
        · cases made
        · rw [cancelled] at made
          exact WorkerPc.call_ne_publish_cancelled made.symm
  | serve request choice =>
      obtain ⟨_, write, pc, stepped, rfl⟩ := step_serve moved
      rcases SharedStores.statuses_write found with old | ⟨now, terminal, rfl⟩
      · exact held.hashes id hash old
      · rcases RequestPc.step_write stepped with made | made
        · cases made
        · cases from_ : (cluster.requests request).pc <;> rw [from_] at made <;> cases made
  | start worker => obtain ⟨_, rfl⟩ := step_start moved; exact held.hashes id hash found
  | arrive request call => obtain rfl := step_arrive moved; exact held.hashes id hash found
  | tick duration | setModels models | crash worker | drop request =>
      cases moved
      exact held.hashes id hash found

theorem truthful_step {action : Action n m} (moved : step config cluster action = some next)
    {job : Job} (held : Truthful cluster.stores job) : Truthful next.stores job where
  posted := by
    obtain ⟨row, found, posted⟩ := held.posted
    obtain ⟨row', found', _⟩ := step_row moved found
    exact ⟨row', found', ((step_tableStep moved).posted_eq found found').trans posted⟩
  checkpoint path set := by
    obtain ⟨completed, same, stored⟩ := held.checkpoint path set
    exact ⟨completed, same, hasCheckpoint_step moved stored⟩
  failure := held.failure
  final shown := by
    obtain ⟨row', found', change⟩ := step_row moved (held.final shown)
    rw [found', change.eq_of_terminal (held.terminal_of_final shown)]

theorem answerable_step {action : Action n m} (held : cluster.Answerable)
    (moved : step config cluster action = some next) : next.Answerable where
  coherent := held.coherent.step moved
  hashes _ _ found := uncancelled_step held moved found
  requests := by
    refine step_requests (fun stores pc => pc.Faithful stores) moved held.requests ?_
      (.of_silent rfl) (fun call => .of_silent (RequestPc.snapshot_start call)) ?_
    · intro request old
      exact ⟨fun job shown => truthful_step moved (old.truthful job shown), old.active,
        old.cancelled, old.succeeded⟩
    · intro request choice write pc' _ _ stepped stores
      have coherent' := (held.coherent.step moved).rows
      rw [stores] at coherent' ⊢
      refine (held.requests request).step held.coherent.rows coherent' (fun job shown => ?_)
        held.hashes stepped
      rw [← stores]
      exact truthful_step moved shown

/-- In every reachable state, a job that a client has been answered with is
there with what was posted, and if the answer shows a checkpoint, an error or a
cancellation the row is finished and equal to the answer; both hold from then
on. -/
theorem answers_truthful {clock : Time} {models : List ModelRow}
    (run : Runs (step config) Any (initial clock models) cluster) {request : Fin m}
    {code : Nat} {job : Job} (at_ : (cluster.requests request).pc = .answered ⟨code, .job job⟩) :
    (code = 200 ∨ code = 201) ∧
      ∀ later, Runs (step config) Any cluster later → Truthful later.stores job := by
  have held := (runs_invariant Answerable (fun _ _ _ held _ moved => answerable_step held moved)
    (answerable_initial clock models) run).requests request
  refine ⟨held.succeeded code job at_, fun later rest => ?_⟩
  exact runs_invariant (fun state : Cluster n m => Truthful state.stores job)
    (fun _ _ _ shown _ moved => truthful_step moved shown)
    (held.truthful job (by rw [at_]; rfl)) rest

/-- The reader of `completedRun` is answered with a job whose completion comes
from the hash. -/
theorem answers_truthful_completedRun :
    ∃ (cluster : Cluster 1 2) (job : Job), job.status = .completed ∧
      Truthful cluster.stores job := by
  have replays : (replay (step shortConfig) Any (initial 0 sevenModels)
      (completedRun (0 : Fin 1) (0 : Fin 2) 1 ++ [.serve 1 (callAt 5)])).any
        (fun cluster => (cluster.requests 1).pc.shows .completed) = true := by
    decide +kernel
  obtain ⟨cluster, run, shown⟩ := exists_runs_of_replay replays
  obtain ⟨job, at_, completed⟩ := RequestPc.answered_of_shows shown
  exact ⟨cluster, job, completed, (answers_truthful run at_).2 cluster .refl⟩

end Cluster

end Crucible
