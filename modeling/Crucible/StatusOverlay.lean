import Crucible.Cluster

/-!
# The status overlay of `GetJob`

Workers publish an outcome after an update whose row count they do not look at,
and `GetJob` lays what they published over an active row.  The overlay agrees
with Postgres on finality as long as every update of an outcome meets a row
that it can finish; where one does not, a client is shown an outcome that the
job never had.
-/

namespace Crucible

open LabelledRuns

/-! ## Outcomes -/

namespace ProcessorPc

/-- The outcome that the update of a control point is meant to commit. -/
def outcome : ProcessorPc → Option (UUID × JobStatus)
  | .markCompleted job _ => some (job.id, .completed)
  | .markFailed id _ => some (id, .failed)
  | _ => none

def published : ProcessorPc → Option (UUID × JobStatus)
  | .publishCompleted job => some (job.id, .completed)
  | .publishFailed id => some (id, .failed)
  | _ => none

theorem published_start (rawJobId : String) : (start rawJobId).published = none := by
  unfold start
  split <;> rfl

theorem published_afterGetJob (job : Option Job) : (afterGetJob job).published = none := by
  unfold afterGetJob
  split
  case h_1 => rfl
  case h_2 => split <;> rfl

theorem published_afterPublishRunning (job : Job) :
    (afterPublishRunning job).published = none := by
  unfold afterPublishRunning
  split <;> rfl

theorem published_afterGetModelMeta (job : Job) (model : Option ModelMeta) :
    (afterGetModelMeta job model).published = none := by
  unfold afterGetModelMeta
  split
  case h_1 => rfl
  case h_2 => split <;> rfl

theorem published_afterExecutor (job : Job) (model : ModelMeta)
    (next : Next ExecutorPc String) : (afterExecutor job model next).published = none := by
  cases next <;> rfl

/-- An outcome is published only after its update returned normally. -/
theorem step_published {rawJobId : String} {stores : SharedStores} {choice : Choice}
    {pc pc' : ProcessorPc} {write : Write} {result : UUID × JobStatus}
    (stepped : pc.step rawJobId stores choice = some (write, .goto pc'))
    (publishes : pc'.published = some result) :
    pc.outcome = some result ∧ choice.fault = .none ∧ write = pc.call rawJobId choice := by
  cases pc with
  | markCompleted job checkpointPath | markFailed id message =>
      rcases attempt_eq (Option.some.inj stepped) with
        ⟨sound, rfl, same⟩ | ⟨_, rfl, same⟩ | ⟨_, rfl, same⟩ <;> cases same
      · exact ⟨publishes, sound, rfl⟩
      all_goals cases publishes
  | getJob id =>
      rcases attempt_eq (Option.some.inj stepped) with
        ⟨_, _, same⟩ | ⟨_, _, same⟩ | ⟨_, _, same⟩ <;> cases same
      rw [published_afterGetJob] at publishes
      cases publishes
  | publishRunning job =>
      rcases attempt_eq (Option.some.inj stepped) with
        ⟨_, _, same⟩ | ⟨_, _, same⟩ | ⟨_, _, same⟩ <;> rw [Next.goto.inj same] at publishes
      · rw [published_afterPublishRunning] at publishes
        cases publishes
      all_goals cases publishes
  | getModelMeta job =>
      obtain ⟨_, called⟩ := Option.ite_none_right_eq_some.mp stepped
      rcases attempt_eq (Option.some.inj called) with
        ⟨_, _, same⟩ | ⟨_, _, same⟩ | ⟨_, _, same⟩ <;> rw [Next.goto.inj same] at publishes
      · rw [published_afterGetModelMeta] at publishes
        cases publishes
      all_goals cases publishes
  | executing job model pc =>
      obtain ⟨_, same⟩ := step_executing stepped
      rw [Next.goto.inj same, published_afterExecutor] at publishes
      cases publishes
  | _ =>
      rcases attempt_eq (Option.some.inj stepped) with
        ⟨_, _, same⟩ | ⟨_, _, same⟩ | ⟨_, _, same⟩ <;> cases same <;> cases publishes

end ProcessorPc

namespace WorkerPc

def outcome : WorkerPc → Option (UUID × JobStatus)
  | .processing _ _ _ pc => pc.outcome
  | _ => none

def published : WorkerPc → Option (UUID × JobStatus)
  | .processing _ _ _ pc => pc.published
  | _ => none

theorem terminal_of_published {pc : WorkerPc} {id : UUID} {status : JobStatus}
    (publishes : pc.published = some (id, status)) : status.terminal = true := by
  cases pc with
  | processing lastReconcile rawJobId marked pc =>
      cases pc <;> cases publishes <;> rfl
  | _ => cases publishes

theorem step_published {config : Config} {stores : SharedStores} {choice : Choice}
    {pc pc' : WorkerPc} {write : Write} {result : UUID × JobStatus}
    (stepped : pc.step config stores choice = some (write, pc'))
    (publishes : pc'.published = some result) :
    pc.outcome = some result ∧ choice.fault = .none ∧ write = pc.call choice := by
  cases pc with
  | reconciling pc =>
      obtain ⟨next, _, rfl⟩ := step_reconciling stepped
      cases next <;> cases publishes
  | claiming lastReconcile =>
      simp only [step] at stepped
      split at stepped
      case h_1 =>
        rcases attempt_eq (Option.some.inj stepped) with
          ⟨_, _, rfl⟩ | ⟨_, _, rfl⟩ | ⟨_, _, rfl⟩ <;> cases publishes
      case h_2 rawJobId last =>
        rcases attempt_eq (Option.some.inj stepped) with
          ⟨_, _, same⟩ | ⟨_, _, same⟩ | ⟨_, _, same⟩ <;> rw [same] at publishes
        · rw [published, ProcessorPc.published_start] at publishes
          cases publishes
        all_goals cases publishes
  | processing lastReconcile rawJobId marked pc =>
      obtain ⟨next, inner, rfl⟩ := step_processing stepped
      cases next with
      | goto pc' => exact ProcessorPc.step_published inner publishes
      | returned result => cases publishes
      | raised message => cases publishes
  | checking lastReconcile =>
      simp only [step] at stepped
      split at stepped <;> cases stepped <;> cases publishes
  | dead => cases stepped

theorem published_of_call {choice : Choice} {pc : WorkerPc} {now : Time} {id : UUID}
    {status : JobStatus} {terminal : Bool}
    (made : pc.call choice = .publish now id status terminal)
    (final : status.terminal = true) : pc.published = some (id, status) := by
  cases pc with
  | reconciling pc => cases pc <;> cases made; cases final
  | processing lastReconcile rawJobId marked pc =>
      cases pc with
      | publishCompleted job | publishFailed id => cases made; rfl
      | publishRunning job => cases made; cases final
      | executing job model pc =>
          have executes := executes_of_call made
          cases status with
          | running => cases final
          | _ => exact executes.elim
      | _ => cases made
  | _ => cases made

end WorkerPc

namespace RequestPc

def fetching : RequestPc → Option UUID
  | .getByID id => some id
  | .getJobStatus job => some job.id
  | _ => none

def shows (status : JobStatus) : RequestPc → Bool
  | .answered ⟨200, .job job⟩ => job.status = status
  | _ => false

theorem answered_of_shows {pc : RequestPc} {status : JobStatus}
    (shown : pc.shows status = true) :
    ∃ job, pc = .answered ⟨200, .job job⟩ ∧ job.status = status := by
  unfold shows at shown
  split at shown
  case h_1 job => exact ⟨job, rfl, of_decide_eq_true shown⟩
  case h_2 => cases shown

end RequestPc

namespace SharedStores

theorem statuses_write {stores : SharedStores} {write : Write} {id : UUID}
    {hash : StatusHash} (found : (stores.write write).statuses id = some hash) :
    stores.statuses id = some hash ∨
      ∃ now terminal, write = .publish now id hash.status terminal := by
  cases write with
  | publish now other status terminal =>
      simp only [SharedStores.write, publish, Function.update_apply] at found
      split at found
      case isTrue same =>
        cases found
        exact .inr ⟨now, terminal, by rw [same]⟩
      case isFalse => exact .inl found
  | claim =>
      simp only [SharedStores.write] at found
      split at found <;> exact .inl found
  | _ => exact .inl found

end SharedStores

namespace Cluster

variable {n m : Nat} {config : Config} {cluster next : Cluster n m}

/-- Every update of an outcome that returns normally meets a running row, or
one that already has the outcome. -/
def OutcomesMatch (cluster : Cluster n m) : Action n m → Prop
  | .work worker choice => choice.fault = .none →
      ∀ result ∈ (cluster.workers worker).pc.outcome,
        cluster.stores.HasStatus result.1 .running ∨
          cluster.stores.HasStatus result.1 result.2
  | _ => True

instance (cluster : Cluster n m) (action : Action n m) :
    Decidable (OutcomesMatch cluster action) :=
  match action with
  | .work _ _ => inferInstanceAs (Decidable (_ → ∀ result ∈ _, _))
  | .tick _ | .setModels _ | .start _ | .crash _ | .arrive _ _ | .serve _ _ | .drop _ =>
      isTrue trivial

/-! ## Published outcomes are true -/

/-- Terminal hashes and outcomes about to be published agree with the rows, and
`GetJob` asks for the hash of active rows only. -/
structure Honest (cluster : Cluster n m) : Prop where
  hashes : ∀ id hash, cluster.stores.statuses id = some hash → hash.status.terminal = true →
    cluster.stores.HasStatus id hash.status
  published : ∀ worker id status, (cluster.workers worker).pc.published = some (id, status) →
    cluster.stores.HasStatus id status
  fetched : ∀ request job, (cluster.requests request).pc = .getJobStatus job →
    job.status.terminal = false

theorem hasStatus_step {action : Action n m} (moved : step config cluster action = some next)
    {id : UUID} {status : JobStatus} (final : status.terminal = true)
    (held : cluster.stores.HasStatus id status) : next.stores.HasStatus id status := by
  obtain ⟨row, found, rfl⟩ := held
  obtain ⟨row', found', change⟩ := step_row moved found
  exact ⟨row', found', by rw [change.eq_of_terminal final]⟩

/-- An update of an outcome that meets a running row commits the outcome. -/
theorem hasStatus_outcome {stores : SharedStores} {choice : Choice} {pc : WorkerPc}
    {id : UUID} {status : JobStatus} (reports : pc.outcome = some (id, status))
    (meets : stores.HasStatus id .running ∨ stores.HasStatus id status) :
    (stores.write (pc.call choice)).HasStatus id status := by
  obtain ⟨row, found, open_⟩ : ∃ row, stores.jobs.lookup id = some row ∧
      (row.status = .running ∨ row.status = status) := by
    rcases meets with ⟨row, found, runs⟩ | ⟨row, found, has⟩
    · exact ⟨row, found, .inl runs⟩
    · exact ⟨row, found, .inr has⟩
  have commits : ∀ update : RepositoryUpdate, update.guard = .running →
      (∀ row, (update.set choice.now row).status = status) →
      (stores.write (.execute choice.now id update)).HasStatus id status := by
    intro update guarded sets
    refine ⟨update.onRow choice.now row, ?_, ?_⟩
    · rw [SharedStores.write, JobTable.lookup_execute, if_pos rfl, found, Option.map_some]
    · unfold RepositoryUpdate.onRow
      rw [guarded]
      split
      case isTrue => exact sets row
      case isFalse other => exact open_.resolve_left other
  cases pc with
  | processing lastReconcile rawJobId marked pc =>
      cases pc with
      | markCompleted job checkpointPath =>
          cases reports
          exact commits (.markCompleted checkpointPath) rfl fun _ => rfl
      | markFailed own message =>
          cases reports
          exact commits (.markFailed message) rfl fun _ => rfl
      | _ => cases reports
  | _ => cases reports

theorem honest_initial (clock : Time) (models : List ModelRow) :
    Honest (initial clock models : Cluster n m) :=
  ⟨fun _ _ => nofun, fun _ _ _ => nofun, fun _ _ => nofun⟩

theorem hashes_step {action : Action n m} (held : Honest cluster)
    (moved : step config cluster action = some next) {id : UUID} {hash : StatusHash}
    (found : next.stores.statuses id = some hash) (final : hash.status.terminal = true) :
    cluster.stores.HasStatus id hash.status := by
  cases action with
  | work worker choice =>
      obtain ⟨_, write, pc, stepped, rfl⟩ := step_work moved
      rcases SharedStores.statuses_write found with old | ⟨now, terminal, rfl⟩
      · exact held.hashes id hash old final
      · rcases WorkerPc.step_write stepped with made | made
        · cases made
        · exact held.published worker id _ (WorkerPc.published_of_call made.symm final)
  | serve request choice =>
      obtain ⟨_, write, pc, stepped, rfl⟩ := step_serve moved
      rcases SharedStores.statuses_write found with old | ⟨now, terminal, rfl⟩
      · exact held.hashes id hash old final
      · rcases RequestPc.step_write stepped with made | made
        · cases made
        · cases pc' : (cluster.requests request).pc <;> rw [pc'] at made <;> cases made
  | start worker => obtain ⟨_, rfl⟩ := step_start moved; exact held.hashes id hash found final
  | arrive request call => obtain rfl := step_arrive moved; exact held.hashes id hash found final
  | tick duration | setModels models | crash worker | drop request =>
      cases moved
      exact held.hashes id hash found final

theorem published_step {action : Action n m} (held : Honest cluster)
    (matched : OutcomesMatch cluster action) (moved : step config cluster action = some next) :
    ∀ worker id status, (next.workers worker).pc.published = some (id, status) →
      next.stores.HasStatus id status := by
  refine step_workers (fun stores pc => ∀ id status, pc.published = some (id, status) →
    stores.HasStatus id status) moved held.published ?_ (fun _ _ => nofun) (fun _ _ => nofun) ?_
  · intro worker old id status publishes
    exact hasStatus_step moved (WorkerPc.terminal_of_published publishes) (old id status publishes)
  · rintro worker choice write pc' rfl _ stepped stores id status publishes
    obtain ⟨reports, sound, rfl⟩ := WorkerPc.step_published stepped publishes
    rw [stores]
    exact hasStatus_outcome reports (matched sound _ reports)

theorem fetched_step {action : Action n m} (held : Honest cluster)
    (moved : step config cluster action = some next) :
    ∀ request job, (next.requests request).pc = .getJobStatus job →
      job.status.terminal = false := by
  refine step_requests (fun _ pc => ∀ job, pc = .getJobStatus job → job.status.terminal = false)
    moved held.fetched (fun _ old => old) (fun _ => nofun) ?_ ?_
  · intro call job at_
    cases call with
    | createJob request =>
        simp only [RequestPc.start] at at_
        split at at_ <;> cases at_
    | getJob id => cases at_
    | updateJob id action =>
        simp only [RequestPc.start] at at_
        split at at_ <;> cases at_
  · intro request choice write pc' _ _ stepped _ job at_
    subst at_
    cases from_ : (cluster.requests request).pc with
    | getByID id =>
        rw [from_] at stepped
        rcases attempt_eq (Option.some.inj stepped) with
          ⟨_, _, same⟩ | ⟨_, _, same⟩ | ⟨_, _, same⟩
        · unfold RequestPc.afterGetByID at same
          split at same
          case h_1 => cases same
          case h_2 job' =>
            split at same
            case isTrue active =>
              cases same
              cases status : job.status <;> simp_all [RequestPc.isActiveStatus, JobStatus.terminal]
            case isFalse => cases same
        · cases same
        · cases same
    | create request' =>
        rw [from_] at stepped
        obtain ⟨_, called⟩ := Option.ite_none_right_eq_some.mp stepped
        rcases attempt_eq (Option.some.inj called) with
          ⟨_, _, same⟩ | ⟨_, _, same⟩ | ⟨_, _, same⟩ <;> cases same
    | update id =>
        rw [from_] at stepped
        rcases attempt_eq (Option.some.inj stepped) with
          ⟨_, _, same⟩ | ⟨_, _, same⟩ | ⟨_, _, same⟩
        · unfold RequestPc.afterUpdate at same
          split at same <;> cases same
        · cases same
        · cases same
    | idle | answered response =>
        rw [from_] at stepped
        cases stepped
    | _ =>
        rw [from_] at stepped
        rcases attempt_eq (Option.some.inj stepped) with
          ⟨_, _, same⟩ | ⟨_, _, same⟩ | ⟨_, _, same⟩ <;> cases same

theorem honest_step {action : Action n m} (held : Honest cluster)
    (matched : OutcomesMatch cluster action) (moved : step config cluster action = some next) :
    Honest next where
  hashes _ _ found final := hasStatus_step moved final (hashes_step held moved found final)
  published := published_step held matched moved
  fetched := fetched_step held moved

theorem runs_honest {clock : Time} {models : List ModelRow}
    (run : Runs (step config) OutcomesMatch (initial clock models) cluster) : Honest cluster :=
  runs_invariant Honest (fun _ _ _ held matched moved => honest_step held matched moved)
    (honest_initial clock models) run

/-! ## What clients are shown -/

/-- A step by which `GetJob` answers a request for a job. -/
structure Answers (config : Config) (cluster next : Cluster n m) (request : Fin m)
    (choice : Choice) (id : UUID) (job : Job) : Prop where
  asked : (cluster.requests request).pc.fetching = some id
  moved : step config cluster (.serve request choice) = some next
  answered : (next.requests request).pc = .answered ⟨200, .job job⟩

theorem overlay_terminal {job : Job} {hash : Option StatusHash}
    (active : job.status.terminal = false)
    (final : (RequestPc.overlay job hash).status.terminal = true) :
    ∃ shown, hash = some shown ∧ (RequestPc.overlay job hash).status = shown.status := by
  cases hash with
  | none => simp [RequestPc.overlay, active] at final
  | some shown =>
      refine ⟨shown, rfl, ?_⟩
      simp only [RequestPc.overlay] at final ⊢
      split at final
      case isTrue newer => rw [if_pos newer]
      case isFalse => simp [active] at final

theorem Answers.hasStatus {request : Fin m} {choice : Choice} {id : UUID} {job : Job}
    (answers : Answers config cluster next request choice id job) (held : Honest cluster)
    (final : job.status.terminal = true) : cluster.stores.HasStatus id job.status := by
  obtain ⟨asked, moved, answered⟩ := answers
  obtain ⟨_, write, pc, stepped, rfl⟩ := step_serve moved
  rw [putRequest_self] at answered
  subst answered
  cases from_ : (cluster.requests request).pc with
  | getByID own =>
      rw [from_] at asked stepped
      cases asked
      rcases attempt_eq (Option.some.inj stepped) with
        ⟨_, _, same⟩ | ⟨_, _, same⟩ | ⟨_, _, same⟩
      · cases found : cluster.stores.jobs.lookup id with
        | none =>
            rw [JobTable.getJob, found] at same
            cases same
        | some row =>
            rw [JobTable.getJob, found, Option.map_some, RequestPc.afterGetByID] at same
            split_ifs at same
            cases same
            exact ⟨row, found, rfl⟩
      · cases same
      · cases same
  | getJobStatus seen =>
      rw [from_] at asked stepped
      cases asked
      have active := held.fetched request seen from_
      rcases attempt_eq (Option.some.inj stepped) with
        ⟨_, _, same⟩ | ⟨_, _, same⟩ | ⟨_, _, same⟩ <;> cases same
      · obtain ⟨hash, shown, status⟩ := overlay_terminal active final
        rw [status] at final ⊢
        exact held.hashes seen.id hash (Option.filter_eq_some_iff.mp shown).1 final
      · simp [active] at final
      · simp [active] at final
  | _ =>
      rw [from_] at asked
      cases asked

/-- A request that reads a finished row is answered with it. -/
theorem serve_getByID_finished {request : Fin m} {choice : Choice} {id : UUID} {row : JobRow}
    (at_ : (cluster.requests request).pc = .getByID id) (sound : choice.fault = .none)
    (moved : step config cluster (.serve request choice) = some next)
    (found : cluster.stores.jobs.lookup id = some row) (finished : row.status.terminal = true) :
    (next.requests request).pc = .answered ⟨200, .job { row with id := id }⟩ := by
  obtain ⟨_, write, pc, stepped, rfl⟩ := step_serve moved
  rw [putRequest_self]
  rw [at_] at stepped
  rcases attempt_eq (Option.some.inj stepped) with ⟨_, _, same⟩ | ⟨raised, _, _⟩ | ⟨raised, _, _⟩
  · rw [same, JobTable.getJob, found, Option.map_some, RequestPc.afterGetByID]
    have inactive : RequestPc.isActiveStatus row.status = false := by
      cases status : row.status <;> simp_all [RequestPc.isActiveStatus, JobStatus.terminal]
    simp [inactive]
  · simp [sound] at raised
  · simp [sound] at raised

/-- While every update of an outcome meets a row that it can finish, `GetJob`
shows a terminal status only if the row has it, and every later `GetJob` that
reaches Postgres shows the same. -/
theorem get_job_agrees_on_finality {clock : Time} {models : List ModelRow}
    (run : Runs (step config) OutcomesMatch (initial clock models) cluster)
    {request : Fin m} {choice : Choice} {id : UUID} {job : Job}
    (answers : Answers config cluster next request choice id job)
    (final : job.status.terminal = true) :
    next.stores.HasStatus id job.status ∧
      ∀ later, Runs (step config) Any next later → ∀ other choice' after,
        (later.requests other).pc = .getByID id → choice'.fault = .none →
        step config later (.serve other choice') = some after →
        ∃ job', (after.requests other).pc = .answered ⟨200, .job job'⟩ ∧
          job'.id = id ∧ job'.status = job.status := by
  have held := answers.hasStatus (runs_honest run) final
  have shown : next.stores.HasStatus id job.status := hasStatus_step answers.moved final held
  refine ⟨shown, ?_⟩
  intro later rest other choice' after at_ sound moved
  obtain ⟨row, found, has⟩ := shown
  have finished : row.status.terminal = true := by rw [has]; exact final
  have kept := runs_finished rest found finished
  exact ⟨_, serve_getByID_finished at_ sound moved kept finished, rfl, has⟩

/-- A reader has read the running row of job seven; the worker completes the job
five seconds later. -/
def completedRun (worker : Fin n) (request reader : Fin m) : List (Action n m) :=
  createSeven request ++ .start worker :: calls worker 0 7 ++ trains worker 0 sevenOutput ++
    [.arrive reader (.getJob jobSeven), .serve reader (callAt 0), .tick 5000000] ++ calls worker 5 2

theorem get_job_agrees_on_finality_completedRun :
    ∃ next : Cluster 1 2, next.stores.HasStatus jobSeven .completed := by
  have replays : (replay (step shortConfig) OutcomesMatch (initial 0 sevenModels)
      (completedRun (0 : Fin 1) (0 : Fin 2) 1)).any (fun cluster =>
        (step shortConfig cluster (.serve 1 (callAt 5))).any fun next =>
          decide ((cluster.requests 1).pc.fetching = some jobSeven) &&
            (next.requests 1).pc.shows .completed) = true := by
    decide +kernel
  obtain ⟨cluster, run, reached⟩ := exists_runs_of_replay replays
  obtain ⟨next, moved, shown⟩ := (Option.any_eq_true _ _).mp reached
  obtain ⟨asked, shown⟩ := Bool.and_eq_true_iff.mp shown
  obtain ⟨job, answered, status⟩ := RequestPc.answered_of_shows shown
  have agrees := get_job_agrees_on_finality run
    ⟨of_decide_eq_true asked, moved, answered⟩ (by rw [status]; rfl)
  rw [status] at agrees
  exact ⟨next, agrees.1⟩

/-- The same, but job seven is cancelled before the worker completes it. -/
def cancelledRun (worker : Fin n) (request reader : Fin m) : List (Action n m) :=
  createSeven request ++ .start worker :: calls worker 0 7 ++ trains worker 0 sevenOutput ++
    [.arrive reader (.getJob jobSeven), .serve reader (callAt 0),
      .arrive request (.updateJob jobSeven "cancel"), .serve request (callAt 0),
      .serve request (callAt 0), .tick 5000000] ++ calls worker 5 2

/-- `GetJob` answers that a cancelled job is completed. -/
theorem get_job_contradicts_cancel :
    ∃ (cluster next : Cluster 1 2) (job : Job),
      Runs (step shortConfig) Any (initial 0 sevenModels) cluster ∧
        Answers shortConfig cluster next 1 (callAt 5) jobSeven job ∧
        job.status = .completed ∧ next.stores.HasStatus jobSeven .cancelled := by
  have replays : (replay (step shortConfig) Any (initial 0 sevenModels)
      (cancelledRun (0 : Fin 1) (0 : Fin 2) 1)).any (fun cluster =>
        (step shortConfig cluster (.serve 1 (callAt 5))).any fun next =>
          decide ((cluster.requests 1).pc.fetching = some jobSeven) &&
            ((next.requests 1).pc.shows .completed &&
              decide (next.stores.HasStatus jobSeven .cancelled))) = true := by
    decide +kernel
  obtain ⟨cluster, run, reached⟩ := exists_runs_of_replay replays
  obtain ⟨next, moved, shown⟩ := (Option.any_eq_true _ _).mp reached
  obtain ⟨asked, shown⟩ := Bool.and_eq_true_iff.mp shown
  obtain ⟨shown, cancelled⟩ := Bool.and_eq_true_iff.mp shown
  obtain ⟨job, answered, status⟩ := RequestPc.answered_of_shows shown
  exact ⟨cluster, next, job, run, ⟨of_decide_eq_true asked, moved, answered⟩, status,
    of_decide_eq_true cancelled⟩

end Cluster

end Crucible
