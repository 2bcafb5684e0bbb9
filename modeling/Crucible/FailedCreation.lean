import Crucible.ExecutionGate

/-!
# Jobs whose creation was reported as failed

When `Enqueue` fails, `CreateJob` asks the store to mark the job failed and
answers 500 whatever comes of it.  The transition table has no edge from queued
to failed, so the update is refused exactly when the row is still queued, and
the job stays one that the reconciler revives.  In every other case no worker
that claims the job from then on executes it.
-/

namespace Crucible

open LabelledRuns

/-! ## Workers that are on their way to an execution -/

/-- The job that `process` has read and will execute, or is executing. -/
def ProcessorPc.executes : ProcessorPc → Option UUID
  | .markRunning job | .publishRunning job | .getModelMeta job | .executing job _ _ =>
      some job.id
  | _ => none

def WorkerPc.executes : WorkerPc → Option UUID
  | .processing _ _ _ pc => pc.executes
  | _ => none

namespace ProcessorPc

theorem executes_start (rawJobId : String) : (start rawJobId).executes = none := by
  unfold start
  split <;> rfl

theorem executes_step {rawJobId : String} {stores : SharedStores} {choice : Choice}
    {pc pc' : ProcessorPc} {write : Write} {id : UUID}
    (stepped : pc.step rawJobId stores choice = some (write, .goto pc'))
    (executes : pc'.executes = some id) :
    pc.executes = some id ∨ Cluster.Unfinished stores id := by
  cases pc with
  | getJob own =>
      rcases attempt_eq (Option.some.inj stepped) with
        ⟨_, _, same⟩ | ⟨_, _, same⟩ | ⟨_, _, same⟩ <;> cases same
      cases found : stores.jobs.lookup own with
      | none =>
          rw [JobTable.getJob, found] at executes
          cases executes
      | some row =>
          rw [JobTable.getJob, found, Option.map_some, afterGetJob] at executes
          split at executes
          case isTrue => cases executes
          case isFalse open_ =>
            cases executes
            exact .inr ⟨row, found, by simpa using open_⟩
  | markRunning job =>
      rcases attempt_eq (Option.some.inj stepped) with
        ⟨_, _, same⟩ | ⟨_, _, same⟩ | ⟨_, _, same⟩ <;> cases same
      · exact .inl executes
      all_goals cases executes
  | publishRunning job =>
      rcases attempt_eq (Option.some.inj stepped) with
        ⟨_, _, same⟩ | ⟨_, _, same⟩ | ⟨_, _, same⟩ <;> rw [Next.goto.inj same] at executes
      · unfold afterPublishRunning at executes
        split at executes
        case h_1 => cases executes
        case h_2 => exact .inl executes
      all_goals cases executes
  | getModelMeta job =>
      obtain ⟨_, called⟩ := Option.ite_none_right_eq_some.mp stepped
      rcases attempt_eq (Option.some.inj called) with
        ⟨_, _, same⟩ | ⟨_, _, same⟩ | ⟨_, _, same⟩ <;> rw [Next.goto.inj same] at executes
      · unfold afterGetModelMeta at executes
        split at executes
        case h_1 => cases executes
        case h_2 =>
          split at executes
          case h_1 => cases executes
          case h_2 => exact .inl executes
      all_goals cases executes
  | executing job model pc =>
      obtain ⟨_, same⟩ := step_executing stepped
      rw [Next.goto.inj same] at executes
      cases result : (pc.step job choice).2 <;> rw [result] at executes
      · exact .inl executes
      all_goals cases executes
  | _ =>
      rcases attempt_eq (Option.some.inj stepped) with
        ⟨_, _, same⟩ | ⟨_, _, same⟩ | ⟨_, _, same⟩ <;> cases same <;> cases executes

end ProcessorPc

theorem WorkerPc.executes_step {config : Config} {stores : SharedStores} {choice : Choice}
    {pc pc' : WorkerPc} {write : Write} {id : UUID}
    (stepped : pc.step config stores choice = some (write, pc'))
    (executes : pc'.executes = some id) :
    pc.executes = some id ∨ Cluster.Unfinished stores id := by
  cases pc with
  | reconciling pc =>
      obtain ⟨next, _, rfl⟩ := step_reconciling stepped
      cases next <;> cases executes
  | claiming lastReconcile =>
      simp only [step] at stepped
      split at stepped
      case h_1 =>
        rcases attempt_eq (Option.some.inj stepped) with
          ⟨_, _, rfl⟩ | ⟨_, _, rfl⟩ | ⟨_, _, rfl⟩ <;> cases executes
      case h_2 rawJobId last =>
        rcases attempt_eq (Option.some.inj stepped) with
          ⟨_, _, same⟩ | ⟨_, _, same⟩ | ⟨_, _, same⟩ <;> rw [same] at executes
        · rw [WorkerPc.executes, ProcessorPc.executes_start] at executes
          cases executes
        all_goals cases executes
  | processing lastReconcile rawJobId marked pc =>
      obtain ⟨next, inner, rfl⟩ := step_processing stepped
      cases next with
      | goto pc' => exact ProcessorPc.executes_step inner executes
      | returned result => cases executes
      | raised message => cases executes
  | checking lastReconcile =>
      simp only [step] at stepped
      split at stepped <;> cases stepped <;> cases executes
  | dead => cases stepped

theorem WorkerPc.insideExecutor_eq_false {pc : WorkerPc} {id : UUID}
    (clear : pc.executes ≠ some id) : pc.insideExecutor id = false := by
  refine Bool.eq_false_iff.mpr fun inside => clear ?_
  obtain ⟨lastReconcile, rawJobId, marked, job, model, executor, rfl, rfl⟩ :=
    executing_of_insideExecutor inside
  rfl

/-- Whether a request is about to report that a job's `Enqueue` failed. -/
def RequestPc.compensates (id : UUID) : RequestPc → Bool
  | .markEnqueueFailed own _ => own = id
  | _ => false

theorem RequestPc.at_of_compensates {pc : RequestPc} {id : UUID}
    (reports : pc.compensates id = true) : ∃ errMsg, pc = .markEnqueueFailed id errMsg := by
  unfold compensates at reports
  split at reports
  case h_1 own errMsg => exact ⟨errMsg, by rw [of_decide_eq_true reports]⟩
  case h_2 => cases reports

namespace Cluster

variable {n m : Nat} {config : Config} {cluster next : Cluster n m}

/-- A worker that is not on its way to executing a finished job never gets
there. -/
theorem runs_executes {later : Cluster n m} (run : Runs (step config) Any cluster later)
    {id : UUID} {row : JobRow} (found : cluster.stores.jobs.lookup id = some row)
    (finished : row.status.terminal = true) {worker : Fin n}
    (clear : (cluster.workers worker).pc.executes ≠ some id) :
    (later.workers worker).pc.executes ≠ some id := by
  have held := runs_invariant
    (fun state : Cluster n m => state.stores.jobs.lookup id = some row ∧
      (state.workers worker).pc.executes ≠ some id) ?_ ⟨found, clear⟩ run
  · exact held.2
  intro current action next ⟨kept, away⟩ _ moved
  refine ⟨runs_finished (.single ⟨action, trivial, moved⟩ : Runs (step config) Any current next)
    kept finished, ?_⟩
  refine step_worker (fun _ pc => pc.executes ≠ some id) moved worker away nofun nofun ?_
  intro choice write pc' _ _ stepped _ executes
  rcases WorkerPc.executes_step stepped executes with already | ⟨row', found', open_⟩
  · exact away already
  · rw [kept] at found'
    cases found'
    simp [finished] at open_

/-! ## The compensating update -/

/-- The job whose creation is in progress in a request, after its insert. -/
def creating : RequestPc → Option UUID
  | .enqueue job => some job.id
  | .markEnqueueFailed id _ => some id
  | _ => none

def Inserted (stores : SharedStores) (pc : RequestPc) : Prop :=
  ∀ id, creating pc = some id → ∃ row, stores.jobs.lookup id = some row

theorem inserted_step {action : Action n m}
    (held : ∀ request, Inserted cluster.stores (cluster.requests request).pc)
    (moved : step config cluster action = some next) :
    ∀ request, Inserted next.stores (next.requests request).pc := by
  refine step_requests Inserted moved held ?_ (fun _ => nofun) ?_ ?_
  · intro request old id made
    obtain ⟨row, found⟩ := old id made
    obtain ⟨row', found', _⟩ := step_row moved found
    exact ⟨row', found'⟩
  · intro call id made
    cases call with
    | createJob request | updateJob target request =>
        simp only [RequestPc.start] at made
        split at made <;> cases made
    | getJob target => cases made
  · intro request choice write pc' _ _ stepped stores id made
    have old := held request
    cases from_ : (cluster.requests request).pc with
    | create body =>
        rw [from_] at stepped
        obtain ⟨_, called⟩ := Option.ite_none_right_eq_some.mp stepped
        rcases attempt_eq (Option.some.inj called) with
          ⟨_, rfl, same⟩ | ⟨_, _, same⟩ | ⟨_, _, same⟩ <;> rw [same] at made <;> cases made
        exact ⟨JobStore.newRow choice.now body, by
          rw [stores, SharedStores.write, KeyedTable.lookup_insert, if_pos rfl]⟩
    | enqueue job =>
        rw [from_] at stepped old
        obtain ⟨row, found⟩ := old job.id rfl
        obtain ⟨row', found', _⟩ := step_row moved found
        rcases attempt_eq (Option.some.inj stepped) with
          ⟨_, _, same⟩ | ⟨_, _, same⟩ | ⟨_, _, same⟩ <;> rw [same] at made <;> cases made
        all_goals exact ⟨row', found'⟩
    | getByID target =>
        rw [from_] at stepped
        rcases attempt_eq (Option.some.inj stepped) with
          ⟨_, _, same⟩ | ⟨_, _, same⟩ | ⟨_, _, same⟩ <;> rw [same] at made
        · unfold RequestPc.afterGetByID at made
          split at made
          case h_1 => cases made
          case h_2 => split at made <;> cases made
        all_goals cases made
    | update target =>
        rw [from_] at stepped
        rcases attempt_eq (Option.some.inj stepped) with
          ⟨_, _, same⟩ | ⟨_, _, same⟩ | ⟨_, _, same⟩ <;> rw [same] at made
        · unfold RequestPc.afterUpdate at made
          split at made <;> cases made
        all_goals cases made
    | idle | answered response =>
        rw [from_] at stepped
        cases stepped
    | _ =>
        rw [from_] at stepped
        rcases attempt_eq (Option.some.inj stepped) with
          ⟨_, _, same⟩ | ⟨_, _, same⟩ | ⟨_, _, same⟩ <;> rw [same] at made <;> cases made

theorem runs_inserted {clock : Time} {models : List ModelRow}
    (run : Runs (step config) Any (initial clock models) cluster) :
    ∀ request, Inserted cluster.stores (cluster.requests request).pc :=
  runs_invariant
    (fun state : Cluster n m => ∀ request, Inserted state.stores (state.requests request).pc)
    (fun _ _ _ held _ moved => inserted_step held moved) (fun _ _ made => by cases made) run

/-- The update by which a failed `Enqueue` is reported turns a running row into
a failed one, and leaves every other row as it is. -/
theorem lookup_enqueueFailed {stores : SharedStores} {id : UUID} {row : JobRow}
    (found : stores.jobs.lookup id = some row) (now : Time) (errMsg : String) :
    (stores.write (.updateJob now id (enqueueFailedFields errMsg))).jobs.lookup id =
      some (if row.status = .running then
          { row with status := .failed, errorMessage := some errMsg, updatedAt := now }
        else
          row) := by
  cases status : row.status <;>
    simp [SharedStores.write, JobStore.update, found, enqueueFailedFields, status,
      validateTransition, validTransitions, UpdateJobFields.onRow]

/-! ## What the client can rely on -/

/-- What the answer 500 after a failed `Enqueue` is to mean: the row is failed
with the error of the enqueue, unless it was finished before, and no worker
that claims a job from then on executes this one. -/
structure Compensated (config : Config) (cluster next : Cluster n m) (id : UUID)
    (errMsg : String) : Prop where
  finished : ∃ row, next.stores.jobs.lookup id = some row ∧ row.status.terminal = true ∧
    (cluster.stores.jobs.lookup id = some row ∨
      row.status = .failed ∧ row.errorMessage = some errMsg)
  unexecuted : ∀ claiming later worker lastReconcile,
    Runs (step config) Any next claiming →
    (claiming.workers worker).pc = .claiming lastReconcile →
    Runs (step config) Any claiming later →
    (later.workers worker).pc.insideExecutor id = false

theorem not_executed_of_finished {id : UUID} {row : JobRow}
    (found : next.stores.jobs.lookup id = some row) (finished : row.status.terminal = true)
    {claiming later : Cluster n m} {worker : Fin n} {lastReconcile : Time}
    (before : Runs (step config) Any next claiming)
    (at_ : (claiming.workers worker).pc = .claiming lastReconcile)
    (after : Runs (step config) Any claiming later) :
    (later.workers worker).pc.insideExecutor id = false := by
  have kept := runs_finished before found finished
  have clear : (claiming.workers worker).pc.executes ≠ some id := by
    rw [at_]
    nofun
  exact WorkerPc.insideExecutor_eq_false (runs_executes after kept finished clear)

/-- When the update of a failed `Enqueue` reaches the database, the job is
finished and stays unexecuted exactly if its row is not queued any more. -/
theorem failed_creation_compensated_iff {clock : Time} {models : List ModelRow}
    (run : Runs (step config) Any (initial clock models) cluster) {request : Fin m}
    {id : UUID} {errMsg : String} {choice : Choice}
    (at_ : (cluster.requests request).pc = .markEnqueueFailed id errMsg)
    (reaches : choice.fault ≠ .before)
    (moved : step config cluster (.serve request choice) = some next) :
    Compensated config cluster next id errMsg ↔ ¬ cluster.stores.HasStatus id .queued := by
  obtain ⟨row, found⟩ := runs_inserted run request id (by rw [at_]; rfl)
  have written : next.stores.jobs.lookup id = some (if row.status = .running then
      { row with status := .failed, errorMessage := some errMsg, updatedAt := choice.now }
    else
      row) := by
    obtain ⟨_, write, pc, stepped, rfl⟩ := step_serve moved
    rw [at_] at stepped
    rcases attempt_eq (Option.some.inj stepped) with
      ⟨_, rfl, _⟩ | ⟨raised, _, _⟩ | ⟨_, rfl, _⟩
    · exact lookup_enqueueFailed found choice.now errMsg
    · exact absurd raised reaches
    · exact lookup_enqueueFailed found choice.now errMsg
  constructor
  · rintro ⟨⟨row', found', finished, _⟩, _⟩ ⟨queuedRow, foundQueued, queued⟩
    rw [found] at foundQueued
    cases foundQueued
    rw [written, if_neg (by simp [queued])] at found'
    cases found'
    simp [queued, JobStatus.terminal] at finished
  · intro notQueued
    by_cases running : row.status = .running
    · rw [if_pos running] at written
      exact ⟨⟨_, written, rfl, .inr ⟨rfl, rfl⟩⟩,
        fun _ _ _ _ => not_executed_of_finished written rfl⟩
    · have finished : row.status.terminal = true := by
        cases status : row.status with
        | queued => exact absurd ⟨row, found, status⟩ notQueued
        | running => exact absurd status running
        | _ => rfl
      rw [if_neg running] at written
      exact ⟨⟨row, written, finished, .inl found⟩,
        fun _ _ _ _ => not_executed_of_finished written finished⟩

/-- The push of job seven takes effect although `Enqueue` returns an error, and
a worker marks the job running before the compensating update. -/
def pushedCreation (worker : Fin n) (request : Fin m) : List (Action n m) :=
  [.arrive request (.createJob sevenRequest), .serve request { callAt 0 with uuid := jobSeven },
    .serve request { callAt 0 with fault := .after }, .start worker] ++ calls worker 0 5

theorem failed_creation_compensated_iff_pushedCreation :
    ∃ (cluster next : Cluster 1 1) (errMsg : String),
      Compensated shortConfig cluster next jobSeven errMsg := by
  have replays : (replay (step shortConfig) Any (initial 0 sevenModels)
      (pushedCreation (0 : Fin 1) (0 : Fin 1))).any
      (fun cluster => (cluster.requests 0).pc.compensates jobSeven &&
        ((step shortConfig cluster (.serve 0 (callAt 0))).isSome &&
          decide (¬ cluster.stores.HasStatus jobSeven .queued))) = true := by
    decide +kernel
  obtain ⟨cluster, run, reached⟩ := exists_runs_of_replay replays
  obtain ⟨at_, reached⟩ := Bool.and_eq_true_iff.mp reached
  obtain ⟨moves, notQueued⟩ := Bool.and_eq_true_iff.mp reached
  obtain ⟨errMsg, at_⟩ := RequestPc.at_of_compensates at_
  obtain ⟨next, moved⟩ := Option.isSome_iff_exists.mp moves
  exact ⟨cluster, next, errMsg,
    (failed_creation_compensated_iff run at_ (by decide) moved).mpr (of_decide_eq_true notQueued)⟩

def failedCreation (request : Fin m) : List (Action n m) :=
  [.arrive request (.createJob sevenRequest), .serve request { callAt 0 with uuid := jobSeven },
    .serve request { callAt 0 with fault := .before }]

/-- After the orphan grace a worker starts, recovers job seven and claims
it. -/
def revivedJob (worker : Fin n) : List (Action n m) :=
  [.tick 30000000, .start worker, .work worker (callAt 30),
    .work worker { callAt 30 with order := [jobSeven] }] ++ calls worker 30 8

/-- The compensating update succeeds as a call, `CreateJob` answers 500, the
row stays queued, and the job is executed later. -/
theorem failed_creation_executed :
    ∃ (cluster next later : Cluster 1 1) (errMsg : String),
      Runs (step shortConfig) Any (initial 0 sevenModels) cluster ∧
        (cluster.requests 0).pc = .markEnqueueFailed jobSeven errMsg ∧
        step shortConfig cluster (.serve 0 (callAt 0)) = some next ∧
        (next.requests 0).pc = .answered
          ⟨500, .error .internalServer "job created but could not be enqueued"⟩ ∧
        next.stores.HasStatus jobSeven .queued ∧
        Runs (step shortConfig) Any next later ∧
        (later.workers 0).pc.insideExecutor jobSeven = true := by
  have replays : (replay (step shortConfig) Any (initial 0 sevenModels : Cluster 1 1)
      (failedCreation 0)).any
      (fun cluster => (cluster.requests 0).pc.compensates jobSeven &&
        (step shortConfig cluster (.serve 0 (callAt 0))).any fun next =>
          decide ((next.requests 0).pc = .answered
            ⟨500, .error .internalServer "job created but could not be enqueued"⟩) &&
          (decide (next.stores.HasStatus jobSeven .queued) &&
            (replay (step shortConfig) Any next (revivedJob 0)).any fun later =>
              (later.workers 0).pc.insideExecutor jobSeven)) = true := by
    decide +kernel
  obtain ⟨cluster, run, reached⟩ := exists_runs_of_replay replays
  obtain ⟨at_, reached⟩ := Bool.and_eq_true_iff.mp reached
  obtain ⟨errMsg, at_⟩ := RequestPc.at_of_compensates at_
  obtain ⟨next, moved, reached⟩ := (Option.any_eq_true _ _).mp reached
  obtain ⟨answered, reached⟩ := Bool.and_eq_true_iff.mp reached
  obtain ⟨queued, revived⟩ := Bool.and_eq_true_iff.mp reached
  obtain ⟨later, rest, inside⟩ := exists_runs_of_replay revived
  exact ⟨cluster, next, later, errMsg, run, at_, moved, of_decide_eq_true answered,
    of_decide_eq_true queued, rest, inside⟩

end Cluster

end Crucible
