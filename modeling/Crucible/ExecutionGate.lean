import Crucible.Cluster

/-!
# The gate before an execution

`process` reads the job, refuses a finished one, and then marks the row running
without looking at the outcome.  An execution is entered with a running row as
long as the row is not finished between the read and the update; a cancel that
commits there goes unnoticed.
-/

namespace Crucible

open LabelledRuns

/-- The status right after `mark_running` in the invocation that a worker is
in. -/
def WorkerPc.marked : WorkerPc → Option JobStatus
  | .processing _ _ marked _ => marked
  | _ => none

/-- The job whose row a worker has read and is about to mark running. -/
def WorkerPc.marking : WorkerPc → Option UUID
  | .processing _ _ _ (.markRunning job) => some job.id
  | _ => none

namespace Cluster

variable {n m : Nat} {config : Config}

/-- Whether a step commits a cancel, a completion or a failure of a job. -/
def finishes (config : Config) (cluster : Cluster n m) (action : Action n m) (id : UUID) :
    Bool :=
  match step config cluster action with
  | none => false
  | some next =>
      (cluster.stores.jobs.lookup id).any (fun row => !row.status.terminal) &&
        (next.stores.jobs.lookup id).any fun row => row.status.terminal

/-- No job is finished while a worker is between its read of the job and its
`mark_running`. -/
def GateUndisturbed (config : Config) (cluster : Cluster n m) (action : Action n m) : Prop :=
  ∀ worker, ∀ id ∈ (cluster.workers worker).pc.marking, finishes config cluster action id = false

instance (config : Config) (cluster : Cluster n m) (action : Action n m) :
    Decidable (GateUndisturbed config cluster action) :=
  inferInstanceAs (Decidable (∀ _, ∀ id ∈ _, _))

def Unfinished (stores : SharedStores) (id : UUID) : Prop :=
  ∃ row, stores.jobs.lookup id = some row ∧ row.status.terminal = false

/-- What a control point of `process` guarantees: before the update the row is
not finished, and from then until the end of the execution it has been seen
running by the update. -/
def GatedAt (stores : SharedStores) (marked : Option JobStatus) : ProcessorPc → Prop
  | .markRunning job => Unfinished stores job.id
  | .publishRunning _ | .getModelMeta _ | .executing _ _ _ => marked = some .running
  | _ => True

def Gated (stores : SharedStores) : WorkerPc → Prop
  | .processing _ _ marked pc => GatedAt stores marked pc
  | _ => True

theorem markRunning_unfinished {stores : SharedStores} {id : UUID} (now : Time)
    (unfinished : Unfinished stores id) :
    ((stores.write (.execute now id .markRunning)).jobs.lookup id).map (·.status) =
      some .running := by
  obtain ⟨row, found, open_⟩ := unfinished
  rw [SharedStores.write, JobTable.lookup_execute, if_pos rfl, found]
  cases status : row.status <;>
    simp_all [RepositoryUpdate.onRow, RepositoryUpdate.guard, RepositoryUpdate.set,
      JobStatus.terminal]

theorem gatedAt_afterGetJob (stores : SharedStores) (marked : Option JobStatus) (id : UUID) :
    GatedAt stores marked (.afterGetJob (stores.jobs.getJob id)) := by
  cases found : stores.jobs.lookup id with
  | none =>
      rw [JobTable.getJob, found]
      trivial
  | some row =>
      rw [JobTable.getJob, found, Option.map_some, ProcessorPc.afterGetJob]
      split
      case isTrue => trivial
      case isFalse open_ => exact ⟨row, found, by simpa using open_⟩

theorem gatedAt_workerError (stores : SharedStores) (marked : Option JobStatus) (id : UUID)
    (error : String) : GatedAt stores marked (.workerError id error) :=
  trivial

theorem gatedAt_afterPublishRunning {stores : SharedStores} {marked : Option JobStatus}
    (job : Job) (running : marked = some .running) :
    GatedAt stores marked (.afterPublishRunning job) := by
  unfold ProcessorPc.afterPublishRunning
  split
  case h_1 => trivial
  case h_2 => exact running

theorem gatedAt_afterGetModelMeta {stores : SharedStores} {marked : Option JobStatus}
    (job : Job) (model : Option ModelMeta) (running : marked = some .running) :
    GatedAt stores marked (.afterGetModelMeta job model) := by
  unfold ProcessorPc.afterGetModelMeta
  split
  case h_1 => trivial
  case h_2 =>
    split
    case h_1 => trivial
    case h_2 => exact running

theorem gatedAt_afterExecutor {stores : SharedStores} {marked : Option JobStatus}
    (job : Job) (model : ModelMeta) (result : Next ExecutorPc String)
    (running : marked = some .running) :
    GatedAt stores marked (.afterExecutor job model result) := by
  cases result with
  | goto pc => exact running
  | returned checkpointPath => trivial
  | raised message => trivial

theorem gatedAt_step {rawJobId : String} {stores : SharedStores} {choice : Choice}
    {marked : Option JobStatus} {pc pc' : ProcessorPc} {write : Write}
    (gated : GatedAt stores marked pc)
    (stepped : pc.step rawJobId stores choice = some (write, .goto pc')) :
    GatedAt (stores.write write) (WorkerPc.markedAfter marked (stores.write write) pc) pc' := by
  cases pc with
  | getJob id =>
      rcases attempt_eq (Option.some.inj stepped) with
        ⟨_, rfl, same⟩ | ⟨_, _, same⟩ | ⟨_, _, same⟩
      · rw [Next.goto.inj same]
        exact gatedAt_afterGetJob stores marked id
      · cases same
      · cases same
  | markRunning job =>
      rcases attempt_eq (Option.some.inj stepped) with
        ⟨_, rfl, same⟩ | ⟨_, rfl, same⟩ | ⟨_, rfl, same⟩ <;> cases same
      · exact markRunning_unfinished choice.now gated
      · trivial
      · trivial
  | publishRunning job =>
      rcases attempt_eq (Option.some.inj stepped) with
        ⟨_, rfl, same⟩ | ⟨_, rfl, same⟩ | ⟨_, rfl, same⟩ <;> rw [Next.goto.inj same]
      · exact gatedAt_afterPublishRunning job gated
      · exact gatedAt_workerError _ _ _ _
      · exact gatedAt_workerError _ _ _ _
  | getModelMeta job =>
      obtain ⟨_, called⟩ := Option.ite_none_right_eq_some.mp stepped
      rcases attempt_eq (Option.some.inj called) with
        ⟨_, rfl, same⟩ | ⟨_, rfl, same⟩ | ⟨_, rfl, same⟩ <;> rw [Next.goto.inj same]
      · exact gatedAt_afterGetModelMeta job _ gated
      · exact gatedAt_workerError _ _ _ _
      · exact gatedAt_workerError _ _ _ _
  | executing job model pc =>
      obtain ⟨rfl, same⟩ := ProcessorPc.step_executing stepped
      rw [Next.goto.inj same]
      exact gatedAt_afterExecutor job model _ gated
  | ack =>
      rcases attempt_eq (Option.some.inj stepped) with
        ⟨_, _, same⟩ | ⟨_, _, same⟩ | ⟨_, _, same⟩ <;> cases same
  | _ =>
      rcases attempt_eq (Option.some.inj stepped) with
        ⟨_, _, same⟩ | ⟨_, _, same⟩ | ⟨_, _, same⟩ <;> cases same <;> trivial

theorem unfinished_step {cluster next : Cluster n m} {action : Action n m} {id : UUID}
    (moved : step config cluster action = some next) (unfinished : Unfinished cluster.stores id)
    (kept : finishes config cluster action id = false) : Unfinished next.stores id := by
  obtain ⟨row, found, open_⟩ := unfinished
  obtain ⟨row', found', _⟩ := step_row moved found
  refine ⟨row', found', ?_⟩
  simpa [finishes, moved, found, found', open_] using kept

theorem gated_step {cluster next : Cluster n m} {action : Action n m}
    (gated : ∀ worker, Gated cluster.stores (cluster.workers worker).pc)
    (undisturbed : GateUndisturbed config cluster action)
    (moved : step config cluster action = some next) :
    ∀ worker, Gated next.stores (next.workers worker).pc := by
  refine step_workers Gated moved gated ?_ trivial trivial ?_
  · intro worker held
    have kept := undisturbed worker
    cases at_ : (cluster.workers worker).pc with
    | processing lastReconcile rawJobId marked pc =>
        rw [at_] at held kept
        cases pc with
        | markRunning job => exact unfinished_step moved held (kept job.id rfl)
        | _ => exact held
    | _ => trivial
  · intro worker choice write pc' _ _ stepped stores
    have held := gated worker
    rw [stores]
    cases at_ : (cluster.workers worker).pc with
    | processing lastReconcile rawJobId marked pc =>
        rw [at_] at held stepped
        obtain ⟨result, inner, rfl⟩ := WorkerPc.step_processing stepped
        cases result with
        | goto pc' => exact gatedAt_step held inner
        | returned result => trivial
        | raised message => trivial
    | reconciling pc =>
        rw [at_] at stepped
        obtain ⟨result, _, rfl⟩ := WorkerPc.step_reconciling stepped
        cases result <;> trivial
    | claiming lastReconcile =>
        rw [at_, WorkerPc.step] at stepped
        split at stepped
        case h_1 =>
          rcases attempt_eq (Option.some.inj stepped) with
            ⟨_, _, rfl⟩ | ⟨_, _, rfl⟩ | ⟨_, _, rfl⟩ <;> trivial
        case h_2 rawJobId last =>
          rcases attempt_eq (Option.some.inj stepped) with
            ⟨_, _, same⟩ | ⟨_, _, same⟩ | ⟨_, _, same⟩ <;> rw [same]
          · simp only [Gated, ProcessorPc.start]
            split <;> trivial
          · trivial
          · trivial
    | checking lastReconcile =>
        rw [at_, WorkerPc.step] at stepped
        split at stepped <;> cases stepped <;> trivial
    | dead =>
        rw [at_] at stepped
        cases stepped

/-- While no job is finished between a worker's read and its `mark_running`,
`executor.run` is entered only with a row that the update left running. -/
theorem executes_only_running {clock : Time} {models : List ModelRow} {cluster : Cluster n m}
    (run : Runs (step config) (GateUndisturbed config) (initial clock models) cluster)
    {worker : Fin n} {lastReconcile : Time} {rawJobId : String} {marked : Option JobStatus}
    {job : Job} {model : ModelMeta} {pc : ExecutorPc}
    (entered : (cluster.workers worker).pc =
      .processing lastReconcile rawJobId marked (.executing job model pc)) :
    marked = some .running := by
  have starts : ∀ worker, Gated (initial clock models : Cluster n m).stores
      ((initial clock models : Cluster n m).workers worker).pc := fun _ => trivial
  have gated := runs_invariant
    (fun state : Cluster n m => ∀ worker, Gated state.stores (state.workers worker).pc)
    (fun _ _ _ held undisturbed moved => gated_step held undisturbed moved) starts run worker
  rw [entered] at gated
  exact gated

def executedRun (worker : Fin n) (request : Fin m) : List (Action n m) :=
  createSeven request ++ .start worker :: calls worker 0 7

theorem executes_only_running_executedRun :
    ∃ cluster : Cluster 1 1,
      (cluster.workers 0).pc.insideExecutor jobSeven = true ∧
        (cluster.workers 0).pc.marked = some .running := by
  have replays : (replay (step shortConfig) (GateUndisturbed shortConfig)
      (initial 0 sevenModels) (executedRun (0 : Fin 1) (0 : Fin 1))).any
        (fun cluster => (cluster.workers 0).pc.insideExecutor jobSeven) = true := by
    decide +kernel
  obtain ⟨cluster, run, inside⟩ := exists_runs_of_replay replays
  refine ⟨cluster, inside, ?_⟩
  obtain ⟨lastReconcile, rawJobId, marked, job, model, pc, at_, _⟩ :=
    WorkerPc.executing_of_insideExecutor inside
  have running := executes_only_running run at_
  rw [at_]
  exact running

/-- A cancel commits after a worker has read job seven and before it marks
the row running; the update matches no row, and the job is executed. -/
def cancelledInGateRun (worker : Fin n) (request : Fin m) : List (Action n m) :=
  createSeven request ++ .start worker :: calls worker 0 4 ++
    [.arrive request (.updateJob jobSeven "cancel"), .serve request (callAt 0),
      .serve request (callAt 0)] ++
    calls worker 0 3

theorem executes_cancelled :
    ∃ cluster : Cluster 1 1,
      Runs (step shortConfig) Any (initial 0 sevenModels) cluster ∧
        (cluster.workers 0).pc.insideExecutor jobSeven = true ∧
        (cluster.workers 0).pc.marked = some .cancelled := by
  have replays : (replay (step shortConfig) Any (initial 0 sevenModels)
      (cancelledInGateRun (0 : Fin 1) (0 : Fin 1))).any (fun cluster =>
        (cluster.workers 0).pc.insideExecutor jobSeven &&
          decide ((cluster.workers 0).pc.marked = some .cancelled)) = true := by
    decide +kernel
  obtain ⟨cluster, run, reached⟩ := exists_runs_of_replay replays
  obtain ⟨inside, marked⟩ := Bool.and_eq_true_iff.mp reached
  exact ⟨cluster, run, inside, of_decide_eq_true marked⟩

end Cluster

end Crucible
