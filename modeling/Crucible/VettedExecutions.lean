import Crucible.ExecutionGate
import Crucible.JobAnswers
import Crucible.QueueRoles

/-!
# What is known of a job that is executed

Three processes check a job before it is trained: the backend validates the
request, the preflight of `process` looks at the dataset path, and the guardrail
at a row of the catalogue.  A worker inside the executor has all three checks
behind it, for the job that was posted and for a catalogue that was in force
since the platform was set up.
-/

namespace Crucible

open LabelledRuns

/-! ## The checks -/

/-- The requests that `CreateJob` accepts. -/
structure CreateJobRequest.Valid (request : CreateJobRequest) : Prop where
  baseModel : blank request.baseModel = false
  datasetPath : blank request.datasetPath = false
  learningRate : 0 < request.hyperparameters.learningRate ∧
    request.hyperparameters.learningRate ≤ 1
  epochs : 0 < request.hyperparameters.epochs
  batchSize : 0 < request.hyperparameters.batchSize
  loraRank : 0 < request.hyperparameters.loraRank
  loraAlpha : 0 < request.hyperparameters.loraAlpha

theorem validateCreateJob_eq_none_iff (request : CreateJobRequest) :
    validateCreateJob request = none ↔ request.Valid := by
  constructor
  · intro accepted
    simp only [validateCreateJob, ite_eq_left_iff, reduceCtorEq, imp_false, not_not,
      List.append_eq_nil_iff, ite_eq_right_iff, List.cons_ne_nil, imp_false, not_or,
      not_le, not_lt, Bool.not_eq_true] at accepted
    obtain ⟨⟨⟨⟨⟨⟨baseModel, datasetPath⟩, learningRate⟩, epochs⟩, batchSize⟩, loraRank⟩,
      loraAlpha⟩ := accepted
    exact ⟨baseModel, datasetPath, learningRate, epochs, batchSize, loraRank, loraAlpha⟩
  · rintro ⟨baseModel, datasetPath, ⟨positive, small⟩, epochs, batchSize, loraRank, loraAlpha⟩
    simp [validateCreateJob, baseModel, datasetPath, not_le.mpr positive, not_lt.mpr small,
      not_le.mpr epochs, not_le.mpr batchSize, not_le.mpr loraRank, not_le.mpr loraAlpha]

/-- A model that the guardrail lets through, as read from a catalogue. -/
structure ModelMeta.Listed (models : List ModelRow) (baseModel : String) (model : ModelMeta) :
    Prop where
  fits : checkModelFits model.paramCount model.vramHint = .ok ()
  row : ∃ row ∈ models, row.hfRepoId = baseModel ∧ row.status = .ready ∧ row.toMeta = model ∧
    ((∃ other ∈ models, other.hfRepoId = baseModel ∧ other.status = .ready ∧
      other.isDefault = true) → row.isDefault = true)

theorem listed_of_getModelMeta {models : List ModelRow} {baseModel : String} {pick : Nat}
    {model : ModelMeta} (found : getModelMeta models baseModel pick = some model)
    (fits : checkModelFits model.paramCount model.vramHint = .ok ()) :
    model.Listed models baseModel := by
  unfold getModelMeta at found
  obtain ⟨row, at_, same⟩ := Option.map_eq_some_iff.mp found
  have member := List.mem_of_getElem? at_
  refine ⟨fits, ?_⟩
  unfold firstModelRows at member
  dsimp only at member
  split at member
  case isTrue none =>
    have ready := List.mem_filter.mp member
    obtain ⟨repo, status⟩ : row.hfRepoId = baseModel ∧ row.status = .ready := by
      simpa using ready.2
    refine ⟨row, ready.1, repo, status, same, ?_⟩
    rintro ⟨other, listed, repo', status', isDefault⟩
    have among : other ∈ (models.filter fun row =>
        row.hfRepoId = baseModel ∧ row.status = .ready).filter (·.isDefault) :=
      List.mem_filter.mpr ⟨List.mem_filter.mpr ⟨listed, by simp [repo', status']⟩, isDefault⟩
    rw [none] at among
    cases among
  case isFalse =>
    obtain ⟨among, isDefault⟩ := List.mem_filter.mp member
    have ready := List.mem_filter.mp among
    obtain ⟨repo, status⟩ : row.hfRepoId = baseModel ∧ row.status = .ready := by
      simpa using ready.2
    exact ⟨row, ready.1, repo, status, same, fun _ => isDefault⟩

/-! ## What `process` has behind it -/

namespace ProcessorPc

def job : ProcessorPc → Option Job
  | .markRunning job | .publishRunning job | .getModelMeta job | .executing job _ _
  | .markCompleted job _ | .publishCompleted job => some job
  | .getJob _ | .markFailed _ _ | .publishFailed _ | .ack => none

/-- The checks that a control point has behind it, where `seen` tells the
catalogues that may have been read. -/
def Checked (seen : List ModelRow → Prop) : ProcessorPc → Prop
  | .getModelMeta job => ∃ format, validateDatasetFormat job.datasetPath = .ok format
  | .executing job model _ =>
      (∃ format, validateDatasetFormat job.datasetPath = .ok format) ∧
        ∃ models, seen models ∧ model.Listed models job.baseModel
  | _ => True

variable {rawJobId : String} {stores : SharedStores} {choice : Choice} {pc pc' : ProcessorPc}
  {write : Write} {seen : List ModelRow → Prop}

theorem Checked.mono {seen' : List ModelRow → Prop} (checked : pc.Checked seen)
    (grows : ∀ models, seen models → seen' models) : pc.Checked seen' := by
  cases pc with
  | executing job model pc =>
      obtain ⟨format, models, listed, fits⟩ := checked
      exact ⟨format, models, grows models listed, fits⟩
  | _ => exact checked

theorem job_start (rawJobId : String) : (start rawJobId).job = none := by
  unfold start
  split <;> rfl

theorem checked_start (rawJobId : String) : (start rawJobId).Checked seen := by
  unfold start
  split <;> trivial

/-- The job in hand stays the same, or is read from the table. -/
theorem job_step {job : Job} (stepped : pc.step rawJobId stores choice = some (write, .goto pc'))
    (about : pc'.job = some job) : pc.job = some job ∨ stores.jobs.getJob job.id = some job := by
  cases pc with
  | getJob id =>
      rcases attempt_eq (Option.some.inj stepped) with
        ⟨_, _, same⟩ | ⟨_, _, same⟩ | ⟨_, _, same⟩ <;> cases same
      cases found : stores.jobs.getJob id with
      | none =>
          rw [found] at about
          cases about
      | some read =>
          rw [found, afterGetJob] at about
          split at about
          case isTrue => cases about
          case isFalse =>
            cases about
            have own : job.id = id := by
              obtain ⟨row, _, same⟩ := Option.map_eq_some_iff.mp found
              exact same ▸ rfl
            exact .inr (own ▸ found)
  | markRunning own =>
      rcases attempt_eq (Option.some.inj stepped) with
        ⟨_, _, same⟩ | ⟨_, _, same⟩ | ⟨_, _, same⟩ <;> cases same
      · exact .inl about
      all_goals cases about
  | publishRunning own =>
      rcases attempt_eq (Option.some.inj stepped) with
        ⟨_, _, same⟩ | ⟨_, _, same⟩ | ⟨_, _, same⟩ <;> rw [Next.goto.inj same] at about
      · unfold afterPublishRunning at about
        split at about
        case h_1 => cases about
        case h_2 => exact .inl about
      all_goals cases about
  | getModelMeta own =>
      obtain ⟨_, called⟩ := Option.ite_none_right_eq_some.mp stepped
      rcases attempt_eq (Option.some.inj called) with
        ⟨_, _, same⟩ | ⟨_, _, same⟩ | ⟨_, _, same⟩ <;> rw [Next.goto.inj same] at about
      · unfold afterGetModelMeta at about
        split at about
        case h_1 => cases about
        case h_2 =>
          split at about
          case h_1 => cases about
          case h_2 => exact .inl about
      all_goals cases about
  | executing own model pc =>
      obtain ⟨_, same⟩ := step_executing stepped
      rw [Next.goto.inj same] at about
      cases result : (pc.step own choice).2 <;> rw [result] at about
      · exact .inl about
      · exact .inl about
      · cases about
  | markCompleted own path =>
      rcases attempt_eq (Option.some.inj stepped) with
        ⟨_, _, same⟩ | ⟨_, _, same⟩ | ⟨_, _, same⟩ <;> cases same
      · exact .inl about
      all_goals cases about
  | _ =>
      rcases attempt_eq (Option.some.inj stepped) with
        ⟨_, _, same⟩ | ⟨_, _, same⟩ | ⟨_, _, same⟩ <;> cases same <;> cases about

theorem checked_step (checked : pc.Checked seen) (inForce : seen stores.models)
    (stepped : pc.step rawJobId stores choice = some (write, .goto pc')) : pc'.Checked seen := by
  cases pc with
  | getJob id =>
      rcases attempt_eq (Option.some.inj stepped) with
        ⟨_, _, same⟩ | ⟨_, _, same⟩ | ⟨_, _, same⟩ <;> cases same
      unfold afterGetJob
      split
      case h_1 => trivial
      case h_2 => split <;> trivial
  | publishRunning job =>
      rcases attempt_eq (Option.some.inj stepped) with
        ⟨_, _, same⟩ | ⟨_, _, same⟩ | ⟨_, _, same⟩ <;> rw [Next.goto.inj same]
      · unfold afterPublishRunning
        split
        case h_1 => trivial
        case h_2 format accepted => exact ⟨format, accepted⟩
      all_goals trivial
  | getModelMeta job =>
      obtain ⟨_, called⟩ := Option.ite_none_right_eq_some.mp stepped
      rcases attempt_eq (Option.some.inj called) with
        ⟨_, _, same⟩ | ⟨_, _, same⟩ | ⟨_, _, same⟩ <;> rw [Next.goto.inj same]
      · unfold afterGetModelMeta
        split
        case h_1 => trivial
        case h_2 model found =>
          split
          case h_1 => trivial
          case h_2 fits =>
            exact ⟨checked, stores.models, inForce, listed_of_getModelMeta found fits⟩
      all_goals trivial
  | executing job model pc =>
      obtain ⟨_, same⟩ := step_executing stepped
      rw [Next.goto.inj same]
      cases (pc.step job choice).2
      · exact checked
      all_goals trivial
  | _ =>
      rcases attempt_eq (Option.some.inj stepped) with
        ⟨_, _, same⟩ | ⟨_, _, same⟩ | ⟨_, _, same⟩ <;> cases same <;> trivial

end ProcessorPc

/-- A worker's job is posted as it has read it, and its checks are behind it. -/
def WorkerPc.Vetted (seen : List ModelRow → Prop) (stores : SharedStores) : WorkerPc → Prop
  | .processing _ _ _ pc => pc.Checked seen ∧ ∀ job, pc.job = some job →
      ∃ row, stores.jobs.lookup job.id = some row ∧ row.posted = job.posted
  | _ => True

theorem WorkerPc.vetted_step {config : Config} {stores : SharedStores} {choice : Choice}
    {pc pc' : WorkerPc} {write : Write} {seen : List ModelRow → Prop}
    (vetted : pc.Vetted seen stores) (inForce : seen stores.models)
    (stepped : pc.step config stores choice = some (write, pc')) : pc'.Vetted seen stores := by
  cases pc with
  | reconciling pc =>
      obtain ⟨next, _, rfl⟩ := step_reconciling stepped
      cases next <;> trivial
  | claiming lastReconcile =>
      simp only [step] at stepped
      split at stepped
      case h_1 =>
        rcases attempt_eq (Option.some.inj stepped) with
          ⟨_, _, rfl⟩ | ⟨_, _, rfl⟩ | ⟨_, _, rfl⟩ <;> trivial
      case h_2 rawJobId last =>
        rcases attempt_eq (Option.some.inj stepped) with
          ⟨_, _, same⟩ | ⟨_, _, same⟩ | ⟨_, _, same⟩ <;> rw [same]
        · refine ⟨ProcessorPc.checked_start rawJobId, fun job about => ?_⟩
          rw [ProcessorPc.job_start] at about
          cases about
        all_goals trivial
  | processing lastReconcile rawJobId marked pc =>
      obtain ⟨next, inner, rfl⟩ := step_processing stepped
      cases next with
      | goto pc' =>
          refine ⟨ProcessorPc.checked_step vetted.1 inForce inner, fun job about => ?_⟩
          rcases ProcessorPc.job_step inner about with held | read
          · exact vetted.2 job held
          · obtain ⟨row, found, same⟩ := Option.map_eq_some_iff.mp read
            exact ⟨row, found, same ▸ rfl⟩
      | _ => trivial
  | checking lastReconcile =>
      simp only [step] at stepped
      split at stepped <;> cases stepped <;> trivial
  | dead => cases stepped

theorem WorkerPc.call_ne_createJob {choice : Choice} {pc : WorkerPc} {now : Time} {id : UUID}
    {request : CreateJobRequest} : pc.call choice ≠ .createJob now id request := by
  intro made
  cases pc with
  | reconciling pc => cases pc <;> cases made
  | processing lastReconcile rawJobId marked pc =>
      cases pc with
      | executing job model pc => exact executes_of_call made
      | _ => cases made
  | _ => cases made

/-! ## Posted jobs are valid -/

namespace RequestPc

/-- A request that is about to insert a row has been validated. -/
def Validated : RequestPc → Prop
  | .create request => request.Valid
  | _ => True

theorem validated_start (call : RequestCall) : (start call).Validated := by
  cases call with
  | createJob request =>
      simp only [start]
      split
      case h_1 => trivial
      case h_2 accepted => exact (validateCreateJob_eq_none_iff request).mp accepted
  | getJob id => trivial
  | updateJob id action =>
      simp only [start]
      split <;> trivial

theorem validated_step {stores : SharedStores} {choice : Choice} {pc pc' : RequestPc}
    {write : Write} (stepped : pc.step stores choice = some (write, pc')) : pc'.Validated := by
  cases pc with
  | create request =>
      obtain ⟨_, called⟩ := Option.ite_none_right_eq_some.mp stepped
      rcases attempt_eq (Option.some.inj called) with
        ⟨_, _, rfl⟩ | ⟨_, _, rfl⟩ | ⟨_, _, rfl⟩ <;> trivial
  | getByID id =>
      rcases attempt_eq (Option.some.inj stepped) with
        ⟨_, _, same⟩ | ⟨_, _, same⟩ | ⟨_, _, same⟩ <;> rw [same]
      · unfold afterGetByID
        split
        case h_1 => trivial
        case h_2 => split <;> trivial
      all_goals trivial
  | update id =>
      rcases attempt_eq (Option.some.inj stepped) with
        ⟨_, _, same⟩ | ⟨_, _, same⟩ | ⟨_, _, same⟩ <;> rw [same] <;> unfold afterUpdate
      · split <;> trivial
      all_goals trivial
  | idle | answered response => cases stepped
  | _ =>
      rcases attempt_eq (Option.some.inj stepped) with
        ⟨_, _, rfl⟩ | ⟨_, _, rfl⟩ | ⟨_, _, rfl⟩ <;> trivial

end RequestPc

namespace Cluster

variable {n m : Nat} {config : Config} {cluster next : Cluster n m}

structure Valid (cluster : Cluster n m) : Prop where
  rows : ∀ id row, cluster.stores.jobs.lookup id = some row → row.posted.1.Valid
  requests : ∀ request, (cluster.requests request).pc.Validated

theorem valid_of_created {action : Action n m} (held : Valid cluster)
    (moved : step config cluster action = some next) {id : UUID} {row : JobRow}
    (missing : cluster.stores.jobs.lookup id = none)
    (found : next.stores.jobs.lookup id = some row) : row.posted.1.Valid := by
  have created {write : Write} (there : (cluster.stores.write write).jobs.lookup id = some row) :
      ∃ now request, write = .createJob now id request ∧ row = JobStore.newRow now request := by
    cases SharedStores.rowSource_write there with
    | kept before => simp [missing] at before
    | created now request written => exact ⟨now, request, rfl, written⟩
    | updated now fields row before => simp [missing] at before
    | executed now update row before => simp [missing] at before
  have unmoved (same : next.stores.jobs = cluster.stores.jobs) : row.posted.1.Valid := by
    rw [same, missing] at found
    cases found
  cases action with
  | serve request choice =>
      obtain ⟨_, write, pc, stepped, rfl⟩ := step_serve moved
      obtain ⟨now, body, rfl, rfl⟩ := created found
      have validated := held.requests request
      rcases RequestPc.step_write stepped with made | made
      · cases made
      · cases at_ : (cluster.requests request).pc <;> rw [at_] at made validated <;> cases made
        exact validated
  | work worker choice =>
      obtain ⟨_, write, pc, stepped, rfl⟩ := step_work moved
      obtain ⟨now, body, rfl, rfl⟩ := created found
      rcases WorkerPc.step_write stepped with made | made
      · cases made
      · exact (WorkerPc.call_ne_createJob made.symm).elim
  | start worker =>
      obtain ⟨_, rfl⟩ := step_start moved
      exact unmoved rfl
  | arrive request call =>
      obtain rfl := step_arrive moved
      exact unmoved rfl
  | tick duration | setModels models | crash worker | drop request =>
      cases moved
      exact unmoved rfl

theorem valid_step {action : Action n m} (held : Valid cluster)
    (moved : step config cluster action = some next) : Valid next where
  rows id row found := by
    cases before : cluster.stores.jobs.lookup id with
    | none => exact valid_of_created held moved before found
    | some old =>
        rw [(step_tableStep moved).posted_eq before found]
        exact held.rows id old before
  requests := step_requests (fun _ pc => pc.Validated) moved held.requests (fun _ old => old)
    trivial RequestPc.validated_start fun _ _ _ _ _ _ stepped _ =>
      RequestPc.validated_step stepped

/-! ## All runs -/

/-- A catalogue that was in force at some point of a run. -/
def HadModels (config : Config) (first last : Cluster n m) (models : List ModelRow) : Prop :=
  ∃ seen, Runs (step config) Any first seen ∧ Runs (step config) Any seen last ∧
    seen.stores.models = models

/-- The invariant of a run that starts in `first`. -/
structure VettedSince (config : Config) (first cluster : Cluster n m) : Prop where
  run : Runs (step config) Any first cluster
  valid : Valid cluster
  named : Named cluster
  workers : ∀ worker,
    (cluster.workers worker).pc.Vetted (HadModels config first cluster) cluster.stores

/-- Workers keep what they have behind them, and read the catalogue in force. -/
theorem vetted_step {seen seen' : List ModelRow → Prop} {action : Action n m}
    (workers : ∀ worker, (cluster.workers worker).pc.Vetted seen cluster.stores)
    (moved : step config cluster action = some next)
    (grows : ∀ models, seen models → seen' models) (inForce : seen cluster.stores.models)
    (worker : Fin n) : (next.workers worker).pc.Vetted seen' next.stores := by
  have posted : ∀ job : Job,
      (∃ row, cluster.stores.jobs.lookup job.id = some row ∧ row.posted = job.posted) →
      ∃ row, next.stores.jobs.lookup job.id = some row ∧ row.posted = job.posted := by
    rintro job ⟨row, found, same⟩
    obtain ⟨row', found', _⟩ := step_row moved found
    exact ⟨row', found', ((step_tableStep moved).posted_eq found found').trans same⟩
  have later : ∀ pc : WorkerPc, pc.Vetted seen cluster.stores → pc.Vetted seen' next.stores := by
    intro pc vetted
    cases pc with
    | processing lastReconcile rawJobId marked pc =>
        exact ⟨vetted.1.mono grows, fun job about => posted job (vetted.2 job about)⟩
    | _ => trivial
  refine step_worker (fun stores pc => pc.Vetted seen' stores) moved worker
    (later _ (workers worker)) trivial trivial ?_
  intro choice write pc' _ _ stepped _
  exact later pc' (WorkerPc.vetted_step (workers worker) inForce stepped)

theorem vettedSince_step {first : Cluster n m} {action : Action n m}
    (held : VettedSince config first cluster)
    (moved : step config cluster action = some next) : VettedSince config first next where
  run := runs_tail held.run trivial moved
  valid := valid_step held.valid moved
  named := step_named held.named moved
  workers := vetted_step held.workers moved
    (fun _ ⟨seen, before, after, same⟩ => ⟨seen, before, runs_tail after trivial moved, same⟩)
    ⟨cluster, held.run, .refl, rfl⟩

/-- In every reachable state, a worker inside the executor has claimed the job
that it executes, the job is as it was posted and valid, its dataset path has
passed the preflight, and its model is a ready row of a catalogue that has been
in force, a default if there was one, and fits. -/
theorem executions_vetted {clock : Time} {models : List ModelRow}
    (run : Runs (step config) Any (initial clock models) cluster) {worker : Fin n}
    {lastReconcile : Time} {rawJobId : String} {marked : Option JobStatus} {job : Job}
    {model : ModelMeta} {executor : ExecutorPc}
    (at_ : (cluster.workers worker).pc =
      .processing lastReconcile rawJobId marked (.executing job model executor)) :
    rawJobId = job.id.str ∧ job.posted.1.Valid ∧
      (∃ row, cluster.stores.jobs.lookup job.id = some row ∧ row.posted = job.posted) ∧
      (∃ format, validateDatasetFormat job.datasetPath = .ok format) ∧
      ∃ catalogue, HadModels config (initial clock models) cluster catalogue ∧
        model.Listed catalogue job.baseModel := by
  have starts : VettedSince config (initial clock models : Cluster n m) (initial clock models) :=
    ⟨.refl, ⟨fun _ _ => nofun, fun _ => trivial⟩, named_initial clock models, fun _ => trivial⟩
  have held := runs_invariant (VettedSince config (initial clock models))
    (fun _ _ _ held _ moved => vettedSince_step held moved) starts run
  have vetted := held.workers worker
  have named := held.named.held worker
  rw [at_] at vetted named
  obtain ⟨own, parsed, about⟩ := named
  obtain ⟨row, found, posted⟩ := vetted.2 job rfl
  refine ⟨parsed.trans (congrArg UUID.str (about job.id rfl)).symm, ?_, ⟨row, found, posted⟩,
    vetted.1⟩
  rw [← posted]
  exact held.valid.rows job.id row found

theorem executions_vetted_executedRun :
    ∃ (cluster : Cluster 1 1) (job : Job), job.id = jobSeven ∧
      (cluster.workers 0).pc.insideExecutor job.id = true ∧ job.posted.1.Valid := by
  have replays : (replay (step shortConfig) Any (initial 0 sevenModels)
      (executedRun (0 : Fin 1) (0 : Fin 1))).any
      (fun cluster => (cluster.workers 0).pc.insideExecutor jobSeven) = true := by
    decide +kernel
  obtain ⟨cluster, run, inside⟩ := exists_runs_of_replay replays
  obtain ⟨_, _, _, job, _, _, at_, own⟩ := WorkerPc.executing_of_insideExecutor inside
  exact ⟨cluster, job, own, own ▸ inside, (executions_vetted run at_).2.1⟩

end Cluster

end Crucible
