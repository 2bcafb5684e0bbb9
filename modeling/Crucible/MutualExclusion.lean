import Crucible.QueueRefinement

/-!
# Mutual exclusion of executions

No job is inside `executor.run` in two workers at once, as long as no two
reconcile passes recover the same job at once and none takes a job from a worker
that is slow outside the executor, where it does not heartbeat.  Passes that
overlap can break it: a pass that found a job stale resets it even after another
pass has given it to a worker.
-/

namespace Crucible

open LabelledRuns ReliableQueue

namespace Cluster

variable {n m : Nat}

/-- No job that is inside `executor.run` is found stale: the worker heartbeats
within the visibility timeout. -/
def ExecutorsHeartbeat (cluster : Cluster n m) : Action n m → Prop
  | .work worker choice =>
      (cluster.workers worker).pc = .reconciling .findStaleRunning → choice.fault = .none →
        ∀ id ∈ choice.order, ∀ other, (cluster.workers other).pc.insideExecutor id = false
  | _ => True

instance (cluster : Cluster n m) (action : Action n m) :
    Decidable (ExecutorsHeartbeat cluster action) :=
  match action with
  | .work _ choice => inferInstanceAs (Decidable (_ → _ → ∀ id ∈ choice.order, ∀ _, _ = _))
  | .tick _ | .setModels _ | .start _ | .crash _ | .arrive _ _ | .serve _ _ | .drop _ =>
      isTrue trivial

/-- The provisos of mutual exclusion: Enqueues land within the orphan grace and
every worker that executes a job heartbeats within the visibility timeout. -/
def Provisos (config : Config) (cluster : Cluster n m) (action : Action n m) : Prop :=
  EnqueueInTime config cluster action ∧ ExecutorsHeartbeat cluster action

instance (config : Config) (cluster : Cluster n m) (action : Action n m) :
    Decidable (Provisos config cluster action) :=
  inferInstanceAs (Decidable (_ ∧ _))

theorem role_of_insideExecutor {pc : WorkerPc} (named : pc.Named) {id : UUID}
    (inside : pc.insideExecutor id = true) : pc.role = .holding id.str .active := by
  obtain ⟨lastReconcile, rawJobId, marked, job, model, executor, rfl, rfl⟩ :=
    WorkerPc.executing_of_insideExecutor inside
  obtain ⟨same, parsed, own⟩ := named
  rw [WorkerPc.role, parsed, own job.id rfl]
  rfl

/-- While no pass takes a job from a live worker and no two passes recover the same
job at once, no job is inside `executor.run` in two workers. -/
theorem executions_exclusive {config : Config} {clock : Time} {models : List ModelRow}
    {cluster : Cluster n m}
    (run : Runs (step config) (fun current action =>
      Provisos config current action ∧ Heartbeating current action ∧ PassesDisjoint current)
      (initial clock models) cluster)
    {id : UUID} {worker other : Fin n}
    (inside : (cluster.workers worker).pc.insideExecutor id = true)
    (inside' : (cluster.workers other).pc.insideExecutor id = true) :
    worker = other := by
  have disciplined := runs_mono
    (fun _ _ allowed => Disciplined.mk allowed.1.1 allowed.2.1 allowed.2.2) run
  obtain ⟨held, named⟩ := runs_exclusive disciplined
  exact held.holder_unique (role_of_insideExecutor (named.held worker) inside)
    (role_of_insideExecutor (named.held other) inside')

/-- A worker dies while it executes job seven, and another one executes the job
again after its own pass has recovered it. -/
def reexecutedRun (worker other : Fin n) (request : Fin m) : List (Action n m) :=
  createSeven request ++ .start worker :: calls worker 0 7 ++
    [.crash worker, .tick 30000000, .start other,
      .work other { callAt 30 with order := [jobSeven] }] ++
    calls other 30 9

theorem executions_exclusive_reexecutedRun :
    ∃ cluster : Cluster 2 1, (cluster.workers 1).pc.insideExecutor jobSeven = true ∧
      ∀ worker, (cluster.workers worker).pc.insideExecutor jobSeven = true → worker = 1 := by
  have replays : (replay (step shortConfig) (fun current action =>
      Provisos shortConfig current action ∧ Heartbeating current action ∧
        PassesDisjoint current) (initial 0 sevenModels)
      (reexecutedRun (0 : Fin 2) 1 (0 : Fin 1))).any
        (fun cluster => (cluster.workers 1).pc.insideExecutor jobSeven) = true := by
    decide +kernel
  obtain ⟨cluster, run, inside⟩ := exists_runs_of_replay replays
  exact ⟨cluster, inside, fun worker inside' => executions_exclusive run inside' inside⟩

/-- After a worker has died, the startup passes of two others both find job
seven stale.  The first recovers it and executes it; the second resets it while
it runs, and executes it too. -/
def overlappingRun (worker other third : Fin n) (request : Fin m) : List (Action n m) :=
  createSeven request ++ .start worker :: calls worker 0 7 ++
    [.crash worker, .tick 30000000, .start other, .start third,
      .work other { callAt 30 with order := [jobSeven] },
      .work third { callAt 30 with order := [jobSeven] }] ++
    calls other 30 9 ++ calls third 30 9

/-- A worker that has marked job seven as running is slow to go on.  The pass of
another one finds the job stale and recovers it, and both execute it. -/
def slowRun (worker other : Fin n) (request : Fin m) : List (Action n m) :=
  createSeven request ++ .start worker :: calls worker 0 5 ++
    [.tick 30000000, .start other, .work other { callAt 30 with order := [jobSeven] }] ++
    calls other 30 9 ++ calls worker 30 2

theorem executions_overlap :
    (∃ cluster : Cluster 3 1,
      Runs (step shortConfig) (fun current action =>
        Provisos shortConfig current action ∧ Heartbeating current action)
        (initial 0 sevenModels) cluster ∧
        ∃ worker other, worker ≠ other ∧
          (cluster.workers worker).pc.insideExecutor jobSeven = true ∧
          (cluster.workers other).pc.insideExecutor jobSeven = true) ∧
    ∃ cluster : Cluster 2 1,
      Runs (step shortConfig) (fun current action =>
        Provisos shortConfig current action ∧ PassesDisjoint current)
        (initial 0 sevenModels) cluster ∧
        ∃ worker other, worker ≠ other ∧
          (cluster.workers worker).pc.insideExecutor jobSeven = true ∧
          (cluster.workers other).pc.insideExecutor jobSeven = true := by
  constructor
  · have replays : (replay (step shortConfig) (fun current action =>
        Provisos shortConfig current action ∧ Heartbeating current action)
        (initial 0 sevenModels) (overlappingRun (0 : Fin 3) 1 2 (0 : Fin 1))).any
          (fun cluster => (cluster.workers 1).pc.insideExecutor jobSeven &&
          (cluster.workers 2).pc.insideExecutor jobSeven) = true := by
      decide +kernel
    obtain ⟨cluster, run, inside⟩ := exists_runs_of_replay replays
    obtain ⟨first, second⟩ := Bool.and_eq_true_iff.mp inside
    exact ⟨cluster, run, 1, 2, by decide, first, second⟩
  · have replays : (replay (step shortConfig) (fun current action =>
        Provisos shortConfig current action ∧ PassesDisjoint current)
        (initial 0 sevenModels) (slowRun (0 : Fin 2) 1 (0 : Fin 1))).any
          (fun cluster => (cluster.workers 0).pc.insideExecutor jobSeven &&
          (cluster.workers 1).pc.insideExecutor jobSeven) = true := by
      decide +kernel
    obtain ⟨cluster, run, inside⟩ := exists_runs_of_replay replays
    obtain ⟨first, second⟩ := Bool.and_eq_true_iff.mp inside
    exact ⟨cluster, run, 0, 1, by decide, first, second⟩

end Cluster

end Crucible
