import Crucible.QueueRefinement

/-!
# No duplicate queue entries

When reconcile passes do not overlap, each job identifier occurs at most once
in `jobs:queue` and `jobs:processing` together.
-/

namespace Crucible

open LabelledRuns ReliableQueue

theorem WorkerPc.inReconcile_of_inHand {pc : WorkerPc} {rawJobId : String}
    (inHand : rawJobId ∈ pc.role.abandoned ∨ rawJobId ∈ pc.role.missing) :
    pc.inReconcile = true := by
  cases pc with
  | reconciling pass => rfl
  | _ => rcases inHand with member | member <;> cases member

namespace Cluster

variable {n m : Nat}

/-- At most one worker is inside `reconcile`. -/
def OnePass (cluster : Cluster n m) : Prop :=
  ∀ worker other, (cluster.workers worker).pc.inReconcile → (cluster.workers other).pc.inReconcile →
    worker = other

instance (cluster : Cluster n m) : Decidable (OnePass cluster) :=
  inferInstanceAs (Decidable (∀ _ _, _ → _ → _))

/-- Enqueues land in time, jobs held by live workers are not stale, and
reconcile passes never run concurrently. -/
structure OnePassDiscipline (config : Config) (cluster : Cluster n m) (action : Action n m) :
    Prop where
  inTime : EnqueueInTime config cluster action
  heartbeating : Heartbeating cluster action
  onePass : OnePass cluster

theorem OnePass.disjoint {cluster : Cluster n m} (onePass : OnePass cluster) :
    PassesDisjoint cluster := by
  intro worker other distinct
  have alone : ∀ rawJobId,
      rawJobId ∈ (cluster.workers worker).pc.role.abandoned ∨
        rawJobId ∈ (cluster.workers worker).pc.role.missing →
      rawJobId ∉ (cluster.workers other).pc.role.abandoned ∧
        rawJobId ∉ (cluster.workers other).pc.role.missing := by
    intro rawJobId mine
    exact not_or.mp fun theirs => distinct (onePass worker other
      (WorkerPc.inReconcile_of_inHand mine) (WorkerPc.inReconcile_of_inHand theirs))
  exact ⟨fun rawJobId member => alone rawJobId (.inl member),
    fun rawJobId member theirs => absurd theirs (alone rawJobId (.inr member)).2⟩

instance (config : Config) (cluster : Cluster n m) (action : Action n m) :
    Decidable (OnePassDiscipline config cluster action) :=
  decidable_of_iff (EnqueueInTime config cluster action ∧ Heartbeating cluster action ∧
      OnePass cluster)
    ⟨fun ⟨inTime, heartbeating, onePass⟩ => ⟨inTime, heartbeating, onePass⟩,
      fun ⟨inTime, heartbeating, onePass⟩ => ⟨inTime, heartbeating, onePass⟩⟩

theorem OnePassDiscipline.disciplined {config : Config} {cluster : Cluster n m}
    {action : Action n m} (discipline : OnePassDiscipline config cluster action) :
    Disciplined config cluster action :=
  ⟨discipline.inTime, discipline.heartbeating, discipline.onePass.disjoint⟩

/-- In every disciplined run an identifier that the orphan pass is about to
push is in neither list. -/
theorem orphan_in_neither_list {config : Config} {cluster : Cluster n m}
    (held : Exclusive (cluster.queueState config)) {worker : Fin n} {id : UUID}
    {rest : List UUID} {live : List String}
    (at_ : (cluster.workers worker).pc = .reconciling (.requeueOrphan id rest live))
    (missing : id.str ∉ live) :
    id.str ∉ cluster.stores.queue ∧ id.str ∉ cluster.stores.processing := by
  have sound := held.sound worker
  simp only [queueState, at_] at sound
  have member : id.str ∈ ((id :: rest).map UUID.str).filter (· ∉ live) :=
    List.mem_filter.mpr ⟨List.mem_cons_self, by simpa using missing⟩
  obtain ⟨_, absent, free⟩ := sound.2 id.str member
  exact ⟨List.count_eq_zero.mp absent, List.count_eq_zero.mp free⟩

/-- Each identifier occurs at most once in the two lists together, and the
orphan pass pushes one only when it is in neither. -/
theorem queue_entries_unique {config : Config} {clock : Time} {models : List ModelRow}
    {cluster : Cluster n m}
    (run : Runs (step config) (OnePassDiscipline config) (initial clock models) cluster) :
    (∀ rawJobId, (cluster.stores.queue ++ cluster.stores.processing).count rawJobId ≤ 1) ∧
      ∀ worker id rest live,
        (cluster.workers worker).pc = .reconciling (.requeueOrphan id rest live) →
        id.str ∉ live → id.str ∉ cluster.stores.queue ∧ id.str ∉ cluster.stores.processing := by
  have disciplined := runs_mono (fun _ _ discipline => discipline.disciplined) run
  obtain ⟨held, _⟩ := runs_exclusive disciplined
  refine ⟨fun rawJobId => ?_, fun worker id rest live at_ missing =>
    orphan_in_neither_list held at_ missing⟩
  rw [List.count_append]
  exact held.once rawJobId

/-- A worker dies while it executes job seven, and another one has taken the
job up again. -/
def recoveredRun (worker other : Fin n) (request : Fin m) : List (Action n m) :=
  createSeven request ++ .start worker :: calls worker 0 5 ++
    [.crash worker, .tick 30000000, .start other,
      .work other { callAt 30 with order := [jobSeven] }] ++
    calls other 30 6

theorem queue_entries_unique_recoveredRun :
    ∃ cluster : Cluster 2 1, cluster.stores.processing = [jobSeven.str] ∧
      ∀ rawJobId, (cluster.stores.queue ++ cluster.stores.processing).count rawJobId ≤ 1 := by
  have replays : (replay (step shortConfig) (OnePassDiscipline shortConfig) (initial 0 [])
      (recoveredRun (0 : Fin 2) 1 (0 : Fin 1))).any
        (fun cluster => cluster.stores.processing = [jobSeven.str]) = true := by
    decide +kernel
  obtain ⟨cluster, run, held⟩ := exists_runs_of_replay replays
  exact ⟨cluster, of_decide_eq_true held, (queue_entries_unique run).1⟩

end Cluster

end Crucible
