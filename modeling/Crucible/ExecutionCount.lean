import Crucible.MutualExclusion
import Crucible.RunTotals
import Mathlib.Data.Fintype.Basic

/-!
# How often a job is executed

Every execution of a job is paid for by an entry of `jobs:queue` that its worker
has claimed, `CreateJob` pushes at most one entry, and all others come from
reconcile passes.  In every run a job is therefore executed at most once more
often than reconcile passes have pushed it.
-/

namespace Crucible

open LabelledRuns

/-! ## One worker -/

/-- `process` has not reached the executor and may still do so. -/
def ProcessorPc.approaching : ProcessorPc → Bool
  | .getJob _ | .markRunning _ | .publishRunning _ | .getModelMeta _ => true
  | _ => false

/-- Whether `process` is inside `executor.run`. -/
def ProcessorPc.inExecutor : ProcessorPc → Bool
  | .executing _ _ _ => true
  | _ => false

/-- A worker's claim of a job that has not led to an execution yet. -/
def WorkerPc.ahead (id : UUID) : WorkerPc → Nat
  | .processing _ rawJobId _ pc => if rawJobId = id.str ∧ pc.approaching = true then 1 else 0
  | _ => 0

namespace ProcessorPc

theorem approaching_of_inExecutor {pc : ProcessorPc} (inside : pc.inExecutor = true) :
    pc.approaching = false := by
  cases pc <;> first | rfl | cases inside

/-- The executor is entered from the steps before it, and nothing leads back to
them. -/
theorem approaching_step {rawJobId : String} {stores : SharedStores} {choice : Choice}
    {pc pc' : ProcessorPc} {write : Write}
    (stepped : pc.step rawJobId stores choice = some (write, .goto pc')) :
    (pc'.approaching = true → pc.approaching = true) ∧
      (pc'.inExecutor = true → pc.inExecutor = true ∨ pc.approaching = true) := by
  cases pc with
  | getJob _ | markRunning _ | publishRunning _ | getModelMeta _ =>
      exact ⟨fun _ => rfl, fun _ => .inr rfl⟩
  | executing job model pc =>
      obtain ⟨_, same⟩ := step_executing stepped
      rw [Next.goto.inj same]
      refine ⟨fun approaches => ?_, fun _ => .inl rfl⟩
      cases result : (pc.step job choice).2 <;> rw [result] at approaches <;> cases approaches
  | _ =>
      rcases attempt_eq (Option.some.inj stepped) with
        ⟨_, _, same⟩ | ⟨_, _, same⟩ | ⟨_, _, same⟩ <;> cases same <;> exact ⟨nofun, nofun⟩

end ProcessorPc

namespace WorkerPc

variable {config : Config} {stores : SharedStores} {choice : Choice} {pc pc' : WorkerPc}
  {write : Write} {id : UUID}

def enters (id : UUID) (pc pc' : WorkerPc) : Nat :=
  if pc.insideExecutor id = false ∧ pc'.insideExecutor id = true then 1 else 0

theorem enters_of_outside (outside : pc'.insideExecutor id = false) : enters id pc pc' = 0 := by
  simp [enters, outside]

theorem ahead_start (id : UUID) (lastReconcile : Time) (rawJobId : String) :
    ahead id (.processing lastReconcile rawJobId none (.start rawJobId)) ≤
        [rawJobId].count id.str ∧
      insideExecutor id (.processing lastReconcile rawJobId none (.start rawJobId)) = false := by
  constructor
  · by_cases own : rawJobId = id.str
    · simp only [ahead, own, List.count_singleton_self]
      split <;> omega
    · simp [ahead, own]
  · unfold ProcessorPc.start
    split <;> rfl

theorem insideExecutor_processing {lastReconcile : Time} {rawJobId : String}
    {marked : Option JobStatus} {pc : ProcessorPc} {own : UUID} (parsed : rawJobId = own.str)
    (about : ∀ other, pc.jobId = some other → other = own) :
    insideExecutor id (.processing lastReconcile rawJobId marked pc) =
      (decide (rawJobId = id.str) && pc.inExecutor) := by
  cases pc with
  | executing job model pc =>
      obtain rfl := about job.id rfl
      simp [insideExecutor, ProcessorPc.inExecutor, parsed]
  | _ => simp [insideExecutor, ProcessorPc.inExecutor]

/-- A claimed entry pays for the step into the executor. -/
theorem enters_paid (named : pc.Named)
    (stepped : pc.step config stores choice = some (write, pc')) :
    enters id pc pc' + (pc'.ahead id + (stores.write write).queue.count id.str) ≤
      pc.ahead id + stores.queue.count id.str +
        ((stores.write write).queue.count id.str - stores.queue.count id.str) := by
  have idle : pc'.insideExecutor id = false → pc'.ahead id = 0 →
      enters id pc pc' + (pc'.ahead id + (stores.write write).queue.count id.str) ≤
        pc.ahead id + stores.queue.count id.str +
          ((stores.write write).queue.count id.str - stores.queue.count id.str) := by
    intro outside none
    rw [enters_of_outside outside, none]
    omega
  cases pc with
  | reconciling pc =>
      obtain ⟨next, _, rfl⟩ := step_reconciling stepped
      cases next <;> exact idle rfl rfl
  | claiming lastReconcile =>
      simp only [step] at stepped
      split at stepped
      case h_1 =>
        rcases attempt_eq (Option.some.inj stepped) with
          ⟨_, _, rfl⟩ | ⟨_, _, rfl⟩ | ⟨_, _, rfl⟩ <;> exact idle rfl rfl
      case h_2 rawJobId last =>
        rcases attempt_eq (Option.some.inj stepped) with
          ⟨_, rfl, same⟩ | ⟨_, _, rfl⟩ | ⟨_, _, rfl⟩
        · obtain ⟨paid, outside⟩ := ahead_start id lastReconcile rawJobId
          have moved : (stores.write .claim).queue ++ [rawJobId] = stores.queue := by
            obtain ⟨front, split⟩ := List.getLast?_eq_some_iff.mp last
            simp [SharedStores.write, RedisLists.brpoplpush, split]
          have counted := congrArg (List.count id.str) moved
          rw [List.count_append] at counted
          rw [same, enters_of_outside outside]
          have unclaimed : ahead id (.claiming lastReconcile) = 0 := rfl
          omega
        · exact idle rfl rfl
        · exact idle rfl rfl
  | processing lastReconcile rawJobId marked pc =>
      obtain ⟨own, parsed, about⟩ := named
      obtain ⟨next, inner, rfl⟩ := step_processing stepped
      cases next with
      | goto pc' =>
          rw [SharedStores.queue_write (ProcessorPc.step_goto inner).lists]
          suffices paid : enters id (.processing lastReconcile rawJobId marked pc)
              (afterProcessor lastReconcile rawJobId
                (markedAfter marked (stores.write write) pc) (.goto pc')) +
              ahead id (afterProcessor lastReconcile rawJobId
                (markedAfter marked (stores.write write) pc) (.goto pc')) ≤
              ahead id (.processing lastReconcile rawJobId marked pc) by omega
          obtain ⟨before, entered⟩ := ProcessorPc.approaching_step inner
          have about' : ∀ other, pc'.jobId = some other → other = own :=
            fun other same => about other ((ProcessorPc.step_goto inner).jobId other same)
          simp only [enters, afterProcessor, ahead, insideExecutor_processing parsed about,
            insideExecutor_processing parsed about', Bool.and_eq_true, decide_eq_true_eq,
            Bool.and_eq_false_iff, decide_eq_false_iff_not]
          by_cases claimed : rawJobId = id.str
          · cases inside : pc'.inExecutor with
            | false =>
                simp only [claimed, true_and, Bool.false_eq_true, and_false, if_false, zero_add]
                split_ifs with approaches' approaches
                · rfl
                · exact absurd (before approaches') approaches
                all_goals omega
            | true =>
                have past := ProcessorPc.approaching_of_inExecutor inside
                rcases entered inside with already | approaches
                · simp [already, past]
                · simp only [claimed, approaches, past, and_self, and_true, false_or,
                    not_true_eq_false, Bool.false_eq_true, and_false, if_true, if_false, add_zero]
                  split <;> omega
          · simp [claimed]
      | returned result => exact idle rfl rfl
      | raised message => exact idle rfl rfl
  | checking lastReconcile =>
      simp only [step] at stepped
      split at stepped <;> cases stepped <;> exact idle rfl rfl
  | dead => cases stepped

theorem enters_self (id : UUID) (pc : WorkerPc) : enters id pc pc = 0 := by
  simp only [enters]
  split <;> simp_all

end WorkerPc

/-! ## One request -/

def SharedStores.uncreated (id : UUID) (stores : SharedStores) : Nat :=
  if stores.jobs.lookup id = none then 1 else 0

/-- Whether a request has still to push a job that it has created. -/
def RequestPc.unpushed (id : UUID) (pc : RequestPc) : Nat :=
  if pc.owes = some id.str then 1 else 0

namespace RequestPc

variable {stores : SharedStores} {choice : Choice} {pc pc' : RequestPc} {write : Write}
  {id : UUID}

theorem unpushed_of_owes (owes : pc.owes = none) : pc.unpushed id = 0 := by
  simp [unpushed, owes]

theorem queue_call (id : UUID) (choice : Choice) (settled : pc.owes = none) :
    (stores.write (pc.call choice)).queue.count id.str ≤ stores.queue.count id.str := by
  cases pc with
  | enqueue job => cases settled
  | dequeue job => exact List.filter_sublist.count_le id.str
  | _ => exact le_rfl

theorem unpushed_paid (id : UUID) (current : choice.now ≤ stores.clock)
    (stepped : pc.step stores choice = some (write, pc')) :
    (stores.write write).queue.count id.str - stores.queue.count id.str +
        (pc'.unpushed id + (stores.write write).uncreated id) ≤
      pc.unpushed id + stores.uncreated id := by
  have kept : (stores.write write).uncreated id ≤ stores.uncreated id := by
    cases found : stores.jobs.lookup id with
    | none =>
        simp only [SharedStores.uncreated, found, if_true]
        split <;> omega
    | some row =>
        obtain ⟨row', found', _⟩ :=
          (SharedStores.write_tableStep (step_possible current stepped)).rowChange found
        simp [SharedStores.uncreated, found']
  have quiet (settled : pc.owes = none) (owes : pc'.owes = none) :
      (stores.write write).queue.count id.str - stores.queue.count id.str +
          (pc'.unpushed id + (stores.write write).uncreated id) ≤
        pc.unpushed id + stores.uncreated id := by
    have pushed : (stores.write write).queue.count id.str ≤ stores.queue.count id.str := by
      rcases step_write stepped with rfl | rfl
      · exact le_rfl
      · exact queue_call id choice settled
    rw [unpushed_of_owes owes]
    omega
  cases pc with
  | create request =>
      obtain ⟨fresh, called⟩ := Option.ite_none_right_eq_some.mp stepped
      rcases attempt_eq (Option.some.inj called) with
        ⟨_, rfl, rfl⟩ | ⟨_, _, rfl⟩ | ⟨_, _, rfl⟩
      · by_cases own : choice.uuid = id
        · have created : (stores.write (.createJob choice.now choice.uuid request)).uncreated id =
              0 := by
            simp [SharedStores.uncreated, SharedStores.write, own]
          have uncreated : stores.uncreated id = 1 := by
            rw [← own, SharedStores.uncreated, if_pos fresh]
          have once (pc : RequestPc) : pc.unpushed id ≤ 1 := by
            unfold unpushed
            split <;> omega
          have unpushed := once (.enqueue { JobStore.newRow choice.now request with
            id := choice.uuid })
          have same : (stores.write (.createJob choice.now choice.uuid request)).queue =
              stores.queue := rfl
          rw [created, uncreated, same]
          omega
        · have other : unpushed id (.enqueue { JobStore.newRow choice.now request with
              id := choice.uuid }) = 0 :=
            if_neg fun same => own (UUID.str_injective (Option.some.inj same))
          have same : (stores.write (.createJob choice.now choice.uuid request)).queue =
              stores.queue := rfl
          rw [other, same]
          omega
      · exact quiet rfl rfl
      · exact quiet rfl rfl
  | enqueue job =>
      have pushed : (stores.write (.enqueue job.id)).queue.count id.str =
          stores.queue.count id.str + unpushed id (.enqueue job) := by
        simp only [SharedStores.write, RedisLists.count_lpush, unpushed, owes,
          Option.some.injEq]
      have failed (id' : UUID) (errMsg : String) :
          unpushed id (.markEnqueueFailed id' errMsg) = 0 := unpushed_of_owes rfl
      have pushedOnce : unpushed id (.answered ⟨201, .job job⟩) = 0 := unpushed_of_owes rfl
      rcases attempt_eq (Option.some.inj stepped) with
        ⟨_, rfl, rfl⟩ | ⟨_, rfl, rfl⟩ | ⟨_, rfl, rfl⟩
      · rw [pushed, pushedOnce]
        omega
      · rw [failed]
        simp only [SharedStores.write]
        omega
      · rw [pushed, failed]
        omega
  | getByID target =>
      rcases attempt_eq (Option.some.inj stepped) with
        ⟨_, _, rfl⟩ | ⟨_, _, rfl⟩ | ⟨_, _, rfl⟩
      · exact quiet rfl (Cluster.owes_afterGetByID _)
      · exact quiet rfl rfl
      · exact quiet rfl rfl
  | update target =>
      rcases attempt_eq (Option.some.inj stepped) with
        ⟨_, _, rfl⟩ | ⟨_, _, rfl⟩ | ⟨_, _, rfl⟩ <;> exact quiet rfl (Cluster.owes_afterUpdate _)
  | idle | answered response => cases stepped
  | _ =>
      rcases attempt_eq (Option.some.inj stepped) with
        ⟨_, _, rfl⟩ | ⟨_, _, rfl⟩ | ⟨_, _, rfl⟩ <;> exact quiet rfl rfl

end RequestPc

/-! ## The platform -/

namespace Cluster

variable {n m : Nat} {config : Config} {cluster next : Cluster n m}

def begins (id : UUID) (before : Cluster n m) (_ : Action n m) (after : Cluster n m) : Nat :=
  ∑ worker, WorkerPc.enters id (before.workers worker).pc (after.workers worker).pc

def pushes (id : UUID) (before : Cluster n m) (_ : Action n m) (after : Cluster n m) : Nat :=
  after.stores.queue.count id.str - before.stores.queue.count id.str

/-- The entries that a worker adds, which are those of reconcile passes. -/
def recoveries (id : UUID) (before : Cluster n m) (action : Action n m)
    (after : Cluster n m) : Nat :=
  match action with
  | .work _ _ => pushes id before action after
  | _ => 0

def enqueues (id : UUID) (before : Cluster n m) (action : Action n m)
    (after : Cluster n m) : Nat :=
  match action with
  | .serve _ _ => pushes id before action after
  | _ => 0

/-- Entries of a job that have not led to an execution yet. -/
def outstanding (id : UUID) (cluster : Cluster n m) : Nat :=
  cluster.stores.queue.count id.str + ∑ worker, (cluster.workers worker).pc.ahead id

theorem begins_of_workers (id : UUID) {action : Action n m}
    (same : next.workers = cluster.workers) : begins id cluster action next = 0 := by
  simp [begins, same, WorkerPc.enters_self]

theorem begins_putWorker (id : UUID) (action : Action n m) (worker : Fin n) (write : Write)
    (pc : WorkerPc) :
    begins id cluster action (cluster.putWorker worker write pc) =
      WorkerPc.enters id (cluster.workers worker).pc pc := by
  rw [begins, Finset.sum_eq_single worker]
  · rw [putWorker_self]
  · intro other _ distinct
    rw [putWorker_of_ne distinct, WorkerPc.enters_self]
  · exact fun missing => absurd (Finset.mem_univ worker) missing

/-- Every execution that a step begins was outstanding, or the step pushes an
entry. -/
theorem begins_paid {action : Action n m} (named : Named cluster)
    (moved : step config cluster action = some next) (id : UUID) :
    begins id cluster action next + next.outstanding id ≤
      cluster.outstanding id + pushes id cluster action next := by
  have put {worker : Fin n} {write : Write} {pc : WorkerPc}
      (same : next = cluster.putWorker worker write pc)
      (paid : WorkerPc.enters id (cluster.workers worker).pc pc +
          (pc.ahead id + (cluster.stores.write write).queue.count id.str) ≤
        (cluster.workers worker).pc.ahead id + cluster.stores.queue.count id.str +
          ((cluster.stores.write write).queue.count id.str -
            cluster.stores.queue.count id.str)) :
      begins id cluster action next + next.outstanding id ≤
        cluster.outstanding id + pushes id cluster action next := by
    subst same
    have sum := sum_update (fun worker : Worker => worker.pc.ahead id) cluster.workers worker
      ⟨cluster.stores.clock, pc⟩
    rw [begins_putWorker]
    simp only [outstanding, pushes, putWorker] at sum ⊢
    omega
  have idle {worker : Fin n} {pc : WorkerPc} (same : next = cluster.putWorker worker .nothing pc)
      (outside : pc.insideExecutor id = false) (none : pc.ahead id = 0) :
      begins id cluster action next + next.outstanding id ≤
        cluster.outstanding id + pushes id cluster action next := by
    refine put same ?_
    rw [WorkerPc.enters_of_outside outside, none]
    simp only [SharedStores.write]
    omega
  have unmoved (same : next.workers = cluster.workers) :
      begins id cluster action next + next.outstanding id ≤
        cluster.outstanding id + pushes id cluster action next := by
    rw [begins_of_workers id same, outstanding, outstanding, same, pushes]
    omega
  cases action with
  | work worker choice =>
      obtain ⟨_, write, pc, stepped, same⟩ := step_work moved
      exact put same (WorkerPc.enters_paid (named.held worker) stepped)
  | start worker => exact idle (step_start moved).2 rfl rfl
  | crash worker => exact idle (Option.some.inj moved).symm rfl rfl
  | serve request choice =>
      obtain ⟨_, write, pc, _, rfl⟩ := step_serve moved
      exact unmoved rfl
  | arrive request call =>
      obtain rfl := step_arrive moved
      exact unmoved rfl
  | tick duration | setModels models | drop request =>
      cases moved
      exact unmoved rfl

/-- What `CreateJob` may still push for a job. -/
def unspent (id : UUID) (cluster : Cluster n m) : Nat :=
  cluster.stores.uncreated id + ∑ request, (cluster.requests request).pc.unpushed id

theorem enqueues_paid {action : Action n m} (moved : step config cluster action = some next)
    (id : UUID) :
    enqueues id cluster action next + next.unspent id ≤ cluster.unspent id + 0 := by
  have kept : next.stores.uncreated id ≤ cluster.stores.uncreated id := by
    cases found : cluster.stores.jobs.lookup id with
    | none =>
        simp only [SharedStores.uncreated, found, if_true]
        split <;> omega
    | some row =>
        obtain ⟨row', found', _⟩ := step_row moved found
        simp [SharedStores.uncreated, found']
  have put {request : Fin m} {write : Write} {pc : RequestPc}
      (same : next = cluster.putRequest request write pc) :
      ∑ other, (next.requests other).pc.unpushed id +
          (cluster.requests request).pc.unpushed id =
        ∑ other, (cluster.requests other).pc.unpushed id + pc.unpushed id := by
    subst same
    exact sum_update (fun request : Request => request.pc.unpushed id) cluster.requests request
      ⟨cluster.stores.clock, pc⟩
  have unmoved (same : next.requests = cluster.requests) :
      next.unspent id ≤ cluster.unspent id := by
    simp only [unspent, same]
    omega
  have settled {request : Fin m} {pc : RequestPc}
      (same : next = cluster.putRequest request .nothing pc) (owes : pc.owes = none) :
      next.unspent id ≤ cluster.unspent id := by
    have sum := put same
    rw [RequestPc.unpushed_of_owes owes] at sum
    simp only [unspent]
    omega
  cases action with
  | serve request choice =>
      obtain ⟨current, write, pc, stepped, same⟩ := step_serve moved
      have paid := RequestPc.unpushed_paid id current.2 stepped
      have sum := put same
      have stores : next.stores = cluster.stores.write write := by rw [same]; rfl
      simp only [enqueues, pushes, unspent, stores]
      omega
  | work worker choice =>
      obtain ⟨_, write, pc, _, rfl⟩ := step_work moved
      simpa [enqueues] using unmoved rfl
  | arrive request call =>
      simpa [enqueues] using settled (step_arrive moved) (owes_start call)
  | drop request => simpa [enqueues] using settled (Option.some.inj moved).symm rfl
  | start worker =>
      obtain ⟨_, rfl⟩ := step_start moved
      simpa [enqueues] using unmoved rfl
  | tick duration | setModels models | crash worker =>
      cases moved
      simpa [enqueues] using unmoved rfl

/-- Only reconcile passes and `CreateJob` push. -/
theorem pushes_eq_add {action : Action n m} (moved : step config cluster action = some next)
    (id : UUID) :
    pushes id cluster action next =
      recoveries id cluster action next + enqueues id cluster action next := by
  cases action with
  | work worker choice | serve request choice => simp [recoveries, enqueues, pushes]
  | arrive request call =>
      obtain rfl := step_arrive moved
      exact Nat.sub_self _
  | start worker =>
      obtain ⟨_, rfl⟩ := step_start moved
      exact Nat.sub_self _
  | tick duration | setModels models | crash worker | drop request =>
      cases moved
      exact Nat.sub_self _

/-- In every run a job is executed at most once more often than reconcile
passes have pushed it. -/
theorem executions_le_recoveries {clock : Time} {models : List ModelRow}
    {last : Cluster n m} {actions : List (Action n m)}
    (followed : replay (step config) Any (initial clock models) actions = some last) (id : UUID) :
    total (step config) (begins id) (initial clock models : Cluster n m) actions ≤
      1 + total (step config) (recoveries id) (initial clock models) actions := by
  have executed := total_le (step config) (begins id)
    (fun before action after =>
      recoveries id before action after + enqueues id before action after)
    (outstanding id) Named (fun _ _ _ named _ moved => step_named named moved)
    (fun _ _ _ named _ moved => by
      rw [← pushes_eq_add moved]
      exact begins_paid named moved id)
    (named_initial clock models) followed
  have created := total_le (step config) (enqueues id) (fun _ _ _ => 0)
    (unspent id) (fun _ => True) (fun _ _ _ _ _ _ => trivial)
    (fun _ _ _ _ _ moved => enqueues_paid moved id) trivial followed
  have free : total (step config) (fun _ _ _ => 0) (initial clock models : Cluster n m)
      actions = 0 := total_zero ..
  have fresh : outstanding id (initial clock models : Cluster n m) = 0 := by
    simp [outstanding, initial, SharedStores.empty, WorkerPc.ahead]
  have once : unspent id (initial clock models : Cluster n m) = 1 := by
    have missing : (SharedStores.empty clock models).uncreated id = 1 := rfl
    simp [unspent, initial, missing, RequestPc.unpushed, RequestPc.owes]
  rw [total_add] at executed
  omega

/-- The worker that executed job seven has died, and the job is executed again
after a pass has pushed it. -/
theorem executions_le_recoveries_reexecutedRun :
    total (step shortConfig) (begins jobSeven) (initial 0 sevenModels)
        (reexecutedRun (0 : Fin 2) 1 (0 : Fin 1)) = 2 ∧
      total (step shortConfig) (begins jobSeven) (initial 0 sevenModels)
          (reexecutedRun (0 : Fin 2) 1 (0 : Fin 1)) ≤
        1 + total (step shortConfig) (recoveries jobSeven) (initial 0 sevenModels)
          (reexecutedRun (0 : Fin 2) 1 (0 : Fin 1)) := by
  have ends : (replay (step shortConfig) Any (initial 0 sevenModels)
      (reexecutedRun (0 : Fin 2) 1 (0 : Fin 1))).isSome = true := by
    decide +kernel
  obtain ⟨last, followed⟩ := Option.isSome_iff_exists.mp ends
  exact ⟨by decide +kernel, executions_le_recoveries followed jobSeven⟩

end Cluster

end Crucible
