import Crucible.QueueRoles
import Mathlib.Tactic.Linarith

/-!
# Disciplined runs of the platform

While Enqueues land within the orphan grace, jobs of live workers are not stale
and no two passes recover the same job at once, every step of the platform is a
disciplined step of the reliable queue it forms.  The invariant of reliable
queues therefore holds in every state of such a run.
-/

namespace Crucible

open LabelledRuns ReliableQueue

namespace Cluster

variable {n m : Nat} {config : Config} {cluster next : Cluster n m}

/-! ## The discipline -/

/-- An Enqueue that pushes does so before its job is older than the grace. -/
def EnqueueInTime (config : Config) (cluster : Cluster n m) : Action n m → Prop
  | .serve request choice =>
      match (cluster.requests request).pc with
      | .enqueue job =>
          choice.fault = .before ∨ ∀ row ∈ cluster.stores.jobs.lookup job.id,
            cluster.stores.clock ≤ row.createdAt + seconds config.orphanGraceSeconds
      | _ => True
  | _ => True

instance (config : Config) (cluster : Cluster n m) (action : Action n m) :
    Decidable (EnqueueInTime config cluster action) :=
  match action with
  | .serve request choice =>
      match at_ : (cluster.requests request).pc with
      | .enqueue job => decidable_of_iff
          (choice.fault = .before ∨ ∀ row ∈ cluster.stores.jobs.lookup job.id,
            cluster.stores.clock ≤ row.createdAt + seconds config.orphanGraceSeconds)
          (by simp [EnqueueInTime, at_])
      | .idle | .create _ | .markEnqueueFailed _ _ | .getByID _ | .getJobStatus _ | .update _
      | .dequeue _ | .answered _ => isTrue (by simp [EnqueueInTime, at_])
  | .tick _ | .setModels _ | .start _ | .crash _ | .work _ _ | .arrive _ _ | .drop _ =>
      isTrue trivial

/-- No job that a live worker has is found stale.  The worker heartbeats inside the
executor, but a job counts from `mark_running` to `mark_completed` or
`mark_failed`, also while the worker publishes or looks the model up. -/
def Heartbeating (cluster : Cluster n m) : Action n m → Prop
  | .work worker choice =>
      (cluster.workers worker).pc = .reconciling .findStaleRunning → choice.fault = .none →
        ∀ id ∈ choice.order, ∀ other,
          (cluster.workers other).pc.role ≠ .holding id.str .active
  | _ => True

instance (cluster : Cluster n m) (action : Action n m) :
    Decidable (Heartbeating cluster action) :=
  match action with
  | .work _ choice => inferInstanceAs (Decidable (_ → _ → ∀ id ∈ choice.order, ∀ _, _))
  | .tick _ | .setModels _ | .start _ | .crash _ | .arrive _ _ | .serve _ _ | .drop _ =>
      isTrue trivial

/-- No two passes are recovering the same job at once: neither has it still to
recover as abandoned while the other has found it abandoned or missing, and
what both have found missing in `jobs:queue` is in `jobs:processing`. -/
def PassesDisjoint (cluster : Cluster n m) : Prop :=
  ∀ worker other, worker ≠ other →
    (∀ rawJobId ∈ (cluster.workers worker).pc.role.abandoned,
      rawJobId ∉ (cluster.workers other).pc.role.abandoned ∧
        rawJobId ∉ (cluster.workers other).pc.role.missing) ∧
      ∀ rawJobId ∈ (cluster.workers worker).pc.role.missing,
        rawJobId ∈ (cluster.workers other).pc.role.missing →
          rawJobId ∈ cluster.stores.processing

instance (cluster : Cluster n m) : Decidable (PassesDisjoint cluster) :=
  inferInstanceAs (Decidable (∀ _ _, _ → _ ∧ _))

/-- The discipline under which the platform is a reliable queue. -/
structure Disciplined (config : Config) (cluster : Cluster n m) (action : Action n m) :
    Prop where
  inTime : EnqueueInTime config cluster action
  heartbeating : Heartbeating cluster action
  disjoint : PassesDisjoint cluster

/-! ## Changes of the view -/

theorem ages_step {action : Action n m} (moved : step config cluster action = some next) :
    Ages (cluster.queueState config) (next.queueState config) where
  known := by
    rintro rawJobId ⟨id, parsed, row, found⟩
    obtain ⟨row', found', _⟩ := step_row moved found
    exact ⟨id, parsed, row', found'⟩
  expired := by
    rintro rawJobId ⟨id, parsed, row, found, old⟩
    obtain ⟨row', found', change⟩ := step_row moved found
    refine ⟨id, parsed, row', found', ?_⟩
    rw [change.createdAt]
    exact lt_of_lt_of_le old (clock_le_step moved)
  aged := by
    rintro rawJobId ⟨id, parsed, row, found, _⟩
    exact ⟨id, parsed, row, found⟩

theorem calm_write {write : Write} (possible : cluster.stores.Possible write)
    (unmarked : ∀ now id, write ≠ .execute now id .markRunning)
    (stores : next.stores = cluster.stores.write write) :
    Calm (cluster.queueState config) (next.queueState config) := by
  rintro rawJobId ⟨id, parsed, row, found, runs⟩
  rw [stores] at found
  exact ⟨id, parsed,
    SharedStores.running_of_write possible found runs fun now => unmarked now id⟩

theorem sameLists_write {write : Write} (keeps : write.KeepsLists)
    (stores : next.stores = cluster.stores.write write) :
    SameLists (cluster.queueState config) (next.queueState config) where
  queued rawJobId := by
    simp only [queueState, stores, SharedStores.queue_write keeps]
  inFlight rawJobId := by
    simp only [queueState, stores, SharedStores.processing_write keeps]

theorem role_putWorker (config : Config) (cluster : Cluster n m) (worker : Fin n)
    (write : Write) (pc : WorkerPc) (other : Fin n) :
    ((cluster.putWorker worker write pc).queueState config).role other =
      if other = worker then pc.role else (cluster.workers other).pc.role := by
  simp only [queueState, putWorker, Function.update_apply]
  split <;> rfl

theorem turns_putWorker {worker : Fin n} {write : Write} {pc : WorkerPc}
    {role role' : Role String} (was : (cluster.workers worker).pc.role = role)
    (now : pc.role = role' ∨ pc.role = .idle) :
    Turns (cluster.queueState config) ((cluster.putWorker worker write pc).queueState config)
      worker role role' where
  was := was
  now := by rwa [role_putWorker, if_pos rfl]
  others other distinct := by rw [role_putWorker, if_neg distinct]; rfl

/-- A worker's call that touches neither list and starts no job, after which
the worker has stopped or kept its role. -/
theorem quiet_putWorker {worker : Fin n} {write : Write} {pc : WorkerPc}
    (forward : Forward (cluster.queueState config)
      ((cluster.putWorker worker write pc).queueState config))
    (possible : cluster.stores.Possible write) (ordinary : write.Ordinary)
    (role : pc.role = (cluster.workers worker).pc.role ∨ pc.role = .idle) :
    Step (cluster.queueState config)
      ((cluster.putWorker worker write pc).queueState config) := by
  have lists : SameLists (cluster.queueState config)
      ((cluster.putWorker worker write pc).queueState config) := sameLists_write ordinary.1 rfl
  refine .quiet forward (calm_write possible ordinary.2 rfl) (fun id => (lists.queued id).le)
    lists.inFlight fun other => ?_
  rw [role_putWorker]
  split
  case isTrue own => subst own; exact role
  case isFalse => exact .inl rfl

/-! ## Steps of workers -/

theorem claim_putWorker {worker : Fin n} {pc : WorkerPc} {rawJobId : String}
    (forward : Forward (cluster.queueState config)
      ((cluster.putWorker worker .claim pc).queueState config))
    (last : cluster.stores.queue.getLast? = some rawJobId)
    (was : (cluster.workers worker).pc.role = .idle)
    (now : pc.role = .holding rawJobId .claimed ∨ pc.role = .idle) :
    Step (cluster.queueState config)
      ((cluster.putWorker worker .claim pc).queueState config) := by
  obtain ⟨queue, processing, moved⟩ : ∃ queue processing,
      RedisLists.brpoplpush cluster.stores.queue cluster.stores.processing =
        some (rawJobId, queue, processing) :=
    ⟨_, _, by rw [RedisLists.brpoplpush, last, Option.map_some]⟩
  obtain ⟨split, front⟩ := RedisLists.brpoplpush_eq_some moved
  have after : (cluster.stores.write .claim).queue = queue ∧
      (cluster.stores.write .claim).processing = processing := by
    simp only [SharedStores.write, moved, and_self]
  have queued : ∀ other, queue.count other + (if rawJobId = other then 1 else 0) =
      cluster.stores.queue.count other := by
    intro other
    simp [split, List.count_append, List.count_singleton]
  have inFlight : ∀ other, processing.count other =
      cluster.stores.processing.count other + if rawJobId = other then 1 else 0 := by
    intro other
    rw [front]
    exact RedisLists.count_lpush _ rawJobId other
  have possible : cluster.stores.Possible .claim := trivial
  refine .claim forward (calm_write possible (fun _ _ => by simp) rfl)
    (turns_putWorker was now) ?_ ?_ ?_ ?_
  · have := queued rawJobId
    simp only [queueState, putWorker, after.1]
    simpa using this
  · have := inFlight rawJobId
    simp only [queueState, putWorker, after.2]
    simpa using this
  · intro other distinct
    have := queued other
    simp only [queueState, putWorker, after.1]
    simpa [Ne.symm distinct] using this
  · intro other distinct
    have := inFlight other
    simp only [queueState, putWorker, after.2]
    simpa [Ne.symm distinct] using this

theorem requeued_write (id : UUID) (stores : next.stores = cluster.stores.write (.requeue id.str)) :
    Requeued (cluster.queueState config) (next.queueState config) id.str where
  self := by
    simp only [queueState, stores, SharedStores.write]
    rw [RedisLists.count_lpush, if_pos rfl]
  cleared := by
    simp only [queueState, stores, SharedStores.write]
    exact RedisLists.count_lrem_self _ _
  queued other distinct := by
    simp only [queueState, stores, SharedStores.write]
    rw [RedisLists.count_lpush, if_neg (Ne.symm distinct), Nat.add_zero]
  inFlight other distinct := by
    simp only [queueState, stores, SharedStores.write]
    exact RedisLists.count_lrem_of_ne _ distinct

theorem ack_putWorker {worker : Fin n} {pc : WorkerPc} {rawJobId : String}
    (forward : Forward (cluster.queueState config)
      ((cluster.putWorker worker (.ack rawJobId) pc).queueState config))
    (was : (cluster.workers worker).pc.role = .holding rawJobId .settled)
    (now : pc.role = .idle) :
    Step (cluster.queueState config)
      ((cluster.putWorker worker (.ack rawJobId) pc).queueState config) := by
  have possible : cluster.stores.Possible (.ack rawJobId) := trivial
  refine .ack forward (calm_write possible (fun _ _ => by simp) rfl)
    (turns_putWorker was (.inl now)) (fun other => rfl) ?_ ?_
  · exact RedisLists.count_lrem_self _ _
  · exact fun other distinct => RedisLists.count_lrem_of_ne _ distinct

/-- A call of `process` is a step of the holder of its job. -/
theorem queueStep_processing {worker : Fin n} {choice : Choice} {lastReconcile : Time}
    {rawJobId : String} {marked marked' : Option JobStatus} {pc : ProcessorPc} {write : Write}
    {result : Next ProcessorPc Unit} (held : Exclusive (cluster.queueState config))
    (named : (WorkerPc.processing lastReconcile rawJobId marked pc).Named)
    (at_ : (cluster.workers worker).pc = .processing lastReconcile rawJobId marked pc)
    (stepped : pc.step rawJobId cluster.stores choice = some (write, result))
    (possible : cluster.stores.Possible write)
    (forward : Forward (cluster.queueState config) ((cluster.putWorker worker write
      (.afterProcessor lastReconcile rawJobId marked' result)).queueState config)) :
    Step (cluster.queueState config) ((cluster.putWorker worker write
      (.afterProcessor lastReconcile rawJobId marked' result)).queueState config) := by
  have was : (cluster.workers worker).pc.role = .holding rawJobId pc.phase := by
    rw [at_]
    rfl
  cases result with
  | returned result =>
      obtain ⟨rfl, rfl⟩ := ProcessorPc.step_returned stepped
      exact ack_putWorker forward was rfl
  | raised message =>
      rcases ProcessorPc.step_raised stepped with ordinary | ⟨rfl, rfl⟩
      · exact quiet_putWorker forward possible ordinary (.inr rfl)
      · exact ack_putWorker forward was rfl
  | goto pc' =>
      obtain ⟨lists, jobId, marks, settles⟩ := ProcessorPc.step_goto stepped
      obtain ⟨id, rfl, own⟩ := named
      have calm : ∀ other : UUID, other ≠ id ∨ pc'.phase ≠ .active →
          (cluster.putWorker worker write (.afterProcessor lastReconcile id.str marked'
            (.goto pc'))).stores.Running other.str → cluster.stores.Running other.str := by
        rintro other unmarked ⟨same, parsed, row, found, runs⟩
        obtain rfl := UUID.str_injective parsed
        refine ⟨other, rfl, SharedStores.running_of_write possible found runs ?_⟩
        rintro now rfl
        obtain ⟨about, active⟩ := marks now other rfl
        rcases unmarked with elsewhere | inactive
        · exact elsewhere (own other about)
        · exact inactive active
      have turns : Turns (cluster.queueState config) ((cluster.putWorker worker write
          (.afterProcessor lastReconcile id.str marked' (.goto pc'))).queueState config)
          worker (.holding id.str pc.phase) (.holding id.str pc'.phase) :=
        turns_putWorker was (.inl rfl)
      refine .advance forward (sameLists_write lists rfl) turns ?_ ?_
      · rintro rawJobId ⟨other, rfl, running⟩
        by_cases same : other = id
        · exact .inr (by rw [same])
        · exact .inl (calm other (.inl same) ⟨other, rfl, running⟩)
      · by_cases active : pc'.phase = .active
        · exact .inl active
        · refine .inr fun running => ?_
          rcases settles with now | stopped | ⟨now, other, update, rfl, about, stops⟩
          · exact active now
          · have sound := held.sound worker
            simp only [queueState, was] at sound
            exact (sound.2.resolve_left stopped) (calm id (.inr active) running)
          · obtain rfl := own other about
            obtain ⟨same, parsed, row, found, runs⟩ := running
            obtain rfl := UUID.str_injective parsed
            exact SharedStores.not_running_execute _ _ _ stops found runs

theorem nodup_map_str {ids : List UUID} (distinct : ids.Nodup) : (ids.map UUID.str).Nodup :=
  distinct.map UUID.str_injective

theorem role_nextAbandoned (rest : List UUID) :
    (ReconcilerPc.nextAbandoned rest).role = .recovering false (rest.map UUID.str) ∨
      (ReconcilerPc.nextAbandoned rest).role = .idle := by
  cases rest with
  | nil => exact .inr rfl
  | cons id rest => exact .inl rfl

theorem role_nextOrphan (clock : Time) (live : List String) (rest : List UUID) :
    (WorkerPc.afterReconciler clock (ReconcilerPc.nextOrphan live rest)).role =
        .restoring ((rest.map UUID.str).filter (· ∉ live)) ∨
      (WorkerPc.afterReconciler clock (ReconcilerPc.nextOrphan live rest)).role = .idle := by
  cases rest with
  | nil => exact .inr rfl
  | cons id rest => exact .inl rfl

/-- A requeue that no other pass competes for. -/
theorem alone_of_disjoint {worker : Fin n} {rawJobId : String}
    (held : Exclusive (cluster.queueState config)) (disjoint : PassesDisjoint cluster)
    (inHand : rawJobId ∈ (cluster.workers worker).pc.role.abandoned ∨
      ∃ rest, (cluster.workers worker).pc.role = .restoring (rawJobId :: rest)) :
    Alone (cluster.queueState config) worker rawJobId := by
  intro other distinct
  rcases inHand with abandoned | ⟨rest, role⟩
  · exact (disjoint worker other distinct.symm).1 rawJobId abandoned
  · have missing : rawJobId ∈ (cluster.workers worker).pc.role.missing := by
      rw [role]
      exact List.mem_cons_self
    refine ⟨fun member => ((disjoint other worker distinct).1 rawJobId member).2 missing,
      fun member => ?_⟩
    have sound := held.sound worker
    simp only [queueState, role] at sound
    have free := (sound.2 rawJobId List.mem_cons_self).2.2
    exact List.count_eq_zero.mp free
      ((disjoint worker other distinct.symm).2 rawJobId missing member)

theorem queueStep_reconciling {worker : Fin n} {choice : Choice} {pc : ReconcilerPc}
    {write : Write} {result : Next ReconcilerPc Unit} {clock : Time}
    (held : Exclusive (cluster.queueState config))
    (disciplined : Disciplined config cluster (.work worker choice))
    (current : choice.now ≤ cluster.stores.clock)
    (at_ : (cluster.workers worker).pc = .reconciling pc)
    (stepped : pc.step config cluster.stores choice = some (write, result))
    (possible : cluster.stores.Possible write)
    (forward : Forward (cluster.queueState config)
      ((cluster.putWorker worker write (.afterReconciler clock result)).queueState config)) :
    Step (cluster.queueState config)
      ((cluster.putWorker worker write (.afterReconciler clock result)).queueState config) := by
  have was : (cluster.workers worker).pc.role = pc.role := by
    rw [at_]
    rfl
  have died : ∀ message, (WorkerPc.afterReconciler clock (.raised message)).role = .idle :=
    fun _ => rfl
  cases pc with
  | findStaleRunning =>
      obtain ⟨perm, called⟩ := Option.ite_none_right_eq_some.mp stepped
      rcases attempt_eq (Option.some.inj called) with
        ⟨done, rfl, rfl⟩ | ⟨_, rfl, rfl⟩ | ⟨_, rfl, rfl⟩
      · have listed : ∀ id ∈ choice.order, ∃ row, cluster.stores.jobs.lookup id = some row ∧
            row.status = .running := by
          intro id member
          obtain ⟨row, found, passes⟩ := KeyedTable.mem_select.mp (perm.mem_iff.mp member)
          exact ⟨row, found, (of_decide_eq_true passes).1⟩
        refine .scan forward (calm_write possible (fun _ _ => by simp) rfl)
          (sameLists_write Write.ordinary_nothing.1 rfl)
          (turns_putWorker was (role_nextAbandoned choice.order)) ?_ ?_ ?_
        · exact nodup_map_str (perm.nodup_iff.mpr (KeyedTable.nodup_select _ _))
        · intro rawJobId member
          obtain ⟨id, listed_id, rfl⟩ := List.mem_map.mp member
          exact ⟨id, rfl, listed id listed_id⟩
        · intro rawJobId member
          obtain ⟨id, listed_id, rfl⟩ := List.mem_map.mp member
          exact disciplined.heartbeating at_ done id listed_id
      · exact quiet_putWorker forward possible Write.ordinary_nothing (.inr rfl)
      · exact quiet_putWorker forward possible Write.ordinary_nothing (.inr rfl)
  | resetToQueued id rest =>
      rcases attempt_eq (Option.some.inj stepped) with
        ⟨_, rfl, rfl⟩ | ⟨_, rfl, rfl⟩ | ⟨_, rfl, rfl⟩
      · have lists : (Write.execute choice.now id .resetToQueued).KeepsLists := trivial
        refine .reset forward (calm_write possible (fun _ _ => by simp) rfl)
          (sameLists_write lists rfl) (turns_putWorker was (.inl rfl)) ?_
        rintro ⟨same, parsed, row, found, runs⟩
        obtain rfl := UUID.str_injective parsed
        have stops : RepositoryUpdate.resetToQueued.Stops := trivial
        exact SharedStores.not_running_execute _ _ _ stops found runs
      · exact quiet_putWorker forward possible Write.ordinary_nothing (.inr rfl)
      · exact quiet_putWorker forward possible (Write.ordinary_execute _ _ (by simp)) (.inr rfl)
  | publishQueued id rest =>
      rcases attempt_eq (Option.some.inj stepped) with
        ⟨_, rfl, rfl⟩ | ⟨_, rfl, rfl⟩ | ⟨_, rfl, rfl⟩
      · exact quiet_putWorker forward possible (Write.ordinary_publish ..) (.inl was.symm)
      · exact quiet_putWorker forward possible Write.ordinary_nothing (.inr rfl)
      · exact quiet_putWorker forward possible (Write.ordinary_publish ..) (.inr rfl)
  | requeueAbandoned id rest =>
      have alone : Alone (cluster.queueState config) worker id.str :=
        alone_of_disjoint held disciplined.disjoint
          (.inl (by rw [was]; exact List.mem_cons_self))
      rcases attempt_eq (Option.some.inj stepped) with
        ⟨_, rfl, rfl⟩ | ⟨_, rfl, rfl⟩ | ⟨_, rfl, rfl⟩
      · exact .requeue forward (calm_write possible (fun _ _ => by simp) rfl)
          (turns_putWorker was (role_nextAbandoned rest)) (requeued_write id rfl) alone
      · exact quiet_putWorker forward possible Write.ordinary_nothing (.inr rfl)
      · exact .requeue forward (calm_write possible (fun _ _ => by simp) rfl)
          (turns_putWorker was (.inr (died _))) (requeued_write id rfl) alone
  | findOrphanQueued =>
      obtain ⟨perm, called⟩ := Option.ite_none_right_eq_some.mp stepped
      rcases attempt_eq (Option.some.inj called) with
        ⟨_, rfl, rfl⟩ | ⟨_, rfl, rfl⟩ | ⟨_, rfl, rfl⟩
      · have role : (WorkerPc.afterReconciler clock (if choice.order = [] then .returned ()
            else .goto (.queuedIds choice.order))).role =
              .comparing (choice.order.map UUID.str) ∨
            (WorkerPc.afterReconciler clock (if choice.order = [] then .returned ()
              else .goto (.queuedIds choice.order))).role = .idle := by
          split
          case isTrue => exact .inr rfl
          case isFalse => exact .inl rfl
        refine .select forward (calm_write possible (fun _ _ => by simp) rfl)
          (sameLists_write Write.ordinary_nothing.1 rfl) (turns_putWorker was role) ?_ ?_
        · exact nodup_map_str (perm.nodup_iff.mpr (KeyedTable.nodup_select _ _))
        · intro rawJobId member
          obtain ⟨id, listed, rfl⟩ := List.mem_map.mp member
          obtain ⟨row, found, passes⟩ := KeyedTable.mem_select.mp (perm.mem_iff.mp listed)
          have old := (of_decide_eq_true passes).2.1
          refine ⟨id, rfl, row, found, ?_⟩
          show row.createdAt + seconds config.orphanGraceSeconds < cluster.stores.clock
          linarith
      · exact quiet_putWorker forward possible Write.ordinary_nothing (.inr rfl)
      · exact quiet_putWorker forward possible Write.ordinary_nothing (.inr rfl)
  | queuedIds candidates =>
      rcases attempt_eq (Option.some.inj stepped) with
        ⟨_, rfl, rfl⟩ | ⟨_, rfl, rfl⟩ | ⟨_, rfl, rfl⟩
      · refine .compare forward (calm_write possible (fun _ _ => by simp) rfl)
          (sameLists_write Write.ordinary_nothing.1 rfl) (turns_putWorker was (.inl rfl))
          List.filter_sublist fun rawJobId member => ?_
        exact List.count_eq_zero.mpr (by simpa using (List.mem_filter.mp member).2)
      · exact quiet_putWorker forward possible Write.ordinary_nothing (.inr rfl)
      · exact quiet_putWorker forward possible Write.ordinary_nothing (.inr rfl)
  | inFlightIds candidates queued =>
      rcases attempt_eq (Option.some.inj stepped) with
        ⟨_, rfl, rfl⟩ | ⟨_, rfl, rfl⟩ | ⟨_, rfl, rfl⟩
      · refine .filter forward (calm_write possible (fun _ _ => by simp) rfl)
          (sameLists_write Write.ordinary_nothing.1 rfl)
          (turns_putWorker was (role_nextOrphan clock _ candidates)) ?_ fun rawJobId member => ?_
        · refine List.monotone_filter_right _ fun rawJobId absent => ?_
          simp only [List.mem_append, not_or, decide_eq_true_eq] at absent ⊢
          exact absent.1
        · refine List.count_eq_zero.mpr fun present => ?_
          have absent := (List.mem_filter.mp member).2
          simp only [List.mem_append, not_or, decide_eq_true_eq] at absent
          exact absent.2 present
      · exact quiet_putWorker forward possible Write.ordinary_nothing (.inr rfl)
      · exact quiet_putWorker forward possible Write.ordinary_nothing (.inr rfl)
  | requeueOrphan id rest live =>
      simp only [ReconcilerPc.step] at stepped
      split at stepped
      case isTrue isLive =>
        obtain ⟨rfl, rfl⟩ := Prod.mk.inj (Option.some.inj stepped)
        refine quiet_putWorker forward possible Write.ordinary_nothing ?_
        rw [was]
        simpa [ReconcilerPc.role, isLive] using role_nextOrphan clock live rest
      case isFalse missing =>
        have role : (cluster.workers worker).pc.role =
            .restoring (id.str :: (rest.map UUID.str).filter (· ∉ live)) := by
          rw [was]
          simp [ReconcilerPc.role, missing]
        have alone := alone_of_disjoint held disciplined.disjoint (.inr ⟨_, role⟩)
        rcases attempt_eq (Option.some.inj stepped) with
          ⟨_, rfl, rfl⟩ | ⟨_, rfl, rfl⟩ | ⟨_, rfl, rfl⟩
        · exact .restore forward (calm_write possible (fun _ _ => by simp) rfl)
            (turns_putWorker role (role_nextOrphan clock live rest)) (requeued_write id rfl)
            alone
        · exact quiet_putWorker forward possible Write.ordinary_nothing (.inr rfl)
        · exact .restore forward (calm_write possible (fun _ _ => by simp) rfl)
            (turns_putWorker role (.inr (died _))) (requeued_write id rfl) alone

theorem forward_of_requests {action : Action n m}
    (moved : step config cluster action = some next)
    (owes : ∀ request rawJobId, (next.requests request).pc.owes = some rawJobId →
      (cluster.requests request).pc.owes = some rawJobId) :
    Forward (cluster.queueState config) (next.queueState config) :=
  ⟨ages_step moved, owes⟩

theorem queueStep_work {worker : Fin n} {choice : Choice}
    (held : Exclusive (cluster.queueState config)) (named : Named cluster)
    (disciplined : Disciplined config cluster (.work worker choice))
    (moved : step config cluster (.work worker choice) = some next) :
    Step (cluster.queueState config) (next.queueState config) := by
  have forward := forward_of_requests moved
    (by obtain ⟨_, _, _, _, rfl⟩ := step_work moved; exact fun _ _ same => same)
  obtain ⟨current, write, pc', stepped, rfl⟩ := step_work moved
  have possible := WorkerPc.step_possible current.2 stepped
  have hand := named.held worker
  cases at_ : (cluster.workers worker).pc with
  | reconciling pc =>
      rw [at_] at stepped
      obtain ⟨result, inner, rfl⟩ := WorkerPc.step_reconciling stepped
      exact queueStep_reconciling held disciplined current.2 at_ inner possible forward
  | processing lastReconcile rawJobId marked pc =>
      rw [at_] at stepped hand
      obtain ⟨result, inner, rfl⟩ := WorkerPc.step_processing stepped
      exact queueStep_processing held hand at_ inner possible forward
  | claiming lastReconcile =>
      have was : (cluster.workers worker).pc.role = .idle := by
        rw [at_]
        rfl
      rw [at_, WorkerPc.step] at stepped
      split at stepped
      case h_1 =>
        rcases attempt_eq (Option.some.inj stepped) with
          ⟨_, rfl, rfl⟩ | ⟨_, rfl, rfl⟩ | ⟨_, rfl, rfl⟩ <;>
          exact quiet_putWorker forward possible Write.ordinary_nothing (.inr rfl)
      case h_2 rawJobId last =>
        obtain ⟨id, parsed⟩ := named.listed rawJobId (.inl (List.mem_of_getLast? last))
        rcases attempt_eq (Option.some.inj stepped) with
          ⟨_, rfl, same⟩ | ⟨_, rfl, rfl⟩ | ⟨_, rfl, rfl⟩
        · refine claim_putWorker forward last was (.inl ?_)
          rw [same, WorkerPc.role, ProcessorPc.jobId_start parsed]
          rfl
        · exact quiet_putWorker forward possible Write.ordinary_nothing (.inr rfl)
        · exact claim_putWorker forward last was (.inr rfl)
  | checking lastReconcile =>
      rw [at_, WorkerPc.step] at stepped
      split at stepped <;> cases stepped <;>
        exact quiet_putWorker forward possible Write.ordinary_nothing (.inr rfl)
  | dead =>
      rw [at_] at stepped
      cases stepped

/-! ## Steps of requests -/

theorem owes_putRequest (cluster : Cluster n m) (request : Fin m) (write : Write)
    (pc : RequestPc) (other : Fin m) :
    ((cluster.putRequest request write pc).requests other).pc.owes =
      if other = request then pc.owes else (cluster.requests other).pc.owes := by
  simp only [putRequest, Function.update_apply]
  split <;> rfl

/-- A request that makes an ordinary call, or shortens the queue, and owes
nothing afterwards. -/
theorem quiet_putRequest {request : Fin m} {write : Write} {pc : RequestPc}
    (ages : Ages (cluster.queueState config)
      ((cluster.putRequest request write pc).queueState config))
    (possible : cluster.stores.Possible write)
    (unmarked : ∀ now id, write ≠ .execute now id .markRunning)
    (queued : ∀ id, (cluster.stores.write write).queue.count id ≤ cluster.stores.queue.count id)
    (inFlight : (cluster.stores.write write).processing = cluster.stores.processing)
    (owes : pc.owes = none) :
    Step (cluster.queueState config)
      ((cluster.putRequest request write pc).queueState config) := by
  refine .quiet ⟨ages, fun other rawJobId owing => ?_⟩ (calm_write possible unmarked rfl) queued
    (fun id => by simp only [queueState, putRequest, inFlight]) fun _ => .inl rfl
  simp only [queueState, owes_putRequest] at owing
  split at owing
  case isTrue => simp [owes] at owing
  case isFalse => exact owing

theorem ordinary_putRequest {request : Fin m} {write : Write} {pc : RequestPc}
    (ages : Ages (cluster.queueState config)
      ((cluster.putRequest request write pc).queueState config))
    (possible : cluster.stores.Possible write) (ordinary : write.Ordinary)
    (owes : pc.owes = none) :
    Step (cluster.queueState config)
      ((cluster.putRequest request write pc).queueState config) :=
  quiet_putRequest ages possible ordinary.2
    (fun id => by rw [SharedStores.queue_write ordinary.1])
    (SharedStores.processing_write ordinary.1) owes

theorem owes_afterGetByID (found : Option Job) : (RequestPc.afterGetByID found).owes = none := by
  unfold RequestPc.afterGetByID
  split
  case h_1 => rfl
  case h_2 => split <;> rfl

theorem owes_afterUpdate (result : Except UpdateError Job) :
    (RequestPc.afterUpdate result).owes = none := by
  cases result <;> rfl

theorem owes_start (call : RequestCall) : (RequestPc.start call).owes = none := by
  cases call <;> simp only [RequestPc.start] <;> first | rfl | (split <;> rfl)

theorem push_putRequest {request : Fin m} {id : UUID} {pc : RequestPc}
    (ages : Ages (cluster.queueState config)
      ((cluster.putRequest request (.enqueue id) pc).queueState config))
    (owing : (cluster.queueState config).owed request = some id.str)
    (inTime : ¬ (cluster.queueState config).expired id.str) (owes : pc.owes = none) :
    Step (cluster.queueState config)
      ((cluster.putRequest request (.enqueue id) pc).queueState config) := by
  have possible : cluster.stores.Possible (.enqueue id) := trivial
  have paid : ((cluster.putRequest request (.enqueue id) pc).queueState config).owed request =
      none := by
    simp only [queueState, owes_putRequest, if_true, owes]
  have forward : Forward (cluster.queueState config)
      ((cluster.putRequest request (.enqueue id) pc).queueState config) := by
    refine ⟨ages, fun other rawJobId owed => ?_⟩
    simp only [queueState, owes_putRequest] at owed
    split at owed
    case isTrue => simp [owes] at owed
    case isFalse => exact owed
  refine .push forward (calm_write possible (fun _ _ => by simp) rfl) rfl owing paid inTime ?_ ?_
    fun _ => rfl
  · simp only [queueState, putRequest, SharedStores.write]
    rw [RedisLists.count_lpush, if_pos rfl]
  · intro other distinct
    simp only [queueState, putRequest, SharedStores.write]
    rw [RedisLists.count_lpush, if_neg (Ne.symm distinct), Nat.add_zero]

theorem inTime_of_disciplined {request : Fin m} {choice : Choice} {job : Job}
    (disciplined : Disciplined config cluster (.serve request choice))
    (at_ : (cluster.requests request).pc = .enqueue job) (pushed : choice.fault ≠ .before) :
    ¬ (cluster.queueState config).expired job.id.str := by
  rintro ⟨id, parsed, row, found, old⟩
  obtain rfl := UUID.str_injective parsed
  have inTime := disciplined.inTime
  simp only [EnqueueInTime, at_] at inTime
  exact absurd (inTime.resolve_left pushed row found) (not_le.mpr old)

theorem queueStep_serve {request : Fin m} {choice : Choice}
    (disciplined : Disciplined config cluster (.serve request choice))
    (moved : step config cluster (.serve request choice) = some next) :
    Step (cluster.queueState config) (next.queueState config) := by
  have ages := ages_step moved
  obtain ⟨current, write, pc', stepped, rfl⟩ := step_serve moved
  have possible := RequestPc.step_possible current.2 stepped
  cases at_ : (cluster.requests request).pc with
  | create call =>
      rw [at_] at stepped
      obtain ⟨fresh, called⟩ := Option.ite_none_right_eq_some.mp stepped
      have ordinary : (Write.createJob choice.now choice.uuid call).Ordinary :=
        ⟨trivial, fun _ _ => by simp⟩
      rcases attempt_eq (Option.some.inj called) with
        ⟨_, rfl, rfl⟩ | ⟨_, rfl, rfl⟩ | ⟨_, rfl, rfl⟩
      · have unknown : ¬ (cluster.queueState config).known choice.uuid.str := by
          rintro ⟨id, parsed, row, found⟩
          obtain rfl := UUID.str_injective parsed
          simp [fresh] at found
        refine .create ages (calm_write possible ordinary.2 rfl)
          (sameLists_write ordinary.1 rfl) rfl unknown
          ⟨choice.uuid, rfl, _, AList.lookup_insert _⟩
          (?_ : ∀ other owing, _ → _ ∨ other = request ∧ owing = choice.uuid.str)
        intro other owing owes
        simp only [queueState, owes_putRequest] at owes
        split at owes
        case isTrue same => exact .inr ⟨same, (Option.some.inj owes).symm⟩
        case isFalse => exact .inl owes
      · exact ordinary_putRequest ages possible Write.ordinary_nothing rfl
      · exact ordinary_putRequest ages possible ordinary rfl
  | enqueue job =>
      rw [at_] at stepped
      have owing : (cluster.queueState config).owed request = some job.id.str := by
        simp only [queueState, at_]
        rfl
      rcases attempt_eq (Option.some.inj stepped) with
        ⟨done, rfl, rfl⟩ | ⟨_, rfl, rfl⟩ | ⟨done, rfl, rfl⟩
      · exact push_putRequest ages owing
          (inTime_of_disciplined disciplined at_ (by simp [done])) rfl
      · exact ordinary_putRequest ages possible Write.ordinary_nothing rfl
      · exact push_putRequest ages owing
          (inTime_of_disciplined disciplined at_ (by simp [done])) rfl
  | markEnqueueFailed id errMsg =>
      rw [at_] at stepped
      have ordinary : (Write.updateJob choice.now id (enqueueFailedFields errMsg)).Ordinary :=
        ⟨trivial, fun _ _ => by simp⟩
      rcases attempt_eq (Option.some.inj stepped) with
        ⟨_, rfl, rfl⟩ | ⟨_, rfl, rfl⟩ | ⟨_, rfl, rfl⟩
      · exact ordinary_putRequest ages possible ordinary rfl
      · exact ordinary_putRequest ages possible Write.ordinary_nothing rfl
      · exact ordinary_putRequest ages possible ordinary rfl
  | getByID id =>
      rw [at_] at stepped
      rcases attempt_eq (Option.some.inj stepped) with
        ⟨_, rfl, rfl⟩ | ⟨_, rfl, rfl⟩ | ⟨_, rfl, rfl⟩
      · exact ordinary_putRequest ages possible Write.ordinary_nothing (owes_afterGetByID _)
      · exact ordinary_putRequest ages possible Write.ordinary_nothing rfl
      · exact ordinary_putRequest ages possible Write.ordinary_nothing rfl
  | getJobStatus job =>
      rw [at_] at stepped
      rcases attempt_eq (Option.some.inj stepped) with
        ⟨_, rfl, rfl⟩ | ⟨_, rfl, rfl⟩ | ⟨_, rfl, rfl⟩ <;>
        exact ordinary_putRequest ages possible Write.ordinary_nothing rfl
  | update id =>
      rw [at_] at stepped
      have ordinary : (Write.updateJob choice.now id cancelFields).Ordinary :=
        ⟨trivial, fun _ _ => by simp⟩
      rcases attempt_eq (Option.some.inj stepped) with
        ⟨_, rfl, rfl⟩ | ⟨_, rfl, rfl⟩ | ⟨_, rfl, rfl⟩
      · exact ordinary_putRequest ages possible ordinary (owes_afterUpdate _)
      · exact ordinary_putRequest ages possible Write.ordinary_nothing rfl
      · exact ordinary_putRequest ages possible ordinary rfl
  | dequeue job =>
      rw [at_] at stepped
      have shorter : ∀ id, (cluster.stores.write (.dequeue job.id)).queue.count id ≤
          cluster.stores.queue.count id := fun id => List.filter_sublist.count_le id
      rcases attempt_eq (Option.some.inj stepped) with
        ⟨_, rfl, rfl⟩ | ⟨_, rfl, rfl⟩ | ⟨_, rfl, rfl⟩
      · exact quiet_putRequest ages possible (fun _ _ => by simp) shorter rfl rfl
      · exact ordinary_putRequest ages possible Write.ordinary_nothing rfl
      · exact quiet_putRequest ages possible (fun _ _ => by simp) shorter rfl rfl
  | idle | answered response =>
      rw [at_] at stepped
      cases stepped

/-! ## Runs -/

/-- Every disciplined step of the platform is one of the reliable queue. -/
theorem queueStep {action : Action n m} (held : Exclusive (cluster.queueState config))
    (named : Named cluster) (disciplined : Disciplined config cluster action)
    (moved : step config cluster action = some next) :
    Step (cluster.queueState config) (next.queueState config) := by
  have ages := ages_step moved
  have nothing : cluster.stores.Possible .nothing := trivial
  cases action with
  | tick duration | setModels models =>
      cases moved
      exact .quiet ⟨ages, fun _ _ same => same⟩ (fun _ runs => runs) (fun _ => le_rfl)
        (fun _ => rfl) fun _ => .inl rfl
  | start worker =>
      obtain ⟨_, rfl⟩ := step_start moved
      exact quiet_putWorker ⟨ages, fun _ _ same => same⟩ nothing Write.ordinary_nothing (.inr rfl)
  | crash worker =>
      cases moved
      exact quiet_putWorker ⟨ages, fun _ _ same => same⟩ nothing Write.ordinary_nothing (.inr rfl)
  | work worker choice => exact queueStep_work held named disciplined moved
  | arrive request call =>
      obtain rfl := step_arrive moved
      exact ordinary_putRequest ages nothing Write.ordinary_nothing (owes_start call)
  | serve request choice => exact queueStep_serve disciplined moved
  | drop request =>
      cases moved
      exact ordinary_putRequest ages nothing Write.ordinary_nothing rfl

theorem exclusive_initial (config : Config) (clock : Time) (models : List ModelRow) :
    Exclusive ((initial clock models : Cluster n m).queueState config) := by
  have noRow : ∀ id, (initial clock models : Cluster n m).stores.jobs.lookup id = none :=
    fun _ => rfl
  constructor
  case once => exact fun _ => Nat.zero_le 1
  case listed => exact fun _ present => absurd present (Nat.lt_irrefl 0)
  case aged => exact fun _ ⟨id, parsed, row, found, _⟩ => ⟨id, parsed, row, found⟩
  case running => exact fun _ ⟨id, _, row, found, _⟩ => by simp [noRow] at found
  case owed => exact fun _ _ owing => by cases owing
  case owedOnce => exact fun _ _ _ owing => by cases owing
  case heldOnce => exact fun _ _ _ holds => by cases holds
  case sound => exact fun _ => trivial

/-- In every disciplined run no identifier is listed twice and no two workers
hold the same one. -/
theorem runs_exclusive {clock : Time} {models : List ModelRow}
    (run : Runs (step config) (Disciplined config) (initial clock models) cluster) :
    Exclusive (cluster.queueState config) ∧ Named cluster := by
  refine runs_invariant
    (fun state : Cluster n m => Exclusive (state.queueState config) ∧ Named state) ?_
    ⟨exclusive_initial config clock models, named_initial clock models⟩ run
  intro current action after held disciplined moved
  exact ⟨held.1.step (queueStep held.1 held.2 disciplined moved), step_named held.2 moved⟩

end Cluster

end Crucible
