import Crucible.FailedCreation
import Crucible.LiveReclaim
import Crucible.QueueRoles
import Crucible.StrandedJobs

/-!
# Which crashes strand a job

A job that is queued in Postgres and only in flight in Redis is in the hands of
a worker that has claimed it, or of a pass that has reset it.  As long as no
worker process ends with such a job in its hands, no job is stranded once all
workers are dead, and a single reconcile pass recovers every unfinished job.
-/

namespace Crucible

open LabelledRuns

/-! ## What workers have in their hands -/

def ReconcilerPc.ids : ReconcilerPc → List UUID
  | .findStaleRunning | .findOrphanQueued => []
  | .resetToQueued id rest | .publishQueued id rest | .requeueAbandoned id rest
  | .requeueOrphan id rest _ => id :: rest
  | .queuedIds candidates | .inFlightIds candidates _ => candidates

def WorkerPc.ids : WorkerPc → List UUID
  | .reconciling pc => pc.ids
  | _ => []

/-- The identifier that a worker has claimed and not acknowledged, or reset and
not pushed. -/
def WorkerPc.holds : WorkerPc → Option String
  | .processing _ rawJobId _ _ => some rawJobId
  | .reconciling pc => pc.resetting.map UUID.str
  | .claiming _ | .checking _ | .dead => none

/-- The identifier that a worker has in its hands or is just taking. -/
def WorkerPc.takes (stores : SharedStores) : WorkerPc → Option String
  | .claiming _ => stores.queue.getLast?
  | .reconciling (.resetToQueued id _) => some id.str
  | pc => pc.holds

namespace ReconcilerPc

theorem ids_nextAbandoned (rest : List UUID) : (nextAbandoned rest).ids = rest := by
  cases rest <;> rfl

theorem ids_nextOrphan {live : List String} {rest : List UUID} {pc : ReconcilerPc}
    (same : nextOrphan live rest = .goto pc) : pc.ids = rest := by
  cases rest <;> cases same
  rfl

/-- What a pass lists was listed before, or is read from the table. -/
theorem ids_step {config : Config} {stores : SharedStores} {choice : Choice}
    {pc pc' : ReconcilerPc} {write : Write} {id : UUID}
    (stepped : pc.step config stores choice = some (write, .goto pc'))
    (listed : id ∈ pc'.ids) : id ∈ pc.ids ∨ ∃ row, stores.jobs.lookup id = some row := by
  cases pc with
  | findStaleRunning =>
      obtain ⟨found, called⟩ := Option.ite_none_right_eq_some.mp stepped
      rcases attempt_eq (Option.some.inj called) with
        ⟨_, _, same⟩ | ⟨_, _, same⟩ | ⟨_, _, same⟩ <;> cases same
      rw [ids_nextAbandoned] at listed
      obtain ⟨row, there, _⟩ := KeyedTable.mem_select.mp (found.mem_iff.mp listed)
      exact .inr ⟨row, there⟩
  | findOrphanQueued =>
      obtain ⟨found, called⟩ := Option.ite_none_right_eq_some.mp stepped
      rcases attempt_eq (Option.some.inj called) with
        ⟨_, _, same⟩ | ⟨_, _, same⟩ | ⟨_, _, same⟩
      · split at same <;> cases same
        obtain ⟨row, there, _⟩ := KeyedTable.mem_select.mp (found.mem_iff.mp listed)
        exact .inr ⟨row, there⟩
      all_goals cases same
  | resetToQueued own rest | publishQueued own rest | queuedIds candidates =>
      rcases attempt_eq (Option.some.inj stepped) with
        ⟨_, _, same⟩ | ⟨_, _, same⟩ | ⟨_, _, same⟩ <;> cases same
      exact .inl listed
  | requeueAbandoned own rest =>
      rcases attempt_eq (Option.some.inj stepped) with
        ⟨_, _, same⟩ | ⟨_, _, same⟩ | ⟨_, _, same⟩ <;> cases same
      rw [ids_nextAbandoned] at listed
      exact .inl (List.mem_cons_of_mem own listed)
  | inFlightIds candidates queued =>
      rcases attempt_eq (Option.some.inj stepped) with
        ⟨_, _, same⟩ | ⟨_, _, same⟩ | ⟨_, _, same⟩
      · rw [ids_nextOrphan same.symm] at listed
        exact .inl listed
      all_goals cases same
  | requeueOrphan own rest live =>
      simp only [step] at stepped
      split at stepped
      case isTrue =>
        rw [ids_nextOrphan (congrArg Prod.snd (Option.some.inj stepped))] at listed
        exact .inl (List.mem_cons_of_mem own listed)
      case isFalse =>
        rcases attempt_eq (Option.some.inj stepped) with
          ⟨_, _, same⟩ | ⟨_, _, same⟩ | ⟨_, _, same⟩
        · rw [ids_nextOrphan same.symm] at listed
          exact .inl (List.mem_cons_of_mem own listed)
        all_goals cases same

end ReconcilerPc

namespace WorkerPc

variable {config : Config} {stores : SharedStores} {choice : Choice} {pc pc' : WorkerPc}
  {write : Write}

theorem ids_step {id : UUID} (stepped : pc.step config stores choice = some (write, pc'))
    (listed : id ∈ pc'.ids) : id ∈ pc.ids ∨ ∃ row, stores.jobs.lookup id = some row := by
  cases pc with
  | reconciling pc =>
      obtain ⟨next, inner, rfl⟩ := step_reconciling stepped
      cases next with
      | goto pc' => exact ReconcilerPc.ids_step inner listed
      | returned result => cases listed
      | raised message => cases listed
  | claiming lastReconcile =>
      simp only [step] at stepped
      split at stepped
      all_goals
        rcases attempt_eq (Option.some.inj stepped) with
          ⟨_, _, rfl⟩ | ⟨_, _, rfl⟩ | ⟨_, _, rfl⟩ <;> cases listed
  | processing lastReconcile rawJobId marked pc =>
      obtain ⟨next, _, rfl⟩ := step_processing stepped
      cases next <;> cases listed
  | checking lastReconcile =>
      simp only [step] at stepped
      split at stepped <;> cases stepped <;> cases listed
  | dead => cases stepped

theorem mem_ids_of_call_requeue {id : UUID} (made : pc.call choice = .requeue id.str) :
    id ∈ pc.ids := by
  cases pc with
  | reconciling pc =>
      cases pc with
      | requeueAbandoned own rest | requeueOrphan own rest live =>
          have same := UUID.str_injective (Write.requeue.inj made)
          exact same ▸ List.mem_cons_self
      | _ => cases made
  | processing lastReconcile raw marked pc =>
      cases pc with
      | executing job model pc => exact (executes_of_call made).elim
      | _ => cases made
  | _ => cases made

/-- A worker keeps what it holds, acknowledges it, pushes it, or ends. -/
theorem holds_step {entry : String}
    (stepped : pc.step config stores choice = some (write, pc'))
    (holds : pc.holds = some entry) :
    pc'.holds = some entry ∨ write = .ack entry ∨ write = .requeue entry ∨ pc' = .dead := by
  cases pc with
  | reconciling pc =>
      obtain ⟨next, inner, rfl⟩ := step_reconciling stepped
      cases pc with
      | publishQueued own rest =>
          rcases attempt_eq (Option.some.inj inner) with
            ⟨_, _, rfl⟩ | ⟨_, _, rfl⟩ | ⟨_, _, rfl⟩
          · exact .inl holds
          · exact .inr (.inr (.inr rfl))
          · exact .inr (.inr (.inr rfl))
      | requeueAbandoned own rest =>
          cases holds
          rcases attempt_eq (Option.some.inj inner) with
            ⟨_, rfl, rfl⟩ | ⟨_, _, rfl⟩ | ⟨_, _, rfl⟩
          · exact .inr (.inr (.inl rfl))
          · exact .inr (.inr (.inr rfl))
          · exact .inr (.inr (.inr rfl))
      | _ => cases holds
  | processing lastReconcile rawJobId marked pc =>
      obtain ⟨next, inner, rfl⟩ := step_processing stepped
      cases holds
      cases next with
      | goto pc' => exact .inl rfl
      | returned result => exact .inr (.inl (ProcessorPc.step_returned inner).2)
      | raised message => exact .inr (.inr (.inr rfl))
  | _ => cases holds

theorem claiming_of_call (made : pc.call choice = .claim) :
    ∃ lastReconcile, pc = .claiming lastReconcile := by
  cases pc with
  | claiming lastReconcile => exact ⟨lastReconcile, rfl⟩
  | reconciling pc => cases pc <;> cases made
  | processing lastReconcile raw marked pc =>
      cases pc with
      | executing job model pc => exact (executes_of_call made).elim
      | _ => cases made
  | _ => cases made

theorem holds_of_claim {raw : String}
    (stepped : pc.step config stores choice = some (.claim, pc'))
    (last : stores.queue.getLast? = some raw) :
    pc.takes stores = some raw ∧ (pc'.holds = some raw ∨ pc' = .dead) := by
  obtain ⟨lastReconcile, rfl⟩ : ∃ lastReconcile, pc = .claiming lastReconcile := by
    rcases step_write stepped with made | made
    · cases made
    · exact claiming_of_call made.symm
  refine ⟨last, ?_⟩
  simp only [step, last] at stepped
  rcases attempt_eq (Option.some.inj stepped) with
    ⟨_, _, rfl⟩ | ⟨_, _, rfl⟩ | ⟨_, _, rfl⟩
  · exact .inl rfl
  · exact .inr rfl
  · exact .inr rfl

theorem holds_of_reset {now : Time} {id : UUID}
    (stepped : pc.step config stores choice = some (.execute now id .resetToQueued, pc')) :
    pc.takes stores = some id.str ∧ (pc'.holds = some id.str ∨ pc' = .dead) := by
  obtain ⟨rest, rfl⟩ : ∃ rest, pc = .reconciling (.resetToQueued id rest) := by
    rcases step_write stepped with made | made
    · cases made
    · exact call_resetToQueued made.symm
  refine ⟨rfl, ?_⟩
  obtain ⟨next, inner, rfl⟩ := step_reconciling stepped
  rcases attempt_eq (Option.some.inj inner) with
    ⟨_, _, rfl⟩ | ⟨_, _, rfl⟩ | ⟨_, _, rfl⟩
  · exact .inl rfl
  · exact .inr rfl
  · exact .inr rfl

/-- Workers remove nothing from `jobs:queue` but by claiming. -/
theorem call_ne_dequeue {id : UUID} : pc.call choice ≠ .dequeue id := by
  intro made
  cases pc with
  | reconciling pc => cases pc <;> cases made
  | processing lastReconcile raw marked pc =>
      cases pc with
      | executing job model pc => exact (executes_of_call made).elim
      | _ => cases made
  | _ => cases made

theorem call_ne_enqueue {id : UUID} : pc.call choice ≠ .enqueue id := by
  intro made
  cases pc with
  | reconciling pc => cases pc <;> cases made
  | processing lastReconcile raw marked pc =>
      cases pc with
      | executing job model pc => exact (executes_of_call made).elim
      | _ => cases made
  | _ => cases made

end WorkerPc

/-! ## How a job comes to be stranded -/

namespace SharedStores

variable {stores : SharedStores} {write : Write}

/-- A queued row was there before, or the write reset or created it. -/
theorem queued_write (possible : stores.Possible write) {id : UUID}
    (queued : (stores.write write).HasStatus id .queued) :
    stores.HasStatus id .queued ∨ (∃ now, write = .execute now id .resetToQueued) ∨
      stores.jobs.lookup id = none := by
  obtain ⟨row', found, status⟩ := queued
  cases rowSource_write found with
  | kept before => exact .inl ⟨row', before, status⟩
  | created now request written => exact .inr (.inr possible.2)
  | updated now fields row before valid written =>
      subst written
      have finished := terminal_of_updated possible row
      rw [status] at finished
      cases finished
  | executed now update row before matched written =>
      subst written
      cases update with
      | resetToQueued => exact .inr (.inl ⟨now, rfl⟩)
      | heartbeat => cases matched.symm.trans status
      | _ => cases status

/-- A job is stranded by the claim or the reset that is under way, or by a
removal from `jobs:queue`. -/
theorem stranded_write (possible : stores.Possible write) {id : UUID}
    (listed : id.str ∈ stores.processing → ∃ row, stores.jobs.lookup id = some row)
    (stranded : (stores.write write).Stranded id) :
    stores.Stranded id ∨ (write = .claim ∧ stores.queue.getLast? = some id.str) ∨
      (∃ now, write = .execute now id .resetToQueued) ∨
      (write = .dequeue id ∧ stores.HasStatus id .queued) := by
  obtain ⟨queued, inFlight, unqueued⟩ := stranded
  have before : (stores.write write).processing = stores.processing →
      id.str ∉ stores.queue → stores.Stranded id ∨
        ∃ now, write = .execute now id .resetToQueued := by
    intro same absent
    rw [same] at inFlight
    rcases queued_write possible queued with old | reset | fresh
    · exact .inl ⟨old, inFlight, absent⟩
    · exact .inr reset
    · obtain ⟨row, found⟩ := listed inFlight
      simp [found] at fresh
  cases write with
  | enqueue target =>
      exact .inl ⟨queued, inFlight, fun member => unqueued (RedisLists.mem_lpush.mpr (.inr member))⟩
  | dequeue target =>
      by_cases member : id.str ∈ stores.queue
      · have same : id.str = target.str := by
          by_contra distinct
          exact unqueued (RedisLists.mem_lrem.mpr ⟨member, distinct⟩)
        obtain rfl := UUID.str_injective same
        exact .inr (.inr (.inr ⟨rfl, queued⟩))
      · exact .inl ⟨queued, inFlight, member⟩
  | claim =>
      simp only [SharedStores.write] at queued inFlight unqueued
      split at inFlight
      case h_2 none_ =>
        rw [none_] at queued unqueued
        exact .inl ⟨queued, inFlight, unqueued⟩
      case h_1 raw queue processing moved =>
        rw [moved] at queued unqueued
        obtain ⟨split, rfl⟩ := RedisLists.brpoplpush_eq_some moved
        rcases List.mem_cons.mp inFlight with same | old
        · refine .inr (.inl ⟨rfl, ?_⟩)
          rw [split, same]
          exact List.getLast?_concat
        · by_cases taken : id.str = raw
          · refine .inr (.inl ⟨rfl, ?_⟩)
            rw [split, taken]
            exact List.getLast?_concat
          · refine .inl ⟨queued, old, ?_⟩
            rw [split]
            simpa [taken] using unqueued
  | ack raw => exact .inl ⟨queued, (RedisLists.mem_lrem.mp inFlight).1, unqueued⟩
  | requeue raw =>
      exact .inl ⟨queued, (RedisLists.mem_lrem.mp inFlight).1,
        fun member => unqueued (RedisLists.mem_lpush.mpr (.inr member))⟩
  | _ => exact (before rfl unqueued).imp_right fun reset => .inr (.inl reset)

theorem not_stranded_ack (stores : SharedStores) (id : UUID) :
    ¬ (stores.write (.ack id.str)).Stranded id :=
  fun stranded => (RedisLists.mem_lrem.mp stranded.2.1).2 rfl

theorem not_stranded_requeue (stores : SharedStores) (id : UUID) :
    ¬ (stores.write (.requeue id.str)).Stranded id :=
  fun stranded => stranded.2.2 (RedisLists.mem_lpush.mpr (.inl rfl))

end SharedStores

/-! ## Every stranded job is in somebody's hands -/

theorem WorkerPc.takes_of_holds {pc : WorkerPc} {entry : String} (stores : SharedStores)
    (holds : pc.holds = some entry) : pc.takes stores = some entry := by
  cases pc with
  | reconciling pc => cases pc <;> first | exact holds | cases holds
  | processing lastReconcile rawJobId marked pc => exact holds
  | _ => cases holds

namespace Cluster

variable {n m : Nat} {config : Config} {cluster next : Cluster n m}

/-- When a worker process ends, by a crash or by an exception, the job that it
has in its hands or is just taking is not left stranded, unless another worker
has it in its hands. -/
def EndsCleanly (config : Config) (cluster : Cluster n m) (action : Action n m) : Prop :=
  ∀ next ∈ step config cluster action, ∀ worker, (next.workers worker).pc = .dead →
    ∀ id ∈ ((cluster.workers worker).pc.takes cluster.stores).bind UUID.parse,
      next.stores.Stranded id → ∃ other, (next.workers other).pc.holds = some id.str

instance (config : Config) (cluster : Cluster n m) (action : Action n m) :
    Decidable (EndsCleanly config cluster action) :=
  inferInstanceAs (Decidable (∀ next ∈ step config cluster action, ∀ _, _ → ∀ id ∈ _, _))

/-- Stranded jobs are in the hands of workers; entries of the lists and what
passes have listed belong to rows; requests remove from `jobs:queue` only jobs
that are finished. -/
structure Accounted (cluster : Cluster n m) : Prop where
  held : ∀ id, cluster.stores.Stranded id →
    ∃ worker, (cluster.workers worker).pc.holds = some id.str
  listed : ∀ id : UUID, id.str ∈ cluster.stores.queue ∨ id.str ∈ cluster.stores.processing →
    ∃ row, cluster.stores.jobs.lookup id = some row
  passes : ∀ worker, ∀ id ∈ (cluster.workers worker).pc.ids,
    ∃ row, cluster.stores.jobs.lookup id = some row
  inserted : ∀ request, Inserted cluster.stores (cluster.requests request).pc
  cancelled : ∀ request job, (cluster.requests request).pc = .dequeue job →
    ∃ row, cluster.stores.jobs.lookup job.id = some row ∧ row.status.terminal = true

theorem accounted_initial (clock : Time) (models : List ModelRow) :
    Accounted (initial clock models : Cluster n m) where
  held _ stranded := by cases stranded.2.1
  listed _ member := by rcases member with member | member <;> cases member
  passes _ _ member := by cases member
  inserted _ _ made := by cases made
  cancelled _ _ made := by cases made

theorem held_step {action : Action n m} (before : Accounted cluster)
    (clean : EndsCleanly config cluster action)
    (moved : step config cluster action = some next) {id : UUID}
    (stranded : next.stores.Stranded id) :
    ∃ worker, (next.workers worker).pc.holds = some id.str := by
  have ends : ∀ worker, (next.workers worker).pc = .dead →
      (cluster.workers worker).pc.takes cluster.stores = some id.str →
      ∃ other, (next.workers other).pc.holds = some id.str := by
    intro worker dead takes
    exact clean next moved worker dead id (by rw [takes]; exact UUID.parse_str id) stranded
  have known : id.str ∈ cluster.stores.processing →
      ∃ row, cluster.stores.jobs.lookup id = some row :=
    fun member => before.listed id (.inr member)
  cases action with
  | work worker choice =>
      obtain ⟨current, write, pc, stepped, rfl⟩ := step_work moved
      have own : pc.holds = some id.str ∨ pc = .dead →
          (cluster.workers worker).pc.takes cluster.stores = some id.str →
          ∃ other, ((cluster.putWorker worker write pc).workers other).pc.holds =
            some id.str := by
        rintro (holds | dead) takes
        · exact ⟨worker, by rw [putWorker_self]; exact holds⟩
        · exact ends worker (by rw [putWorker_self]; exact dead) takes
      rcases SharedStores.stranded_write (WorkerPc.step_possible current.2 stepped) known
        stranded with old | ⟨rfl, last⟩ | ⟨now, rfl⟩ | ⟨rfl, _⟩
      · obtain ⟨custodian, holds⟩ := before.held id old
        by_cases same : custodian = worker
        · subst same
          rcases WorkerPc.holds_step stepped holds with keeps | rfl | rfl | dead
          · exact own (.inl keeps) (WorkerPc.takes_of_holds _ holds)
          · exact (SharedStores.not_stranded_ack _ id stranded).elim
          · exact (SharedStores.not_stranded_requeue _ id stranded).elim
          · exact own (.inr dead) (WorkerPc.takes_of_holds _ holds)
        · exact ⟨custodian, by rw [putWorker_of_ne same]; exact holds⟩
      · obtain ⟨takes, after⟩ := WorkerPc.holds_of_claim stepped last
        exact own after takes
      · obtain ⟨takes, after⟩ := WorkerPc.holds_of_reset stepped
        exact own after takes
      · rcases WorkerPc.step_write stepped with made | made
        · cases made
        · exact (WorkerPc.call_ne_dequeue made.symm).elim
  | serve request choice =>
      obtain ⟨current, write, pc, stepped, rfl⟩ := step_serve moved
      rcases SharedStores.stranded_write (RequestPc.step_possible current.2 stepped) known
        stranded with old | ⟨rfl, _⟩ | ⟨now, rfl⟩ | ⟨rfl, queued⟩
      · exact before.held id old
      all_goals
        rcases RequestPc.step_write stepped with made | made
        · cases made
        cases at_ : (cluster.requests request).pc <;> rw [at_] at made <;> cases made
      obtain ⟨row, found, finished⟩ := before.cancelled request _ at_
      obtain ⟨row', found', status⟩ := queued
      rw [found] at found'
      cases found'
      simp [status, JobStatus.terminal] at finished
  | crash worker =>
      cases moved
      obtain ⟨custodian, holds⟩ := before.held id stranded
      by_cases same : custodian = worker
      · subst same
        exact ends custodian (putWorker_self ..) (WorkerPc.takes_of_holds _ holds)
      · exact ⟨custodian, by rw [putWorker_of_ne same]; exact holds⟩
  | start worker =>
      obtain ⟨dead, rfl⟩ := step_start moved
      obtain ⟨custodian, holds⟩ := before.held id stranded
      have other : custodian ≠ worker := by
        rintro rfl
        rw [dead] at holds
        cases holds
      exact ⟨custodian, by rw [putWorker_of_ne other]; exact holds⟩
  | arrive request call =>
      obtain rfl := step_arrive moved
      exact before.held id stranded
  | tick duration | setModels models | drop request =>
      cases moved
      exact before.held id stranded

theorem found_step {action : Action n m} (moved : step config cluster action = some next)
    {id : UUID} (found : ∃ row, cluster.stores.jobs.lookup id = some row) :
    ∃ row, next.stores.jobs.lookup id = some row := by
  obtain ⟨row, found⟩ := found
  obtain ⟨row', found', _⟩ := step_row moved found
  exact ⟨row', found'⟩

theorem listed_step {action : Action n m} (before : Accounted cluster)
    (moved : step config cluster action = some next) {id : UUID}
    (member : id.str ∈ next.stores.queue ∨ id.str ∈ next.stores.processing) :
    ∃ row, next.stores.jobs.lookup id = some row := by
  refine found_step moved ?_
  cases action with
  | work worker choice =>
      obtain ⟨current, write, pc, stepped, rfl⟩ := step_work moved
      rcases SharedStores.entries_write member with old | ⟨own, rfl, same⟩ | rfl
      · exact before.listed id old
      · rcases WorkerPc.step_write stepped with made | made
        · cases made
        · exact (WorkerPc.call_ne_enqueue made.symm).elim
      · rcases WorkerPc.step_write stepped with made | made
        · cases made
        · exact before.passes worker id (WorkerPc.mem_ids_of_call_requeue made.symm)
  | serve request choice =>
      obtain ⟨current, write, pc, stepped, rfl⟩ := step_serve moved
      rcases SharedStores.entries_write member with old | ⟨own, rfl, same⟩ | rfl
      · exact before.listed id old
      · rcases RequestPc.step_write stepped with made | made
        · cases made
        · cases at_ : (cluster.requests request).pc <;> rw [at_] at made <;> cases made
          obtain rfl := UUID.str_injective same
          exact before.inserted request _ (by rw [at_]; rfl)
      · rcases RequestPc.step_write stepped with made | made
        · cases made
        · exact (RequestPc.call_ne_requeue made.symm).elim
  | start worker => obtain ⟨_, rfl⟩ := step_start moved; exact before.listed id member
  | arrive request call => obtain rfl := step_arrive moved; exact before.listed id member
  | tick duration | setModels models | crash worker | drop request =>
      cases moved
      exact before.listed id member

theorem passes_step {action : Action n m} (before : Accounted cluster)
    (moved : step config cluster action = some next) :
    ∀ worker, ∀ id ∈ (next.workers worker).pc.ids,
      ∃ row, next.stores.jobs.lookup id = some row := by
  refine step_workers
    (fun stores pc => ∀ id ∈ pc.ids, ∃ row, stores.jobs.lookup id = some row) moved
    before.passes (fun worker old id member => found_step moved (old id member))
    (fun _ member => by cases member) (fun _ member => by cases member) ?_
  intro worker choice write pc' _ _ stepped _ id member
  rcases WorkerPc.ids_step stepped member with old | found
  · exact found_step moved (before.passes worker id old)
  · exact found_step moved found

theorem lookup_cancel {table : JobTable} {now : Time} {id : UUID} {job : Job}
    (done : (JobStore.update table now id cancelFields).1 = .ok job) :
    job.id = id ∧ ∃ row, (JobStore.update table now id cancelFields).2.lookup id = some row ∧
      row.status.terminal = true := by
  cases found : table.lookup id with
  | none => simp [JobStore.update, found] at done
  | some row =>
      cases valid : validateTransition row.status .cancelled with
      | error error => simp [JobStore.update, found, cancelFields, valid] at done
      | ok _ =>
          simp only [JobStore.update, found, cancelFields, valid, Except.ok.injEq] at done ⊢
          subst done
          exact ⟨rfl, _, AList.lookup_insert _, rfl⟩

theorem cancelled_step {action : Action n m} (before : Accounted cluster)
    (moved : step config cluster action = some next) :
    ∀ request job, (next.requests request).pc = .dequeue job →
      ∃ row, next.stores.jobs.lookup job.id = some row ∧ row.status.terminal = true := by
  refine step_requests (fun stores pc => ∀ job, pc = .dequeue job →
    ∃ row, stores.jobs.lookup job.id = some row ∧ row.status.terminal = true) moved
    before.cancelled ?_ (fun _ => nofun) ?_ ?_
  · intro request old job at_
    obtain ⟨row, found, finished⟩ := old job at_
    obtain ⟨row', found', change⟩ := step_row moved found
    exact ⟨row', found', by rw [change.eq_of_terminal finished]; exact finished⟩
  · intro call job at_
    cases call with
    | createJob body | updateJob target body =>
        simp only [RequestPc.start] at at_
        split at at_ <;> cases at_
    | getJob target => cases at_
  · intro request choice write pc' _ _ stepped stores job at_
    subst at_
    cases from_ : (cluster.requests request).pc with
    | update target =>
        rw [from_] at stepped
        rcases attempt_eq (Option.some.inj stepped) with
          ⟨_, rfl, same⟩ | ⟨_, _, same⟩ | ⟨_, _, same⟩
        · cases done : (JobStore.update cluster.stores.jobs choice.now target cancelFields).1 with
          | error error =>
              rw [done] at same
              cases same
          | ok committed =>
              rw [done] at same
              cases same
              obtain ⟨rfl, row, found, finished⟩ := lookup_cancel done
              rw [stores]
              exact ⟨row, found, finished⟩
        · cases same
        · cases same
    | create body =>
        rw [from_] at stepped
        obtain ⟨_, called⟩ := Option.ite_none_right_eq_some.mp stepped
        rcases attempt_eq (Option.some.inj called) with
          ⟨_, _, same⟩ | ⟨_, _, same⟩ | ⟨_, _, same⟩ <;> cases same
    | getByID target =>
        rw [from_] at stepped
        rcases attempt_eq (Option.some.inj stepped) with
          ⟨_, _, same⟩ | ⟨_, _, same⟩ | ⟨_, _, same⟩
        · unfold RequestPc.afterGetByID at same
          split at same
          case h_1 => cases same
          case h_2 => split at same <;> cases same
        all_goals cases same
    | idle | answered response =>
        rw [from_] at stepped
        cases stepped
    | _ =>
        rw [from_] at stepped
        rcases attempt_eq (Option.some.inj stepped) with
          ⟨_, _, same⟩ | ⟨_, _, same⟩ | ⟨_, _, same⟩ <;> cases same

theorem accounted_step {action : Action n m} (before : Accounted cluster)
    (clean : EndsCleanly config cluster action)
    (moved : step config cluster action = some next) : Accounted next where
  held _ stranded := held_step before clean moved stranded
  listed _ member := listed_step before moved member
  passes := passes_step before moved
  inserted := inserted_step before.inserted moved
  cancelled := cancelled_step before moved

theorem runs_accounted {clock : Time} {models : List ModelRow}
    (run : Runs (step config) (EndsCleanly config) (initial clock models) cluster) :
    Accounted cluster :=
  runs_invariant Accounted (fun _ _ _ before clean moved => accounted_step before clean moved)
    (accounted_initial clock models) run

/-- While no worker process ends with a job in its hands that this leaves
stranded, one reconcile pass that runs alone after all workers have died comes
to an end, and then every unfinished job that nobody has touched for longer than
both timeouts is queued in Postgres and in `jobs:queue`. -/
theorem no_job_stranded {clock : Time} {models : List ModelRow}
    (run : Runs (step config) (EndsCleanly config) (initial clock models) cluster)
    (dead : ∀ worker, (cluster.workers worker).pc = .dead) {worker : Fin n}
    {started : Cluster n m} (begun : step config cluster (.start worker) = some started) :
    (∀ between pc, Runs (step config) (Alone worker) started between →
        (between.workers worker).pc = .reconciling pc → Finishes config between worker) ∧
      ∀ finished lastReconcile, Runs (step config) (Alone worker) started finished →
        (finished.workers worker).pc = .claiming lastReconcile →
        ∀ id row, cluster.stores.jobs.lookup id = some row → row.status.terminal = false →
          cluster.stores.Untouched config row → finished.stores.Settled id := by
  obtain ⟨finishes, recovers⟩ := reconcile_recovers_iff begun
  refine ⟨finishes, ?_⟩
  intro finished lastReconcile pass ends id row found open_ untouched
  refine (recovers finished lastReconcile pass ends id row found open_ untouched).mpr ?_
  intro stranded
  obtain ⟨custodian, holds⟩ := (runs_accounted run).held id stranded
  rw [dead custodian] at holds
  cases holds

/-- A worker has died thirty seconds ago while it executed job seven. -/
def diedExecuting (worker : Fin n) (request : Fin m) : List (Action n m) :=
  createSeven request ++ .start worker :: calls worker 0 7 ++ [.crash worker, .tick 30000000]

def abandonedPass (worker : Fin n) : List (Action n m) :=
  .work worker { callAt 30 with order := [jobSeven] } :: calls worker 30 4

def sevenWaits (config : Config) (cluster : Cluster n m) : Bool :=
  (cluster.stores.jobs.lookup jobSeven).any fun row =>
    decide (row.status.terminal = false ∧ cluster.stores.Untouched config row)

def passEnded (cluster : Cluster n m) (worker : Fin n) : Bool :=
  match (cluster.workers worker).pc with
  | .claiming _ => true
  | _ => false

theorem claiming_of_passEnded {worker : Fin n} (ended : passEnded cluster worker = true) :
    ∃ lastReconcile, (cluster.workers worker).pc = .claiming lastReconcile := by
  unfold passEnded at ended
  split at ended
  case h_1 lastReconcile at_ => exact ⟨lastReconcile, at_⟩
  case h_2 => cases ended

theorem no_job_stranded_diedExecuting :
    ∃ finished : Cluster 1 1, finished.stores.Settled jobSeven := by
  have replays : (replay (step shortConfig) (EndsCleanly shortConfig) (initial 0 sevenModels)
      (diedExecuting (0 : Fin 1) (0 : Fin 1))).any (fun cluster =>
        decide (∀ worker, (cluster.workers worker).pc = .dead) &&
          (sevenWaits shortConfig cluster &&
            (step shortConfig cluster (.start 0)).any fun started =>
              (replay (step shortConfig) (Alone 0) started (abandonedPass 0)).any fun finished =>
                passEnded finished 0)) = true := by
    decide +kernel
  obtain ⟨cluster, run, reached⟩ := exists_runs_of_replay replays
  obtain ⟨dead, reached⟩ := Bool.and_eq_true_iff.mp reached
  obtain ⟨waits, reached⟩ := Bool.and_eq_true_iff.mp reached
  obtain ⟨row, found, waits⟩ := (Option.any_eq_true _ _).mp waits
  obtain ⟨open_, untouched⟩ := of_decide_eq_true waits
  obtain ⟨started, begun, reached⟩ := (Option.any_eq_true _ _).mp reached
  obtain ⟨finished, pass, ended⟩ := exists_runs_of_replay reached
  obtain ⟨lastReconcile, ends⟩ := claiming_of_passEnded ended
  exact ⟨finished, (no_job_stranded run (of_decide_eq_true dead) begun).2 finished lastReconcile
    pass ends jobSeven row found open_ untouched⟩

/-- A worker has died thirty seconds ago between `BRPOPLPUSH` and
`mark_running`. -/
def diedClaiming (worker : Fin n) (request : Fin m) : List (Action n m) :=
  createSeven request ++ .start worker :: calls worker 0 3 ++ [.crash worker, .tick 30000000]

/-- The pass of a fresh worker that finds job seven queued and in flight. -/
def orphanPass (worker : Fin n) : List (Action n m) :=
  .work worker (callAt 30) :: .work worker { callAt 30 with order := [jobSeven] } ::
    calls worker 30 3

/-- A pass that runs alone leaves job seven queued in Postgres and absent from
`jobs:queue`. -/
theorem job_stranded :
    ∃ (cluster started finished : Cluster 1 1) (row : JobRow) (lastReconcile : Time),
      Runs (step shortConfig) Any (initial 0 sevenModels) cluster ∧
        (∀ worker, (cluster.workers worker).pc = .dead) ∧
        cluster.stores.jobs.lookup jobSeven = some row ∧ row.status.terminal = false ∧
        cluster.stores.Untouched shortConfig row ∧
        step shortConfig cluster (.start 0) = some started ∧
        Runs (step shortConfig) (Alone 0) started finished ∧
        (finished.workers 0).pc = .claiming lastReconcile ∧
        finished.stores.HasStatus jobSeven .queued ∧ finished.stores.queue = [] := by
  have replays : (replay (step shortConfig) Any (initial 0 sevenModels)
      (diedClaiming (0 : Fin 1) (0 : Fin 1))).any
      (fun cluster =>
        decide (∀ worker, (cluster.workers worker).pc = .dead) &&
          (sevenWaits shortConfig cluster &&
            (step shortConfig cluster (.start 0)).any fun started =>
              (replay (step shortConfig) (Alone 0) started (orphanPass 0)).any fun finished =>
                passEnded finished 0 &&
                  decide (finished.stores.HasStatus jobSeven .queued ∧
                    finished.stores.queue = []))) = true := by
    decide +kernel
  obtain ⟨cluster, run, reached⟩ := exists_runs_of_replay replays
  obtain ⟨dead, reached⟩ := Bool.and_eq_true_iff.mp reached
  obtain ⟨waits, reached⟩ := Bool.and_eq_true_iff.mp reached
  obtain ⟨row, found, waits⟩ := (Option.any_eq_true _ _).mp waits
  obtain ⟨open_, untouched⟩ := of_decide_eq_true waits
  obtain ⟨started, begun, reached⟩ := (Option.any_eq_true _ _).mp reached
  obtain ⟨finished, pass, reached⟩ := exists_runs_of_replay reached
  obtain ⟨ended, lost⟩ := Bool.and_eq_true_iff.mp reached
  obtain ⟨lastReconcile, ends⟩ := claiming_of_passEnded ended
  obtain ⟨queued, empty⟩ := of_decide_eq_true lost
  exact ⟨cluster, started, finished, row, lastReconcile, run, of_decide_eq_true dead, found,
    open_, untouched, begun, pass, ends, queued, empty⟩

end Cluster

end Crucible
