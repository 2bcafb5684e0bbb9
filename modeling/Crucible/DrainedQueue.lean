import Crucible.CrashWindows

/-!
# A worker that works alone

A worker process whose calls succeed and that nothing disturbs comes to a state
in which `jobs:queue` is empty.  Then every job that was in the queue is
finished, and so is every other old one, except for those that were stranded.
-/

namespace Crucible

open LabelledRuns

def SharedStores.Finished (stores : SharedStores) (id : UUID) : Prop :=
  ∃ row, stores.jobs.lookup id = some row ∧ row.status.terminal = true

instance (stores : SharedStores) (id : UUID) : Decidable (stores.Finished id) :=
  decidable_of_iff ((stores.jobs.lookup id).any fun row => row.status.terminal)
    (by simp [SharedStores.Finished, Option.any_eq_true])

theorem SharedStores.write_claim {stores : SharedStores} {queue : List String} {rawJobId : String}
    (split : stores.queue = queue ++ [rawJobId]) :
    stores.write .claim =
      { stores with queue := queue, processing := rawJobId :: stores.processing } := by
  simp [write, RedisLists.brpoplpush, RedisLists.lpush, split]

/-! ## A claimed job -/

namespace ProcessorPc

variable {rawJobId : String} {stores : SharedStores} {choice : Choice} {pc : ProcessorPc}
  {write : Write} {next : Next ProcessorPc Unit} {id : UUID}

/-- This invocation of `process` has the job in its hands and has not finished it. -/
def Handles (stores : SharedStores) (id : UUID) (pc : ProcessorPc) : Prop :=
  pc.jobId = some id ∧
    match pc.phase with
    | .claimed => ∃ row, stores.jobs.lookup id = some row
    | .active => stores.HasStatus id .running
    | .settled => False

theorem step_sound (sound : choice.fault = .none)
    (stepped : pc.step rawJobId stores choice = some (write, next)) :
    (∃ pc', next = .goto pc') ∨ next = .returned () := by
  cases pc with
  | getModelMeta job =>
      obtain ⟨_, called⟩ := Option.ite_none_right_eq_some.mp stepped
      exact .inl ⟨_, (attempt_sound sound (Option.some.inj called)).2⟩
  | executing job model pc => exact .inl ⟨_, (step_executing stepped).2⟩
  | ack => exact .inr (attempt_sound sound (Option.some.inj stepped)).2
  | _ => exact .inl ⟨_, (attempt_sound sound (Option.some.inj stepped)).2⟩

theorem hasStatus_executes {status : JobStatus} (executes : write.Executes)
    (has : stores.HasStatus id status) : (stores.write write).HasStatus id status := by
  obtain ⟨row, found, rfl⟩ := has
  cases write with
  | execute now own update =>
      cases update with
      | heartbeat =>
          obtain rfl | other := eq_or_ne id own
          · refine ⟨RepositoryUpdate.heartbeat.onRow now row, ?_, ?_⟩
            · rw [SharedStores.write, JobTable.lookup_execute, if_pos rfl, found, Option.map_some]
            · unfold RepositoryUpdate.onRow
              split <;> rfl
          · exact ⟨row, by rwa [SharedStores.write, JobTable.lookup_execute, if_neg other], rfl⟩
      | _ => cases executes
  | nothing | trained own output | uploadFile key content => exact ⟨row, found, rfl⟩
  | publish now own status terminal => exact ⟨row, found, rfl⟩
  | _ => cases executes

theorem lookup_call (pc : ProcessorPc) (other : pc.jobId ≠ some id) :
    (stores.write (pc.call rawJobId choice)).jobs.lookup id = stores.jobs.lookup id := by
  have executes (own : UUID) (update : RepositoryUpdate) (distinct : some own ≠ some id) :
      (stores.write (.execute choice.now own update)).jobs.lookup id =
        stores.jobs.lookup id := by
    rw [SharedStores.write, JobTable.lookup_execute, if_neg fun same => distinct (by rw [same])]
  cases pc with
  | markRunning job | markCompleted job path | markFailed own message => exact executes _ _ other
  | executing job model pc =>
      cases pc with
      | heartbeat site => exact executes _ _ other
      | train =>
          simp only [call, ExecutorPc.call]
          split <;> rfl
      | upload output todo => cases todo <;> rfl
      | _ => rfl
  | _ => rfl

/-- An update whose guard a row meets is made. -/
theorem lookup_execute_self {row : JobRow} {now : Time} {update : RepositoryUpdate}
    (found : stores.jobs.lookup id = some row) (matched : row.status = update.guard) :
    (stores.write (.execute now id update)).jobs.lookup id = some (update.set now row) := by
  rw [SharedStores.write, JobTable.lookup_execute, if_pos rfl, found, Option.map_some,
    RepositoryUpdate.onRow, if_pos matched]

theorem markRunning_runs (now : Time) {row : JobRow} (found : stores.jobs.lookup id = some row) :
    (stores.write (.execute now id .markRunning)).Finished id ∨
      (stores.write (.execute now id .markRunning)).HasStatus id .running := by
  by_cases matched : row.status = RepositoryUpdate.markRunning.guard
  · exact .inr ⟨_, lookup_execute_self found matched, rfl⟩
  · have same : (stores.write (.execute now id .markRunning)).jobs.lookup id = some row := by
      rw [SharedStores.write, JobTable.lookup_execute, if_pos rfl, found, Option.map_some,
        RepositoryUpdate.onRow, if_neg matched]
    cases status : row.status with
    | queued => exact absurd status matched
    | running => exact .inr ⟨row, same, status⟩
    | completed | failed | cancelled => exact .inl ⟨row, same, by rw [status]; rfl⟩

/-- A call that succeeds finishes the job, or leaves it in hand. -/
theorem handles_step (sound : choice.fault = .none)
    (stepped : pc.step rawJobId stores choice = some (write, next))
    (handles : pc.Handles stores id) :
    (stores.write write).Finished id ∨
      ∃ pc', next = .goto pc' ∧ pc'.Handles (stores.write write) id := by
  obtain ⟨own, held⟩ := handles
  cases pc with
  | getJob own_ =>
      obtain ⟨rfl, rfl⟩ := attempt_sound sound (Option.some.inj stepped)
      cases own
      obtain ⟨row, found⟩ := held
      by_cases finished : row.status.terminal = true
      · exact .inl ⟨row, found, finished⟩
      · have continues : afterGetJob (stores.jobs.getJob id) =
            .markRunning { row with id := id } := by
          simp [afterGetJob, JobTable.getJob, found, finished]
        exact .inr ⟨_, rfl, by rw [continues]; exact ⟨rfl, row, found⟩⟩
  | markRunning job =>
      obtain ⟨rfl, rfl⟩ := attempt_sound sound (Option.some.inj stepped)
      cases own
      obtain ⟨row, found⟩ := held
      exact (markRunning_runs choice.now found).imp_right fun runs => ⟨_, rfl, rfl, runs⟩
  | publishRunning job =>
      obtain ⟨rfl, rfl⟩ := attempt_sound sound (Option.some.inj stepped)
      refine .inr ⟨_, rfl, ?_⟩
      unfold afterPublishRunning
      split <;> exact ⟨own, held⟩
  | getModelMeta job =>
      obtain ⟨_, called⟩ := Option.ite_none_right_eq_some.mp stepped
      obtain ⟨rfl, rfl⟩ := attempt_sound sound (Option.some.inj called)
      refine .inr ⟨_, rfl, ?_⟩
      unfold afterGetModelMeta
      split
      · exact ⟨own, held⟩
      · split <;> exact ⟨own, held⟩
  | executing job model pc =>
      obtain ⟨rfl, rfl⟩ := step_executing stepped
      have executes : (pc.step job choice).1.Executes := by
        rcases pc.step_write job choice with made | made <;> rw [made]
        · trivial
        · exact pc.executes_call job choice
      refine .inr ⟨_, rfl, ?_⟩
      have runs := hasStatus_executes executes held
      cases (pc.step job choice).2 <;> exact ⟨own, runs⟩
  | markCompleted job checkpointPath =>
      obtain ⟨rfl, rfl⟩ := attempt_sound sound (Option.some.inj stepped)
      cases own
      obtain ⟨row, found, runs⟩ := held
      exact .inl ⟨_, lookup_execute_self found runs, rfl⟩
  | markFailed own_ message =>
      obtain ⟨rfl, rfl⟩ := attempt_sound sound (Option.some.inj stepped)
      cases own
      obtain ⟨row, found, runs⟩ := held
      exact .inl ⟨_, lookup_execute_self found runs, rfl⟩
  | publishCompleted job | publishFailed own_ | ack => exact held.elim

end ProcessorPc

/-! ## A job on its way -/

theorem ReconcilerPc.step_sound {config : Config} {stores : SharedStores} {choice : Choice}
    {pc : ReconcilerPc} {write : Write} {next : Next ReconcilerPc Unit}
    (sound : choice.fault = .none)
    (stepped : pc.step config stores choice = some (write, next)) :
    (∃ pc', next = .goto pc') ∨ next = .returned () := by
  have orphan (live : List String) (rest : List UUID) :
      (∃ pc', nextOrphan live rest = .goto pc') ∨ nextOrphan live rest = .returned () := by
    cases rest with
    | nil => exact .inr rfl
    | cons own rest => exact .inl ⟨_, rfl⟩
  cases pc with
  | findStaleRunning =>
      obtain ⟨_, called⟩ := Option.ite_none_right_eq_some.mp stepped
      exact .inl ⟨_, (attempt_sound sound (Option.some.inj called)).2⟩
  | findOrphanQueued =>
      obtain ⟨_, called⟩ := Option.ite_none_right_eq_some.mp stepped
      obtain ⟨_, rfl⟩ := attempt_sound sound (Option.some.inj called)
      split
      · exact .inr rfl
      · exact .inl ⟨_, rfl⟩
  | inFlightIds candidates queued =>
      obtain ⟨_, rfl⟩ := attempt_sound sound (Option.some.inj stepped)
      exact orphan _ candidates
  | requeueOrphan own rest live =>
      simp only [step] at stepped
      split at stepped
      case isTrue =>
        cases stepped
        exact orphan live rest
      case isFalse =>
        obtain ⟨_, rfl⟩ := attempt_sound sound (Option.some.inj stepped)
        exact orphan live rest
  | _ => exact .inl ⟨_, (attempt_sound sound (Option.some.inj stepped)).2⟩

/-- A pass will recover an old job, unless it is stranded. -/
theorem ReconcilerPc.recovers_of_untouched {config : Config} {stores : SharedStores} {id : UUID}
    {row : JobRow} (found : stores.jobs.lookup id = some row)
    (open_ : row.status.terminal = false) (untouched : stores.Untouched config row)
    (safe : ¬ stores.Stranded id) :
    Recovers config stores.clock stores id .findStaleRunning := by
  cases status : row.status with
  | running => exact .inr (.inl ⟨row, found, status, untouched.heartbeat⟩)
  | queued =>
      by_cases pushed : id.str ∈ stores.queue
      · exact .inl ⟨⟨row, found, status⟩, pushed⟩
      · have absent : id.str ∉ stores.processing := fun inFlight =>
          safe ⟨⟨row, found, status⟩, inFlight, pushed⟩
        exact .inr (.inr ⟨⟨row, found, status, untouched.createdAt, untouched.updatedAt⟩, absent⟩)
  | completed | failed | cancelled => simp [status, JobStatus.terminal] at open_

namespace WorkerPc

variable {config : Config} {stores : SharedStores} {choice : Choice} {pc pc' : WorkerPc}
  {write : Write} {id : UUID} {start : Time}

/-- A worker that goes on undisturbed will come to the job. -/
def Serves (config : Config) (start : Time) (stores : SharedStores) (id : UUID) :
    WorkerPc → Prop
  | .reconciling pc => id.str ∈ stores.queue ∨ pc.Recovers config start stores id
  | .claiming _ | .checking _ => id.str ∈ stores.queue
  | .processing _ _ _ pc => id.str ∈ stores.queue ∨ pc.Handles stores id
  | .dead => False

/-- The worker will not touch a stranded job. -/
def Avoids (id : UUID) : WorkerPc → Prop
  | .reconciling pc => pc.Skips id
  | .processing _ rawJobId _ _ => rawJobId ≠ id.str
  | .claiming _ | .checking _ | .dead => True

/-- A call that succeeds finishes the job, or keeps it on its way. -/
theorem serves_step (current : start ≤ choice.now) (sound : choice.fault = .none)
    (stepped : pc.step config stores choice = some (write, pc'))
    (known : ∃ row, stores.jobs.lookup id = some row)
    (serves : pc.Serves config start stores id) :
    (stores.write write).Finished id ∨ pc'.Serves config start (stores.write write) id := by
  cases pc with
  | reconciling pc =>
      obtain ⟨next, inner, rfl⟩ := step_reconciling stepped
      refine .inr ?_
      rcases serves with queued | recovers
      · have kept : id.str ∈ (stores.write write).queue := by
          rcases ReconcilerPc.step_write inner with rfl | rfl
          · exact queued
          · exact ReconcilerPc.queue_call pc queued
        obtain ⟨pc', rfl⟩ | rfl := ReconcilerPc.step_sound sound inner
        · exact .inl kept
        · exact kept
      · have after := ReconcilerPc.recovers_step current sound inner recovers
        cases next with
        | goto pc' => exact .inr after
        | returned result => exact after.2
        | raised message => exact after.elim
  | claiming lastReconcile =>
      simp only [step] at stepped
      split at stepped
      case h_1 empty =>
        have none : stores.queue = [] := List.getLast?_eq_none_iff.mp empty
        change id.str ∈ stores.queue at serves
        rw [none] at serves
        cases serves
      case h_2 raw last =>
        obtain ⟨rfl, rfl⟩ := attempt_sound sound (Option.some.inj stepped)
        obtain ⟨initial, split⟩ := List.getLast?_eq_some_iff.mp last
        rw [SharedStores.write_claim split]
        refine .inr ?_
        by_cases same : raw = id.str
        · refine .inr ?_
          rw [ProcessorPc.jobId_start same]
          exact ⟨rfl, known⟩
        · refine .inl ?_
          have member : id.str ∈ initial ++ [raw] := split ▸ serves
          exact (List.mem_append.mp member).resolve_right fun last =>
            same (List.mem_singleton.mp last).symm
  | processing lastReconcile rawJobId marked pc =>
      obtain ⟨next, inner, rfl⟩ := step_processing stepped
      have queued : id.str ∈ stores.queue → id.str ∈ (stores.write write).queue := by
        intro member
        obtain ⟨pc', rfl⟩ | rfl := ProcessorPc.step_sound sound inner
        · rwa [SharedStores.queue_write (ProcessorPc.step_goto inner).lists]
        · obtain ⟨_, rfl⟩ := ProcessorPc.step_returned inner
          exact member
      rcases serves with member | handles
      · refine .inr ?_
        obtain ⟨pc', rfl⟩ | rfl := ProcessorPc.step_sound sound inner
        · exact .inl (queued member)
        · exact queued member
      · rcases ProcessorPc.handles_step sound inner handles with finished | ⟨pc', rfl, handles'⟩
        · exact .inl finished
        · exact .inr (.inr handles')
  | checking lastReconcile =>
      refine .inr ?_
      simp only [step] at stepped
      split at stepped <;> cases stepped
      · exact .inl serves
      · exact serves
  | dead => cases stepped

theorem alive_step (sound : choice.fault = .none)
    (stepped : pc.step config stores choice = some (write, pc')) : pc' ≠ .dead := by
  cases pc with
  | reconciling pc =>
      obtain ⟨next, inner, rfl⟩ := step_reconciling stepped
      obtain ⟨pc', rfl⟩ | rfl := ReconcilerPc.step_sound sound inner <;>
        simp [afterReconciler]
  | claiming lastReconcile =>
      simp only [step] at stepped
      split at stepped <;>
        · rw [(attempt_sound sound (Option.some.inj stepped)).2]
          simp
  | processing lastReconcile rawJobId marked pc =>
      obtain ⟨next, inner, rfl⟩ := step_processing stepped
      obtain ⟨pc', rfl⟩ | rfl := ProcessorPc.step_sound sound inner <;>
        simp [afterProcessor]
  | checking lastReconcile =>
      simp only [step] at stepped
      split at stepped <;> cases stepped <;> simp
  | dead => cases stepped

theorem avoids_step (stepped : pc.step config stores choice = some (write, pc'))
    (named : pc.Named) (stranded : stores.Stranded id) (avoids : pc.Avoids id) :
    (stores.write write).Stranded id ∧ pc'.Avoids id := by
  cases pc with
  | reconciling pc =>
      obtain ⟨next, inner, rfl⟩ := step_reconciling stepped
      obtain ⟨kept, skips⟩ := ReconcilerPc.stranded_step inner stranded avoids
      refine ⟨kept, ?_⟩
      cases next <;> exact skips
  | claiming lastReconcile =>
      obtain ⟨queued, inFlight, unqueued⟩ := stranded
      simp only [step] at stepped
      split at stepped
      case h_1 =>
        rcases attempt_eq (Option.some.inj stepped) with
          ⟨_, rfl, rfl⟩ | ⟨_, rfl, rfl⟩ | ⟨_, rfl, rfl⟩ <;>
            exact ⟨⟨queued, inFlight, unqueued⟩, trivial⟩
      case h_2 raw last =>
        have claimed : (stores.write .claim).Stranded id := by
          obtain ⟨initial, split⟩ := List.getLast?_eq_some_iff.mp last
          rw [split] at unqueued
          rw [SharedStores.write_claim split]
          exact ⟨queued, List.mem_cons_of_mem raw inFlight,
            fun member => unqueued (List.mem_append_left _ member)⟩
        have other : raw ≠ id.str := by
          rintro rfl
          exact unqueued (List.mem_of_getLast? last)
        rcases attempt_eq (Option.some.inj stepped) with
          ⟨_, rfl, rfl⟩ | ⟨_, rfl, rfl⟩ | ⟨_, rfl, rfl⟩
        · exact ⟨claimed, other⟩
        · exact ⟨⟨queued, inFlight, unqueued⟩, trivial⟩
        · exact ⟨claimed, trivial⟩
  | processing lastReconcile rawJobId marked pc =>
      obtain ⟨next, inner, rfl⟩ := step_processing stepped
      obtain ⟨own, rfl, about⟩ := named
      have other : pc.jobId ≠ some id := fun same => avoids (by rw [about id same])
      have row : (stores.write write).jobs.lookup id = stores.jobs.lookup id := by
        rcases ProcessorPc.step_write inner with rfl | rfl
        · rfl
        · exact pc.lookup_call other
      have queued : (stores.write write).HasStatus id .queued := by
        obtain ⟨found, is, status⟩ := stranded.1
        exact ⟨found, row.trans is, status⟩
      have kept : write.KeepsLists → (stores.write write).Stranded id := fun keeps =>
        ⟨queued, by rw [SharedStores.processing_write keeps]; exact stranded.2.1,
          by rw [SharedStores.queue_write keeps]; exact stranded.2.2⟩
      have acked : (stores.write (.ack own.str)).jobs.lookup id = stores.jobs.lookup id →
          (stores.write (.ack own.str)).Stranded id := fun _ =>
        ⟨stranded.1, RedisLists.mem_lrem.mpr ⟨stranded.2.1, Ne.symm avoids⟩, stranded.2.2⟩
      cases next with
      | goto pc' => exact ⟨kept (ProcessorPc.step_goto inner).lists, avoids⟩
      | returned result =>
          obtain ⟨_, rfl⟩ := ProcessorPc.step_returned inner
          exact ⟨acked row, trivial⟩
      | raised message =>
          rcases ProcessorPc.step_raised inner with ordinary | ⟨_, rfl⟩
          · exact ⟨kept ordinary.1, trivial⟩
          · exact ⟨acked row, trivial⟩
  | checking lastReconcile =>
      simp only [step] at stepped
      split at stepped <;> cases stepped <;> exact ⟨stranded, trivial⟩
  | dead => cases stepped

end WorkerPc

namespace Cluster

variable {n m : Nat} {config : Config} {cluster next : Cluster n m} {worker : Fin n}

/-- Steps of a run in which only one worker acts, and none of its calls fails.
The training runs that it starts may fail. -/
def Undisturbed (worker : Fin n) (_ : Cluster n m) : Action n m → Prop
  | .tick _ => True
  | .work mover choice => mover = worker ∧ choice.fault = .none
  | _ => False

instance (worker : Fin n) (cluster : Cluster n m) (action : Action n m) :
    Decidable (Undisturbed worker cluster action) :=
  match action with
  | .tick _ => isTrue trivial
  | .work _ _ => inferInstanceAs (Decidable (_ ∧ _))
  | .setModels _ | .start _ | .crash _ | .arrive _ _ | .serve _ _ | .drop _ => isFalse id

def Idle (worker : Fin n) (cluster : Cluster n m) : Prop :=
  (∃ lastReconcile, (cluster.workers worker).pc = .claiming lastReconcile) ∧
    cluster.stores.queue = []

/-- A step of such a run lets time pass or is a call of the worker. -/
theorem undisturbed_cases {action : Action n m} (allowed : Undisturbed worker cluster action)
    (moved : step config cluster action = some next) :
    (∃ duration : Nat, next = { cluster with
        stores := { cluster.stores with clock := cluster.stores.clock + duration } }) ∨
      ∃ choice write pc, choice.fault = .none ∧
        Current (cluster.workers worker).since choice.now cluster.stores.clock ∧
        (cluster.workers worker).pc.step config cluster.stores choice = some (write, pc) ∧
        next = cluster.putWorker worker write pc := by
  cases action with
  | tick duration => exact .inl ⟨duration, (Option.some.inj moved).symm⟩
  | work mover choice =>
      obtain ⟨rfl, sound⟩ := allowed
      obtain ⟨current, write, pc, stepped, rfl⟩ := step_work moved
      exact .inr ⟨choice, write, pc, sound, current, stepped, rfl⟩
  | setModels models | start mover | crash mover | arrive request call
  | serve request choice | drop request => exact allowed.elim

/-! ## Which jobs are finished then -/

/-- Since a given time the worker has been at work, and it finishes the job. -/
structure Served (config : Config) (start : Time) (worker : Fin n) (id : UUID)
    (cluster : Cluster n m) : Prop where
  begun : start ≤ (cluster.workers worker).since
  reached : (cluster.workers worker).since ≤ cluster.stores.clock
  known : ∃ row, cluster.stores.jobs.lookup id = some row
  course : cluster.stores.Finished id ∨
    (cluster.workers worker).pc.Serves config start cluster.stores id

theorem served_step {start : Time} {id : UUID} {action : Action n m}
    (held : Served config start worker id cluster) (allowed : Undisturbed worker cluster action)
    (moved : step config cluster action = some next) : Served config start worker id next := by
  obtain ⟨begun, reached, ⟨row, found⟩, course⟩ := held
  obtain ⟨row', found', change⟩ := step_row moved found
  have finished (before : cluster.stores.Finished id) : next.stores.Finished id := by
    obtain ⟨old, is, terminal⟩ := before
    obtain rfl := Option.some.inj (found.symm.trans is)
    exact ⟨row', found', by rw [change.eq_of_terminal terminal]; exact terminal⟩
  rcases undisturbed_cases allowed moved with
    ⟨duration, rfl⟩ | ⟨choice, write, pc, sound, current, stepped, rfl⟩
  · refine ⟨begun, le_trans reached (Int.le_add_of_nonneg_right (Int.natCast_nonneg _)),
      ⟨row', found'⟩, course.imp finished fun serves => ?_⟩
    revert serves
    cases (cluster.workers worker).pc with
    | reconciling pc => cases pc <;> exact fun serves => serves
    | _ => exact fun serves => serves
  · refine ⟨by simpa [putWorker] using le_trans begun reached, by simp [putWorker],
      ⟨row', found'⟩, ?_⟩
    rcases course with before | serves
    · exact .inl (finished before)
    · have after := WorkerPc.serves_step (le_trans begun current.1) sound stepped ⟨row, found⟩
        serves
      rwa [putWorker_self]

theorem Served.finished {start : Time} {id : UUID} (held : Served config start worker id cluster)
    (idle : Idle worker cluster) : cluster.stores.Finished id := by
  obtain ⟨⟨lastReconcile, at_⟩, empty⟩ := idle
  refine held.course.resolve_right fun serves => ?_
  rw [at_] at serves
  change id.str ∈ cluster.stores.queue at serves
  rw [empty] at serves
  cases serves

/-- A stranded job that the worker will not touch. -/
structure LeftOut (worker : Fin n) (id : UUID) (cluster : Cluster n m) : Prop where
  named : Named cluster
  stranded : cluster.stores.Stranded id
  avoids : (cluster.workers worker).pc.Avoids id

theorem leftOut_step {id : UUID} {action : Action n m} (held : LeftOut worker id cluster)
    (allowed : Undisturbed worker cluster action)
    (moved : step config cluster action = some next) : LeftOut worker id next := by
  have named := step_named held.named moved
  rcases undisturbed_cases allowed moved with
    ⟨duration, rfl⟩ | ⟨choice, write, pc, _, _, stepped, rfl⟩
  · exact ⟨named, held.stranded, held.avoids⟩
  · obtain ⟨stranded, avoids⟩ := WorkerPc.avoids_step stepped (held.named.held worker)
      held.stranded held.avoids
    exact ⟨named, stranded, by rwa [putWorker_self]⟩

/-! ## The queue can be emptied -/

/-- A worker is at a control point, and has not reached it in the future. -/
structure Stands (cluster : Cluster n m) (worker : Fin n) (pc : WorkerPc) : Prop where
  at_ : (cluster.workers worker).pc = pc
  reached : (cluster.workers worker).since ≤ cluster.stores.clock

/-- A worker that works alone can reach a state of some kind. -/
def Reaches (config : Config) (worker : Fin n) (cluster : Cluster n m)
    (goal : Cluster n m → Prop) : Prop :=
  ∃ later, Runs (step config) (Undisturbed worker) cluster later ∧ goal later

/-- A call now that succeeds; jobs are listed in a given order, and training
ends with an adapter. -/
def soundCall (clock : Time) (order : List UUID) : Choice :=
  { callAt 0 with now := clock, order := order, training := .finish sevenOutput }

theorem reaches_of_step {pc pc' : WorkerPc} {goal : Cluster n m → Prop} {order : List UUID}
    {write : Write} (stands : Stands cluster worker pc)
    (stepped : pc.step config cluster.stores (soundCall cluster.stores.clock order) =
      some (write, pc'))
    (rest : ∀ after : Cluster n m, after.stores = cluster.stores.write write →
      Stands after worker pc' → Reaches config worker after goal) :
    Reaches config worker cluster goal := by
  have moved : step config cluster (.work worker (soundCall cluster.stores.clock order)) =
      some (cluster.putWorker worker write pc') := by
    have current : Current (cluster.workers worker).since
        (soundCall cluster.stores.clock order).now cluster.stores.clock :=
      ⟨stands.reached, le_rfl⟩
    simp only [step, if_pos current, stands.at_, stepped, Option.map_some]
  have allowed : Undisturbed worker cluster
      (.work worker (soundCall cluster.stores.clock order)) := ⟨rfl, rfl⟩
  obtain ⟨later, run, reached⟩ := rest (cluster.putWorker worker write pc') rfl
    ⟨putWorker_self .., by simp [putWorker]⟩
  exact ⟨later, .head ⟨_, allowed, moved⟩ run, reached⟩

/-- From a control point of `process` a worker can come back to its loop in no
time, with the queue as it is. -/
def Returns (config : Config) (worker : Fin n) (m : Nat) (rawJobId : String)
    (pc : ProcessorPc) : Prop :=
  ∀ (cluster : Cluster n m) (lastReconcile : Time) (marked : Option JobStatus),
    Stands cluster worker (.processing lastReconcile rawJobId marked pc) →
      Reaches config worker cluster fun later => Stands later worker (.checking lastReconcile) ∧
        later.stores.queue = cluster.stores.queue ∧ later.stores.clock = cluster.stores.clock

section Processing

variable {rawJobId : String}

theorem returns_of_step {pc : ProcessorPc}
    (next : ∀ stores : SharedStores, ∃ write pc',
      pc.step rawJobId stores (soundCall stores.clock []) = some (write, .goto pc') ∧
        Returns config worker m rawJobId pc') : Returns config worker m rawJobId pc := by
  intro cluster lastReconcile marked stands
  obtain ⟨write, pc', stepped, returns⟩ := next cluster.stores
  have keeps := (ProcessorPc.step_goto stepped).lists
  have moved : (WorkerPc.processing lastReconcile rawJobId marked pc).step config cluster.stores
      (soundCall cluster.stores.clock []) = some (write, .processing lastReconcile rawJobId
        (WorkerPc.markedAfter marked (cluster.stores.write write) pc) pc') := by
    simp only [WorkerPc.step, stepped, Option.map_some, WorkerPc.afterProcessor]
  refine reaches_of_step stands moved fun after same stands' => ?_
  have queue : after.stores.queue = cluster.stores.queue := by
    rw [same, SharedStores.queue_write keeps]
  have clock : after.stores.clock = cluster.stores.clock := by
    rw [same, SharedStores.write_clock]
  rw [← queue, ← clock]
  exact returns after lastReconcile _ stands'

theorem returns_ack : Returns config worker m rawJobId .ack := by
  intro cluster lastReconcile marked stands
  have moved : (WorkerPc.processing lastReconcile rawJobId marked .ack).step config
      cluster.stores (soundCall cluster.stores.clock []) =
        some (.ack rawJobId, .checking lastReconcile) := rfl
  exact reaches_of_step stands moved fun after same stands' =>
    ⟨after, .refl, stands', by rw [same]; rfl, by rw [same]; rfl⟩

theorem returns_markFailed (id : UUID) (message : String) :
    Returns config worker m rawJobId (.markFailed id message) :=
  returns_of_step fun _ => ⟨_, _, rfl, returns_of_step fun _ => ⟨_, _, rfl, returns_ack⟩⟩

theorem returns_markCompleted (job : Job) (checkpointPath : String) :
    Returns config worker m rawJobId (.markCompleted job checkpointPath) :=
  returns_of_step fun _ => ⟨_, _, rfl, returns_of_step fun _ => ⟨_, _, rfl, returns_ack⟩⟩

variable (job : Job) (model : ModelMeta)

theorem returns_upload (output : Directory) (todo : List (String × Bytes)) :
    Returns config worker m rawJobId (.executing job model (.upload output todo)) := by
  induction todo with
  | nil => exact returns_of_step fun _ => ⟨_, _, rfl, returns_markCompleted job _⟩
  | cons file todo ih => exact returns_of_step fun _ => ⟨_, _, rfl, ih⟩

theorem returns_train : Returns config worker m rawJobId (.executing job model .train) :=
  returns_of_step fun _ => ⟨_, _, rfl, returns_upload job model sevenOutput _⟩

theorem returns_beat {site : BeatSite}
    (rest : Returns config worker m rawJobId (.executing job model site.next)) :
    Returns config worker m rawJobId (.executing job model (.heartbeat site)) ∧
      Returns config worker m rawJobId (.executing job model (.publishHeartbeat site)) := by
  have publishes : Returns config worker m rawJobId
      (.executing job model (.publishHeartbeat site)) :=
    returns_of_step fun _ => ⟨_, _, rfl, rest⟩
  exact ⟨returns_of_step fun _ => ⟨_, _, rfl, publishes⟩, publishes⟩

theorem returns_download : Returns config worker m rawJobId (.executing job model .download) := by
  have trains : Returns config worker m rawJobId
      (.executing job model (BeatSite.next .afterDownload)) := returns_train job model
  exact returns_of_step fun _ => ⟨_, _, rfl, (returns_beat job model trains).1⟩

theorem returns_next (site : BeatSite) :
    Returns config worker m rawJobId (.executing job model site.next) := by
  cases site with
  | afterEnsure => exact returns_download job model
  | afterDownload | training => exact returns_train job model

theorem returns_executing (pc : ExecutorPc) :
    Returns config worker m rawJobId (.executing job model pc) := by
  cases pc with
  | ensure =>
      exact returns_of_step fun _ =>
        ⟨_, _, rfl, (returns_beat job model (returns_next job model .afterEnsure)).1⟩
  | heartbeat site => exact (returns_beat job model (returns_next job model site)).1
  | publishHeartbeat site => exact (returns_beat job model (returns_next job model site)).2
  | download => exact returns_download job model
  | train => exact returns_train job model
  | upload output todo => exact returns_upload job model output todo

theorem returns_getModelMeta : Returns config worker m rawJobId (.getModelMeta job) := by
  refine returns_of_step fun stores => ?_
  have first : PickAllowed stores.models job.baseModel 0 := by
    by_cases listed : firstModelRows stores.models job.baseModel = []
    · exact .inl listed
    · exact .inr (List.length_pos_of_ne_nil listed)
  refine ⟨_, _, if_pos first, ?_⟩
  unfold ProcessorPc.afterGetModelMeta
  split
  · exact returns_markFailed job.id _
  · split
    · exact returns_markFailed job.id _
    · exact returns_executing job _ .ensure

theorem returns_publishRunning : Returns config worker m rawJobId (.publishRunning job) := by
  refine returns_of_step fun stores => ⟨_, _, rfl, ?_⟩
  unfold ProcessorPc.afterPublishRunning
  split
  · exact returns_markFailed job.id _
  · exact returns_getModelMeta job

/-- From every control point of `process` a worker can come back to its loop. -/
theorem returns (pc : ProcessorPc) : Returns config worker m rawJobId pc := by
  have marks (job : Job) : Returns config worker m rawJobId (.markRunning job) :=
    returns_of_step fun _ => ⟨_, _, rfl, returns_publishRunning job⟩
  cases pc with
  | getJob id =>
      refine returns_of_step fun stores => ⟨_, _, rfl, ?_⟩
      unfold ProcessorPc.afterGetJob
      split
      · exact returns_ack
      · split
        · exact returns_ack
        · exact marks _
  | markRunning job => exact marks job
  | publishRunning job => exact returns_publishRunning job
  | getModelMeta job => exact returns_getModelMeta job
  | executing job model pc => exact returns_executing job model pc
  | markCompleted job checkpointPath => exact returns_markCompleted job checkpointPath
  | publishCompleted job => exact returns_of_step fun _ => ⟨_, _, rfl, returns_ack⟩
  | markFailed id message => exact returns_markFailed id message
  | publishFailed id => exact returns_of_step fun _ => ⟨_, _, rfl, returns_ack⟩
  | ack => exact returns_ack

end Processing

/-- From a control point of a pass a worker can come to a claim in no time, and
the interval counts from then on. -/
def Passes (config : Config) (worker : Fin n) (m : Nat) (pc : ReconcilerPc) : Prop :=
  ∀ cluster : Cluster n m, Stands cluster worker (.reconciling pc) →
    Reaches config worker cluster fun later =>
      Stands later worker (.claiming later.stores.clock)

/-- What has to hold after a call of a pass. -/
def PassesNext (config : Config) (worker : Fin n) (m : Nat) : Next ReconcilerPc Unit → Prop
  | .goto pc => Passes config worker m pc
  | .returned () => True
  | .raised _ => False

section Reconciling

theorem passes_of_step {pc : ReconcilerPc}
    (next : ∀ stores : SharedStores, ∃ order write result,
      pc.step config stores (soundCall stores.clock order) = some (write, result) ∧
        PassesNext config worker m result) : Passes config worker m pc := by
  intro cluster stands
  obtain ⟨order, write, result, stepped, passes⟩ := next cluster.stores
  have moved : (WorkerPc.reconciling pc).step config cluster.stores
      (soundCall cluster.stores.clock order) =
        some (write, WorkerPc.afterReconciler cluster.stores.clock result) := by
    simp only [WorkerPc.step, stepped, Option.map_some]
  refine reaches_of_step stands moved fun after same stands' => ?_
  cases result with
  | goto pc' => exact passes after stands'
  | returned result =>
      have clock : after.stores.clock = cluster.stores.clock := by
        rw [same, SharedStores.write_clock]
      rw [← clock] at stands'
      exact ⟨after, .refl, stands'⟩
  | raised message => exact passes.elim

theorem passes_nextOrphan (live : List String) (rest : List UUID) :
    PassesNext config worker m (ReconcilerPc.nextOrphan live rest) := by
  induction rest with
  | nil => trivial
  | cons own rest ih =>
      refine passes_of_step fun stores => ?_
      by_cases alive : own.str ∈ live
      · exact ⟨[], _, _, if_pos alive, ih⟩
      · exact ⟨[], _, _, if_neg alive, ih⟩

theorem passes_queuedIds (candidates : List UUID) :
    Passes config worker m (.queuedIds candidates) :=
  passes_of_step fun _ => ⟨[], _, _, rfl, passes_of_step fun _ =>
    ⟨[], _, _, rfl, passes_nextOrphan _ candidates⟩⟩

theorem passes_findOrphanQueued : Passes config worker m .findOrphanQueued := by
  refine passes_of_step fun stores => ?_
  let order := stores.jobs.findOrphanQueued stores.clock config.orphanGraceSeconds
  have stepped : ReconcilerPc.step config stores (soundCall stores.clock order)
      .findOrphanQueued =
        some (.nothing, if order = [] then .returned () else .goto (.queuedIds order)) :=
    if_pos (List.Perm.refl order)
  refine ⟨order, _, _, stepped, ?_⟩
  split
  · trivial
  · exact passes_queuedIds order

theorem passes_nextAbandoned (rest : List UUID) :
    Passes config worker m (ReconcilerPc.nextAbandoned rest) := by
  induction rest with
  | nil => exact passes_findOrphanQueued
  | cons own rest ih =>
      exact passes_of_step fun _ => ⟨[], _, _, rfl, passes_of_step fun _ =>
        ⟨[], _, _, rfl, passes_of_step fun _ => ⟨[], _, _, rfl, ih⟩⟩⟩

theorem passes (pc : ReconcilerPc) : Passes config worker m pc := by
  cases pc with
  | findStaleRunning =>
      refine passes_of_step fun stores => ?_
      let order := stores.jobs.findStaleRunning stores.clock config.visibilityTimeoutSeconds
      have stepped : ReconcilerPc.step config stores (soundCall stores.clock order)
          .findStaleRunning = some (.nothing, .goto (ReconcilerPc.nextAbandoned order)) :=
        if_pos (List.Perm.refl order)
      exact ⟨order, _, _, stepped, passes_nextAbandoned order⟩
  | resetToQueued own rest => exact passes_nextAbandoned (own :: rest)
  | publishQueued own rest =>
      exact passes_of_step fun _ => ⟨[], _, _, rfl, passes_of_step fun _ =>
        ⟨[], _, _, rfl, passes_nextAbandoned rest⟩⟩
  | requeueAbandoned own rest =>
      exact passes_of_step fun _ => ⟨[], _, _, rfl, passes_nextAbandoned rest⟩
  | findOrphanQueued => exact passes_findOrphanQueued
  | queuedIds candidates => exact passes_queuedIds candidates
  | inFlightIds candidates queued =>
      exact passes_of_step fun _ => ⟨[], _, _, rfl, passes_nextOrphan _ candidates⟩
  | requeueOrphan own rest live => exact passes_nextOrphan live (own :: rest)

end Reconciling

/-- A worker can go on by itself until the queue is empty. -/
def Drains (config : Config) (worker : Fin n) (cluster : Cluster n m) : Prop :=
  Reaches config worker cluster (Idle worker)

theorem Reaches.drains {goal : Cluster n m → Prop} (reaches : Reaches config worker cluster goal)
    (drains : ∀ later, goal later → Drains config worker later) :
    Drains config worker cluster := by
  obtain ⟨later, run, reached⟩ := reaches
  obtain ⟨drained, rest, idle⟩ := drains later reached
  exact ⟨drained, run.trans rest, idle⟩

theorem reaches_claim {lastReconcile : Time} {queue : List String} {rawJobId : String}
    (stands : Stands cluster worker (.claiming lastReconcile))
    (split : cluster.stores.queue = queue ++ [rawJobId]) :
    Reaches config worker cluster fun later =>
      Stands later worker (.checking lastReconcile) ∧ later.stores.queue = queue ∧
        later.stores.clock = cluster.stores.clock := by
  have moved : (WorkerPc.claiming lastReconcile).step config cluster.stores
      (soundCall cluster.stores.clock []) = some (.claim, .processing lastReconcile rawJobId none
        (.start rawJobId)) := by
    simp only [WorkerPc.step, split, List.getLast?_concat]
    rfl
  refine reaches_of_step stands moved fun after same stands' => ?_
  rw [SharedStores.write_claim split] at same
  have comes : Returns config worker m rawJobId (.start rawJobId) := returns _
  have returned := comes after lastReconcile none stands'
  rw [same] at returned
  exact returned

/-- While the interval has not passed, the worker empties the queue without
another pass. -/
theorem drains_of_recent {lastReconcile : Time} (queue : List String) :
    ∀ cluster : Cluster n m, cluster.stores.queue = queue →
      Stands cluster worker (.claiming lastReconcile) →
      cluster.stores.clock - lastReconcile < seconds config.reconcileIntervalSeconds →
        Drains config worker cluster := by
  induction queue using List.reverseRecOn with
  | nil => exact fun cluster empty stands _ => ⟨cluster, .refl, ⟨_, stands.at_⟩, empty⟩
  | append_singleton queue rawJobId ih =>
      intro cluster split stands recent
      refine (reaches_claim stands split).drains fun later ⟨checks, rest, clock⟩ => ?_
      rw [← clock] at recent
      have moved : (WorkerPc.checking lastReconcile).step config later.stores
          (soundCall later.stores.clock []) = some (.nothing, .claiming lastReconcile) :=
        if_neg (not_le.mpr recent)
      refine reaches_of_step checks moved fun after same claims => ?_
      exact ih after (by rw [same]; exact rest) claims (by rw [same]; exact recent)

/-- From every control point of a worker that is not dead the queue can be
emptied, if the interval between two passes is positive. -/
theorem drains_of_stands (positive : 0 < config.reconcileIntervalSeconds) {pc : WorkerPc}
    (alive : pc ≠ .dead) (stands : Stands cluster worker pc) : Drains config worker cluster := by
  have claims : ∀ after : Cluster n m, Stands after worker (.claiming after.stores.clock) →
      Drains config worker after := fun after stands =>
    drains_of_recent after.stores.queue after rfl stands (by
      rw [Int.sub_self]
      exact Int.mul_pos positive (by decide))
  have checks : ∀ (after : Cluster n m) (lastReconcile : Time),
      Stands after worker (.checking lastReconcile) → Drains config worker after := by
    intro after lastReconcile stands
    by_cases due : after.stores.clock - lastReconcile ≥ seconds config.reconcileIntervalSeconds
    · have moved : (WorkerPc.checking lastReconcile).step config after.stores
          (soundCall after.stores.clock []) = some (.nothing, .reconciling .findStaleRunning) :=
        if_pos due
      exact reaches_of_step stands moved fun later _ begins =>
        (passes .findStaleRunning later begins).drains claims
    · have moved : (WorkerPc.checking lastReconcile).step config after.stores
          (soundCall after.stores.clock []) = some (.nothing, .claiming lastReconcile) :=
        if_neg due
      exact reaches_of_step stands moved fun later same begins =>
        drains_of_recent later.stores.queue later rfl begins (by rw [same]; exact not_le.mp due)
  cases pc with
  | reconciling pc => exact (passes pc cluster stands).drains claims
  | claiming lastReconcile =>
      rcases List.eq_nil_or_concat cluster.stores.queue with empty | ⟨queue, rawJobId, split⟩
      · exact ⟨cluster, .refl, ⟨_, stands.at_⟩, empty⟩
      · exact (reaches_claim stands (by simpa using split)).drains fun later reached =>
          checks later lastReconcile reached.1
  | processing lastReconcile rawJobId marked pc =>
      exact (returns pc cluster lastReconcile marked stands).drains fun later reached =>
        checks later lastReconcile reached.1
  | checking lastReconcile => exact checks cluster lastReconcile stands
  | dead => exact absurd rfl alive

/-! ## From the start of a worker on -/

/-- A worker is alive, and has not reached its control point in the future. -/
structure Alive (worker : Fin n) (cluster : Cluster n m) : Prop where
  pc : (cluster.workers worker).pc ≠ .dead
  reached : (cluster.workers worker).since ≤ cluster.stores.clock

theorem alive_step {action : Action n m} (held : Alive worker cluster)
    (allowed : Undisturbed worker cluster action)
    (moved : step config cluster action = some next) : Alive worker next := by
  rcases undisturbed_cases allowed moved with
    ⟨duration, rfl⟩ | ⟨choice, write, pc, sound, _, stepped, rfl⟩
  · exact ⟨held.pc, le_trans held.reached (Int.le_add_of_nonneg_right (Int.natCast_nonneg _))⟩
  · refine ⟨?_, by simp [putWorker]⟩
    rw [putWorker_self]
    exact WorkerPc.alive_step sound stepped

/-- A worker that is started in any reachable state, and that nothing disturbs
from then on, can always come to a state in which the queue is empty.  Whenever
it finds the queue empty, the jobs that were in the queue are finished, and an
unfinished job that nobody had touched for longer than both timeouts is finished
exactly if it was not stranded. -/
theorem queue_drained {clock : Time} {models : List ModelRow} {started : Cluster n m}
    (run : Runs (step config) Any (initial clock models) cluster)
    (begun : step config cluster (.start worker) = some started) :
    (0 < config.reconcileIntervalSeconds →
      ∀ between, Runs (step config) (Undisturbed worker) started between →
        Drains config worker between) ∧
    ∀ drained, Runs (step config) (Undisturbed worker) started drained → Idle worker drained →
      ∀ id row, cluster.stores.jobs.lookup id = some row →
        (id.str ∈ cluster.stores.queue → drained.stores.Finished id) ∧
        (row.status.terminal = false → cluster.stores.Untouched config row →
          (drained.stores.Finished id ↔ ¬ cluster.stores.Stranded id)) := by
  obtain ⟨_, rfl⟩ := step_start begun
  constructor
  · intro positive between alone
    have alive := runs_invariant (Alive worker) (fun _ _ _ => alive_step)
      ⟨by simp, by simp [putWorker]⟩ alone
    exact drains_of_stands positive alive.pc ⟨rfl, alive.reached⟩
  intro drained alone idle id row found
  have serves (course : cluster.stores.Finished id ∨ id.str ∈ cluster.stores.queue ∨
      ReconcilerPc.Recovers config cluster.stores.clock cluster.stores id .findStaleRunning) :
      drained.stores.Finished id := by
    have held : Served config cluster.stores.clock worker id
        (cluster.putWorker worker .nothing (.reconciling .findStaleRunning)) :=
      ⟨by simp [putWorker], by simp [putWorker], ⟨row, found⟩, by rw [putWorker_self]; exact course⟩
    exact (runs_invariant _ (fun _ _ _ => served_step) held alone).finished idle
  refine ⟨fun queued => serves (.inr (.inl queued)), fun open_ untouched => ?_⟩
  constructor
  · rintro ⟨row', found', terminal⟩ stranded
    have held : LeftOut worker id
        (cluster.putWorker worker .nothing (.reconciling .findStaleRunning)) :=
      ⟨(step_named (runs_invariant Named (fun _ _ _ named _ => step_named named)
        (named_initial clock models) run) begun), stranded, by rw [putWorker_self]; trivial⟩
    obtain ⟨row'', found'', queued⟩ :=
      (runs_invariant _ (fun _ _ _ => leftOut_step) held alone).stranded.1
    obtain rfl := Option.some.inj (found'.symm.trans found'')
    rw [queued] at terminal
    cases terminal
  · intro safe
    exact serves (.inr (.inr (ReconcilerPc.recovers_of_untouched found open_ untouched safe)))

/-- Job seven is created, and a worker that is started then can empty the queue,
after which job seven is finished. -/
theorem queue_drained_createdSeven :
    ∃ started drained : Cluster 1 1, Runs (step shortConfig) (Undisturbed 0) started drained ∧
      Idle 0 drained ∧ drained.stores.Finished jobSeven := by
  have replays : (replay (step shortConfig) Any (initial 0 sevenModels)
      (createSeven (0 : Fin 1) : List (Action 1 1))).any (fun cluster =>
        decide (jobSeven.str ∈ cluster.stores.queue) &&
          ((cluster.stores.jobs.lookup jobSeven).isSome &&
            (step shortConfig cluster (.start 0)).isSome)) = true := by
    decide +kernel
  obtain ⟨cluster, run, reached⟩ := exists_runs_of_replay replays
  obtain ⟨queued, reached⟩ := Bool.and_eq_true_iff.mp reached
  obtain ⟨listed, starts⟩ := Bool.and_eq_true_iff.mp reached
  obtain ⟨row, found⟩ := Option.isSome_iff_exists.mp listed
  obtain ⟨started, begun⟩ := Option.isSome_iff_exists.mp starts
  obtain ⟨drained, alone, idle⟩ := (queue_drained run begun).1 (by decide) started .refl
  exact ⟨started, drained, alone, idle,
    ((queue_drained run begun).2 drained alone idle jobSeven row found).1
      (of_decide_eq_true queued)⟩

end Cluster

end Crucible
