import Crucible.Cluster

/-!
# What one reconcile pass recovers

When all workers are dead and a job's row is old, a pass that runs alone leaves
the job queued in Postgres and in `jobs:queue`, unless the job was queued
already and its identifier stands in `jobs:processing` only.  A worker that dies
between `BRPOPLPUSH` and `mark_running` leaves a job like that, and no pass
recovers it.
-/

namespace Crucible

open LabelledRuns

namespace SharedStores

/-- A job is queued in Postgres and in Redis. -/
def Settled (stores : SharedStores) (id : UUID) : Prop :=
  stores.HasStatus id .queued ∧ id.str ∈ stores.queue

/-- A job is queued in Postgres but only in flight in Redis. -/
def Stranded (stores : SharedStores) (id : UUID) : Prop :=
  stores.HasStatus id .queued ∧ id.str ∈ stores.processing ∧ id.str ∉ stores.queue

instance (stores : SharedStores) (id : UUID) : Decidable (stores.Stranded id) :=
  inferInstanceAs (Decidable (_ ∧ _ ∧ _))

/-- The row of a job has been as it is for longer than both timeouts. -/
structure Untouched (config : Config) (stores : SharedStores) (row : JobRow) : Prop where
  createdAt : row.createdAt < stores.clock - seconds config.orphanGraceSeconds
  updatedAt : row.updatedAt < stores.clock - seconds config.orphanGraceSeconds
  heartbeat : row.updatedAt < stores.clock - seconds config.visibilityTimeoutSeconds

instance (config : Config) (stores : SharedStores) (row : JobRow) :
    Decidable (stores.Untouched config row) :=
  decidable_of_iff (row.createdAt < stores.clock - seconds config.orphanGraceSeconds ∧
      row.updatedAt < stores.clock - seconds config.orphanGraceSeconds ∧
      row.updatedAt < stores.clock - seconds config.visibilityTimeoutSeconds)
    ⟨fun ⟨created, updated, beat⟩ => ⟨created, updated, beat⟩,
      fun ⟨created, updated, beat⟩ => ⟨created, updated, beat⟩⟩

/-- At the start of a pass the job has an old row and was running. -/
def Abandoned (config : Config) (start : Time) (stores : SharedStores) (id : UUID) : Prop :=
  ∃ row, stores.jobs.lookup id = some row ∧ row.status = .running ∧
    row.updatedAt < start - seconds config.visibilityTimeoutSeconds

/-- At the start of a pass the job has an old row and is queued, and it is not
in flight. -/
def Orphaned (config : Config) (start : Time) (stores : SharedStores) (id : UUID) : Prop :=
  (∃ row, stores.jobs.lookup id = some row ∧ row.status = .queued ∧
    row.createdAt < start - seconds config.orphanGraceSeconds ∧
    row.updatedAt < start - seconds config.orphanGraceSeconds) ∧
      id.str ∉ stores.processing

end SharedStores

namespace ReconcilerPc

def resetting : ReconcilerPc → Option UUID
  | .publishQueued id _ | .requeueAbandoned id _ => some id
  | _ => none

/-- The pass will yet recover a job that is not settled. -/
def OnCourse (config : Config) (start : Time) (stores : SharedStores) (id : UUID) :
    ReconcilerPc → Prop
  | .findStaleRunning => stores.Abandoned config start id ∨ stores.Orphaned config start id
  | .resetToQueued own rest => stores.HasStatus id .running ∧ id ∈ own :: rest ∨
      stores.Orphaned config start id
  | .publishQueued own rest | .requeueAbandoned own rest =>
      stores.HasStatus id .queued ∧ own = id ∨ stores.HasStatus id .running ∧ id ∈ rest ∨
        stores.Orphaned config start id
  | .findOrphanQueued => stores.Orphaned config start id
  | .queuedIds candidates => stores.Orphaned config start id ∧ id ∈ candidates
  | .inFlightIds candidates queued =>
      stores.Orphaned config start id ∧ id ∈ candidates ∧ id.str ∉ queued
  | .requeueOrphan own rest live =>
      stores.HasStatus id .queued ∧ id ∈ own :: rest ∧ id.str ∉ live

/-- A job is settled, or the pass will yet recover it. -/
def Recovers (config : Config) (start : Time) (stores : SharedStores) (id : UUID)
    (pc : ReconcilerPc) : Prop :=
  stores.Settled id ∨ pc.OnCourse config start stores id

/-- The pass will not touch a job that is stranded. -/
def Skips (id : UUID) : ReconcilerPc → Prop
  | .resetToQueued own rest | .publishQueued own rest | .requeueAbandoned own rest =>
      id ∉ own :: rest
  | .requeueOrphan _ _ live => id.str ∈ live
  | .findStaleRunning | .findOrphanQueued | .queuedIds _ | .inFlightIds _ _ => True

/-! ## The effect of a pass's calls -/

variable {config : Config} {stores : SharedStores} {choice : Choice} {id : UUID}

/-- No call of a pass touches the row of another job or one that is not
running. -/
theorem lookup_call (pc : ReconcilerPc) {row : JobRow}
    (found : stores.jobs.lookup id = some row)
    (spared : row.status ≠ .running ∨ ∀ rest, pc ≠ .resetToQueued id rest) :
    (stores.write (pc.call choice)).jobs.lookup id = some row := by
  cases pc with
  | resetToQueued own rest =>
      rw [call, SharedStores.write, JobTable.lookup_execute]
      split
      case isFalse => exact found
      case isTrue same =>
        subst same
        have unmatched : row.status ≠ RepositoryUpdate.resetToQueued.guard :=
          spared.resolve_right fun all => all rest rfl
        rw [found, Option.map_some, RepositoryUpdate.onRow, if_neg unmatched]
  | _ => exact found

theorem queue_call (pc : ReconcilerPc) {entry : String} (member : entry ∈ stores.queue) :
    entry ∈ (stores.write (pc.call choice)).queue := by
  cases pc with
  | requeueAbandoned own rest | requeueOrphan own rest live =>
      exact RedisLists.mem_lpush.mpr (.inr member)
  | _ => exact member

theorem settled_call (pc : ReconcilerPc) (settled : stores.Settled id) :
    (stores.write (pc.call choice)).Settled id := by
  obtain ⟨⟨row, found, queued⟩, member⟩ := settled
  exact ⟨⟨row, lookup_call pc found (.inl (by simp [queued])), queued⟩, queue_call pc member⟩

theorem hasStatus_call (pc : ReconcilerPc) {status : JobStatus}
    (has : stores.HasStatus id status)
    (spared : status ≠ .running ∨ ∀ rest, pc ≠ .resetToQueued id rest) :
    (stores.write (pc.call choice)).HasStatus id status := by
  obtain ⟨row, found, rfl⟩ := has
  exact ⟨row, lookup_call pc found spared, rfl⟩

theorem orphaned_call (pc : ReconcilerPc) {start : Time}
    (orphaned : stores.Orphaned config start id) :
    (stores.write (pc.call choice)).Orphaned config start id := by
  obtain ⟨⟨row, found, queued, old⟩, absent⟩ := orphaned
  refine ⟨⟨row, lookup_call pc found (.inl (by simp [queued])), queued, old⟩, ?_⟩
  cases pc with
  | requeueAbandoned own rest | requeueOrphan own rest live =>
      exact fun member => absent (RedisLists.mem_lrem.mp member).1
  | _ => exact absent

theorem hasStatus_reset (rest : List UUID) (running : stores.HasStatus id .running) :
    (stores.write ((resetToQueued id rest).call choice)).HasStatus id .queued := by
  obtain ⟨row, found, runs⟩ := running
  refine ⟨{ row with status := .queued, updatedAt := choice.now }, ?_, rfl⟩
  rw [call, SharedStores.write, JobTable.lookup_execute, if_pos rfl, found, Option.map_some,
    RepositoryUpdate.onRow, if_pos (by simpa [RepositoryUpdate.guard] using runs)]
  rfl

theorem settled_requeueAbandoned (rest : List UUID) (queued : stores.HasStatus id .queued) :
    (stores.write ((requeueAbandoned id rest).call choice)).Settled id :=
  ⟨queued, RedisLists.mem_lpush.mpr (.inl rfl)⟩

/-! ## Recovery -/

/-- What the pass still has to do after a call. -/
def RecoversNext (config : Config) (start : Time) (stores : SharedStores) (id : UUID) :
    Next ReconcilerPc Unit → Prop
  | .goto pc => pc.Recovers config start stores id
  | .returned () => stores.Settled id
  | .raised _ => False

theorem recovers_nextAbandoned {start : Time} {rest : List UUID}
    (course : stores.Settled id ∨ stores.HasStatus id .running ∧ id ∈ rest ∨
      stores.Orphaned config start id) :
    (nextAbandoned rest).Recovers config start stores id := by
  rcases course with settled | listed | orphaned
  · exact .inl settled
  · cases rest with
    | nil => cases listed.2
    | cons own rest => exact .inr (.inl listed)
  · cases rest with
    | nil => exact .inr orphaned
    | cons own rest => exact .inr (.inr orphaned)

theorem recovers_nextOrphan {start : Time} {live : List String} {rest : List UUID}
    (course : stores.Settled id ∨ stores.HasStatus id .queued ∧ id ∈ rest ∧ id.str ∉ live) :
    RecoversNext config start stores id (nextOrphan live rest) := by
  cases rest with
  | nil => exact course.resolve_right fun missing => by cases missing.2.1
  | cons own rest => exact course

theorem recovers_step {start : Time} {pc : ReconcilerPc} {write : Write}
    {next : Next ReconcilerPc Unit} (current : start ≤ choice.now)
    (sound : choice.fault = .none)
    (stepped : pc.step config stores choice = some (write, next))
    (course : pc.Recovers config start stores id) :
    RecoversNext config start (stores.write write) id next := by
  cases pc with
  | findStaleRunning =>
      obtain ⟨listed, called⟩ := Option.ite_none_right_eq_some.mp stepped
      obtain ⟨rfl, rfl⟩ := attempt_sound sound (Option.some.inj called)
      refine recovers_nextAbandoned ?_
      rcases course with settled | ⟨row, found, runs, old⟩ | orphaned
      · exact .inl settled
      · refine .inr (.inl ⟨⟨row, found, runs⟩, listed.mem_iff.mpr ?_⟩)
        have stale := lt_of_lt_of_le old (Int.sub_le_sub_right current _)
        exact KeyedTable.mem_select.mpr ⟨row, found, decide_eq_true ⟨runs, stale⟩⟩
      · exact .inr (.inr orphaned)
  | resetToQueued own rest =>
      obtain ⟨rfl, rfl⟩ := attempt_sound sound (Option.some.inj stepped)
      rcases course with settled | ⟨running, listed⟩ | orphaned
      · exact .inl (settled_call (resetToQueued own rest) settled)
      · by_cases same : own = id
        · subst same
          exact .inr (.inl ⟨hasStatus_reset rest running, rfl⟩)
        · have other : ∀ rest', resetToQueued own rest ≠ resetToQueued id rest' :=
            fun _ equal => same (by injection equal)
          exact .inr (.inr (.inl ⟨hasStatus_call (resetToQueued own rest) running (.inr other),
            List.mem_of_ne_of_mem (Ne.symm same) listed⟩))
      · exact .inr (.inr (.inr (orphaned_call (resetToQueued own rest) orphaned)))
  | publishQueued own rest =>
      obtain ⟨rfl, rfl⟩ := attempt_sound sound (Option.some.inj stepped)
      exact course
  | requeueAbandoned own rest =>
      obtain ⟨rfl, rfl⟩ := attempt_sound sound (Option.some.inj stepped)
      refine recovers_nextAbandoned ?_
      rcases course with settled | ⟨queued, rfl⟩ | ⟨running, listed⟩ | orphaned
      · exact .inl (@settled_call _ choice _ (requeueAbandoned own rest) settled)
      · exact .inl (@settled_requeueAbandoned _ choice _ rest queued)
      · exact .inr (.inl ⟨running, listed⟩)
      · exact .inr (.inr (@orphaned_call _ _ choice _ (requeueAbandoned own rest) _ orphaned))
  | findOrphanQueued =>
      obtain ⟨listed, called⟩ := Option.ite_none_right_eq_some.mp stepped
      obtain ⟨rfl, rfl⟩ := attempt_sound sound (Option.some.inj called)
      rcases course with settled | ⟨⟨row, found, queued, created, updated⟩, absent⟩
      · split
        case isTrue => exact settled
        case isFalse => exact .inl settled
      · have member : id ∈ choice.order := by
          refine listed.mem_iff.mpr (KeyedTable.mem_select.mpr ⟨row, found, decide_eq_true ?_⟩)
          exact ⟨queued, lt_of_lt_of_le created (Int.sub_le_sub_right current _),
            lt_of_lt_of_le updated (Int.sub_le_sub_right current _)⟩
        rw [if_neg (List.ne_nil_of_mem member)]
        exact .inr ⟨⟨⟨row, found, queued, created, updated⟩, absent⟩, member⟩
  | queuedIds candidates =>
      obtain ⟨rfl, rfl⟩ := attempt_sound sound (Option.some.inj stepped)
      rcases course with settled | ⟨orphaned, member⟩
      · exact .inl settled
      · by_cases pushed : id.str ∈ stores.queue
        · obtain ⟨⟨row, found, queued, _⟩, _⟩ := orphaned
          exact .inl ⟨⟨row, found, queued⟩, pushed⟩
        · exact .inr ⟨orphaned, member, pushed⟩
  | inFlightIds candidates queued =>
      obtain ⟨rfl, rfl⟩ := attempt_sound sound (Option.some.inj stepped)
      refine recovers_nextOrphan (course.imp_right ?_)
      rintro ⟨⟨⟨row, found, waits, _⟩, absent⟩, member, unqueued⟩
      exact ⟨⟨row, found, waits⟩, member, by simp [absent, unqueued]⟩
  | requeueOrphan own rest live =>
      simp only [step] at stepped
      split at stepped
      case isTrue alive =>
        cases stepped
        refine recovers_nextOrphan (course.imp_right ?_)
        rintro ⟨queued, member, missing⟩
        refine ⟨queued, List.mem_of_ne_of_mem ?_ member, missing⟩
        rintro rfl
        exact missing alive
      case isFalse =>
        obtain ⟨rfl, rfl⟩ := attempt_sound sound (Option.some.inj stepped)
        refine recovers_nextOrphan ?_
        rcases course with settled | ⟨queued, member, missing⟩
        · exact .inl (@settled_call _ choice _ (requeueOrphan own rest live) settled)
        · rcases List.mem_cons.mp member with rfl | later
          · exact .inl ⟨queued, RedisLists.mem_lpush.mpr (.inl rfl)⟩
          · exact .inr ⟨queued, later, missing⟩

/-! ## What a pass leaves alone -/

/-- What the pass does about a stranded job after a call: nothing. -/
def SkipsNext (id : UUID) : Next ReconcilerPc Unit → Prop
  | .goto pc => pc.Skips id
  | .returned () | .raised _ => True

theorem skips_nextAbandoned {rest : List UUID} (unlisted : id ∉ rest) :
    (nextAbandoned rest).Skips id := by
  cases rest with
  | nil => trivial
  | cons own rest => exact unlisted

theorem skips_nextOrphan {live : List String} (rest : List UUID) (alive : id.str ∈ live) :
    SkipsNext id (nextOrphan live rest) := by
  cases rest with
  | nil => trivial
  | cons own rest => exact alive

theorem stranded_call (pc : ReconcilerPc) (stranded : stores.Stranded id)
    (others : ∀ rest live, pc ≠ .requeueAbandoned id rest ∧ pc ≠ .requeueOrphan id rest live) :
    (stores.write (pc.call choice)).Stranded id := by
  obtain ⟨queued, inFlight, unqueued⟩ := stranded
  refine ⟨hasStatus_call pc queued (.inl (by simp)), ?_⟩
  have requeue : ∀ own : UUID, own ≠ id →
      id.str ∈ RedisLists.lrem stores.processing own.str ∧
        id.str ∉ RedisLists.lpush stores.queue own.str := by
    intro own other
    have distinct : id.str ≠ own.str := fun same => other (UUID.str_injective same).symm
    exact ⟨RedisLists.mem_lrem.mpr ⟨inFlight, distinct⟩,
      fun member => (RedisLists.mem_lpush.mp member).elim distinct unqueued⟩
  cases pc with
  | requeueAbandoned own rest =>
      exact requeue own fun same => (others rest []).1 (by rw [same])
  | requeueOrphan own rest live =>
      exact requeue own fun same => (others rest live).2 (by rw [same])
  | _ => exact ⟨inFlight, unqueued⟩

theorem stranded_step {pc : ReconcilerPc} {write : Write} {next : Next ReconcilerPc Unit}
    (stepped : pc.step config stores choice = some (write, next))
    (stranded : stores.Stranded id) (skips : pc.Skips id) :
    (stores.write write).Stranded id ∧ SkipsNext id next := by
  have kept : (∀ rest live, pc ≠ .requeueAbandoned id rest ∧ pc ≠ .requeueOrphan id rest live) →
      (stores.write write).Stranded id := by
    intro others
    rcases step_write stepped with rfl | rfl
    · exact stranded
    · exact stranded_call pc stranded others
  cases pc with
  | findStaleRunning =>
      refine ⟨kept fun _ _ => by simp, ?_⟩
      obtain ⟨listed, called⟩ := Option.ite_none_right_eq_some.mp stepped
      have unlisted : id ∉ choice.order := by
        intro member
        obtain ⟨row, found, stale⟩ := KeyedTable.mem_select.mp (listed.mem_iff.mp member)
        obtain ⟨⟨row', found', queued⟩, _⟩ := stranded
        rw [found] at found'
        cases found'
        simp [queued] at stale
      rcases attempt_eq (Option.some.inj called) with
        ⟨_, _, rfl⟩ | ⟨_, _, rfl⟩ | ⟨_, _, rfl⟩
      · exact skips_nextAbandoned unlisted
      · trivial
      · trivial
  | resetToQueued own rest | publishQueued own rest =>
      refine ⟨kept fun _ _ => by simp, ?_⟩
      rcases attempt_eq (Option.some.inj stepped) with
        ⟨_, _, rfl⟩ | ⟨_, _, rfl⟩ | ⟨_, _, rfl⟩
      · exact skips
      · trivial
      · trivial
  | requeueAbandoned own rest =>
      have unlisted := List.not_mem_of_not_mem_cons skips
      refine ⟨kept fun _ _ => ⟨?_, by simp⟩, ?_⟩
      · intro same
        injection same with same
        exact skips (by rw [same]; exact List.mem_cons_self)
      rcases attempt_eq (Option.some.inj stepped) with
        ⟨_, _, rfl⟩ | ⟨_, _, rfl⟩ | ⟨_, _, rfl⟩
      · exact skips_nextAbandoned unlisted
      · trivial
      · trivial
  | findOrphanQueued =>
      refine ⟨kept fun _ _ => by simp, ?_⟩
      obtain ⟨_, called⟩ := Option.ite_none_right_eq_some.mp stepped
      rcases attempt_eq (Option.some.inj called) with
        ⟨_, _, rfl⟩ | ⟨_, _, rfl⟩ | ⟨_, _, rfl⟩
      · split <;> trivial
      · trivial
      · trivial
  | queuedIds candidates =>
      refine ⟨kept fun _ _ => by simp, ?_⟩
      rcases attempt_eq (Option.some.inj stepped) with
        ⟨_, _, rfl⟩ | ⟨_, _, rfl⟩ | ⟨_, _, rfl⟩ <;> trivial
  | inFlightIds candidates queued =>
      refine ⟨kept fun _ _ => by simp, ?_⟩
      rcases attempt_eq (Option.some.inj stepped) with
        ⟨_, _, rfl⟩ | ⟨_, _, rfl⟩ | ⟨_, _, rfl⟩
      · exact skips_nextOrphan candidates (List.mem_append_right _ stranded.2.1)
      · trivial
      · trivial
  | requeueOrphan own rest live =>
      simp only [step] at stepped
      split at stepped
      case isTrue =>
        cases stepped
        exact ⟨stranded, skips_nextOrphan rest skips⟩
      case isFalse missing =>
        refine ⟨kept fun _ _ => ⟨by simp, ?_⟩, ?_⟩
        · intro same
          injection same with same
          exact missing (by rw [same]; exact skips)
        rcases attempt_eq (Option.some.inj stepped) with
          ⟨_, _, rfl⟩ | ⟨_, _, rfl⟩ | ⟨_, _, rfl⟩
        · exact skips_nextOrphan rest skips
        · trivial
        · trivial

end ReconcilerPc

namespace Cluster

variable {n m : Nat} {config : Config} {cluster next : Cluster n m} {worker : Fin n}

/-- Steps of a run in which only one worker's reconcile pass acts, and none of
its calls fails. -/
def Alone (worker : Fin n) (cluster : Cluster n m) : Action n m → Prop
  | .tick _ => True
  | .work mover choice => mover = worker ∧ choice.fault = .none ∧
      (cluster.workers worker).pc.inReconcile = true
  | _ => False

instance (worker : Fin n) (cluster : Cluster n m) (action : Action n m) :
    Decidable (Alone worker cluster action) :=
  match action with
  | .tick _ => isTrue trivial
  | .work _ _ => inferInstanceAs (Decidable (_ ∧ _ ∧ _))
  | .setModels _ | .start _ | .crash _ | .arrive _ _ | .serve _ _ | .drop _ => isFalse id

theorem alone_cases {action : Action n m} (alone : Alone worker cluster action)
    (moved : step config cluster action = some next) :
    (∃ duration : Nat, next = { cluster with
        stores := { cluster.stores with clock := cluster.stores.clock + duration } }) ∨
      ∃ choice pc write result, choice.fault = .none ∧
        Current (cluster.workers worker).since choice.now cluster.stores.clock ∧
        (cluster.workers worker).pc = .reconciling pc ∧
        pc.step config cluster.stores choice = some (write, result) ∧
        next = cluster.putWorker worker write
          (WorkerPc.afterReconciler cluster.stores.clock result) := by
  cases action with
  | tick duration => exact .inl ⟨duration, (Option.some.inj moved).symm⟩
  | work mover choice =>
      obtain ⟨rfl, sound, inside⟩ := alone
      obtain ⟨current, write, pc', stepped, rfl⟩ := step_work moved
      cases at_ : (cluster.workers mover).pc with
      | reconciling pc =>
          rw [at_] at stepped
          obtain ⟨result, inner, rfl⟩ := WorkerPc.step_reconciling stepped
          exact .inr ⟨choice, pc, write, result, sound, current, rfl, inner, rfl⟩
      | _ =>
          rw [at_] at inside
          cases inside
  | setModels models | start worker | crash worker | arrive request call
  | serve request choice | drop request => exact False.elim alone

/-! ## A pass that runs alone comes to its end -/

/-- A worker is at a control point of its pass, and has not reached it in the
future. -/
structure Ready (cluster : Cluster n m) (worker : Fin n) (pc : ReconcilerPc) : Prop where
  at_ : (cluster.workers worker).pc = .reconciling pc
  reached : (cluster.workers worker).since ≤ cluster.stores.clock

/-- The pass can go on to its end by itself. -/
def Finishes (config : Config) (cluster : Cluster n m) (worker : Fin n) : Prop :=
  ∃ finished lastReconcile, Runs (step config) (Alone worker) cluster finished ∧
    (finished.workers worker).pc = .claiming lastReconcile

/-- A call now that succeeds and lists jobs in a given order. -/
def callNow (cluster : Cluster n m) (order : List UUID) : Choice :=
  { callAt 0 with now := cluster.stores.clock, order := order }

/-- What has to hold after a call so that the pass comes to its end. -/
def FinishesNext (config : Config) (n m : Nat) (worker : Fin n) :
    Next ReconcilerPc Unit → Prop
  | .goto pc => ∀ after : Cluster n m, Ready after worker pc → Finishes config after worker
  | .returned () => True
  | .raised _ => False

theorem finishes_of_step {pc : ReconcilerPc} (ready : Ready cluster worker pc)
    (order : List UUID) {write : Write} {result : Next ReconcilerPc Unit}
    (stepped : pc.step config cluster.stores (callNow cluster order) = some (write, result))
    (rest : FinishesNext config n m worker result) : Finishes config cluster worker := by
  have moved : step config cluster (.work worker (callNow cluster order)) =
      some (cluster.putWorker worker write
        (WorkerPc.afterReconciler cluster.stores.clock result)) := by
    have current : Current (cluster.workers worker).since (callNow cluster order).now
        cluster.stores.clock := ⟨ready.reached, le_rfl⟩
    simp only [step, if_pos current, ready.at_, WorkerPc.step, stepped, Option.map_some]
  have allowed : Alone worker cluster (.work worker (callNow cluster order)) :=
    ⟨rfl, rfl, by rw [ready.at_]; rfl⟩
  have first : Runs (step config) (Alone worker) cluster _ :=
    runs_tail Relation.ReflTransGen.refl allowed moved
  cases result with
  | goto pc' =>
      have after := rest (cluster.putWorker worker write (.reconciling pc'))
        ⟨putWorker_self .., by simp [putWorker]⟩
      obtain ⟨finished, lastReconcile, run, ends⟩ := after
      exact ⟨finished, lastReconcile, first.trans run, ends⟩
  | returned result => exact ⟨_, _, first, putWorker_self ..⟩
  | raised message => exact False.elim rest

theorem finishes_nextOrphan (live : List String) (rest : List UUID) :
    FinishesNext config n m worker (ReconcilerPc.nextOrphan live rest) := by
  induction rest with
  | nil => trivial
  | cons own rest ih =>
      intro after ready
      by_cases alive : own.str ∈ live
      · exact finishes_of_step ready [] (by rw [ReconcilerPc.step, if_pos alive]) ih
      · exact finishes_of_step ready [] (by rw [ReconcilerPc.step, if_neg alive]; rfl) ih

theorem finishes_inFlightIds (candidates : List UUID) (queued : List String)
    (ready : Ready cluster worker (.inFlightIds candidates queued)) :
    Finishes config cluster worker :=
  finishes_of_step ready [] rfl (finishes_nextOrphan _ candidates)

theorem finishes_queuedIds (candidates : List UUID)
    (ready : Ready cluster worker (.queuedIds candidates)) :
    Finishes config cluster worker :=
  finishes_of_step ready [] rfl fun _ => finishes_inFlightIds candidates _

theorem finishes_findOrphanQueued (ready : Ready cluster worker .findOrphanQueued) :
    Finishes config cluster worker := by
  let order := cluster.stores.jobs.findOrphanQueued cluster.stores.clock
    config.orphanGraceSeconds
  have stepped : ReconcilerPc.step config cluster.stores (callNow cluster order)
      .findOrphanQueued =
        some (.nothing, if order = [] then .returned () else .goto (.queuedIds order)) :=
    if_pos (List.Perm.refl order)
  refine finishes_of_step ready order stepped ?_
  split
  case isTrue => trivial
  case isFalse => exact fun _ => finishes_queuedIds _

theorem finishes_nextAbandoned (rest : List UUID) :
    ∀ after : Cluster n m, Ready after worker (ReconcilerPc.nextAbandoned rest) →
      Finishes config after worker := by
  induction rest with
  | nil => exact fun _ => finishes_findOrphanQueued
  | cons own rest ih =>
      have pushes : ∀ after : Cluster n m, Ready after worker (.requeueAbandoned own rest) →
          Finishes config after worker := fun _ ready => finishes_of_step ready [] rfl ih
      have publishes : ∀ after : Cluster n m, Ready after worker (.publishQueued own rest) →
          Finishes config after worker := fun _ ready => finishes_of_step ready [] rfl pushes
      exact fun _ ready => finishes_of_step ready [] rfl publishes

/-- From every point of a pass its end can be reached. -/
theorem finishes_of_ready {pc : ReconcilerPc} (ready : Ready cluster worker pc) :
    Finishes config cluster worker := by
  cases pc with
  | findStaleRunning =>
      let order := cluster.stores.jobs.findStaleRunning cluster.stores.clock
        config.visibilityTimeoutSeconds
      have stepped : ReconcilerPc.step config cluster.stores (callNow cluster order)
          .findStaleRunning = some (.nothing, .goto (ReconcilerPc.nextAbandoned order)) :=
        if_pos (List.Perm.refl order)
      exact finishes_of_step ready order stepped (finishes_nextAbandoned order)
  | resetToQueued own rest => exact finishes_nextAbandoned (own :: rest) cluster ready
  | publishQueued own rest =>
      have pushes : ∀ after : Cluster n m, Ready after worker (.requeueAbandoned own rest) →
          Finishes config after worker :=
        fun _ ready => finishes_of_step ready [] rfl (finishes_nextAbandoned rest)
      exact finishes_of_step ready [] rfl pushes
  | requeueAbandoned own rest =>
      exact finishes_of_step ready [] rfl (finishes_nextAbandoned rest)
  | findOrphanQueued => exact finishes_findOrphanQueued ready
  | queuedIds candidates => exact finishes_queuedIds candidates ready
  | inFlightIds candidates queued => exact finishes_inFlightIds candidates queued ready
  | requeueOrphan own rest live => exact finishes_nextOrphan live (own :: rest) cluster ready

/-! ## What it has done then -/

/-- What holds of a worker while its pass, begun at a given time, runs alone. -/
def DuringPass (start : Time) (inside : SharedStores → ReconcilerPc → Prop)
    (outside : SharedStores → Prop) (worker : Fin n) (cluster : Cluster n m) : Prop :=
  start ≤ (cluster.workers worker).since ∧
    (cluster.workers worker).since ≤ cluster.stores.clock ∧
    match (cluster.workers worker).pc with
    | .reconciling pc => inside cluster.stores pc
    | .claiming _ => outside cluster.stores
    | _ => True

theorem duringPass_step {start : Time} {inside : SharedStores → ReconcilerPc → Prop}
    {outside : SharedStores → Prop} {action : Action n m}
    (kept : ∀ stores choice pc write result, start ≤ choice.now → choice.fault = .none →
      ReconcilerPc.step config stores choice pc = some (write, result) → inside stores pc →
      match result with
      | .goto pc' => inside (stores.write write) pc'
      | .returned () => outside (stores.write write)
      | .raised _ => True)
    (timeless : ∀ stores clock,
      (∀ pc, inside stores pc → inside { stores with clock := clock } pc) ∧
        (outside stores → outside { stores with clock := clock }))
    (held : DuringPass start inside outside worker cluster)
    (alone : Alone worker cluster action) (moved : step config cluster action = some next) :
    DuringPass start inside outside worker next := by
  obtain ⟨begun, reached, where_⟩ := held
  rcases alone_cases alone moved with
    ⟨duration, rfl⟩ | ⟨choice, pc, write, result, sound, current, at_, stepped, rfl⟩
  · refine ⟨begun, le_trans reached (Int.le_add_of_nonneg_right (Int.natCast_nonneg _)), ?_⟩
    obtain ⟨insideKept, outsideKept⟩ := timeless cluster.stores (cluster.stores.clock + duration)
    revert where_
    cases (cluster.workers worker).pc with
    | reconciling pc => exact insideKept pc
    | claiming lastReconcile => exact outsideKept
    | _ => exact id
  · have begun' : start ≤ cluster.stores.clock := le_trans begun reached
    have after := kept cluster.stores choice pc write result (le_trans begun current.1) sound
      stepped (by rw [at_] at where_; exact where_)
    refine ⟨by simpa [putWorker] using begun', by simp [putWorker], ?_⟩
    rw [putWorker_self]
    cases result <;> exact after

theorem settled_of_recovers {start : Time} {id : UUID} {finished : Cluster n m}
    {lastReconcile : Time} (pass : Runs (step config) (Alone worker) cluster finished)
    (begins : DuringPass start (fun stores pc => pc.Recovers config start stores id)
      (fun stores => stores.Settled id) worker cluster)
    (ends : (finished.workers worker).pc = .claiming lastReconcile) :
    finished.stores.Settled id := by
  have held := runs_invariant (DuringPass start
    (fun stores pc => pc.Recovers config start stores id) (fun stores => stores.Settled id)
    worker) (fun current action next held alone moved => ?_) begins pass
  · have outside := held.2.2
    rw [ends] at outside
    exact outside
  refine duringPass_step ?_ ?_ held alone moved
  · intro stores choice pc write result current sound stepped course
    have after := ReconcilerPc.recovers_step current sound stepped course
    cases result with
    | goto pc' => exact after
    | returned result => exact after
    | raised message => trivial
  · intro stores clock
    refine ⟨fun pc course => ?_, fun settled => settled⟩
    cases pc <;> exact course

theorem stranded_of_skips {start : Time} {id : UUID} {finished : Cluster n m}
    {lastReconcile : Time} (pass : Runs (step config) (Alone worker) cluster finished)
    (begins : DuringPass start (fun stores pc => stores.Stranded id ∧ pc.Skips id)
      (fun stores => stores.Stranded id) worker cluster)
    (ends : (finished.workers worker).pc = .claiming lastReconcile) :
    finished.stores.Stranded id := by
  have held := runs_invariant (DuringPass start
    (fun stores pc => stores.Stranded id ∧ pc.Skips id) (fun stores => stores.Stranded id)
    worker) (fun current action next held alone moved => ?_) begins pass
  · have outside := held.2.2
    rw [ends] at outside
    exact outside
  refine duringPass_step ?_ ?_ held alone moved
  · intro stores choice pc write result _ _ stepped ⟨stranded, skips⟩
    have after := ReconcilerPc.stranded_step stepped stranded skips
    cases result with
    | goto pc' => exact after
    | returned result => exact after.1
    | raised message => trivial
  · intro stores clock
    exact ⟨fun pc skipped => skipped, fun stranded => stranded⟩

/-- From every state in which a worker can start, its first pass comes to an
end when it runs alone, and then an unfinished job that nobody has touched for
longer than both timeouts is queued in both stores, exactly if it was not
stranded before. -/
theorem reconcile_recovers_iff {started : Cluster n m}
    (begun : step config cluster (.start worker) = some started) :
    (∀ between pc, Runs (step config) (Alone worker) started between →
        (between.workers worker).pc = .reconciling pc → Finishes config between worker) ∧
      ∀ finished lastReconcile, Runs (step config) (Alone worker) started finished →
        (finished.workers worker).pc = .claiming lastReconcile →
        ∀ id row, cluster.stores.jobs.lookup id = some row → row.status.terminal = false →
          cluster.stores.Untouched config row →
          (finished.stores.Settled id ↔ ¬ cluster.stores.Stranded id) := by
  obtain ⟨_, rfl⟩ := step_start begun
  have begins {inside : SharedStores → ReconcilerPc → Prop} {outside : SharedStores → Prop}
      (holds : inside cluster.stores .findStaleRunning) :
      DuringPass cluster.stores.clock inside outside worker
        (cluster.putWorker worker .nothing (.reconciling .findStaleRunning)) := by
    refine ⟨by simp [putWorker], by simp [putWorker], ?_⟩
    rw [putWorker_self]
    exact holds
  constructor
  · intro between pc pass at_
    have held := runs_invariant (DuringPass cluster.stores.clock (fun _ _ => True)
      (fun _ => True) worker) (fun current action next held alone moved =>
        duringPass_step (fun _ _ _ _ result _ _ _ _ => by cases result <;> trivial)
          (fun _ _ => ⟨fun _ _ => trivial, fun _ => trivial⟩) held alone moved)
      (begins trivial) pass
    exact finishes_of_ready ⟨at_, held.2.1⟩
  · intro finished lastReconcile pass ends id row found open_ untouched
    constructor
    · rintro settled stranded
      exact (stranded_of_skips pass (begins ⟨stranded, trivial⟩) ends).2.2 settled.2
    · intro safe
      refine settled_of_recovers pass (begins ?_) ends
      cases status : row.status with
      | running => exact .inr (.inl ⟨row, found, status, untouched.heartbeat⟩)
      | queued =>
          by_cases pushed : id.str ∈ cluster.stores.queue
          · exact .inl ⟨⟨row, found, status⟩, pushed⟩
          · have absent : id.str ∉ cluster.stores.processing := fun inFlight =>
              safe ⟨⟨row, found, status⟩, inFlight, pushed⟩
            exact .inr (.inr ⟨⟨row, found, status, untouched.createdAt, untouched.updatedAt⟩,
              absent⟩)
      | completed | failed | cancelled => simp [status, JobStatus.terminal] at open_

end Cluster

end Crucible
