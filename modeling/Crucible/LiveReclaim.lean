import Crucible.Cluster

/-!
# Which running jobs are reclaimed

A reconcile pass lists the stale jobs once and then resets them one by one,
checking nothing but the status.  It resets stale rows only as long as no
heartbeat and no `mark_running` of a listed job lands before the pass gets to
it; one that does is overridden.
-/

namespace Crucible

open LabelledRuns

/-- The jobs that a pass has found stale and has still to reset. -/
def ReconcilerPc.toReset : ReconcilerPc → List UUID
  | .resetToQueued id rest => id :: rest
  | .publishQueued _ rest | .requeueAbandoned _ rest => rest
  | .findStaleRunning | .findOrphanQueued | .queuedIds _ | .inFlightIds _ _
  | .requeueOrphan _ _ _ => []

def WorkerPc.toReset : WorkerPc → List UUID
  | .reconciling pc => pc.toReset
  | _ => []

/-- The job whose `updated_at` a write renews for a running row. -/
def Write.refreshes : Write → Option UUID
  | .execute _ id .markRunning | .execute _ id .heartbeat => some id
  | _ => none

namespace ReconcilerPc

theorem toReset_nextAbandoned (ids : List UUID) : (nextAbandoned ids).toReset = ids := by
  cases ids <;> rfl

theorem toReset_step {config : Config} {stores : SharedStores} {choice : Choice}
    {pc pc' : ReconcilerPc} {write : Write} {id : UUID}
    (stepped : pc.step config stores choice = some (write, .goto pc'))
    (listed : id ∈ pc'.toReset) :
    id ∈ pc.toReset ∨ write = .nothing ∧
      id ∈ stores.jobs.findStaleRunning choice.now config.visibilityTimeoutSeconds := by
  cases pc with
  | findStaleRunning =>
      obtain ⟨found, called⟩ := Option.ite_none_right_eq_some.mp stepped
      rcases attempt_eq (Option.some.inj called) with
        ⟨_, rfl, same⟩ | ⟨_, _, same⟩ | ⟨_, _, same⟩ <;> cases same
      rw [toReset_nextAbandoned] at listed
      exact .inr ⟨rfl, found.mem_iff.mp listed⟩
  | resetToQueued own rest =>
      rcases attempt_eq (Option.some.inj stepped) with
        ⟨_, _, same⟩ | ⟨_, _, same⟩ | ⟨_, _, same⟩ <;> cases same
      exact .inl (List.mem_cons_of_mem own listed)
  | publishQueued own rest =>
      rcases attempt_eq (Option.some.inj stepped) with
        ⟨_, _, same⟩ | ⟨_, _, same⟩ | ⟨_, _, same⟩ <;> cases same
      exact .inl listed
  | requeueAbandoned own rest =>
      rcases attempt_eq (Option.some.inj stepped) with
        ⟨_, _, same⟩ | ⟨_, _, same⟩ | ⟨_, _, same⟩ <;> cases same
      rw [toReset_nextAbandoned] at listed
      exact .inl listed
  | findOrphanQueued =>
      obtain ⟨_, called⟩ := Option.ite_none_right_eq_some.mp stepped
      rcases attempt_eq (Option.some.inj called) with
        ⟨_, _, same⟩ | ⟨_, _, same⟩ | ⟨_, _, same⟩
      · split at same <;> cases same
        cases listed
      all_goals cases same
  | queuedIds candidates =>
      rcases attempt_eq (Option.some.inj stepped) with
        ⟨_, _, same⟩ | ⟨_, _, same⟩ | ⟨_, _, same⟩ <;> cases same
      cases listed
  | inFlightIds candidates queued =>
      rcases attempt_eq (Option.some.inj stepped) with
        ⟨_, _, same⟩ | ⟨_, _, same⟩ | ⟨_, _, same⟩
      · cases candidates <;> cases same
        cases listed
      all_goals cases same
  | requeueOrphan own rest live =>
      have after : Next.goto pc' = nextOrphan live rest → id ∈ toReset pc' → False := by
        intro same member
        cases rest <;> cases same
        cases member
      simp only [step] at stepped
      split at stepped
      case isTrue =>
        exact (after (congrArg Prod.snd (Option.some.inj stepped)).symm listed).elim
      case isFalse =>
        rcases attempt_eq (Option.some.inj stepped) with
          ⟨_, _, same⟩ | ⟨_, _, same⟩ | ⟨_, _, same⟩
        · exact (after same listed).elim
        all_goals cases same

end ReconcilerPc

namespace WorkerPc

theorem toReset_step {config : Config} {stores : SharedStores} {choice : Choice}
    {pc pc' : WorkerPc} {write : Write} {id : UUID}
    (stepped : pc.step config stores choice = some (write, pc'))
    (listed : id ∈ pc'.toReset) :
    id ∈ pc.toReset ∨ write = .nothing ∧
      id ∈ stores.jobs.findStaleRunning choice.now config.visibilityTimeoutSeconds := by
  cases pc with
  | reconciling pc =>
      obtain ⟨next, inner, rfl⟩ := step_reconciling stepped
      cases next with
      | goto pc' => exact ReconcilerPc.toReset_step inner listed
      | returned result => cases listed
      | raised message => cases listed
  | claiming lastReconcile =>
      simp only [step] at stepped
      split at stepped
      all_goals
        rcases attempt_eq (Option.some.inj stepped) with
          ⟨_, _, rfl⟩ | ⟨_, _, rfl⟩ | ⟨_, _, rfl⟩ <;> cases listed
  | processing lastReconcile rawJobId marked pc =>
      obtain ⟨next, _, rfl⟩ := step_processing stepped
      cases next <;> cases listed
  | checking lastReconcile =>
      simp only [step] at stepped
      split at stepped <;> cases stepped <;> cases listed
  | dead => cases stepped

theorem call_resetToQueued {choice : Choice} {pc : WorkerPc} {now : Time} {id : UUID}
    (made : pc.call choice = .execute now id .resetToQueued) :
    ∃ rest, pc = .reconciling (.resetToQueued id rest) := by
  cases pc with
  | reconciling pc =>
      cases pc with
      | resetToQueued own rest => cases made; exact ⟨rest, rfl⟩
      | _ => cases made
  | processing lastReconcile rawJobId marked pc =>
      cases pc with
      | executing job model pc => exact (executes_of_call made).elim
      | _ => cases made
  | _ => cases made

end WorkerPc

namespace SharedStores

variable {stores : SharedStores} {write : Write}

/-- A running row was there before the write, unless the write renewed it. -/
theorem running_write (possible : stores.Possible write) {id : UUID} {row' : JobRow}
    (found : (stores.write write).jobs.lookup id = some row') (runs : row'.status = .running) :
    stores.jobs.lookup id = some row' ∨ write.refreshes = some id := by
  cases rowSource_write found with
  | kept before => exact .inl before
  | created now request written => cases written; cases runs
  | updated now fields row before valid written =>
      subst written
      have finished := terminal_of_updated possible row
      rw [runs] at finished
      cases finished
  | executed now update row before matched written =>
      subst written
      cases update with
      | markRunning | heartbeat => exact .inr rfl
      | _ => cases runs

theorem reset_of_write (possible : stores.Possible write) {id : UUID} {row : JobRow}
    (found : stores.jobs.lookup id = some row) (runs : row.status = .running)
    (reset : (stores.write write).HasStatus id .queued) :
    ∃ now, write = .execute now id .resetToQueued := by
  obtain ⟨row', found', queued⟩ := reset
  cases rowSource_write found' with
  | kept before =>
      cases found.symm.trans before
      cases runs.symm.trans queued
  | created now request written => cases found.symm.trans possible.2
  | updated now fields old before valid written =>
      subst written
      have finished := terminal_of_updated possible old
      rw [queued] at finished
      cases finished
  | executed now update old before matched written =>
      subst written
      cases update with
      | resetToQueued => exact ⟨now, rfl⟩
      | heartbeat => cases matched.symm.trans queued
      | _ => cases queued

end SharedStores

namespace Cluster

variable {n m : Nat} {config : Config} {cluster next : Cluster n m}

def refreshes (config : Config) (cluster : Cluster n m) (action : Action n m) (id : UUID) :
    Bool :=
  match step config cluster action with
  | none => false
  | some next => (next.stores.jobs.lookup id).any (fun row => row.status = .running) &&
      decide (next.stores.jobs.lookup id ≠ cluster.stores.jobs.lookup id)

/-- No job is renewed that some pass has found stale and has still to reset. -/
def GapUndisturbed (config : Config) (cluster : Cluster n m) (action : Action n m) : Prop :=
  ∀ worker, ∀ id ∈ (cluster.workers worker).pc.toReset,
    refreshes config cluster action id = false

instance (config : Config) (cluster : Cluster n m) (action : Action n m) :
    Decidable (GapUndisturbed config cluster action) :=
  inferInstanceAs (Decidable (∀ _, ∀ id ∈ _, _))

/-- Only a worker renews a running row: by a heartbeat, or when it marks it running. -/
theorem call_of_refreshes {action : Action n m} {id : UUID}
    (renews : refreshes config cluster action id = true) :
    ∃ worker choice, action = .work worker choice ∧
      ((cluster.workers worker).pc.call choice).refreshes = some id := by
  unfold refreshes at renews
  split at renews
  case h_1 => cases renews
  case h_2 next moved =>
    obtain ⟨runs, changed⟩ := Bool.and_eq_true_iff.mp renews
    obtain ⟨row', found, running⟩ := (Option.any_eq_true _ _).mp runs
    have changed := of_decide_eq_true changed
    cases action with
    | work worker choice =>
        obtain ⟨current, write, pc, stepped, rfl⟩ := step_work moved
        refine ⟨worker, choice, rfl, ?_⟩
        rcases SharedStores.running_write (WorkerPc.step_possible current.2 stepped) found
          (of_decide_eq_true running) with old | renewed
        · exact absurd (found.trans old.symm) changed
        · rcases WorkerPc.step_write stepped with rfl | rfl
          · cases renewed
          · exact renewed
    | serve request choice =>
        obtain ⟨current, write, pc, stepped, rfl⟩ := step_serve moved
        rcases SharedStores.running_write (RequestPc.step_possible current.2 stepped) found
          (of_decide_eq_true running) with old | renewed
        · exact absurd (found.trans old.symm) changed
        · rcases RequestPc.step_write stepped with rfl | rfl
          · cases renewed
          · cases pc' : (cluster.requests request).pc <;> rw [pc'] at renewed <;> cases renewed
    | start worker =>
        obtain ⟨_, rfl⟩ := step_start moved
        exact absurd rfl changed
    | arrive request call =>
        obtain rfl := step_arrive moved
        exact absurd rfl changed
    | tick duration | setModels models | crash worker | drop request =>
        cases moved
        exact absurd rfl changed

/-- The row of a listed job, when it is running, is the one that it was. -/
theorem lookup_of_undisturbed {action : Action n m}
    (undisturbed : GapUndisturbed config cluster action)
    (moved : step config cluster action = some next) {worker : Fin n} {id : UUID}
    (listed : id ∈ (cluster.workers worker).pc.toReset) {row : JobRow}
    (found : next.stores.jobs.lookup id = some row) (runs : row.status = .running) :
    cluster.stores.jobs.lookup id = some row := by
  have quiet := undisturbed worker id listed
  simp only [refreshes, moved, found, Option.any_some, runs, decide_true, Bool.true_and,
    decide_eq_false_iff_not, not_not] at quiet
  exact quiet.symm

/-- Whatever a pass has still to reset is stale if it is running. -/
def ListsStale (config : Config) (stores : SharedStores) (pc : WorkerPc) : Prop :=
  ∀ id ∈ pc.toReset, ∀ row, stores.jobs.lookup id = some row → row.status = .running →
    row.updatedAt < stores.clock - seconds config.visibilityTimeoutSeconds

theorem listsStale_step {action : Action n m}
    (held : ∀ worker, ListsStale config cluster.stores (cluster.workers worker).pc)
    (undisturbed : GapUndisturbed config cluster action)
    (moved : step config cluster action = some next) :
    ∀ worker, ListsStale config next.stores (next.workers worker).pc := by
  have aged : ∀ worker, ListsStale config next.stores (cluster.workers worker).pc := by
    intro worker id listed row found runs
    have before := lookup_of_undisturbed undisturbed moved listed found runs
    have stale := held worker id listed row before runs
    have forward := clock_le_step moved
    exact lt_of_lt_of_le stale (Int.sub_le_sub_right forward _)
  refine step_workers (ListsStale config) moved held (fun worker _ => aged worker)
    (fun _ listed => by cases listed) (fun _ listed => by cases listed) ?_
  intro worker choice write pc' _ current stepped stores id listed row found runs
  rcases WorkerPc.toReset_step stepped listed with old | ⟨rfl, new⟩
  · exact aged worker id old row found runs
  · obtain ⟨row', found', stale⟩ := KeyedTable.mem_select.mp new
    rw [stores] at found ⊢
    obtain rfl : row' = row := Option.some.inj (found'.symm.trans found)
    exact lt_of_lt_of_le (of_decide_eq_true stale).2 (Int.sub_le_sub_right current.2 _)

theorem runs_listsStale {clock : Time} {models : List ModelRow}
    (run : Runs (step config) (GapUndisturbed config) (initial clock models) cluster) :
    ∀ worker, ListsStale config cluster.stores (cluster.workers worker).pc :=
  runs_invariant
    (fun state : Cluster n m => ∀ worker, ListsStale config state.stores (state.workers worker).pc)
    (fun _ _ _ held undisturbed moved => listsStale_step held undisturbed moved)
    (fun _ _ listed => by cases listed) run

theorem pass_of_reset {action : Action n m} (moved : step config cluster action = some next)
    {id : UUID} {row : JobRow} (found : cluster.stores.jobs.lookup id = some row)
    (runs : row.status = .running) (reset : next.stores.HasStatus id .queued) :
    ∃ worker choice rest, action = .work worker choice ∧
      (cluster.workers worker).pc = .reconciling (.resetToQueued id rest) := by
  have kept : next.stores.jobs = cluster.stores.jobs → False := by
    rintro same
    obtain ⟨row', found', queued⟩ := reset
    rw [same, found] at found'
    cases found'
    rw [runs] at queued
    cases queued
  cases action with
  | work worker choice =>
      obtain ⟨current, write, pc, stepped, rfl⟩ := step_work moved
      obtain ⟨now, rfl⟩ := SharedStores.reset_of_write
        (WorkerPc.step_possible current.2 stepped) found runs reset
      rcases WorkerPc.step_write stepped with made | made
      · cases made
      · obtain ⟨rest, at_⟩ := WorkerPc.call_resetToQueued made.symm
        exact ⟨worker, choice, rest, rfl, at_⟩
  | serve request choice =>
      obtain ⟨current, write, pc, stepped, rfl⟩ := step_serve moved
      obtain ⟨now, rfl⟩ := SharedStores.reset_of_write
        (RequestPc.step_possible current.2 stepped) found runs reset
      rcases RequestPc.step_write stepped with made | made
      · cases made
      · cases pc' : (cluster.requests request).pc <;> rw [pc'] at made <;> cases made
  | start worker => obtain ⟨_, rfl⟩ := step_start moved; exact (kept rfl).elim
  | arrive request call => obtain rfl := step_arrive moved; exact (kept rfl).elim
  | tick duration | setModels models | crash worker | drop request =>
      cases moved
      exact (kept rfl).elim

/-- A step during which a pass has a job on its list. -/
def DuringGap (config : Config) (worker : Fin n) (id : UUID) (cluster : Cluster n m)
    (action : Action n m) : Prop :=
  GapUndisturbed config cluster action ∧ id ∈ (cluster.workers worker).pc.toReset

/-- A row that runs at the end of a gap is the row that the pass found. -/
theorem lookup_of_gap {worker : Fin n} {id : UUID} {earlier : Cluster n m}
    (gap : Runs (step config) (DuringGap config worker id) earlier cluster) {row : JobRow}
    (found : cluster.stores.jobs.lookup id = some row) (runs : row.status = .running) :
    earlier.stores.jobs.lookup id = some row := by
  induction gap generalizing row with
  | refl => exact found
  | tail _ move ih =>
      obtain ⟨action, ⟨undisturbed, listed⟩, moved⟩ := move
      exact ih (lookup_of_undisturbed undisturbed moved listed found runs) runs

/-- While no listed job is renewed, a running row is reset only when it is
older than the visibility timeout at that moment, and it is still the row that
the pass found, so nothing is overridden. -/
theorem reclaims_only_stale {clock : Time} {models : List ModelRow}
    (run : Runs (step config) (GapUndisturbed config) (initial clock models) cluster)
    {action : Action n m} (moved : step config cluster action = some next) {id : UUID}
    {row : JobRow} (found : cluster.stores.jobs.lookup id = some row)
    (runs : row.status = .running) (reset : next.stores.HasStatus id .queued) :
    row.updatedAt < cluster.stores.clock - seconds config.visibilityTimeoutSeconds ∧
      ∃ worker choice rest, action = .work worker choice ∧
        (cluster.workers worker).pc = .reconciling (.resetToQueued id rest) ∧
        ∀ earlier, Runs (step config) (DuringGap config worker id) earlier cluster →
          earlier.stores.jobs.lookup id = some row := by
  obtain ⟨worker, choice, rest, acts, at_⟩ := pass_of_reset moved found runs reset
  have listed : id ∈ (cluster.workers worker).pc.toReset := by
    rw [at_]
    exact List.mem_cons_self
  exact ⟨runs_listsStale run worker id listed row found runs, worker, choice, rest, acts, at_,
    fun earlier gap => lookup_of_gap gap found runs⟩

/-- One worker has died while it executed job seven, and another one is about to
reset the job thirty seconds later. -/
def abandonedRun (worker other : Fin n) (request : Fin m) : List (Action n m) :=
  createSeven request ++ .start worker :: calls worker 0 7 ++
    [.crash worker, .tick 30000000, .start other,
      .work other { callAt 30 with order := [jobSeven] }]

theorem reclaims_only_stale_abandonedRun :
    ∃ (cluster : Cluster 2 1) (row : JobRow),
      cluster.stores.jobs.lookup jobSeven = some row ∧
        row.updatedAt < cluster.stores.clock - seconds 10 := by
  have replays : (replay (step shortConfig) (GapUndisturbed shortConfig)
      (initial 0 sevenModels) (abandonedRun (0 : Fin 2) 1 (0 : Fin 1))).any (fun cluster =>
        decide (cluster.stores.HasStatus jobSeven .running) &&
          (step shortConfig cluster (.work 1 (callAt 30))).any fun next =>
            decide (next.stores.HasStatus jobSeven .queued)) = true := by
    decide +kernel
  obtain ⟨cluster, run, reached⟩ := exists_runs_of_replay replays
  obtain ⟨running, reached⟩ := Bool.and_eq_true_iff.mp reached
  obtain ⟨row, found, runs⟩ := of_decide_eq_true running
  obtain ⟨next, moved, reset⟩ := (Option.any_eq_true _ _).mp reached
  exact ⟨cluster, row, found,
    (reclaims_only_stale run moved found runs (of_decide_eq_true reset)).1⟩

/-- A worker is slow to heartbeat: another one finds job seven stale, the heartbeat
comes, and the other worker is about to reset the job. -/
def slowHeartbeatRun (worker other : Fin n) (request : Fin m) : List (Action n m) :=
  createSeven request ++ .start worker :: calls worker 0 8 ++
    [.tick 30000000, .start other, .work other { callAt 30 with order := [jobSeven] },
      .work worker (callAt 30)]

/-- A job is reset at the very moment of its heartbeat, while a worker executes
it. -/
theorem reclaims_live_job :
    ∃ (cluster next : Cluster 2 1) (row : JobRow),
      Runs (step shortConfig) Any (initial 0 sevenModels) cluster ∧
        step shortConfig cluster (.work 1 (callAt 30)) = some next ∧
        cluster.stores.jobs.lookup jobSeven = some row ∧ row.status = .running ∧
        row.updatedAt = cluster.stores.clock ∧ next.stores.HasStatus jobSeven .queued ∧
        (next.workers 0).pc.insideExecutor jobSeven = true := by
  have replays : (replay (step shortConfig) Any (initial 0 sevenModels)
      (slowHeartbeatRun (0 : Fin 2) 1 (0 : Fin 1))).any
      (fun cluster =>
        (cluster.stores.jobs.lookup jobSeven).any (fun row =>
          decide (row.status = .running ∧ row.updatedAt = cluster.stores.clock)) &&
        (step shortConfig cluster (.work 1 (callAt 30))).any fun next =>
          decide (next.stores.HasStatus jobSeven .queued) &&
            (next.workers 0).pc.insideExecutor jobSeven) = true := by
    decide +kernel
  obtain ⟨cluster, run, reached⟩ := exists_runs_of_replay replays
  obtain ⟨fresh, reached⟩ := Bool.and_eq_true_iff.mp reached
  obtain ⟨row, found, fresh⟩ := (Option.any_eq_true _ _).mp fresh
  obtain ⟨runs, renewed⟩ := of_decide_eq_true fresh
  obtain ⟨next, moved, reached⟩ := (Option.any_eq_true _ _).mp reached
  obtain ⟨reset, inside⟩ := Bool.and_eq_true_iff.mp reached
  exact ⟨cluster, next, row, run, moved, found, runs, renewed, of_decide_eq_true reset, inside⟩

end Cluster

end Crucible
