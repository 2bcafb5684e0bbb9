import Crucible.Reconciler
import Mathlib.Data.List.Count
import Mathlib.Data.List.Nodup
import Mathlib.Logic.Relation

/-!
# One reconcile pass without interruption

`reconcile` as a function of the stores, with the two lists in the order in
which Postgres returns them.  All of its calls read the same clock.  It does
what the control points of `ReconcilerPc` do when none of their calls fails.
-/

namespace Crucible

structure ReconcileStats where
  abandonedRunning : Nat
  orphanedQueued : Nat
  deriving DecidableEq, Repr

namespace SharedStores

/-- The body of the loop in `_recover_abandoned_running`. -/
def recoverAbandoned (stores : SharedStores) (id : UUID) : SharedStores :=
  ((stores.write (.execute stores.clock id .resetToQueued)).write
    (.publish stores.clock id .queued false)).write (.requeue id.str)

def recoverAbandonedRunning (stores : SharedStores) (stale : List UUID) : SharedStores × Nat :=
  (stale.foldl recoverAbandoned stores, stale.length)

/-- The body of the loop in `_recover_orphaned_queued`. -/
def recoverOrphan (live : List String) (state : SharedStores × Nat) (id : UUID) :
    SharedStores × Nat :=
  if id.str ∈ live then state else (state.1.write (.requeue id.str), state.2 + 1)

def recoverOrphanedQueued (stores : SharedStores) (candidates : List UUID) :
    SharedStores × Nat :=
  if candidates = [] then
    (stores, 0)
  else
    candidates.foldl (recoverOrphan (stores.queue ++ stores.processing)) (stores, 0)

def reconcile (stores : SharedStores) (stale candidates : List UUID) :
    SharedStores × ReconcileStats :=
  let (reset, abandoned) := stores.recoverAbandonedRunning stale
  let (recovered, orphaned) := reset.recoverOrphanedQueued candidates
  (recovered, ⟨abandoned, orphaned⟩)

/-- The two lists are what the queries of the pass return, in some order. -/
structure Lists (config : Config) (stores : SharedStores) (stale candidates : List UUID) :
    Prop where
  abandoned : stale.Perm
    (stores.jobs.findStaleRunning stores.clock config.visibilityTimeoutSeconds)
  queued : candidates.Perm
    ((stores.recoverAbandonedRunning stale).1.jobs.findOrphanQueued stores.clock
      config.orphanGraceSeconds)

/-- A running job whose row is older than the visibility timeout. -/
def Stale (config : Config) (stores : SharedStores) (id : UUID) : Prop :=
  ∃ row, stores.jobs.lookup id = some row ∧ row.status = .running ∧
    row.updatedAt < stores.clock - seconds config.visibilityTimeoutSeconds

/-- A queued job in neither list, both of whose timestamps are older than the
grace period. -/
def Orphan (config : Config) (stores : SharedStores) (id : UUID) : Prop :=
  (∃ row, stores.jobs.lookup id = some row ∧ row.status = .queued ∧
    row.createdAt < stores.clock - seconds config.orphanGraceSeconds ∧
    row.updatedAt < stores.clock - seconds config.orphanGraceSeconds) ∧
      id.str ∉ stores.queue ∧ id.str ∉ stores.processing

/-! ## The first pass -/

variable {config : Config} {stores : SharedStores}

theorem mem_findStaleRunning {id : UUID} :
    id ∈ stores.jobs.findStaleRunning stores.clock config.visibilityTimeoutSeconds ↔
      Stale config stores id := by
  simp [JobTable.findStaleRunning, KeyedTable.mem_select, Stale]

theorem recoverAbandoned_clock (id : UUID) : (stores.recoverAbandoned id).clock = stores.clock :=
  rfl

theorem recoverAbandoned_lookup (id other : UUID) :
    (stores.recoverAbandoned id).jobs.lookup other =
      if other = id then
        (stores.jobs.lookup id).map (RepositoryUpdate.resetToQueued.onRow stores.clock)
      else
        stores.jobs.lookup other :=
  JobTable.lookup_execute ..

/-- What the loop over abandoned jobs does to the lists. -/
theorem abandoned_lists (stale : List UUID) (stores : SharedStores) :
    (stale.foldl recoverAbandoned stores).clock = stores.clock ∧
      (stale.foldl recoverAbandoned stores).queue =
        (stale.map UUID.str).reverse ++ stores.queue ∧
      (stale.foldl recoverAbandoned stores).processing =
        stores.processing.filter fun entry => entry ∉ stale.map UUID.str := by
  induction stale generalizing stores with
  | nil => simp
  | cons id stale ih =>
      obtain ⟨clock, queue, processing⟩ := ih (stores.recoverAbandoned id)
      refine ⟨clock, ?_, ?_⟩
      · rw [List.foldl_cons, queue]
        simp [recoverAbandoned, SharedStores.write, RedisLists.lpush, publish]
      · rw [List.foldl_cons, processing]
        have removed : (stores.recoverAbandoned id).processing =
            RedisLists.lrem stores.processing id.str := rfl
        rw [removed, RedisLists.lrem, List.filter_filter]
        refine List.filter_congr fun entry _ => ?_
        simp [Bool.and_comm]

theorem abandoned_lookup {stale : List UUID} (stores : SharedStores) (distinct : stale.Nodup)
    (id : UUID) :
    (stale.foldl recoverAbandoned stores).jobs.lookup id =
      if id ∈ stale then
        (stores.jobs.lookup id).map (RepositoryUpdate.resetToQueued.onRow stores.clock)
      else
        stores.jobs.lookup id := by
  induction stale generalizing stores with
  | nil => rfl
  | cons own stale ih =>
      obtain ⟨unlisted, distinct⟩ := List.nodup_cons.mp distinct
      rw [List.foldl_cons, ih (stores.recoverAbandoned own) distinct, recoverAbandoned_lookup,
        recoverAbandoned_clock]
      by_cases same : id = own
      · subst same
        simp [unlisted]
      · simp [same]

/-! ## The second pass -/

/-- The candidates that a pass pushes. -/
def missing (live : List String) (candidates : List UUID) : List UUID :=
  candidates.filter fun id => id.str ∉ live

theorem orphaned_fold (live : List String) (candidates : List UUID) (stores : SharedStores)
    (count : Nat) :
    candidates.foldl (recoverOrphan live) (stores, count) =
      (((missing live candidates).map UUID.str).foldl
          (fun stores entry => stores.write (.requeue entry)) stores,
        count + (missing live candidates).length) := by
  induction candidates generalizing stores count with
  | nil => rfl
  | cons id candidates ih =>
      rw [List.foldl_cons, recoverOrphan]
      by_cases alive : id.str ∈ live
      · simp [missing, alive, ih]
      · simp [missing, alive, ih, Nat.add_assoc, Nat.add_comm 1]

theorem requeue_fold (entries : List String) (stores : SharedStores) :
    entries.foldl (fun stores entry => stores.write (.requeue entry)) stores =
      { stores with
        queue := entries.reverse ++ stores.queue
        processing := stores.processing.filter fun entry => entry ∉ entries } := by
  induction entries generalizing stores with
  | nil => simp
  | cons entry entries ih =>
      rw [List.foldl_cons, ih]
      simp only [SharedStores.write, RedisLists.lpush, RedisLists.lrem, List.filter_filter,
        List.reverse_cons, List.append_assoc, List.singleton_append]
      congr 1
      refine List.filter_congr fun other _ => ?_
      simp [Bool.and_comm]

/-- The orphan pass pushes what is missing, and changes nothing else. -/
theorem recoverOrphanedQueued_eq (stores : SharedStores) (candidates : List UUID) :
    let orphans := missing (stores.queue ++ stores.processing) candidates
    stores.recoverOrphanedQueued candidates =
      ({ stores with queue := (orphans.map UUID.str).reverse ++ stores.queue },
        orphans.length) := by
  intro orphans
  unfold recoverOrphanedQueued
  split
  case isTrue none =>
    have empty : orphans = [] := by simp [orphans, missing, none]
    simp [empty]
  case isFalse =>
    have untouched : stores.processing.filter (fun entry => entry ∉ orphans.map UUID.str) =
        stores.processing := by
      refine List.filter_eq_self.mpr fun entry inFlight => decide_eq_true fun pushed => ?_
      obtain ⟨id, unlisted, rfl⟩ := List.mem_map.mp pushed
      have absent := of_decide_eq_true (List.mem_filter.mp unlisted).2
      exact absent (List.mem_append_right _ inFlight)
    rw [orphaned_fold, requeue_fold, untouched, Nat.zero_add]

/-! ## The whole pass -/

/-- What one pass does: which jobs it recovers, what becomes of the rows and of
the lists, and what it reports. -/
structure Recovers (config : Config) (stores : SharedStores) (abandoned orphans : List UUID)
    (next : SharedStores) (stats : ReconcileStats) : Prop where
  mem_abandoned : ∀ id, id ∈ abandoned ↔ Stale config stores id
  mem_orphans : ∀ id, id ∈ orphans ↔ Orphan config stores id
  distinct : abandoned.Nodup ∧ orphans.Nodup
  clock : next.clock = stores.clock
  reset : ∀ id row, stores.jobs.lookup id = some row → id ∈ abandoned →
    next.jobs.lookup id = some { row with status := .queued, updatedAt := stores.clock }
  kept : ∀ id, id ∉ abandoned → next.jobs.lookup id = stores.jobs.lookup id
  queue : next.queue =
    (orphans.map UUID.str).reverse ++ ((abandoned.map UUID.str).reverse ++ stores.queue)
  processing : next.processing =
    stores.processing.filter fun entry => entry ∉ abandoned.map UUID.str
  stats : stats = ⟨abandoned.length, orphans.length⟩

theorem recovers_reconcile {stale candidates : List UUID}
    (lists : stores.Lists config stale candidates) :
    ∃ orphans, Recovers config stores stale orphans (stores.reconcile stale candidates).1
      (stores.reconcile stale candidates).2 := by
  obtain ⟨clock, queue, processing⟩ := abandoned_lists stale stores
  have mem_stale : ∀ id, id ∈ stale ↔ Stale config stores id := fun id =>
    lists.abandoned.mem_iff.trans mem_findStaleRunning
  have distinct : stale.Nodup := lists.abandoned.nodup_iff.mpr (KeyedTable.nodup_select _ _)
  have lookup := abandoned_lookup stores distinct
  set reset := stale.foldl recoverAbandoned stores with reset_eq
  set orphans := missing (reset.queue ++ reset.processing) candidates with orphans_eq
  have whole : stores.reconcile stale candidates =
      ({ reset with queue := (orphans.map UUID.str).reverse ++ reset.queue },
        ⟨stale.length, orphans.length⟩) := by
    simp only [reconcile, recoverAbandonedRunning, ← reset_eq, recoverOrphanedQueued_eq]
    rfl
  rw [whole]
  have queued_kept : ∀ {id row}, reset.jobs.lookup id = some row → id ∉ stale →
      stores.jobs.lookup id = some row := by
    intro id row found unlisted
    simpa [lookup id, unlisted] using found
  refine ⟨orphans, mem_stale, fun id => ?_, ⟨distinct, ?_⟩, clock, fun id row found listed => ?_,
    fun id unlisted => ?_, ?_, processing, rfl⟩
  · have listed : id ∈ candidates ↔ ∃ row, reset.jobs.lookup id = some row ∧
        row.status = .queued ∧ row.createdAt < stores.clock - seconds config.orphanGraceSeconds ∧
        row.updatedAt < stores.clock - seconds config.orphanGraceSeconds := by
      refine lists.queued.mem_iff.trans ?_
      simp [recoverAbandonedRunning, JobTable.findOrphanQueued, KeyedTable.mem_select,
        ← reset_eq]
    have live : id ∉ stale → (id.str ∈ reset.queue ++ reset.processing ↔
        id.str ∈ stores.queue ∨ id.str ∈ stores.processing) := by
      intro unlisted
      have elsewhere : id.str ∉ stale.map UUID.str := by
        simpa [UUID.str_injective.eq_iff] using unlisted
      rw [queue, processing, List.mem_append, List.mem_append, List.mem_reverse, List.mem_filter]
      simp only [elsewhere, false_or, not_false_eq_true, decide_true, and_true]
    constructor
    · intro member
      obtain ⟨candidate, absent⟩ := List.mem_filter.mp member
      have absent := of_decide_eq_true absent
      obtain ⟨row, found, old⟩ := listed.mp candidate
      have unlisted : id ∉ stale := by
        intro abandoned
        have pushed : id.str ∈ reset.queue := by
          rw [queue]
          exact List.mem_append_left _ (List.mem_reverse.mpr (List.mem_map_of_mem abandoned))
        exact absent (List.mem_append_left _ pushed)
      rw [live unlisted, not_or] at absent
      exact ⟨⟨row, queued_kept found unlisted, old⟩, absent⟩
    · rintro ⟨⟨row, found, waits, old⟩, absent⟩
      have unlisted : id ∉ stale := by
        intro abandoned
        obtain ⟨other, same, runs, _⟩ := (mem_stale id).mp abandoned
        rw [found] at same
        cases same
        simp [waits] at runs
      refine List.mem_filter.mpr ⟨listed.mpr ⟨row, ?_, waits, old⟩, decide_eq_true ?_⟩
      · simpa [lookup id, unlisted] using found
      · rw [live unlisted, not_or]
        exact absent
  · have nodup : candidates.Nodup := lists.queued.nodup_iff.mpr (KeyedTable.nodup_select _ _)
    exact nodup.filter _
  · obtain ⟨other, same, runs, _⟩ := (mem_stale id).mp listed
    rw [found] at same
    cases same
    change reset.jobs.lookup id = _
    simp [lookup id, listed, found, RepositoryUpdate.onRow, RepositoryUpdate.guard, runs,
      RepositoryUpdate.set]
  · change reset.jobs.lookup id = _
    simp [lookup id, unlisted]
  · change (orphans.map UUID.str).reverse ++ reset.queue = _
    rw [queue]

namespace Recovers

variable {abandoned orphans : List UUID} {next : SharedStores} {stats : ReconcileStats}

theorem disjoint (pass : Recovers config stores abandoned orphans next stats) {id : UUID}
    (member : id ∈ abandoned) : id ∉ orphans := by
  intro orphan
  obtain ⟨row, found, runs, _⟩ := (pass.mem_abandoned id).mp member
  obtain ⟨⟨other, same, waits, _⟩, _⟩ := (pass.mem_orphans id).mp orphan
  rw [found] at same
  cases same
  simp [runs] at waits

theorem count_map_str {ids : List UUID} (distinct : ids.Nodup) (id : UUID) :
    (ids.map UUID.str).count id.str = if id ∈ ids then 1 else 0 := by
  rw [List.count_map_of_injective _ _ UUID.str_injective]
  exact distinct.count

theorem once (pass : Recovers config stores abandoned orphans next stats)
    (unqueued : ∀ id row, stores.jobs.lookup id = some row → row.status = .running →
      id.str ∉ stores.queue) {id : UUID} (recovered : id ∈ abandoned ∨ id ∈ orphans) :
    next.queue.count id.str = 1 ∧ id.str ∉ next.processing := by
  obtain ⟨abandonedOnce, orphansOnce⟩ := pass.distinct
  rw [pass.queue, pass.processing, List.count_append, List.count_append, List.count_reverse,
    List.count_reverse, count_map_str abandonedOnce, count_map_str orphansOnce, List.mem_filter]
  obtain member | member := recovered
  · obtain ⟨row, found, runs, _⟩ := (pass.mem_abandoned id).mp member
    have absent := List.count_eq_zero.mpr (unqueued id row found runs)
    simp [member, pass.disjoint member, absent]
  · obtain ⟨_, unqueued, landed⟩ := (pass.mem_orphans id).mp member
    have absent := List.count_eq_zero.mpr unqueued
    have other : id ∉ abandoned := fun stale => pass.disjoint stale member
    simp [member, other, absent, landed]

theorem settled (pass : Recovers config stores abandoned orphans next stats) (id : UUID) :
    ¬ Stale config next id ∧ ¬ Orphan config next id := by
  have queued : id ∈ abandoned ∨ id ∈ orphans → id.str ∈ next.queue := by
    intro recovered
    rw [pass.queue, List.mem_append, List.mem_append, List.mem_reverse, List.mem_reverse]
    exact recovered.elim (fun member => Or.inr (Or.inl (List.mem_map_of_mem member)))
      (fun member => Or.inl (List.mem_map_of_mem member))
  by_cases member : id ∈ abandoned
  · obtain ⟨row, found, _⟩ := (pass.mem_abandoned id).mp member
    have reset := pass.reset id row found member
    refine ⟨?_, fun orphan => orphan.2.1 (queued (Or.inl member))⟩
    rintro ⟨other, same, runs, _⟩
    rw [reset] at same
    cases same
    cases runs
  · have kept := pass.kept id member
    constructor
    · rintro ⟨row, found, runs, old⟩
      rw [kept] at found
      rw [pass.clock] at old
      exact member ((pass.mem_abandoned id).mpr ⟨row, found, runs, old⟩)
    · rintro ⟨⟨row, found, waits, old⟩, unqueued, landed⟩
      rw [kept] at found
      rw [pass.clock] at old
      refine unqueued (queued (Or.inr ((pass.mem_orphans id).mpr ⟨⟨row, found, waits, old⟩, ?_⟩)))
      constructor
      · intro waiting
        refine unqueued ?_
        rw [pass.queue]
        exact List.mem_append_right _ (List.mem_append_right _ waiting)
      · intro inFlight
        refine landed ?_
        rw [pass.processing]
        refine List.mem_filter.mpr ⟨inFlight, decide_eq_true ?_⟩
        simpa [UUID.str_injective.eq_iff] using member

end Recovers

/-- A pass with nothing to recover changes nothing. -/
theorem reconcile_of_settled {stale candidates : List UUID}
    (lists : stores.Lists config stale candidates)
    (settled : ∀ id, ¬ Stale config stores id ∧ ¬ Orphan config stores id) :
    stores.reconcile stale candidates = (stores, ⟨0, 0⟩) := by
  obtain ⟨orphans, pass⟩ := recovers_reconcile lists
  have noneStale : stale = [] :=
    List.eq_nil_iff_forall_not_mem.mpr fun id member =>
      (settled id).1 ((pass.mem_abandoned id).mp member)
  have noOrphans : orphans = [] :=
    List.eq_nil_iff_forall_not_mem.mpr fun id member =>
      (settled id).2 ((pass.mem_orphans id).mp member)
  subst noneStale noOrphans
  have stats := pass.stats
  simp only [reconcile, recoverAbandonedRunning, recoverOrphanedQueued_eq] at stats ⊢
  have none : missing (stores.queue ++ stores.processing) candidates = [] :=
    List.length_eq_zero_iff.mp (congrArg ReconcileStats.orphanedQueued stats)
  simp [none]

/-- One pass recovers exactly the abandoned and the orphaned jobs, reports how
many there were, and leaves nothing for a second pass at the same time. -/
theorem reconcile_once_suffices {stale candidates : List UUID}
    (unqueued : ∀ id row, stores.jobs.lookup id = some row → row.status = .running →
      id.str ∉ stores.queue)
    (lists : stores.Lists config stale candidates) :
    let (next, stats) := stores.reconcile stale candidates
    ∃ abandoned orphans, Recovers config stores abandoned orphans next stats ∧
      (∀ id, id ∈ abandoned ∨ id ∈ orphans →
        next.queue.count id.str = 1 ∧ id.str ∉ next.processing) ∧
      ∀ stale' candidates', next.Lists config stale' candidates' →
        next.reconcile stale' candidates' = (next, ⟨0, 0⟩) := by
  obtain ⟨orphans, pass⟩ := recovers_reconcile lists
  exact ⟨stale, orphans, pass, fun id => pass.once unqueued,
    fun _ _ again => reconcile_of_settled again pass.settled⟩

/-- An abandoned job, in flight, and an orphaned one. -/
def overdue : SharedStores :=
  let request : CreateJobRequest := ⟨"org/model", "datasets/chat/v1/data.json", ⟨1 / 2, 1, 1, 1, 1⟩⟩
  { SharedStores.empty (seconds 100) [] with
    jobs := ((∅ : JobTable).insert ⟨7⟩ { JobStore.newRow 0 request with status := .running }).insert
      ⟨8⟩ (JobStore.newRow 0 request)
    processing := [UUID.str ⟨7⟩] }

theorem reconcile_once_suffices_overdue :
    (overdue.reconcile [⟨7⟩] [⟨8⟩]).2 = ⟨1, 1⟩ ∧
      ∃ abandoned orphans, Recovers ⟨10, 20, 5⟩ overdue abandoned orphans
        (overdue.reconcile [⟨7⟩] [⟨8⟩]).1 (overdue.reconcile [⟨7⟩] [⟨8⟩]).2 := by
  have unqueued : ∀ id row, overdue.jobs.lookup id = some row → row.status = .running →
      id.str ∉ overdue.queue := fun _ _ _ _ => List.not_mem_nil
  have lists : overdue.Lists ⟨10, 20, 5⟩ [⟨7⟩] [⟨8⟩] := by
    constructor <;> decide +kernel
  obtain ⟨abandoned, orphans, pass, _⟩ := reconcile_once_suffices unqueued lists
  exact ⟨by decide +kernel, abandoned, orphans, pass⟩

end SharedStores

/-! ## The same pass by its control points -/

namespace ReconcilerPc

open Relation

variable {config : Config} {stores : SharedStores}

/-- A call at the stores' clock that does not fail. -/
def calmChoice (stores : SharedStores) (order : List UUID) : Choice :=
  ⟨.none, stores.clock, ⟨0⟩, 0, order, .heartbeat, ""⟩

/-- A step of a pass in which no call fails and no time passes. -/
def CalmStep (config : Config) (before after : SharedStores × Next ReconcilerPc Unit) : Prop :=
  ∃ pc order write, before.2 = .goto pc ∧
    pc.step config before.1 (calmChoice before.1 order) = some (write, after.2) ∧
    after.1 = before.1.write write

theorem calmStep {pc : ReconcilerPc} {write : Write} {next : Next ReconcilerPc Unit}
    (order : List UUID)
    (stepped : pc.step config stores (calmChoice stores order) = some (write, next)) :
    CalmStep config (stores, .goto pc) (stores.write write, next) :=
  ⟨pc, order, write, rfl, stepped, rfl⟩

theorem run_abandoned (stale : List UUID) (stores : SharedStores) :
    ReflTransGen (CalmStep config) (stores, .goto (nextAbandoned stale))
      (stale.foldl SharedStores.recoverAbandoned stores, .goto .findOrphanQueued) := by
  induction stale generalizing stores with
  | nil => exact .refl
  | cons id stale ih =>
      refine .head (calmStep [] rfl) (.head (calmStep [] rfl) (.head (calmStep [] rfl) ?_))
      exact ih (stores.recoverAbandoned id)

theorem run_orphans (live : List String) (candidates : List UUID) (stores : SharedStores)
    (count : Nat) :
    ReflTransGen (CalmStep config) (stores, nextOrphan live candidates)
      ((candidates.foldl (SharedStores.recoverOrphan live) (stores, count)).1, .returned ()) := by
  induction candidates generalizing stores count with
  | nil => exact .refl
  | cons id candidates ih =>
      rw [List.foldl_cons, SharedStores.recoverOrphan]
      by_cases alive : id.str ∈ live
      · rw [if_pos alive]
        exact .head (calmStep [] (if_pos alive)) (ih stores count)
      · rw [if_neg alive]
        exact .head (calmStep [] (if_neg alive)) (ih _ _)

/-- The function is the run of the control points. -/
theorem run_reconcile {stale candidates : List UUID}
    (lists : stores.Lists config stale candidates) :
    ReflTransGen (CalmStep config) (stores, .goto .findStaleRunning)
      ((stores.reconcile stale candidates).1, .returned ()) := by
  have selected : findStaleRunning.step config stores (calmChoice stores stale) =
      some (.nothing, .goto (nextAbandoned stale)) := if_pos lists.abandoned
  refine .head (calmStep stale selected) ((run_abandoned stale stores).trans ?_)
  have clock := (SharedStores.abandoned_lists stale stores).1
  have queued := lists.queued
  simp only [SharedStores.recoverAbandonedRunning, ← clock] at queued
  simp only [SharedStores.reconcile, SharedStores.recoverAbandonedRunning,
    SharedStores.recoverOrphanedQueued]
  set reset := stale.foldl SharedStores.recoverAbandoned stores
  have selected : findOrphanQueued.step config reset (calmChoice reset candidates) =
      some (.nothing, if candidates = [] then .returned () else .goto (.queuedIds candidates)) :=
    if_pos queued
  by_cases none : candidates = []
  · rw [if_pos none] at selected ⊢
    exact .single (calmStep candidates selected)
  · rw [if_neg none] at selected ⊢
    refine .head (calmStep candidates selected) (.head (calmStep [] rfl) ?_)
    exact .head (calmStep [] rfl) (run_orphans (reset.queue ++ reset.processing) candidates reset 0)

end ReconcilerPc

end Crucible
