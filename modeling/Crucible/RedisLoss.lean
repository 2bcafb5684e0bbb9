import Crucible.JobAnswers
import Crucible.StoreReferences

/-!
# Losing Redis

The lists and the hashes can be lost at any moment, and Postgres is enough to
get them back: after a loss, and as long as no worker process then ends with a
job in its hands that this leaves stranded, one reconcile pass puts every
unfinished job back into the queue, also those that crashes before the loss had
stranded.
-/

namespace Crucible

open LabelledRuns

namespace Cluster

variable {n m : Nat} {config : Config} {cluster next : Cluster n m}

def loseRedis (cluster : Cluster n m) : Cluster n m :=
  { cluster with
    stores := { cluster.stores with queue := [], processing := [], statuses := fun _ => none } }

def lossyStep (config : Config) (cluster : Cluster n m) :
    Option (Action n m) → Option (Cluster n m)
  | none => some cluster.loseRedis
  | some action => step config cluster action

theorem referenced_loseRedis (held : Referenced cluster) : Referenced cluster.loseRedis where
  stores := by
    refine ⟨fun entry member => ?_, fun _ _ => nofun, held.stores.objects⟩
    rcases member with member | member <;> cases member
  named := by
    refine ⟨fun rawJobId member => ?_, held.named.held⟩
    rcases member with member | member <;> cases member
  workers := held.workers
  uploads := held.uploads
  inserted := held.inserted

theorem truthful_loseRedis {job : Job} (held : Truthful cluster.stores job) :
    Truthful cluster.loseRedis.stores job :=
  ⟨held.posted, held.checkpoint, held.failure, held.final⟩

theorem answerable_loseRedis (held : cluster.Answerable) : cluster.loseRedis.Answerable where
  coherent := by
    refine ⟨fun id row found => (held.coherent.rows id row found).of_stores fun stored => stored,
      fun worker => (held.coherent.workers worker).grow fun _ stored => stored⟩
  hashes _ _ := nofun
  requests request :=
    ⟨fun job shown => truthful_loseRedis ((held.requests request).truthful job shown),
      (held.requests request).active, (held.requests request).cancelled,
      (held.requests request).succeeded⟩

theorem runs_lossy {clock : Time} {models : List ModelRow}
    (run : Runs (lossyStep config) Any (initial clock models) cluster) :
    Referenced cluster ∧ cluster.Answerable := by
  refine runs_invariant (fun state : Cluster n m => Referenced state ∧ state.Answerable) ?_
    ⟨referenced_initial clock models, answerable_initial clock models⟩ run
  intro current action next held _ moved
  cases action with
  | none =>
      cases moved
      exact ⟨referenced_loseRedis held.1, answerable_loseRedis held.2⟩
  | some action => exact ⟨referenced_step held.1 moved, answerable_step held.2 moved⟩

/-- After a loss no job is stranded. -/
theorem accounted_loseRedis (held : Referenced cluster) (answerable : cluster.Answerable) :
    Accounted cluster.loseRedis where
  held _ stranded := by cases stranded.2.1
  listed _ member := by rcases member with member | member <;> cases member
  passes worker id listed := by
    refine held.workers worker id ?_
    change id ∈ (cluster.workers worker).pc.ids at listed
    cases at_ : (cluster.workers worker).pc <;> rw [at_] at listed
    case reconciling => exact listed
    all_goals cases listed
  inserted := held.inserted
  cancelled request job at_ := by
    have faithful := answerable.requests request
    have snapshot : (cluster.requests request).pc.snapshot = some job := congrArg _ at_
    have truthful := faithful.truthful job snapshot
    have cancelled := faithful.cancelled job at_
    exact ⟨job.toJobRow, truthful.final (.inr (.inr cancelled)), by rw [cancelled]; rfl⟩

/-- In every run in which Redis may lose its data any number of times: if no
worker process has left a job stranded since the last loss, then once all
workers are dead a reconcile pass that runs alone comes to an end, and every
unfinished job that nobody has touched for longer than both timeouts is queued
in Postgres and in `jobs:queue`. -/
theorem lost_redis_recovered {clock : Time} {models : List ModelRow} {before : Cluster n m}
    (run : Runs (lossyStep config) Any (initial clock models) before)
    (after : Runs (step config) (EndsCleanly config) before.loseRedis cluster)
    (dead : ∀ worker, (cluster.workers worker).pc = .dead) {worker : Fin n}
    {started : Cluster n m} (begun : step config cluster (.start worker) = some started) :
    (∀ between pc, Runs (step config) (Alone worker) started between →
        (between.workers worker).pc = .reconciling pc → Finishes config between worker) ∧
      ∀ finished lastReconcile, Runs (step config) (Alone worker) started finished →
        (finished.workers worker).pc = .claiming lastReconcile →
        ∀ id row, cluster.stores.jobs.lookup id = some row → row.status.terminal = false →
          cluster.stores.Untouched config row → finished.stores.Settled id := by
  obtain ⟨referenced, answerable⟩ := runs_lossy run
  have accounted := runs_invariant Accounted
    (fun _ _ _ before clean moved => accounted_step before clean moved)
    (accounted_loseRedis referenced answerable) after
  obtain ⟨finishes, recovers⟩ := reconcile_recovers_iff begun
  refine ⟨finishes, fun finished lastReconcile pass ends id row found open_ untouched => ?_⟩
  refine (recovers finished lastReconcile pass ends id row found open_ untouched).mpr ?_
  intro stranded
  obtain ⟨custodian, holds⟩ := accounted.held id stranded
  rw [dead custodian] at holds
  cases holds

/-- A crash has stranded job seven; after a loss of Redis a pass recovers it. -/
theorem lost_redis_recovered_diedClaiming :
    ∃ (before : Cluster 1 1) (finished : Cluster 1 1), before.stores.Stranded jobSeven ∧
      finished.stores.Settled jobSeven := by
  have replays : (replay (lossyStep shortConfig) Any (initial 0 sevenModels)
      ((diedClaiming (0 : Fin 1) (0 : Fin 1)).map some)).any (fun before =>
        decide (before.stores.Stranded jobSeven) &&
          (decide (∀ worker, (before.loseRedis.workers worker).pc = .dead) &&
            (sevenWaits shortConfig before.loseRedis &&
              (step shortConfig before.loseRedis (.start 0)).any fun started =>
                (replay (step shortConfig) (Alone 0) started (orphanPass 0)).any fun finished =>
                  passEnded finished 0))) = true := by
    decide +kernel
  obtain ⟨before, run, reached⟩ := exists_runs_of_replay replays
  obtain ⟨stranded, reached⟩ := Bool.and_eq_true_iff.mp reached
  obtain ⟨dead, reached⟩ := Bool.and_eq_true_iff.mp reached
  obtain ⟨waits, reached⟩ := Bool.and_eq_true_iff.mp reached
  obtain ⟨row, found, waits⟩ := (Option.any_eq_true _ _).mp waits
  obtain ⟨open_, untouched⟩ := of_decide_eq_true waits
  obtain ⟨started, begun, reached⟩ := (Option.any_eq_true _ _).mp reached
  obtain ⟨finished, pass, ended⟩ := exists_runs_of_replay reached
  obtain ⟨lastReconcile, ends⟩ := claiming_of_passEnded ended
  exact ⟨before, finished, of_decide_eq_true stranded,
    (lost_redis_recovered run .refl (of_decide_eq_true dead) begun).2 finished lastReconcile
      pass ends jobSeven row found open_ untouched⟩

end Cluster

end Crucible
