import Crucible.CrashWindows
import Crucible.RunTotals

/-!
# Stopping workers gracefully

A signal only sets the stop event of a worker process, and the loop of `run`
looks at it before each claim.  A worker therefore finishes the job in its hands
and claims at most one more, and workers that all end between two jobs leave
nothing behind in `jobs:processing`.
-/

namespace Crucible

open LabelledRuns

/-- The head of a worker's loop: its stop event, whether the loop has found the
event unset since its last call, and whether `run` has returned. -/
structure LoopHead where
  stop : Bool
  tested : Bool
  returned : Bool
  deriving DecidableEq, Repr

/-- The platform with the loop heads of its workers. -/
structure StoppableCluster (n m : Nat) where
  cluster : Cluster n m
  heads : Fin n → LoopHead

namespace StoppableCluster

open Cluster (createSeven calls trains sevenOutput sevenModels shortConfig)

variable {n m : Nat}

inductive Action (n m : Nat) where
  | handle (worker : Fin n)
  | test (worker : Fin n)
  | act (action : Cluster.Action n m)

def putHead (system : StoppableCluster n m) (worker : Fin n) (head : LoopHead) :
    StoppableCluster n m :=
  { system with heads := Function.update system.heads worker head }

/-- The loop claims only after it has looked at the event. -/
def MayAct (system : StoppableCluster n m) : Cluster.Action n m → Prop
  | .work worker _ => ∀ lastReconcile,
      (system.cluster.workers worker).pc = .claiming lastReconcile →
        (system.heads worker).tested = true
  | _ => True

/-- The heads after an action: a call ends what the test has allowed, and a
fresh process has a fresh event. -/
def headsAfter (system : StoppableCluster n m) : Cluster.Action n m → Fin n → LoopHead
  | .work worker _ =>
      Function.update system.heads worker { system.heads worker with tested := false }
  | .start worker => Function.update system.heads worker ⟨false, false, false⟩
  | _ => system.heads

def atHead (system : StoppableCluster n m) (worker : Fin n) : Bool :=
  match (system.cluster.workers worker).pc with
  | .claiming _ => true
  | _ => false

instance (system : StoppableCluster n m) (action : Cluster.Action n m) :
    Decidable (system.MayAct action) :=
  match action with
  | .work worker _ =>
      decidable_of_iff (system.atHead worker = true → (system.heads worker).tested = true) (by
        cases at_ : (system.cluster.workers worker).pc <;> simp [MayAct, atHead, at_])
  | .tick _ | .setModels _ | .start _ | .crash _ | .arrive _ _ | .serve _ _ | .drop _ =>
      isTrue trivial

/-- One step: a signal is handled, a loop looks at its event, or the platform
makes a step. -/
def step (config : Config) (system : StoppableCluster n m) :
    Action n m → Option (StoppableCluster n m)
  | .handle worker =>
      if (system.cluster.workers worker).pc = .dead then
        none
      else
        some (system.putHead worker { system.heads worker with stop := true })
  | .test worker =>
      if system.atHead worker = true ∧ (system.heads worker).tested = false then
        if (system.heads worker).stop then
          some { system.putHead worker { system.heads worker with returned := true } with
            cluster := system.cluster.putWorker worker .nothing .dead }
        else
          some (system.putHead worker { system.heads worker with tested := true })
      else
        none
  | .act action =>
      if system.MayAct action then
        (system.cluster.step config action).map fun next => ⟨next, system.headsAfter action⟩
      else
        none

def initial (clock : Time) (models : List ModelRow) : StoppableCluster n m :=
  ⟨Cluster.initial clock models, fun _ => ⟨false, false, false⟩⟩

variable {config : Config} {system next : StoppableCluster n m}

/-- For the platform a test is nothing, or the end of a process. -/
theorem step_cluster {action : Action n m} (moved : step config system action = some next) :
    next.cluster = system.cluster ∨
      (∃ worker, action = .test worker ∧ system.atHead worker = true ∧
        next.cluster = system.cluster.putWorker worker .nothing .dead) ∨
      ∃ inner, action = .act inner ∧ system.MayAct inner ∧
        system.cluster.step config inner = some next.cluster := by
  cases action with
  | handle worker =>
      obtain ⟨_, moved⟩ := Option.ite_none_left_eq_some.mp moved
      cases moved
      exact .inl rfl
  | test worker =>
      obtain ⟨⟨at_, _⟩, moved⟩ := Option.ite_none_right_eq_some.mp moved
      split at moved <;> cases moved
      · exact .inr (.inl ⟨worker, rfl, at_, rfl⟩)
      · exact .inl rfl
  | act inner =>
      obtain ⟨allowed, moved⟩ := Option.ite_none_right_eq_some.mp moved
      obtain ⟨after, inside, rfl⟩ := Option.map_eq_some_iff.mp moved
      exact .inr (.inr ⟨inner, rfl, allowed, inside⟩)

/-- Every run is one of the platform, in which returning is a way to end. -/
theorem runs_cluster {ok : StoppableCluster n m → Action n m → Prop}
    {last : StoppableCluster n m} (run : Runs (step config) ok system last) :
    Runs (Cluster.step config) Any system.cluster last.cluster := by
  refine runs_invariant
    (fun state => Runs (Cluster.step config) Any system.cluster state.cluster) ?_ .refl run
  intro current action next held _ moved
  rcases step_cluster moved with same | ⟨worker, _, _, same⟩ | ⟨inner, _, _, inside⟩
  · rwa [same]
  · have ended : Cluster.step config current.cluster (.crash worker) = some next.cluster := by
      rw [same]
      rfl
    exact runs_tail held trivial ended
  · exact runs_tail held trivial inside

/-! ## Claims after a signal -/

/-- The calls of `claim` that a worker makes. -/
def claimCalls (worker : Fin n) (before : StoppableCluster n m) (action : Action n m)
    (_ : StoppableCluster n m) : Nat :=
  match action with
  | .act (.work mover _) => if mover = worker ∧ before.atHead worker = true then 1 else 0
  | _ => 0

def NotStarted (worker : Fin n) (_ : StoppableCluster n m) : Action n m → Prop
  | .act (.start mover) => mover ≠ worker
  | _ => True

instance (worker : Fin n) (system : StoppableCluster n m) (action : Action n m) :
    Decidable (NotStarted worker system action) :=
  match action with
  | .act (.start mover) => inferInstanceAs (Decidable (mover ≠ worker))
  | .act (.work _ _) | .act (.tick _) | .act (.setModels _) | .act (.crash _)
  | .act (.arrive _ _) | .act (.serve _ _) | .act (.drop _) | .handle _ | .test _ => isTrue trivial

/-- The claim that a worker may still make after its event was set. -/
def allowance (worker : Fin n) (system : StoppableCluster n m) : Nat :=
  if (system.heads worker).tested then 1 else 0

theorem putHead_of_ne {worker other : Fin n} (distinct : other ≠ worker) (head : LoopHead) :
    (system.putHead worker head).heads other = system.heads other :=
  Function.update_of_ne distinct ..

/-- Once the event is set it stays set, and no test allows another claim. -/
theorem stopped_step {worker : Fin n} {action : Action n m}
    (stopped : (system.heads worker).stop = true) (kept : NotStarted worker system action)
    (moved : step config system action = some next) :
    (next.heads worker).stop = true ∧
      claimCalls worker system action next + next.allowance worker ≤
        system.allowance worker := by
  have same (heads : next.heads worker = system.heads worker)
      (calls : claimCalls worker system action next = 0) :
      (next.heads worker).stop = true ∧
        claimCalls worker system action next + next.allowance worker ≤
          system.allowance worker := by
    rw [calls, allowance, allowance, heads, Nat.zero_add]
    exact ⟨stopped, le_rfl⟩
  cases action with
  | handle mover =>
      obtain ⟨_, moved⟩ := Option.ite_none_left_eq_some.mp moved
      cases moved
      by_cases own : worker = mover
      · subst own
        simp [putHead, allowance, claimCalls]
      · exact same (putHead_of_ne own _) rfl
  | test mover =>
      obtain ⟨⟨at_, untested⟩, moved⟩ := Option.ite_none_right_eq_some.mp moved
      by_cases own : worker = mover
      · subst own
        rw [if_pos stopped] at moved
        cases moved
        simp [putHead, allowance, claimCalls, stopped]
      · split at moved <;> cases moved <;> exact same (putHead_of_ne own _) rfl
  | act inner =>
      obtain ⟨allowed, moved⟩ := Option.ite_none_right_eq_some.mp moved
      obtain ⟨after, inside, rfl⟩ := Option.map_eq_some_iff.mp moved
      cases inner with
      | work mover choice =>
          by_cases own : worker = mover
          · subst own
            refine ⟨by simp [headsAfter, stopped], ?_⟩
            have spent : allowance worker ⟨after, system.headsAfter (.work worker choice)⟩ = 0 := by
              simp [allowance, headsAfter]
            rw [spent, Nat.add_zero]
            simp only [claimCalls, true_and]
            split
            case isTrue at_ =>
              have tested : (system.heads worker).tested = true := by
                unfold atHead at at_
                split at at_
                case h_1 lastReconcile pc => exact allowed lastReconcile pc
                case h_2 => cases at_
              simp [allowance, tested]
            case isFalse => exact Nat.zero_le _
          · refine same (Function.update_of_ne own ..) ?_
            simp [claimCalls, Ne.symm own]
      | start mover => exact same (Function.update_of_ne (Ne.symm kept) ..) rfl
      | _ => exact same rfl rfl

/-- After its stop event has been set, a worker process calls `claim` at most
once more, and only if its loop had looked at the event before. -/
theorem claims_after_stop {worker : Fin n} (stopped : (system.heads worker).stop = true)
    {last : StoppableCluster n m} {actions : List (Action n m)}
    (followed : replay (step config) (NotStarted worker) system actions = some last) :
    total (step config) (claimCalls worker) system actions ≤ system.allowance worker ∧
      system.allowance worker ≤ 1 := by
  have paid := total_le (step config) (claimCalls worker) (fun _ _ _ => 0) (allowance worker)
    (fun state => (state.heads worker).stop = true)
    (fun _ _ _ stopped kept moved => (stopped_step stopped kept moved).1)
    (fun _ _ _ stopped kept moved => (stopped_step stopped kept moved).2) stopped followed
  rw [total_zero] at paid
  refine ⟨by omega, ?_⟩
  unfold allowance
  split <;> omega

/-- A worker executes job seven when its event is set, finishes the job and
returns. -/
def stoppedRun (worker : Fin n) (request : Fin m) : List (Action n m) :=
  (createSeven request ++ Cluster.Action.start worker :: calls worker 0 2).map .act ++
    .test worker :: (calls worker 0 5).map .act ++
    .handle worker :: (trains worker 0 sevenOutput ++ calls worker 0 4).map .act ++
    [.test worker]

def hasReturned (worker : Fin n) (system : StoppableCluster n m) : Bool :=
  (system.heads worker).returned && decide ((system.cluster.workers worker).pc = .dead)

/-- The loop has looked at its event when the signal arrives, and claims. -/
theorem claims_after_stop_stoppedRun :
    ∃ system : StoppableCluster 1 1, (system.heads 0).stop = true ∧
      total (step shortConfig) (claimCalls 0) system
          [.act (.work 0 (Cluster.callAt 0))] = 1 ∧
        total (step shortConfig) (claimCalls 0) system
          [.act (.work 0 (Cluster.callAt 0))] ≤ system.allowance 0 := by
  have replays : (replay (step shortConfig) Any (initial 0 sevenModels)
      ((stoppedRun (0 : Fin 1) (0 : Fin 1)).take 7 ++ [.handle 0])).any (fun system =>
        (system.heads 0).stop && ((replay (step shortConfig) (NotStarted 0) system
          [.act (.work 0 (Cluster.callAt 0))]).isSome &&
          decide (total (step shortConfig) (claimCalls 0) system
            [.act (.work 0 (Cluster.callAt 0))] = 1))) = true := by
    decide +kernel
  obtain ⟨system, _, reached⟩ := exists_runs_of_replay replays
  obtain ⟨stopped, reached⟩ := Bool.and_eq_true_iff.mp reached
  obtain ⟨followed, once⟩ := Bool.and_eq_true_iff.mp reached
  obtain ⟨last, followed⟩ := Option.isSome_iff_exists.mp followed
  exact ⟨system, stopped, of_decide_eq_true once, (claims_after_stop stopped followed).1⟩

end StoppableCluster

/-! ## Nothing stays in flight -/

/-- The entry of `jobs:processing` that a worker has in its hands. -/
def WorkerPc.claimed : WorkerPc → Option String
  | .processing _ rawJobId _ _ => some rawJobId
  | _ => none

/-- An entry of `jobs:processing` was there before, or the write claimed it. -/
theorem SharedStores.mem_processing_write {stores : SharedStores} {write : Write}
    {entry : String} (member : entry ∈ (stores.write write).processing) :
    entry ∈ stores.processing ∨ write = .claim ∧ stores.queue.getLast? = some entry := by
  cases write with
  | claim =>
      simp only [SharedStores.write] at member
      split at member
      case h_2 => exact .inl member
      case h_1 raw queue processing moved =>
        obtain ⟨split, rfl⟩ := RedisLists.brpoplpush_eq_some moved
        rcases List.mem_cons.mp member with rfl | old
        · exact .inr ⟨rfl, by rw [split, List.getLast?_concat]⟩
        · exact .inl old
  | ack raw | requeue raw => exact .inl (RedisLists.mem_lrem.mp member).1
  | _ => exact .inl member

namespace WorkerPc

variable {config : Config} {stores : SharedStores} {choice : Choice} {pc pc' : WorkerPc}
  {write : Write} {entry : String}

theorem claimed_step (stepped : pc.step config stores choice = some (write, pc'))
    (claimed : pc.claimed = some entry) :
    pc'.claimed = some entry ∨ write = .ack entry ∨ pc' = .dead ∧ pc.inReconcile = false := by
  cases pc with
  | processing lastReconcile rawJobId marked pc =>
      cases claimed
      obtain ⟨next, inner, rfl⟩ := step_processing stepped
      cases next with
      | goto pc' => exact .inl rfl
      | returned result => exact .inr (.inl (ProcessorPc.step_returned inner).2)
      | raised message => exact .inr (.inr ⟨rfl, rfl⟩)
  | _ => cases claimed

theorem claimed_of_claim (stepped : pc.step config stores choice = some (.claim, pc'))
    (last : stores.queue.getLast? = some entry) :
    pc'.claimed = some entry ∨ pc' = .dead ∧ pc.inReconcile = false := by
  obtain ⟨lastReconcile, rfl⟩ : ∃ lastReconcile, pc = .claiming lastReconcile := by
    rcases step_write stepped with made | made
    · cases made
    · exact claiming_of_call made.symm
  simp only [step, last] at stepped
  rcases attempt_eq (Option.some.inj stepped) with
    ⟨_, _, rfl⟩ | ⟨_, _, rfl⟩ | ⟨_, _, rfl⟩
  · exact .inl rfl
  · exact .inr ⟨rfl, rfl⟩
  · exact .inr ⟨rfl, rfl⟩

end WorkerPc

namespace Cluster

variable {n m : Nat} {config : Config} {cluster next : Cluster n m}

/-- No worker process ends with a job in its hands or while it claims one: it
ends by returning, by a crash between two jobs, or in a reconcile pass. -/
def EndsBetweenJobs (config : Config) (cluster : Cluster n m) : Action n m → Prop
  | .crash worker => (cluster.workers worker).pc.claimed = none
  | .work worker choice => ∀ next ∈ step config cluster (.work worker choice),
      (next.workers worker).pc = .dead → (cluster.workers worker).pc.inReconcile = true
  | _ => True

instance (cluster : Cluster n m) (action : Action n m) :
    Decidable (EndsBetweenJobs config cluster action) :=
  match action with
  | .crash worker => inferInstanceAs (Decidable ((cluster.workers worker).pc.claimed = none))
  | .work _ _ => inferInstanceAs (Decidable (∀ next ∈ _, _ → _))
  | .tick _ | .setModels _ | .start _ | .arrive _ _ | .serve _ _ | .drop _ => isTrue trivial

/-- Every entry of `jobs:processing` is in the hands of a worker. -/
def InHands (cluster : Cluster n m) : Prop :=
  ∀ entry ∈ cluster.stores.processing,
    ∃ worker, (cluster.workers worker).pc.claimed = some entry

theorem inHands_putWorker (held : InHands cluster) {worker : Fin n} {pc : WorkerPc}
    (empty : (cluster.workers worker).pc.claimed = none) :
    InHands (cluster.putWorker worker .nothing pc) := by
  intro entry member
  obtain ⟨holder, claimed⟩ := held entry member
  have distinct : holder ≠ worker := by
    rintro rfl
    rw [empty] at claimed
    cases claimed
  exact ⟨holder, by rw [putWorker_of_ne distinct]; exact claimed⟩

theorem inHands_step {action : Action n m} (held : InHands cluster)
    (orderly : EndsBetweenJobs config cluster action)
    (moved : step config cluster action = some next) : InHands next := by
  cases action with
  | work worker choice =>
      have ends := orderly next moved
      obtain ⟨_, write, pc, stepped, rfl⟩ := step_work moved
      rw [putWorker_self] at ends
      have own {entry : String} (kept : pc.claimed = some entry ∨
          pc = .dead ∧ (cluster.workers worker).pc.inReconcile = false) :
          ∃ holder, ((cluster.putWorker worker write pc).workers holder).pc.claimed =
            some entry := by
        rcases kept with claimed | ⟨dead, outside⟩
        · exact ⟨worker, by rw [putWorker_self]; exact claimed⟩
        · rw [ends dead] at outside
          cases outside
      intro entry member
      rcases SharedStores.mem_processing_write member with old | ⟨rfl, last⟩
      · obtain ⟨holder, claimed⟩ := held entry old
        by_cases same : holder = worker
        · subst same
          rcases WorkerPc.claimed_step stepped claimed with kept | rfl | dead
          · exact own (.inl kept)
          · exact absurd rfl (RedisLists.mem_lrem.mp member).2
          · exact own (.inr dead)
        · exact ⟨holder, by rw [putWorker_of_ne same]; exact claimed⟩
      · exact own (WorkerPc.claimed_of_claim stepped last)
  | serve request choice =>
      obtain ⟨_, write, pc, stepped, rfl⟩ := step_serve moved
      intro entry member
      rcases SharedStores.mem_processing_write member with old | ⟨rfl, _⟩
      · exact held entry old
      · rcases RequestPc.step_write stepped with made | made
        · cases made
        · cases at_ : (cluster.requests request).pc <;> rw [at_] at made <;> cases made
  | start worker =>
      obtain ⟨dead, rfl⟩ := step_start moved
      exact inHands_putWorker held (by rw [dead]; rfl)
  | crash worker =>
      cases moved
      exact inHands_putWorker held orderly
  | arrive request call => obtain rfl := step_arrive moved; exact held
  | tick duration | setModels models | drop request => cases moved; exact held

end Cluster

namespace StoppableCluster

open Cluster (sevenModels shortConfig jobSeven)

variable {n m : Nat} {config : Config} {system next : StoppableCluster n m}

/-- No worker process ends with a job in its hands. -/
def EndsBetweenJobs (config : Config) (system : StoppableCluster n m) : Action n m → Prop
  | .act action => Cluster.EndsBetweenJobs config system.cluster action
  | _ => True

instance (system : StoppableCluster n m) (action : Action n m) :
    Decidable (EndsBetweenJobs config system action) :=
  match action with
  | .act action => inferInstanceAs (Decidable (Cluster.EndsBetweenJobs config _ action))
  | .handle _ | .test _ => isTrue trivial

theorem inHands_step {action : Action n m} (held : system.cluster.InHands)
    (orderly : EndsBetweenJobs config system action)
    (moved : step config system action = some next) : next.cluster.InHands := by
  rcases step_cluster moved with same | ⟨worker, rfl, at_, same⟩ | ⟨inner, rfl, _, inside⟩
  · rwa [same]
  · rw [same]
    refine Cluster.inHands_putWorker held ?_
    unfold atHead at at_
    split at at_
    case h_1 lastReconcile pc => rw [pc]; rfl
    case h_2 => cases at_
  · exact Cluster.inHands_step held orderly inside

/-- When all workers have ended between two jobs, by returning or otherwise,
nothing is left in `jobs:processing`. -/
theorem nothing_in_flight {clock : Time} {models : List ModelRow}
    (run : Runs (step config) (EndsBetweenJobs config) (initial clock models) system)
    (ended : ∀ worker, (system.cluster.workers worker).pc = .dead) :
    system.cluster.stores.processing = [] := by
  have held := runs_invariant (fun state : StoppableCluster n m => state.cluster.InHands)
    (fun _ _ _ held orderly moved => inHands_step held orderly moved)
    (fun _ member => by cases member) run
  refine List.eq_nil_iff_forall_not_mem.mpr fun entry member => ?_
  obtain ⟨worker, claimed⟩ := held entry member
  rw [ended worker] at claimed
  cases claimed

theorem nothing_in_flight_stoppedRun :
    ∃ system : StoppableCluster 1 1, system.hasReturned 0 = true ∧
      system.cluster.stores.HasStatus jobSeven .completed ∧
        system.cluster.stores.processing = [] := by
  have replays : (replay (step shortConfig) (EndsBetweenJobs shortConfig)
      (initial 0 sevenModels) (stoppedRun (0 : Fin 1) (0 : Fin 1))).any (fun system =>
        hasReturned 0 system &&
          decide (system.cluster.stores.HasStatus jobSeven .completed)) = true := by
    decide +kernel
  obtain ⟨system, run, reached⟩ := exists_runs_of_replay replays
  obtain ⟨returned, completed⟩ := Bool.and_eq_true_iff.mp reached
  obtain ⟨_, dead⟩ := Bool.and_eq_true_iff.mp returned
  refine ⟨system, returned, of_decide_eq_true completed, nothing_in_flight run fun worker => ?_⟩
  rw [Subsingleton.elim worker 0]
  exact of_decide_eq_true dead

end StoppableCluster

end Crucible
