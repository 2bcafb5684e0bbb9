import Crucible.JobHandler
import Crucible.LabelledRuns
import Crucible.WorkerLoop

/-!
# The whole platform

Any number of worker processes and backend requests over the shared stores.  A
process may stop at any point, a stopped worker may be started again, and time
passes between any two steps.
-/

namespace Crucible

/-- A worker process with the time at which it reached its control point. -/
structure Worker where
  since : Time
  pc : WorkerPc
  deriving DecidableEq

/-- A slot for requests with the time at which its control point was reached. -/
structure Request where
  since : Time
  pc : RequestPc
  deriving DecidableEq, Repr

/-- The stores, `n` worker slots and `m` request slots. -/
structure Cluster (n m : Nat) where
  stores : SharedStores
  workers : Fin n → Worker
  requests : Fin m → Request

namespace Cluster

inductive Action (n m : Nat) where
  | tick (duration : Nat)
  | setModels (models : List ModelRow)
  | start (worker : Fin n)
  | crash (worker : Fin n)
  | work (worker : Fin n) (choice : Choice)
  | arrive (request : Fin m) (call : RequestCall)
  | serve (request : Fin m) (choice : Choice)
  | drop (request : Fin m)

variable {n m : Nat}

/-- A time that a call may read: not before its caller reached it, and not in
the future. -/
def Current (since : Time) (now : Time) (clock : Time) : Prop :=
  since ≤ now ∧ now ≤ clock

instance (since now clock : Time) : Decidable (Current since now clock) :=
  inferInstanceAs (Decidable (_ ∧ _))

/-- The state after a worker has made a write and moved on. -/
def putWorker (cluster : Cluster n m) (worker : Fin n) (write : Write) (pc : WorkerPc) :
    Cluster n m :=
  { cluster with
    stores := cluster.stores.write write
    workers := Function.update cluster.workers worker ⟨cluster.stores.clock, pc⟩ }

def putRequest (cluster : Cluster n m) (request : Fin m) (write : Write) (pc : RequestPc) :
    Cluster n m :=
  { cluster with
    stores := cluster.stores.write write
    requests := Function.update cluster.requests request ⟨cluster.stores.clock, pc⟩ }

@[simp]
theorem putWorker_self (cluster : Cluster n m) (worker : Fin n) (write : Write)
    (pc : WorkerPc) : ((cluster.putWorker worker write pc).workers worker).pc = pc := by
  simp [putWorker]

theorem putWorker_of_ne {cluster : Cluster n m} {worker other : Fin n} {write : Write}
    {pc : WorkerPc} (distinct : other ≠ worker) :
    (cluster.putWorker worker write pc).workers other = cluster.workers other := by
  simp [putWorker, distinct]

@[simp]
theorem putRequest_self (cluster : Cluster n m) (request : Fin m) (write : Write)
    (pc : RequestPc) : ((cluster.putRequest request write pc).requests request).pc = pc := by
  simp [putRequest]

theorem putRequest_of_ne {cluster : Cluster n m} {request other : Fin m} {write : Write}
    {pc : RequestPc} (distinct : other ≠ request) :
    (cluster.putRequest request write pc).requests other = cluster.requests other := by
  simp [putRequest, distinct]

def step (config : Config) (cluster : Cluster n m) : Action n m → Option (Cluster n m)
  | .tick duration =>
      some { cluster with
        stores := { cluster.stores with clock := cluster.stores.clock + duration } }
  | .setModels models =>
      some { cluster with stores := { cluster.stores with models := models } }
  | .start worker =>
      if (cluster.workers worker).pc = .dead then
        some (cluster.putWorker worker .nothing (.reconciling .findStaleRunning))
      else
        none
  | .crash worker => some (cluster.putWorker worker .nothing .dead)
  | .work worker choice =>
      if Current (cluster.workers worker).since choice.now cluster.stores.clock then
        ((cluster.workers worker).pc.step config cluster.stores choice).map
          fun (write, pc) => cluster.putWorker worker write pc
      else
        none
  | .arrive request call =>
      match (cluster.requests request).pc with
      | .idle | .answered _ => some (cluster.putRequest request .nothing (.start call))
      | _ => none
  | .serve request choice =>
      if Current (cluster.requests request).since choice.now cluster.stores.clock then
        ((cluster.requests request).pc.step cluster.stores choice).map
          fun (write, pc) => cluster.putRequest request write pc
      else
        none
  | .drop request => some (cluster.putRequest request .nothing .idle)

def initial (clock : Time) (models : List ModelRow) : Cluster n m where
  stores := .empty clock models
  workers := fun _ => ⟨clock, .dead⟩
  requests := fun _ => ⟨clock, .idle⟩

/-! ## Parts of concrete runs -/

def shortConfig : Config :=
  ⟨10, 20, 5⟩

def jobSeven : UUID :=
  ⟨7⟩

def sevenRequest : CreateJobRequest :=
  ⟨"org/model", "datasets/chat/v1/data.json", ⟨1 / 2, 1, 1, 1, 1⟩⟩

def sevenModels : List ModelRow :=
  [⟨"org/model", "main", none, none, .ready, true⟩]

/-- A call that succeeds at a whole second. -/
def callAt (second : Int) : Choice :=
  ⟨.none, seconds second, ⟨0⟩, 0, [], .heartbeat, ""⟩

def createSeven (request : Fin m) : List (Action n m) :=
  [.arrive request (.createJob sevenRequest),
    .serve request { callAt 0 with uuid := jobSeven }, .serve request (callAt 0)]

/-- A worker's next `count` calls, all of which succeed at the same time. -/
def calls (worker : Fin n) (second : Int) (count : Nat) : List (Action n m) :=
  List.replicate count (.work worker (callAt second))

def sevenOutput : Directory :=
  ⟨[("adapter.bin", [1])], by decide⟩

/-- A worker that has just entered `executor.run` trains and uploads. -/
def trains (worker : Fin n) (second : Int) (output : Directory) : List (Action n m) :=
  calls worker second 6 ++
    .work worker { callAt second with training := .finish output } ::
      calls worker second (output.files.length + 1)

/-! ## What every step does -/

theorem step_work {config : Config} {cluster next : Cluster n m} {worker : Fin n}
    {choice : Choice} (moved : step config cluster (.work worker choice) = some next) :
    Current (cluster.workers worker).since choice.now cluster.stores.clock ∧
      ∃ write pc, (cluster.workers worker).pc.step config cluster.stores choice =
        some (write, pc) ∧ next = cluster.putWorker worker write pc := by
  simp only [step, Option.ite_none_right_eq_some] at moved
  obtain ⟨current, moved⟩ := moved
  obtain ⟨⟨write, pc⟩, stepped, rfl⟩ := Option.map_eq_some_iff.mp moved
  exact ⟨current, write, pc, stepped, rfl⟩

theorem step_serve {config : Config} {cluster next : Cluster n m} {request : Fin m}
    {choice : Choice} (moved : step config cluster (.serve request choice) = some next) :
    Current (cluster.requests request).since choice.now cluster.stores.clock ∧
      ∃ write pc, (cluster.requests request).pc.step cluster.stores choice =
        some (write, pc) ∧ next = cluster.putRequest request write pc := by
  simp only [step, Option.ite_none_right_eq_some] at moved
  obtain ⟨current, moved⟩ := moved
  obtain ⟨⟨write, pc⟩, stepped, rfl⟩ := Option.map_eq_some_iff.mp moved
  exact ⟨current, write, pc, stepped, rfl⟩

theorem step_arrive {config : Config} {cluster next : Cluster n m} {request : Fin m}
    {call : RequestCall} (moved : step config cluster (.arrive request call) = some next) :
    next = cluster.putRequest request .nothing (.start call) := by
  simp only [step] at moved
  split at moved <;> cases moved <;> rfl

theorem step_start {config : Config} {cluster next : Cluster n m} {worker : Fin n}
    (moved : step config cluster (.start worker) = some next) :
    (cluster.workers worker).pc = .dead ∧
      next = cluster.putWorker worker .nothing (.reconciling .findStaleRunning) := by
  simp only [step, Option.ite_none_right_eq_some] at moved
  obtain ⟨dead, moved⟩ := moved
  cases moved
  exact ⟨dead, rfl⟩

/-- On the `jobs` table every step is one transaction, or none. -/
theorem step_tableStep {config : Config} {cluster next : Cluster n m} {action : Action n m}
    (moved : step config cluster action = some next) :
    TableStep cluster.stores.clock cluster.stores.jobs next.stores.jobs := by
  cases action with
  | work worker choice =>
      obtain ⟨current, write, pc, stepped, rfl⟩ := step_work moved
      exact SharedStores.write_tableStep (WorkerPc.step_possible current.2 stepped)
  | serve request choice =>
      obtain ⟨current, write, pc, stepped, rfl⟩ := step_serve moved
      exact SharedStores.write_tableStep (RequestPc.step_possible current.2 stepped)
  | arrive request call => obtain rfl := step_arrive moved; exact .same
  | start worker => obtain ⟨_, rfl⟩ := step_start moved; exact .same
  | tick duration | setModels models | crash worker | drop request => cases moved; exact .same

theorem clock_le_step {config : Config} {cluster next : Cluster n m} {action : Action n m}
    (moved : step config cluster action = some next) :
    cluster.stores.clock ≤ next.stores.clock := by
  cases action with
  | tick duration => cases moved; exact Int.le_add_of_nonneg_right (Int.natCast_nonneg _)
  | work worker choice =>
      obtain ⟨_, write, pc, _, rfl⟩ := step_work moved
      exact (SharedStores.write_clock _ write).ge
  | serve request choice =>
      obtain ⟨_, write, pc, _, rfl⟩ := step_serve moved
      exact (SharedStores.write_clock _ write).ge
  | arrive request call => obtain rfl := step_arrive moved; exact le_rfl
  | start worker => obtain ⟨_, rfl⟩ := step_start moved; exact le_rfl
  | setModels models | crash worker | drop request => cases moved; exact le_rfl

/-- Rows never vanish, and every change of one is permitted. -/
theorem step_row {config : Config} {cluster next : Cluster n m} {action : Action n m}
    (moved : step config cluster action = some next) {id : UUID} {row : JobRow}
    (found : cluster.stores.jobs.lookup id = some row) :
    ∃ row', next.stores.jobs.lookup id = some row' ∧ RowChange row row' :=
  (step_tableStep moved).rowChange found

theorem runs_finished {config : Config} {cluster later : Cluster n m}
    {ok : Cluster n m → Action n m → Prop} (run : LabelledRuns.Runs (step config) ok cluster later)
    {id : UUID} {row : JobRow} (found : cluster.stores.jobs.lookup id = some row)
    (finished : row.status.terminal = true) : later.stores.jobs.lookup id = some row := by
  refine LabelledRuns.runs_invariant
    (fun state : Cluster n m => state.stores.jobs.lookup id = some row) ?_ found run
  intro current action next held _ moved
  obtain ⟨row', found', change⟩ := step_row moved held
  rw [found', change.eq_of_terminal finished]

/-- What holds of a worker still holds after a step if the change of the stores
keeps it, a fresh process has it, and the worker's own call ends with it. -/
theorem step_worker {config : Config} {cluster next : Cluster n m} {action : Action n m}
    (property : SharedStores → WorkerPc → Prop)
    (moved : step config cluster action = some next) (worker : Fin n)
    (stable : property next.stores (cluster.workers worker).pc)
    (dead : property next.stores .dead)
    (started : property next.stores (.reconciling .findStaleRunning))
    (own : ∀ choice write pc', action = .work worker choice →
      Current (cluster.workers worker).since choice.now cluster.stores.clock →
      (cluster.workers worker).pc.step config cluster.stores choice = some (write, pc') →
      next.stores = cluster.stores.write write → property next.stores pc') :
    property next.stores (next.workers worker).pc := by
  have put {mover : Fin n} {write : Write} {pc : WorkerPc}
      (same : next = cluster.putWorker mover write pc)
      (new : worker = mover → property next.stores pc) :
      property next.stores (next.workers worker).pc := by
    by_cases moves : worker = mover
    · have moved_to : (next.workers worker).pc = pc := by
        rw [same, moves, putWorker_self]
      rw [moved_to]
      exact new moves
    · have unmoved : next.workers worker = cluster.workers worker := by
        rw [same, putWorker_of_ne moves]
      rw [unmoved]
      exact stable
  cases action with
  | work mover choice =>
      obtain ⟨current, write, pc, stepped, same⟩ := step_work moved
      refine put same fun moves => ?_
      subst moves
      exact own choice write pc rfl current stepped (by rw [same]; rfl)
  | start mover => exact put (step_start moved).2 fun _ => started
  | crash mover => exact put (Option.some.inj moved).symm fun _ => dead
  | serve request choice =>
      obtain ⟨_, write, pc, _, same⟩ := step_serve moved
      rw [same] at stable ⊢
      exact stable
  | arrive request call =>
      have same := step_arrive moved
      rw [same] at stable ⊢
      exact stable
  | tick duration | setModels models | drop request =>
      cases moved
      exact stable

theorem step_workers {config : Config} {cluster next : Cluster n m} {action : Action n m}
    (property : SharedStores → WorkerPc → Prop)
    (moved : step config cluster action = some next)
    (held : ∀ worker, property cluster.stores (cluster.workers worker).pc)
    (stable : ∀ worker, property cluster.stores (cluster.workers worker).pc →
      property next.stores (cluster.workers worker).pc)
    (dead : property next.stores .dead)
    (started : property next.stores (.reconciling .findStaleRunning))
    (own : ∀ worker choice write pc', action = .work worker choice →
      Current (cluster.workers worker).since choice.now cluster.stores.clock →
      (cluster.workers worker).pc.step config cluster.stores choice = some (write, pc') →
      next.stores = cluster.stores.write write → property next.stores pc') :
    ∀ worker, property next.stores (next.workers worker).pc :=
  fun worker => step_worker property moved worker (stable worker (held worker)) dead started
    (own worker)

theorem step_requests {config : Config} {cluster next : Cluster n m} {action : Action n m}
    (property : SharedStores → RequestPc → Prop)
    (moved : step config cluster action = some next)
    (held : ∀ request, property cluster.stores (cluster.requests request).pc)
    (stable : ∀ request, property cluster.stores (cluster.requests request).pc →
      property next.stores (cluster.requests request).pc)
    (idle : property next.stores .idle)
    (arrived : ∀ call, property next.stores (.start call))
    (own : ∀ request choice write pc', action = .serve request choice →
      Current (cluster.requests request).since choice.now cluster.stores.clock →
      (cluster.requests request).pc.step cluster.stores choice = some (write, pc') →
      next.stores = cluster.stores.write write → property next.stores pc') :
    ∀ request, property next.stores (next.requests request).pc := by
  have put {mover : Fin m} {write : Write} {pc : RequestPc}
      (same : next = cluster.putRequest mover write pc) (new : property next.stores pc) :
      ∀ request, property next.stores (next.requests request).pc := by
    intro request
    by_cases moves : request = mover
    · have moved_to : (next.requests request).pc = pc := by
        rw [same, moves, putRequest_self]
      rw [moved_to]
      exact new
    · have unmoved : next.requests request = cluster.requests request := by
        rw [same, putRequest_of_ne moves]
      rw [unmoved]
      exact stable request (held request)
  cases action with
  | serve mover choice =>
      obtain ⟨current, write, pc, stepped, same⟩ := step_serve moved
      exact put same (own mover choice write pc rfl current stepped (by rw [same]; rfl))
  | arrive mover call => exact put (step_arrive moved) (arrived call)
  | drop mover => exact put (Option.some.inj moved).symm idle
  | work worker choice =>
      obtain ⟨_, write, pc, _, same⟩ := step_work moved
      intro request
      rw [same] at stable ⊢
      exact stable request (held request)
  | start worker =>
      have same := (step_start moved).2
      intro request
      rw [same] at stable ⊢
      exact stable request (held request)
  | tick duration | setModels models | crash worker =>
      cases moved
      exact fun request => stable request (held request)

end Cluster

end Crucible
