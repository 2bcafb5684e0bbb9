import Crucible.JobProcessor
import Crucible.Reconciler

/-!
# `main.run`

A worker process reconciles once and then claims, processes and, when the
interval has passed, reconciles again.  An exception that leaves this loop ends
the process.
-/

namespace Crucible

/-- Control points of `run`, with the time of the last reconcile.  While a job
is processed, `marked` records the status of its row right after this
invocation's `mark_running`; no step reads it. -/
inductive WorkerPc where
  | reconciling (pc : ReconcilerPc)
  | claiming (lastReconcile : Time)
  | processing (lastReconcile : Time) (rawJobId : String) (marked : Option JobStatus)
      (pc : ProcessorPc)
  | checking (lastReconcile : Time)
  | dead
  deriving DecidableEq

namespace WorkerPc

/-- What a step of `reconcile` means for the loop around it. -/
def afterReconciler (clock : Time) : Next ReconcilerPc Unit → WorkerPc
  | .goto pc => .reconciling pc
  | .returned () => .claiming clock
  | .raised _ => .dead

/-- What a step of `process` means for the loop around it. -/
def afterProcessor (lastReconcile : Time) (rawJobId : String) (marked : Option JobStatus) :
    Next ProcessorPc Unit → WorkerPc
  | .goto pc => .processing lastReconcile rawJobId marked pc
  | .returned () => .checking lastReconcile
  | .raised _ => .dead

/-- The history variable after a step of `process`. -/
def markedAfter (marked : Option JobStatus) (stores : SharedStores) :
    ProcessorPc → Option JobStatus
  | .markRunning job => (stores.jobs.lookup job.id).map (·.status)
  | _ => marked

def step (config : Config) (stores : SharedStores) (choice : Choice) :
    WorkerPc → Option (Write × WorkerPc)
  | .reconciling pc => (pc.step config stores choice).map fun (write, next) =>
      (write, afterReconciler stores.clock next)
  | .claiming lastReconcile =>
      match stores.queue.getLast? with
      | none => some (attempt choice.fault .nothing (.checking lastReconcile) .dead)
      | some rawJobId => some (attempt choice.fault .claim
          (.processing lastReconcile rawJobId none (.start rawJobId)) .dead)
  | .processing lastReconcile rawJobId marked pc =>
      (pc.step rawJobId stores choice).map fun (write, next) =>
        (write, afterProcessor lastReconcile rawJobId
          (markedAfter marked (stores.write write) pc) next)
  | .checking lastReconcile =>
      if stores.clock - lastReconcile ≥ seconds config.reconcileIntervalSeconds then
        some (.nothing, .reconciling .findStaleRunning)
      else
        some (.nothing, .claiming lastReconcile)
  | .dead => none

theorem step_reconciling {config : Config} {stores : SharedStores} {choice : Choice}
    {pc : ReconcilerPc} {write : Write} {pc' : WorkerPc}
    (stepped : step config stores choice (.reconciling pc) = some (write, pc')) :
    ∃ next, pc.step config stores choice = some (write, next) ∧
      pc' = afterReconciler stores.clock next := by
  obtain ⟨⟨made, next⟩, inner, same⟩ := Option.map_eq_some_iff.mp stepped
  cases same
  exact ⟨next, inner, rfl⟩

theorem step_processing {config : Config} {stores : SharedStores} {choice : Choice}
    {lastReconcile : Time} {rawJobId : String} {marked : Option JobStatus} {pc : ProcessorPc}
    {write : Write} {pc' : WorkerPc}
    (stepped : step config stores choice (.processing lastReconcile rawJobId marked pc) =
      some (write, pc')) :
    ∃ next, pc.step rawJobId stores choice = some (write, next) ∧
      pc' = afterProcessor lastReconcile rawJobId
        (markedAfter marked (stores.write write) pc) next := by
  obtain ⟨⟨made, next⟩, inner, same⟩ := Option.map_eq_some_iff.mp stepped
  cases same
  exact ⟨next, inner, rfl⟩

/-- The write of a worker's next call. -/
def call (choice : Choice) : WorkerPc → Write
  | .reconciling pc => pc.call choice
  | .claiming _ => .claim
  | .processing _ rawJobId _ pc => pc.call rawJobId choice
  | .checking _ | .dead => .nothing

theorem step_write {config : Config} {stores : SharedStores} {choice : Choice}
    {pc pc' : WorkerPc} {write : Write}
    (stepped : pc.step config stores choice = some (write, pc')) :
    write = .nothing ∨ write = pc.call choice := by
  cases pc with
  | reconciling pc =>
      obtain ⟨next, inner, _⟩ := step_reconciling stepped
      exact ReconcilerPc.step_write inner
  | claiming lastReconcile =>
      simp only [step] at stepped
      split at stepped
      case h_1 =>
        obtain rfl := congrArg Prod.fst (Option.some.inj stepped)
        exact attempt_made.elim .inl .inl
      case h_2 =>
        obtain rfl := congrArg Prod.fst (Option.some.inj stepped)
        exact attempt_made
  | processing lastReconcile rawJobId marked pc =>
      obtain ⟨next, inner, _⟩ := step_processing stepped
      exact ProcessorPc.step_write inner
  | checking lastReconcile =>
      simp only [step] at stepped
      split at stepped <;> cases stepped <;> exact .inl rfl
  | dead => cases stepped

theorem executes_of_call {choice : Choice} {lastReconcile : Time} {rawJobId : String}
    {marked : Option JobStatus} {job : Job} {model : ModelMeta} {pc : ExecutorPc}
    {write : Write}
    (made : (processing lastReconcile rawJobId marked (.executing job model pc)).call choice =
      write) : write.Executes := by
  subst made
  exact pc.executes_call job choice

theorem step_possible {config : Config} {stores : SharedStores} {choice : Choice}
    (current : choice.now ≤ stores.clock) {pc pc' : WorkerPc} {write : Write}
    (stepped : pc.step config stores choice = some (write, pc')) :
    stores.Possible write := by
  rcases step_write stepped with rfl | rfl
  · trivial
  · cases pc with
    | reconciling pc => exact pc.call_possible current
    | processing lastReconcile rawJobId marked pc => exact pc.call_possible current rawJobId
    | _ => trivial

def inReconcile : WorkerPc → Bool
  | .reconciling _ => true
  | .claiming _ | .processing _ _ _ _ | .checking _ | .dead => false

def insideExecutor (id : UUID) : WorkerPc → Bool
  | .processing _ _ _ (.executing job _ _) => job.id = id
  | _ => false

theorem executing_of_insideExecutor {pc : WorkerPc} {id : UUID}
    (inside : pc.insideExecutor id = true) :
    ∃ lastReconcile rawJobId marked job model executor,
      pc = .processing lastReconcile rawJobId marked (.executing job model executor) ∧
        job.id = id := by
  unfold insideExecutor at inside
  split at inside
  case h_1 => exact ⟨_, _, _, _, _, _, rfl, of_decide_eq_true inside⟩
  case h_2 => cases inside

end WorkerPc

end Crucible
