import Crucible.AckedFinished
import Crucible.QueueRoles

/-!
# The control points of `process` follow its script

A worker that no other actor disturbs, and whose calls fail before their effect,
passes through the control points of `process` as one invocation of the script
does, with `CachingExecutor` for the executor.
-/

namespace Crucible

open RaisingScripts Script

def SharedStores.later (stores : SharedStores) (pause : Nat) : SharedStores :=
  { stores with clock := stores.clock + pause }

@[simp]
theorem SharedStores.later_zero (stores : SharedStores) : stores.later 0 = stores := by
  simp [later]

theorem SharedStores.later_later (stores : SharedStores) (first second : Nat) :
    (stores.later first).later second = stores.later (first + second) := by
  simp [later, add_assoc]

namespace ProcessorPc

/-- From stores and a control point `process` ends in an outcome and stores, while
nobody else acts. -/
inductive Undisturbed (rawJobId : String) :
    ProcessorPc → SharedStores → Except String Unit → SharedStores → Prop where
  | goto {stores final : SharedStores} {pc pc' : ProcessorPc} {choice : Choice} {write : Write}
      {outcome : Except String Unit} (pause : Nat) (timely : choice.fault ≠ .after)
      (stepped : pc.step rawJobId (stores.later pause) choice = some (write, .goto pc'))
      (rest : Undisturbed rawJobId pc' ((stores.later pause).write write) outcome final) :
      Undisturbed rawJobId pc stores outcome final
  | returned {stores : SharedStores} {pc : ProcessorPc} {choice : Choice} {write : Write}
      (pause : Nat)
      (stepped : pc.step rawJobId (stores.later pause) choice = some (write, .returned ())) :
      Undisturbed rawJobId pc stores (.ok ()) ((stores.later pause).write write)
  | raised {stores : SharedStores} {pc : ProcessorPc} {choice : Choice} {write : Write}
      {message : String} (pause : Nat) (timely : choice.fault ≠ .after)
      (stepped : pc.step rawJobId (stores.later pause) choice = some (write, .raised message)) :
      Undisturbed rawJobId pc stores (.error message) ((stores.later pause).write write)

end ProcessorPc

def Execution.rest (execution : Execution) (job : Job) : Script World RunError String :=
  andThen (forEach execution.steps (ExecutorStep.perform job)) fun _ =>
    match execution.outcome with
    | .ok checkpointPath => done checkpointPath
    | .error error => raise error

theorem Execution.run_eq_rest (execution : Execution) (job : Job) (start : SharedStores)
    (made : List CallSite) :
    execution.run job ⟨start, made⟩ = execution.rest job ⟨start, made ++ [.execute]⟩ := by
  change execution.rest job ⟨start.later 0, made ++ [.execute]⟩ = _
  rw [SharedStores.later_zero]

theorem Execution.rest_cons (step : ExecutorStep) (steps : List ExecutorStep)
    (outcome : Except RunError String) (job : Job) :
    Execution.rest ⟨step :: steps, outcome⟩ job =
      andThen (step.perform job) fun _ => Execution.rest ⟨steps, outcome⟩ job :=
  andThen_assoc _ _ _

namespace JobProcessor

section Resumption

variable (calls : ProcessCalls) (rawJobId : String)

/-- What `process` does when `_run` has returned or raised. -/
def settle (id : UUID) : Except RunError Unit → Script World RunError Unit
  | .ok () => ack calls rawJobId
  | .error error => fail calls rawJobId id (failureMessage error)

/-- What `_run` does when it has looked for the model. -/
def fitAndExecute (job : Job) : Option ModelMeta → Script World RunError Unit
  | none => raise (.rejection
      ("base model " ++ PythonText.repr job.baseModel ++ " is not in the allow-list"))
  | some model =>
  match checkModelFits model.paramCount model.vramHint with
  | .error message => raise (.rejection message)
  | .ok () => andThen (calls.execution.run job) (complete calls job)

/-- What `process` does when it has looked for the job. -/
def settleOrRun (id : UUID) : Option Job → Script World RunError Unit
  | none => ack calls rawJobId
  | some job =>
  if job.status.terminal then
    ack calls rawJobId
  else
    caught (run calls job) (settle calls rawJobId id)

/-- What `process` does from the executor on. -/
def execute (job : Job) (executor : Script World RunError String) : Script World RunError Unit :=
  caught (andThen executor (complete calls job)) (settle calls rawJobId job.id)

/-- What is left of the script at a control point.  Between the two calls of a
heartbeat, `publish` is the second one. -/
def resume (publish : Call) : ProcessorPc → Script World RunError Unit
  | .getJob id =>
      andThen (calls.getJob.read .getJob fun stores => stores.jobs.getJob id)
        (settleOrRun calls rawJobId id)
  | .markRunning job => caught (run calls job) (settle calls rawJobId job.id)
  | .publishRunning job =>
      caught (andThen (calls.publishRunning.write .publishRunning
          (.publish calls.publishRunning.now job.id .running false)) fun _ =>
        checkAndExecute calls job) (settle calls rawJobId job.id)
  | .getModelMeta job =>
      caught (andThen (calls.getModelMeta.read .getModelMeta fun stores =>
          Crucible.getModelMeta stores.models job.baseModel calls.pick)
        (fitAndExecute calls job)) (settle calls rawJobId job.id)
  | .executing job _ (.publishHeartbeat _) =>
      execute calls rawJobId job (andThen (caught (publish.write .publishHeartbeat
          (.publish publish.now job.id .running false)) fun _ => done ()) fun _ =>
        calls.execution.rest job)
  | .executing job _ _ => execute calls rawJobId job (calls.execution.rest job)
  | .markCompleted job checkpointPath =>
      caught (complete calls job checkpointPath) (settle calls rawJobId job.id)
  | .publishCompleted job =>
      caught (calls.publishCompleted.write .publishCompleted
        (.publish calls.publishCompleted.now job.id .completed true))
        (settle calls rawJobId job.id)
  | .markFailed id message => fail calls rawJobId id message
  | .publishFailed id =>
      andThen (calls.publishFailed.write .publishFailed
        (.publish calls.publishFailed.now id .failed true)) fun _ => ack calls rawJobId
  | .ack => ack calls rawJobId

theorem process_eq_resume (publish : Call) :
    process calls rawJobId = resume calls rawJobId publish (ProcessorPc.start rawJobId) := by
  unfold process ProcessorPc.start
  cases UUID.parse rawJobId with
  | none => rfl
  | some id =>
      unfold resume settleOrRun settle
      rfl

end Resumption

/-- From these stores a script ends in an outcome and in stores, whatever has been
called before. -/
def Does (script : Script World RunError Unit) (start : SharedStores)
    (outcome : Except String Unit) (final : SharedStores) : Prop :=
  ∀ made, ∃ made', script ⟨start, made⟩ = (outcome.mapError .exception, ⟨final, made'⟩)

/-- The script can end in an outcome and in stores from a control point on.  Its
next call may have to wait for a part of the time that has passed already. -/
def Resumes (rawJobId : String) (pc : ProcessorPc) (stores : SharedStores)
    (outcome : Except String Unit) (final : SharedStores) : Prop :=
  ∀ start pause, SharedStores.later start pause = stores →
    ∃ calls publish, Does (resume calls rawJobId publish pc) start outcome final

section Steps

variable {rawJobId : String} {start final : SharedStores} {outcome : Except String Unit}
  {choice : Choice} {write : Write} {job : Job} {model : ModelMeta} {pause : Nat}

theorem Resumes.now {pc : ProcessorPc} {stores : SharedStores}
    (resumes : Resumes rawJobId pc stores outcome final) :
    ∃ calls publish, Does (resume calls rawJobId publish pc) stores outcome final :=
  resumes stores 0 (SharedStores.later_zero stores)

theorem does_raise {message : String}
    (rest : ∃ calls publish, Does (resume calls rawJobId publish
      (ProcessorPc.workerError job.id message)) start outcome final) :
    ∃ calls, Does (execute calls rawJobId job (calls.execution.rest job)) start outcome final := by
  obtain ⟨calls, publish, does⟩ := rest
  exact ⟨{ calls with execution := ⟨[], .error (.exception message)⟩ }, does⟩

theorem does_step {calls : ProcessCalls} {stores : SharedStores} (step : ExecutorStep)
    {first : Script World RunError Unit}
    (performs : ∀ made, ∃ made', step.perform job ⟨start, made⟩ = first ⟨stores, made'⟩)
    (does : Does (execute calls rawJobId job (andThen first fun _ => calls.execution.rest job))
      stores outcome final) :
    ∃ calls, Does (execute calls rawJobId job (calls.execution.rest job)) start outcome final := by
  refine ⟨{ calls with execution :=
    { calls.execution with steps := step :: calls.execution.steps } }, fun made => ?_⟩
  obtain ⟨made', performed⟩ := performs made
  obtain ⟨made'', ended⟩ := does made'
  refine ⟨made'', ?_⟩
  rw [← ended, Execution.rest_cons]
  simp only [execute, caught, andThen, performed]
  rfl

/-- A call of the executor is a part of the script's execution. -/
theorem resumes_executing {executorPc : ExecutorPc} {next : Next ExecutorPc String}
    (timely : choice.fault ≠ .after) (stepped : executorPc.step job choice = (write, next))
    (rest : Resumes rawJobId (ProcessorPc.afterExecutor job model next)
      ((start.later pause).write write) outcome final) :
    ∃ calls publish, Does (resume calls rawJobId publish (.executing job model executorPc))
      start outcome final := by
  cases executorPc with
  | ensure | download =>
      rcases attempt_timely timely stepped with ⟨rfl, rfl⟩ | ⟨rfl, rfl⟩
      · exact rest start pause rfl
      · obtain ⟨calls, does⟩ := does_raise (rest start pause rfl)
        exact ⟨calls, promptCall, does⟩
  | heartbeat site =>
      rcases attempt_timely timely stepped with ⟨rfl, rfl⟩ | ⟨rfl, rfl⟩
      · obtain ⟨calls, publish, does⟩ := rest.now
        obtain ⟨calls, does⟩ := does_step (.heartbeat ⟨pause, choice.now, none⟩ publish)
          (fun made => ⟨made ++ [.heartbeat], rfl⟩) does
        exact ⟨calls, publish, does⟩
      · cases site with
        | afterEnsure | afterDownload =>
            obtain ⟨calls, does⟩ := does_raise (rest start pause rfl)
            exact ⟨calls, promptCall, does⟩
        | training => exact rest start pause rfl
  | publishHeartbeat site =>
      rcases attempt_timely timely stepped with ⟨rfl, rfl⟩ | ⟨rfl, rfl⟩
      · obtain ⟨calls, publish, does⟩ := rest.now
        refine ⟨calls, ⟨pause, choice.now, none⟩, fun made => ?_⟩
        cases site <;> exact does (made ++ [.publishHeartbeat])
      · have raised : ∃ calls, Does (execute calls rawJobId job (calls.execution.rest job))
            (start.later pause) outcome final := by
          cases site with
          | afterEnsure | afterDownload => exact does_raise rest.now
          | training =>
              obtain ⟨calls, publish, does⟩ := rest.now
              exact ⟨calls, does⟩
        obtain ⟨calls, does⟩ := raised
        refine ⟨calls, ⟨pause, choice.now, some (.exception choice.error)⟩, fun made => ?_⟩
        exact does (made ++ [.publishHeartbeat])
  | train =>
      cases training : choice.training with
      | heartbeat =>
          simp only [ExecutorPc.step, training, Prod.mk.injEq] at stepped
          obtain ⟨rfl, rfl⟩ := stepped
          exact rest start pause rfl
      | fail =>
          simp only [ExecutorPc.step, training, Prod.mk.injEq] at stepped
          obtain ⟨rfl, rfl⟩ := stepped
          obtain ⟨calls, does⟩ := does_raise (rest start pause rfl)
          exact ⟨calls, promptCall, does⟩
      | finish output =>
          simp only [ExecutorPc.step, training, Prod.mk.injEq] at stepped
          obtain ⟨rfl, rfl⟩ := stepped
          have finished : ∃ calls, Does (execute calls rawJobId job (calls.execution.rest job))
              (start.write (.trained job.id output)) outcome final := by
            split at rest
            case isTrue empty => exact does_raise (rest _ pause rfl)
            case isFalse =>
              obtain ⟨calls, publish, does⟩ := rest (start.write (.trained job.id output)) pause rfl
              exact ⟨calls, does⟩
          obtain ⟨calls, does⟩ := finished
          obtain ⟨calls, does⟩ := does_step
            (.store start.objects (start.write (.trained job.id output)).outputs)
            (fun made => ⟨made, rfl⟩) does
          exact ⟨calls, promptCall, does⟩
  | upload output todo =>
      cases todo with
      | nil =>
          obtain ⟨rfl, rfl⟩ := Prod.mk.inj stepped
          obtain ⟨calls, publish, does⟩ := rest start pause rfl
          exact ⟨{ calls with execution := ⟨[], .ok (checkpointPrefix job.id)⟩ }, publish, does⟩
      | cons file todo =>
          rcases attempt_timely timely stepped with ⟨rfl, rfl⟩ | ⟨rfl, rfl⟩
          · obtain ⟨calls, publish, does⟩ :=
              rest (start.write (.uploadFile (checkpointKey job.id file.1) file.2)) pause rfl
            obtain ⟨calls, does⟩ := does_step (.store
              (start.objects.insert (checkpointKey job.id file.1) file.2) start.outputs)
              (fun made => ⟨made, rfl⟩) does
            exact ⟨calls, promptCall, does⟩
          · obtain ⟨calls, does⟩ := does_raise (rest start pause rfl)
            exact ⟨calls, promptCall, does⟩

theorem resumes_afterPublishRunning
    (rest : ∃ calls publish, Does (resume calls rawJobId publish
      (ProcessorPc.afterPublishRunning job)) start outcome final) :
    ∃ calls, Does (caught (checkAndExecute calls job) (settle calls rawJobId job.id))
      start outcome final := by
  obtain ⟨calls, publish, does⟩ := rest
  refine ⟨calls, ?_⟩
  unfold ProcessorPc.afterPublishRunning at does
  unfold checkAndExecute
  cases format : validateDatasetFormat job.datasetPath with
  | error message =>
      rw [format] at does
      exact does
  | ok found =>
      rw [format] at does
      exact does

theorem resumes_afterGetModelMeta {found : Option ModelMeta}
    (rest : ∃ calls publish, Does (resume calls rawJobId publish
      (ProcessorPc.afterGetModelMeta job found)) start outcome final) :
    ∃ calls, Does (caught (fitAndExecute calls job found) (settle calls rawJobId job.id))
      start outcome final := by
  obtain ⟨calls, publish, does⟩ := rest
  refine ⟨calls, ?_⟩
  unfold ProcessorPc.afterGetModelMeta at does
  unfold fitAndExecute
  cases found with
  | none => exact does
  | some model =>
      dsimp only at does ⊢
      cases fits : checkModelFits model.paramCount model.vramHint with
      | error message =>
          rw [fits] at does
          exact does
      | ok _ =>
          rw [fits] at does
          intro made
          have entered := does (made ++ [.execute])
          simp only [resume, execute, caught, andThen] at entered
          simpa only [caught, andThen, Execution.run_eq_rest] using entered

theorem resumes_afterGetJob {id : UUID} {found : Option Job} (own : ∀ job ∈ found, job.id = id)
    (rest : ∃ calls publish, Does (resume calls rawJobId publish (ProcessorPc.afterGetJob found))
      start outcome final) :
    ∃ calls, Does (settleOrRun calls rawJobId id found) start outcome final := by
  obtain ⟨calls, publish, does⟩ := rest
  refine ⟨calls, ?_⟩
  unfold ProcessorPc.afterGetJob at does
  unfold settleOrRun
  cases found with
  | none => exact does
  | some job =>
      obtain rfl := own job rfl
      dsimp only at does ⊢
      split
      case isTrue finished =>
        rw [if_pos finished] at does
        exact does
      case isFalse unfinished =>
        rw [if_neg unfinished] at does
        exact does

theorem resumes_goto {pc pc' : ProcessorPc} {stores : SharedStores}
    (timely : choice.fault ≠ .after)
    (stepped : pc.step rawJobId (stores.later pause) choice = some (write, .goto pc'))
    (rest : Resumes rawJobId pc' ((stores.later pause).write write) outcome final) :
    Resumes rawJobId pc stores outcome final := by
  rintro start earlier rfl
  rw [SharedStores.later_later] at stepped rest
  generalize earlier + pause = pause at stepped rest
  cases pc with
  | getJob id =>
      rcases attempt_timely timely (Option.some.inj stepped) with
        ⟨rfl, same⟩ | ⟨rfl, same⟩
      · cases same
        have own : ∀ job ∈ (start.later pause).jobs.getJob id, job.id = id := by
          intro job found
          obtain ⟨row, _, rfl⟩ := Option.map_eq_some_iff.mp found
          rfl
        obtain ⟨calls, does⟩ := resumes_afterGetJob own rest.now
        refine ⟨{ calls with getJob := ⟨pause, choice.now, none⟩ }, promptCall, fun made => ?_⟩
        exact does (made ++ [.getJob])
      · cases same
  | markRunning job =>
      rcases attempt_timely timely (Option.some.inj stepped) with
        ⟨rfl, same⟩ | ⟨rfl, same⟩
      · cases same
        obtain ⟨calls, publish, does⟩ := rest.now
        exact ⟨{ calls with markRunning := ⟨pause, choice.now, none⟩ }, publish,
          fun made => does (made ++ [CallSite.markRunning])⟩
      · cases same
        obtain ⟨calls, publish, does⟩ := rest.now
        exact ⟨{ calls with markRunning :=
          ⟨pause, choice.now, some (.exception choice.error)⟩ }, publish,
          fun made => does (made ++ [CallSite.markRunning])⟩
  | publishRunning job =>
      rcases attempt_timely timely (Option.some.inj stepped) with
        ⟨rfl, same⟩ | ⟨rfl, same⟩
      · cases same
        obtain ⟨calls, does⟩ := resumes_afterPublishRunning rest.now
        exact ⟨{ calls with publishRunning := ⟨pause, choice.now, none⟩ }, promptCall,
          fun made => does (made ++ [CallSite.publishRunning])⟩
      · cases same
        obtain ⟨calls, publish, does⟩ := rest.now
        exact ⟨{ calls with publishRunning :=
          ⟨pause, choice.now, some (.exception choice.error)⟩ }, publish,
          fun made => does (made ++ [CallSite.publishRunning])⟩
  | getModelMeta job =>
      obtain ⟨_, called⟩ := Option.ite_none_right_eq_some.mp stepped
      rcases attempt_timely timely (Option.some.inj called) with
        ⟨rfl, same⟩ | ⟨rfl, same⟩
      · cases same
        obtain ⟨calls, does⟩ := resumes_afterGetModelMeta rest.now
        exact ⟨{ calls with getModelMeta := ⟨pause, choice.now, none⟩, pick := choice.pick },
          promptCall, fun made => does (made ++ [CallSite.getModelMeta])⟩
      · cases same
        obtain ⟨calls, publish, does⟩ := rest.now
        exact ⟨{ calls with getModelMeta :=
          ⟨pause, choice.now, some (.exception choice.error)⟩ }, publish,
          fun made => does (made ++ [CallSite.getModelMeta])⟩
  | executing job model executorPc =>
      obtain ⟨rfl, same⟩ := ProcessorPc.step_executing stepped
      cases same
      exact resumes_executing timely rfl rest
  | markCompleted job checkpointPath =>
      rcases attempt_timely timely (Option.some.inj stepped) with
        ⟨rfl, same⟩ | ⟨rfl, same⟩
      · cases same
        obtain ⟨calls, publish, does⟩ := rest.now
        exact ⟨{ calls with markCompleted := ⟨pause, choice.now, none⟩ }, publish,
          fun made => does (made ++ [CallSite.markCompleted])⟩
      · cases same
        obtain ⟨calls, publish, does⟩ := rest.now
        exact ⟨{ calls with markCompleted :=
          ⟨pause, choice.now, some (.exception choice.error)⟩ }, publish,
          fun made => does (made ++ [CallSite.markCompleted])⟩
  | publishCompleted job =>
      rcases attempt_timely timely (Option.some.inj stepped) with
        ⟨rfl, same⟩ | ⟨rfl, same⟩
      · cases same
        obtain ⟨calls, publish, does⟩ := rest.now
        exact ⟨{ calls with publishCompleted := ⟨pause, choice.now, none⟩ }, publish,
          fun made => does (made ++ [CallSite.publishCompleted])⟩
      · cases same
        obtain ⟨calls, publish, does⟩ := rest.now
        exact ⟨{ calls with publishCompleted :=
          ⟨pause, choice.now, some (.exception choice.error)⟩ }, publish,
          fun made => does (made ++ [CallSite.publishCompleted])⟩
  | markFailed id message =>
      rcases attempt_timely timely (Option.some.inj stepped) with
        ⟨rfl, same⟩ | ⟨rfl, same⟩
      · cases same
        obtain ⟨calls, publish, does⟩ := rest.now
        exact ⟨{ calls with markFailed := ⟨pause, choice.now, none⟩ }, publish,
          fun made => does (made ++ [CallSite.markFailed])⟩
      · cases same
  | publishFailed id =>
      rcases attempt_timely timely (Option.some.inj stepped) with
        ⟨rfl, same⟩ | ⟨rfl, same⟩
      · cases same
        obtain ⟨calls, publish, does⟩ := rest.now
        exact ⟨{ calls with publishFailed := ⟨pause, choice.now, none⟩ }, publish,
          fun made => does (made ++ [CallSite.publishFailed])⟩
      · cases same
  | ack =>
      rcases attempt_timely timely (Option.some.inj stepped) with
        ⟨_, same⟩ | ⟨_, same⟩ <;> cases same

theorem resumes_returned {pc : ProcessorPc} {stores : SharedStores}
    (stepped : pc.step rawJobId (stores.later pause) choice = some (write, .returned ())) :
    Resumes rawJobId pc stores (.ok ()) ((stores.later pause).write write) := by
  rintro start earlier rfl
  rw [SharedStores.later_later] at stepped ⊢
  generalize earlier + pause = pause at stepped ⊢
  obtain ⟨rfl, rfl⟩ := ProcessorPc.step_returned stepped
  exact ⟨{ oneBeatCalls with ack := ⟨pause, choice.now, none⟩ }, promptCall,
    fun made => ⟨made ++ [.ack], rfl⟩⟩

theorem resumes_raised {pc : ProcessorPc} {stores : SharedStores} {message : String}
    (timely : choice.fault ≠ .after)
    (stepped : pc.step rawJobId (stores.later pause) choice = some (write, .raised message)) :
    Resumes rawJobId pc stores (.error message) ((stores.later pause).write write) := by
  rintro start earlier rfl
  rw [SharedStores.later_later] at stepped ⊢
  generalize earlier + pause = pause at stepped ⊢
  cases pc with
  | getJob id =>
      rcases attempt_timely timely (Option.some.inj stepped) with
        ⟨_, same⟩ | ⟨rfl, same⟩
      · cases same
      · cases same
        exact ⟨{ oneBeatCalls with getJob :=
          ⟨pause, choice.now, some (.exception choice.error)⟩ }, promptCall,
          fun made => ⟨made ++ [.getJob], rfl⟩⟩
  | markFailed id failure =>
      rcases attempt_timely timely (Option.some.inj stepped) with
        ⟨_, same⟩ | ⟨rfl, same⟩
      · cases same
      · cases same
        exact ⟨{ oneBeatCalls with markFailed :=
          ⟨pause, choice.now, some (.exception choice.error)⟩ }, promptCall,
          fun made => ⟨made ++ [.markFailed], rfl⟩⟩
  | publishFailed id =>
      rcases attempt_timely timely (Option.some.inj stepped) with
        ⟨_, same⟩ | ⟨rfl, same⟩
      · cases same
      · cases same
        exact ⟨{ oneBeatCalls with publishFailed :=
          ⟨pause, choice.now, some (.exception choice.error)⟩ }, promptCall,
          fun made => ⟨made ++ [.publishFailed], rfl⟩⟩
  | ack =>
      rcases attempt_timely timely (Option.some.inj stepped) with
        ⟨_, same⟩ | ⟨rfl, same⟩
      · cases same
      · cases same
        exact ⟨{ oneBeatCalls with ack :=
          ⟨pause, choice.now, some (.exception choice.error)⟩ }, promptCall,
          fun made => ⟨made ++ [.ack], rfl⟩⟩
  | executing job model executorPc => cases (ProcessorPc.step_executing stepped).2
  | getModelMeta job =>
      obtain ⟨_, called⟩ := Option.ite_none_right_eq_some.mp stepped
      rcases attempt_eq (Option.some.inj called) with
        ⟨_, _, same⟩ | ⟨_, _, same⟩ | ⟨_, _, same⟩ <;> cases same
  | _ =>
      rcases attempt_eq (Option.some.inj stepped) with
        ⟨_, _, same⟩ | ⟨_, _, same⟩ | ⟨_, _, same⟩ <;> cases same

end Steps

theorem resumes_of_undisturbed {rawJobId : String} {stores final : SharedStores}
    {pc : ProcessorPc} {outcome : Except String Unit}
    (run : ProcessorPc.Undisturbed rawJobId pc stores outcome final) :
    Resumes rawJobId pc stores outcome final := by
  induction run with
  | goto pause timely stepped _ resumes => exact resumes_goto timely stepped resumes
  | returned pause stepped => exact resumes_returned stepped
  | raised pause timely stepped => exact resumes_raised timely stepped

/-- Whatever an undisturbed worker does for an identifier, some invocation of the
script does. -/
theorem process_of_undisturbed {rawJobId : String} {stores final : SharedStores}
    {outcome : Except String Unit}
    (run : ProcessorPc.Undisturbed rawJobId (.start rawJobId) stores outcome final) :
    ∃ calls made, process calls rawJobId ⟨stores, []⟩ =
      (outcome.mapError .exception, ⟨final, made⟩) := by
  obtain ⟨calls, publish, does⟩ := (resumes_of_undisturbed run).now
  obtain ⟨made, ended⟩ := does []
  exact ⟨calls, made, (process_eq_resume calls rawJobId publish) ▸ ended⟩

/-- An undisturbed worker that returns from a running job has finished it. -/
theorem finished_of_undisturbed {id : UUID} {stores final : SharedStores}
    (run : ProcessorPc.Undisturbed id.str (.start id.str) stores (.ok ()) final)
    (running : stores.HasStatus id .running) :
    id.str ∉ final.processing ∧
      ∃ row, final.jobs.lookup id = some row ∧ row.status.terminal = true := by
  obtain ⟨row, found, status⟩ := running
  obtain ⟨calls, made, ended⟩ := process_of_undisturbed run
  have returned : (process calls id.str ⟨stores, []⟩).1 = .ok () := by rw [ended]; rfl
  have same : (process calls id.str ⟨stores, []⟩).2.stores = final := by rw [ended]
  obtain ⟨shown, between, _⟩ :=
    (meets_process calls found (Or.inr status) _ rfl).of_ok returned
  obtain ⟨row', stored, _⟩ := between.row
  have unmarked : ¬ UnmarkedAck calls stores id := by
    rintro ⟨⟨other, found', queued⟩, _⟩
    obtain rfl := Option.some.inj (found.symm.trans found')
    exact absurd (status.symm.trans queued) (by decide)
  refine ⟨?_, row', same ▸ stored, ?_⟩
  · rw [← same, between.processing, RedisLists.mem_lrem]
    simp
  · exact finished_of_returned found (Or.inr status) returned stored unmarked

end JobProcessor

end Crucible
