import Crucible.Cluster
import Crucible.ProcessScript

/-!
# The contract of `process`

Where a job's row, its hash and its entry in `jobs:processing` stand when
`process` has returned, for every executor and every pattern of failing calls.
-/

namespace Crucible

open RaisingScripts Script

/-- No call of the invocation raises; the executor may. -/
structure ProcessCalls.Sound (calls : ProcessCalls) : Prop where
  getJob : calls.getJob.raises = none
  markRunning : calls.markRunning.raises = none
  publishRunning : calls.publishRunning.raises = none
  getModelMeta : calls.getModelMeta.raises = none
  markCompleted : calls.markCompleted.raises = none
  publishCompleted : calls.publishCompleted.raises = none
  markFailed : calls.markFailed.raises = none
  publishFailed : calls.publishFailed.raises = none
  ack : calls.ack.raises = none

/-- The checks before the executor: the dataset format, and the guardrail on a
ready model. -/
def PassesPreflight (models : List ModelRow) (pick : Nat) (row : JobRow) : Prop :=
  (∃ format, validateDatasetFormat row.datasetPath = .ok format) ∧
    ∃ model, getModelMeta models row.baseModel pick = some model ∧
      checkModelFits model.paramCount model.vramHint = .ok ()

/-- The executor has not been called, or it has been called once, after the
checks. -/
def ExecutesAfter (passed : Prop) (made : List CallSite) : Prop :=
  .execute ∉ made ∨ ∃ before after, made = before ++ .execute :: after ∧
    .execute ∉ before ∧ .execute ∉ after ∧ .getModelMeta ∈ before ∧ passed

/-- The stores apart from the row and the hash of one job and from
`jobs:processing`. -/
structure Untouched (start : SharedStores) (id : UUID) (stores : SharedStores) : Prop where
  models : stores.models = start.models
  queue : stores.queue = start.queue
  rows : ∀ other ≠ id, stores.jobs.lookup other = start.jobs.lookup other
  statuses : ∀ other ≠ id, stores.statuses other = start.statuses other

/-- What an invocation for a job knows between two of its calls. -/
structure Between (start : SharedStores) (id : UUID) (processing : List String)
    (onRow : JobRow → Prop) (onCalls : List CallSite → Prop) (world : World) : Prop where
  untouched : Untouched start id world.stores
  processing : world.stores.processing = processing
  row : ∃ row, world.stores.jobs.lookup id = some row ∧ onRow row
  calls : onCalls world.made

/-- The hash of a job shows a status and expires. -/
def Shows (id : UUID) (status : JobStatus) (world : World) : Prop :=
  ∃ hash, world.stores.statuses id = some hash ∧ hash.status = status ∧ hash.expiresAt ≠ none

/-! ## Single calls -/

theorem ExecutesAfter.append {passed : Prop} {made : List CallSite} {site : CallSite}
    (executes : ExecutesAfter passed made) (other : site ≠ .execute) :
    ExecutesAfter passed (made ++ [site]) := by
  obtain none | ⟨before, after, rfl, first, last, checked, passed⟩ := executes
  · exact Or.inl (by simp [none, other.symm])
  · refine Or.inr ⟨before, after ++ [site], by simp, first, ?_, checked, passed⟩
    simp [last, other.symm]

theorem ExecutesAfter.execute {passed : Prop} {made : List CallSite} (none : .execute ∉ made)
    (checked : .getModelMeta ∈ made) (holds : passed) : ExecutesAfter passed (made ++ [.execute]) :=
  Or.inr ⟨made, [], rfl, none, List.not_mem_nil, checked, holds⟩

namespace Between

variable {start : SharedStores} {id : UUID} {processing : List String}
  {onRow onRow' : JobRow → Prop} {onCalls onCalls' : List CallSite → Prop} {world : World}

theorem enter (between : Between start id processing onRow onCalls world) {site : CallSite}
    (elapsed : Nat) (called : ∀ made, onCalls made → onCalls' (made ++ [site])) :
    Between start id processing onRow onCalls' (world.enter site elapsed) where
  untouched := ⟨between.untouched.models, between.untouched.queue, between.untouched.rows,
    between.untouched.statuses⟩
  processing := between.processing
  row := between.row
  calls := called _ between.calls

theorem execute (between : Between start id processing onRow onCalls world) (now : Time)
    {update : RepositoryUpdate} (updated : ∀ row, onRow row → onRow' (update.onRow now row)) :
    Between start id processing onRow' onCalls
      { world with stores := world.stores.write (.execute now id update) } where
  untouched :=
    { between.untouched with
      rows := fun other distinct => by
        change (world.stores.jobs.execute now id update).lookup other = _
        rw [JobTable.lookup_execute, if_neg distinct, between.untouched.rows other distinct] }
  processing := between.processing
  row := by
    obtain ⟨row, found, holds⟩ := between.row
    refine ⟨update.onRow now row, ?_, updated row holds⟩
    change (world.stores.jobs.execute now id update).lookup id = _
    rw [JobTable.lookup_execute, if_pos rfl, found]
    rfl
  calls := between.calls

theorem publish (between : Between start id processing onRow onCalls world) (now : Time)
    (status : JobStatus) (terminal : Bool) :
    Between start id processing onRow onCalls
      { world with stores := world.stores.write (.publish now id status terminal) } where
  untouched :=
    { between.untouched with
      statuses := fun other distinct => by
        change Function.update _ _ _ other = _
        rw [Function.update_of_ne distinct, between.untouched.statuses other distinct] }
  processing := between.processing
  row := between.row
  calls := between.calls

theorem mono (between : Between start id processing onRow onCalls world)
    (weaker : ∀ row, onRow row → onRow' row) (weakerCalls : ∀ made, onCalls made → onCalls' made) :
    Between start id processing onRow' onCalls' world where
  untouched := between.untouched
  processing := between.processing
  row := between.row.imp fun row => And.imp_right (weaker row)
  calls := weakerCalls _ between.calls

end Between

theorem shows_publish (world : World) (now : Time) (id : UUID) (status : JobStatus) :
    Shows id status { world with stores := world.stores.write (.publish now id status true) } :=
  ⟨_, Function.update_self .., rfl, by simp⟩

/-- A call that writes, with what holds after its effect and what holds when it
raises. -/
theorem Call.meets_write {call : Call} {site : CallSite} {write : Write} {before : World → Prop}
    {after : World → Prop} {raised : RunError → World → Prop}
    (effect : call.raises = none → ∀ world, before world →
      after { world.enter site call.elapsed with
        stores := (world.enter site call.elapsed).stores.write write })
    (noEffect : ∀ error, call.raises = some error → ∀ world, before world →
      raised error (world.enter site call.elapsed)) :
    Meets (call.write site write) before (fun _ => after) raised := by
  intro world holds
  unfold Call.write
  cases outcome : call.raises with
  | none => exact effect outcome world holds
  | some error => exact noEffect error outcome world holds

theorem Call.meets_read {Value : Type} {call : Call} {site : CallSite}
    {value : SharedStores → Value} {before : World → Prop} {after : Value → World → Prop}
    {raised : RunError → World → Prop}
    (effect : call.raises = none → ∀ world, before world →
      after (value (world.enter site call.elapsed).stores) (world.enter site call.elapsed))
    (noEffect : ∀ error, call.raises = some error → ∀ world, before world →
      raised error (world.enter site call.elapsed)) :
    Meets (call.read site value) before after raised := by
  intro world holds
  unfold Call.read
  cases outcome : call.raises with
  | none => exact effect outcome world holds
  | some error => exact noEffect error outcome world holds

/-! ## The executor -/

section Executor

variable {start : SharedStores} {processing : List String} {passed : Prop} {job : Job}

abbrev Executing (start : SharedStores) (id : UUID) (processing : List String) (passed : Prop) :
    World → Prop :=
  Between start id processing (fun row => row.status = .running) (ExecutesAfter passed)

theorem Executing.enter {world : World}
    (running : Executing start job.id processing passed world) {site : CallSite}
    (other : site ≠ .execute) (elapsed : Nat) :
    Executing start job.id processing passed (world.enter site elapsed) :=
  Between.enter running elapsed fun _ => (·.append other)

theorem meets_heartbeat (beat publish : Call) :
    Meets (heartbeat job beat publish) (Executing start job.id processing passed)
      (fun _ => Executing start job.id processing passed)
      (fun _ => Executing start job.id processing passed) := by
  have beats : Meets (beat.write .heartbeat (.execute beat.now job.id .heartbeat))
      (Executing start job.id processing passed)
      (fun _ => Executing start job.id processing passed)
      (fun _ => Executing start job.id processing passed) := by
    refine Call.meets_write (fun _ world running => ?_)
      fun _ _ world running => running.enter (by decide) _
    refine (running.enter (by decide) beat.elapsed).execute _ fun row same => ?_
    have matched : row.status = RepositoryUpdate.heartbeat.guard := same
    rw [RepositoryUpdate.onRow, if_pos matched]
    exact same
  refine beats.andThen fun _ => Call.meets_write (fun _ world running => ?_)
    fun _ _ world running => running.enter (by decide) _
  exact (running.enter (by decide) publish.elapsed).publish _ _ _

theorem meets_step (step : ExecutorStep) :
    Meets (step.perform job) (Executing start job.id processing passed)
      (fun _ => Executing start job.id processing passed) (fun _ _ => False) := by
  cases step with
  | heartbeat beat publish =>
      change Meets (caught (heartbeat job beat publish) fun _ => done ()) _ _ _
      exact (meets_heartbeat beat publish).caught (fun _ => Meets.done fun _ => id)
        fun _ => Meets.done fun _ => id
  | store objects outputs =>
      intro world running
      exact ⟨⟨running.untouched.models, running.untouched.queue, running.untouched.rows,
        running.untouched.statuses⟩, running.processing, running.row, running.calls⟩

theorem meets_execution (execution : Execution) (holds : passed) :
    Meets (execution.run job)
      (Between start job.id processing (fun row => row.status = .running)
        fun made => .execute ∉ made ∧ .getModelMeta ∈ made)
      (fun checkpointPath world => execution.outcome = .ok checkpointPath ∧
        Executing start job.id processing passed world)
      (fun error world => execution.outcome = .error error ∧
        Executing start job.id processing passed world) := by
  intro world before
  have entered : Executing start job.id processing passed (world.enter .execute 0) :=
    before.enter 0 fun made called => .execute called.1 called.2 holds
  refine Meets.andThen
    ((Meets.forEach fun step _ => meets_step step).consequence (fun _ => id) (fun _ _ => id)
      fun _ _ => False.elim) (fun _ => ?_) _ entered
  cases outcome : execution.outcome with
  | ok checkpointPath => exact Meets.done fun _ running => ⟨rfl, running⟩
  | error error => exact Meets.raise fun _ running => ⟨rfl, running⟩

end Executor

/-! ## `_run` -/

namespace JobProcessor

section Run

variable {calls : ProcessCalls} {start : SharedStores} {processing : List String} {job : Job}

/-- The checks pass and the executor returns. -/
def Accepted (calls : ProcessCalls) (start : SharedStores) (job : Job) : Prop :=
  PassesPreflight start.models calls.pick job.toJobRow ∧
    ∃ checkpointPath, calls.execution.outcome = .ok checkpointPath

/-- Where `_run` leaves the row when it raises. -/
inductive AfterRaise (calls : ProcessCalls) (start : SharedStores) (job : Job) (row : JobRow) :
    Prop where
  | unmarked (raised : calls.markRunning.raises ≠ none) (same : row.status = job.status)
  | running (status : row.status = .running) (rejected : calls.Sound → ¬ Accepted calls start job)
  | unpublished (raised : calls.publishCompleted.raises ≠ none) (status : row.status = .completed)

abbrev RunRaised (calls : ProcessCalls) (start : SharedStores) (processing : List String)
    (job : Job) : World → Prop :=
  Between start job.id processing (AfterRaise calls start job)
    (ExecutesAfter (PassesPreflight start.models calls.pick job.toJobRow))

theorem raised_of_running {onCalls : List CallSite → Prop} {world : World}
    (between : Between start job.id processing (fun row => row.status = .running) onCalls world)
    {site : CallSite} (elapsed : Nat) (other : site ≠ .execute)
    (called : ∀ made, onCalls made →
      ExecutesAfter (PassesPreflight start.models calls.pick job.toJobRow) made)
    (rejected : calls.Sound → ¬ Accepted calls start job) :
    RunRaised calls start processing job (world.enter site elapsed) :=
  (between.enter elapsed fun made holds => (called made holds).append other).mono
    (fun _ status => .running status rejected) fun _ => id

theorem notMem_append {made : List CallSite} {site : CallSite} (none : CallSite.execute ∉ made)
    (other : site ≠ .execute) : CallSite.execute ∉ made ++ [site] := by
  simp [none, other.symm]

theorem meets_markRunning (unfinished : job.status = .queued ∨ job.status = .running) :
    Meets (calls.markRunning.write .markRunning
        (.execute calls.markRunning.now job.id .markRunning))
      (Between start job.id processing (fun row => row.status = job.status)
        (CallSite.execute ∉ ·))
      (fun _ => Between start job.id processing (fun row => row.status = .running)
        (CallSite.execute ∉ ·))
      (fun _ => RunRaised calls start processing job) := by
  refine Call.meets_write (fun _ world before => ?_) fun error raised world before => ?_
  · refine (before.enter _ fun _ none => notMem_append none (by decide)).execute _
      fun row same => ?_
    unfold RepositoryUpdate.onRow
    split
    case isTrue => rfl
    case isFalse other =>
      exact same.trans (unfinished.resolve_left fun queued => other (same.trans queued))
  · refine (before.enter _ fun _ none => Or.inl (notMem_append none (by decide))).mono
      (fun row same => ?_) fun _ => id
    exact .unmarked (by simp [raised]) same

def RunReturned (calls : ProcessCalls) (start : SharedStores) (processing : List String)
    (job : Job) (world : World) : Prop :=
  (∃ checkpointPath, calls.execution.outcome = .ok checkpointPath ∧
    PassesPreflight start.models calls.pick job.toJobRow ∧
    Between start job.id processing
      (fun row => row.status = .completed ∧ row.checkpointPath = some checkpointPath)
      (ExecutesAfter (PassesPreflight start.models calls.pick job.toJobRow)) world) ∧
  Shows job.id .completed world

theorem meets_complete {checkpointPath : String}
    (outcome : calls.execution.outcome = .ok checkpointPath)
    (passed : PassesPreflight start.models calls.pick job.toJobRow) :
    Meets (complete calls job checkpointPath)
      (Executing start job.id processing
        (PassesPreflight start.models calls.pick job.toJobRow))
      (fun _ => RunReturned calls start processing job)
      (fun _ => RunRaised calls start processing job) := by
  have marked : Meets (calls.markCompleted.write .markCompleted
        (.execute calls.markCompleted.now job.id (.markCompleted checkpointPath)))
      (Executing start job.id processing (PassesPreflight start.models calls.pick job.toJobRow))
      (fun _ => Between start job.id processing
        (fun row => row.status = .completed ∧ row.checkpointPath = some checkpointPath)
        (ExecutesAfter (PassesPreflight start.models calls.pick job.toJobRow)))
      (fun _ => RunRaised calls start processing job) := by
    refine Call.meets_write (fun _ world running => ?_) fun error raised world running => ?_
    · refine (running.enter (by decide) _).execute _ fun row same => ?_
      have matched : row.status = (RepositoryUpdate.markCompleted checkpointPath).guard := same
      rw [RepositoryUpdate.onRow, if_pos matched]
      exact ⟨rfl, rfl⟩
    · exact raised_of_running running _ (by decide) (fun _ => id)
        fun sound => absurd (raised.symm.trans sound.markCompleted) (by simp)
  refine marked.andThen fun _ => Call.meets_write (fun _ world completed => ⟨?_, ?_⟩)
    fun error raised world completed => ?_
  · exact ⟨checkpointPath, outcome, passed,
      (completed.enter _ fun _ => (·.append (by decide))).publish _ _ _⟩
  · exact shows_publish _ _ _ _
  · exact (completed.enter _ fun _ => (·.append (by decide))).mono
      (fun _ done => .unpublished (by simp [raised]) done.1) fun _ => id

theorem meets_checkAndExecute :
    Meets (checkAndExecute calls job)
      (Between start job.id processing (fun row => row.status = .running)
        (CallSite.execute ∉ ·))
      (fun _ => RunReturned calls start processing job)
      (fun _ => RunRaised calls start processing job) := by
  have rejected : ∀ {onCalls : List CallSite → Prop} {world : World},
      (∀ made, onCalls made → CallSite.execute ∉ made) → ¬ Accepted calls start job →
        Between start job.id processing (fun row => row.status = .running) onCalls world →
          RunRaised calls start processing job world :=
    fun called refused between => between.mono (fun _ status => .running status fun _ => refused)
      fun made holds => Or.inl (called made holds)
  unfold checkAndExecute
  cases format : validateDatasetFormat job.datasetPath with
  | error message =>
      refine Meets.raise fun world => rejected (fun _ => id) fun accepted => ?_
      obtain ⟨found, same⟩ := accepted.1.1
      rw [format] at same
      cases same
  | ok found =>
      have looked : Meets
          (calls.getModelMeta.read .getModelMeta fun stores =>
            getModelMeta stores.models job.baseModel calls.pick)
          (Between start job.id processing (fun row => row.status = .running)
            (CallSite.execute ∉ ·))
          (fun model world => model = getModelMeta start.models job.baseModel calls.pick ∧
            Between start job.id processing (fun row => row.status = .running)
              (fun made => CallSite.execute ∉ made ∧ CallSite.getModelMeta ∈ made) world)
          (fun _ => RunRaised calls start processing job) := by
        refine Call.meets_read (fun _ world between => ⟨?_, ?_⟩)
          fun error raised world between => ?_
        · change getModelMeta world.stores.models _ _ = _
          rw [between.untouched.models]
        · exact between.enter _ fun _ none => ⟨notMem_append none (by decide), by simp⟩
        · exact raised_of_running between _ (by decide) (fun _ => Or.inl)
            fun sound => absurd (raised.symm.trans sound.getModelMeta) (by simp)
      refine looked.andThen fun model => Meets.pure fun same => ?_
      cases model with
      | none =>
          refine Meets.raise fun world => rejected (fun _ => And.left) fun accepted => ?_
          obtain ⟨model, found, _⟩ := accepted.1.2
          rw [← same] at found
          cases found
      | some model =>
          dsimp only
          cases fits : checkModelFits model.paramCount model.vramHint with
          | error message =>
              refine Meets.raise fun world => rejected (fun _ => And.left) fun accepted => ?_
              obtain ⟨other, found, passes⟩ := accepted.1.2
              obtain rfl : model = other := Option.some.inj (same.trans found)
              rw [fits] at passes
              cases passes
          | ok _ =>
              have passed : PassesPreflight start.models calls.pick job.toJobRow :=
                ⟨⟨found, format⟩, model, same.symm, fits⟩
              have executed : Meets (calls.execution.run job) _ _
                  (fun _ => RunRaised calls start processing job) :=
                (meets_execution calls.execution passed).consequence (fun _ => id)
                  (fun _ _ => id) fun error world ended =>
                    ended.2.mono (fun _ status => .running status fun _ accepted => by
                      obtain ⟨path, returned⟩ := accepted.2
                      rw [ended.1] at returned
                      cases returned) fun _ => id
              exact executed.andThen fun path => Meets.pure fun returned =>
                meets_complete returned passed

theorem meets_run (unfinished : job.status = .queued ∨ job.status = .running) :
    Meets (run calls job)
      (Between start job.id processing (fun row => row.status = job.status)
        (CallSite.execute ∉ ·))
      (fun _ => RunReturned calls start processing job)
      (fun _ => RunRaised calls start processing job) := by
  refine (meets_markRunning unfinished).andThen fun _ => Meets.andThen ?_ fun _ =>
    meets_checkAndExecute
  refine Call.meets_write (fun _ world between => ?_) fun error raised world between => ?_
  · exact (between.enter _ fun _ none => notMem_append none (by decide)).publish _ _ _
  · exact raised_of_running between _ (by decide) (fun _ => Or.inl)
      fun sound => absurd (raised.symm.trans sound.publishRunning) (by simp)

/-! ## `_fail` and `process` -/

def Unacked (calls : ProcessCalls) (processing : List String) (world : World) : Prop :=
  ¬ calls.Sound ∧ world.stores.processing = processing

theorem unacked_enter {onRow : JobRow → Prop} {onCalls : List CallSite → Prop} {world : World}
    {id : UUID} (between : Between start id processing onRow onCalls world) {site : CallSite}
    (elapsed : Nat) (unsound : ¬ calls.Sound) :
    Unacked calls processing (world.enter site elapsed) :=
  ⟨unsound, between.processing⟩

theorem meets_ack {onRow : JobRow → Prop} {passed : Prop} {id : UUID} (shown : JobStatus)
    (rawJobId : String) :
    Meets (ack calls rawJobId)
      (fun world => Between start id processing onRow (ExecutesAfter passed) world ∧
        Shows id shown world)
      (fun _ world => Between start id (RedisLists.lrem processing rawJobId) onRow
        (ExecutesAfter passed) world ∧ Shows id shown world)
      (fun _ => Unacked calls processing) := by
  refine Call.meets_write (fun _ world before => ⟨?_, before.2⟩) fun error raised world before => ?_
  · have entered := before.1.enter calls.ack.elapsed fun _ executes =>
      executes.append (show CallSite.ack ≠ .execute by decide)
    exact ⟨⟨entered.untouched.models, entered.untouched.queue, entered.untouched.rows,
      entered.untouched.statuses⟩, by rw [← entered.processing]; rfl, entered.row, entered.calls⟩
  · exact unacked_enter before.1 _ fun sound => absurd (raised.symm.trans sound.ack) (by simp)

theorem meets_fail {onRow : JobRow → Prop} {passed : Prop} {id : UUID} (rawJobId message : String) :
    Meets (fail calls rawJobId id message)
      (Between start id processing onRow (ExecutesAfter passed))
      (fun _ world => Between start id (RedisLists.lrem processing rawJobId)
        (fun row => ∃ before, onRow before ∧
          row = (RepositoryUpdate.markFailed message).onRow calls.markFailed.now before)
        (ExecutesAfter passed) world ∧ Shows id .failed world)
      (fun _ => Unacked calls processing) := by
  have marked : Meets (calls.markFailed.write .markFailed
        (.execute calls.markFailed.now id (.markFailed message)))
      (Between start id processing onRow (ExecutesAfter passed))
      (fun _ => Between start id processing
        (fun row => ∃ before, onRow before ∧
          row = (RepositoryUpdate.markFailed message).onRow calls.markFailed.now before)
        (ExecutesAfter passed))
      (fun _ => Unacked calls processing) := by
    refine Call.meets_write (fun _ world between => ?_) fun error raised world between => ?_
    · exact (between.enter _ fun _ => (·.append (by decide))).execute _
        fun row holds => ⟨row, holds, rfl⟩
    · exact unacked_enter between _
        fun sound => absurd (raised.symm.trans sound.markFailed) (by simp)
  refine marked.andThen fun _ => Meets.andThen ?_ fun _ => meets_ack .failed rawJobId
  refine Call.meets_write (fun _ world between => ⟨?_, ?_⟩) fun error raised world between => ?_
  · exact (between.enter _ fun _ => (·.append (by decide))).publish _ _ _
  · exact shows_publish _ _ _ _
  · exact unacked_enter between _
      fun sound => absurd (raised.symm.trans sound.publishFailed) (by simp)

/-- How an acknowledged invocation leaves the row, next to the status that the
hash shows. -/
inductive Handled (calls : ProcessCalls) (start : SharedStores) (job : Job) (shown : JobStatus)
    (row : JobRow) : Prop where
  | completed (checkpointPath : String)
      (returned : calls.execution.outcome = .ok checkpointPath)
      (passed : PassesPreflight start.models calls.pick job.toJobRow)
      (status : row.status = .completed) (stored : row.checkpointPath = some checkpointPath)
      (shows : shown = .completed)
  | failed (message : String) (rejected : calls.Sound → ¬ Accepted calls start job)
      (status : row.status = .failed) (stored : row.errorMessage = some message)
      (shows : shown = .failed)
  | unmarked (queued : job.status = .queued) (raised : calls.markRunning.raises ≠ none)
      (status : row.status = .queued)
  | unpublished (raised : calls.publishCompleted.raises ≠ none) (status : row.status = .completed)

theorem AfterRaise.handled {before : JobRow}
    (unfinished : job.status = .queued ∨ job.status = .running)
    (left : AfterRaise calls start job before) (now : Time) (message : String) :
    Handled calls start job .failed ((RepositoryUpdate.markFailed message).onRow now before) := by
  have failed : before.status = .running → (calls.Sound → ¬ Accepted calls start job) →
      Handled calls start job .failed
        ((RepositoryUpdate.markFailed message).onRow now before) := by
    intro status rejected
    have matched : before.status = (RepositoryUpdate.markFailed message).guard := status
    rw [RepositoryUpdate.onRow, if_pos matched]
    exact .failed message rejected rfl rfl rfl
  have kept : before.status ≠ .running →
      (RepositoryUpdate.markFailed message).onRow now before = before := fun other => if_neg other
  cases left with
  | unmarked raised same =>
      obtain queued | running := unfinished
      · rw [kept (by rw [same, queued]; decide)]
        exact .unmarked queued raised (same.trans queued)
      · exact failed (same.trans running) fun sound => absurd sound.markRunning raised
  | running status rejected => exact failed status rejected
  | unpublished raised status =>
      rw [kept (by rw [status]; decide)]
      exact .unpublished raised status

/-- How `process` ends for a job that is queued or running. -/
theorem meets_process (calls : ProcessCalls) {id : UUID} {row : JobRow}
    (found : start.jobs.lookup id = some row)
    (unfinished : row.status = .queued ∨ row.status = .running) :
    Meets (process calls id.str) (· = ⟨start, []⟩)
      (fun _ world => ∃ shown,
        Between start id (RedisLists.lrem start.processing id.str)
          (Handled calls start { row with id := id } shown)
          (ExecutesAfter (PassesPreflight start.models calls.pick row)) world ∧
        Shows id shown world)
      (fun _ => Unacked calls start.processing) := by
  have loaded : Meets (calls.getJob.read .getJob fun stores => stores.jobs.getJob id)
      (· = ⟨start, []⟩)
      (fun job world => job = some { row with id := id } ∧
        Between start id start.processing (fun row' => row'.status = row.status)
          (CallSite.execute ∉ ·) world)
      (fun _ => Unacked calls start.processing) := by
    have between : ∀ elapsed, Between start id start.processing
        (fun row' => row'.status = row.status) (CallSite.execute ∉ ·)
          (World.enter ⟨start, []⟩ .getJob elapsed) := fun elapsed =>
      ⟨⟨rfl, rfl, fun _ _ => rfl, fun _ _ => rfl⟩, rfl, ⟨row, found, rfl⟩,
        by simp [World.enter]⟩
    refine Call.meets_read (fun _ world before => ?_) fun error raised world before => ?_
    · subst before
      refine ⟨?_, between _⟩
      change (start.jobs.lookup id).map _ = _
      rw [found]
      rfl
    · subst before
      exact ⟨fun sound => absurd (raised.symm.trans sound.getJob) (by simp), rfl⟩
  unfold process
  rw [UUID.parse_str]
  refine loaded.andThen fun job => Meets.pure fun same => ?_
  subst same
  have unterminated : ¬ row.status.terminal = true := by
    obtain queued | running := unfinished
    · rw [queued]; decide
    · rw [running]; decide
  dsimp only
  rw [if_neg unterminated]
  refine (meets_run unfinished).caught (fun _ => ?_) fun error => ?_
  · refine (meets_ack .completed id.str).consequence (fun world returned => ?_)
      (fun _ world ended => ⟨.completed, ended⟩) (fun _ _ holds => holds)
    obtain ⟨⟨path, outcome, passed, between⟩, shows⟩ := returned
    exact ⟨between.mono (fun row' done => .completed path outcome passed done.1 done.2 rfl)
      (fun _ holds => holds), shows⟩
  · refine (meets_fail id.str (failureMessage error)).consequence (fun _ holds => holds)
      (fun _ world ended => ⟨.failed, ended.1.mono ?_ (fun _ holds => holds), ended.2⟩)
      (fun _ _ holds => holds)
    rintro _ ⟨before, left, rfl⟩
    exact left.handled unfinished _ _

/-- What `process` owes for a job that is queued or running. -/
structure Contract (calls : ProcessCalls) (start : SharedStores) (id : UUID) (row : JobRow)
    (world : World) : Prop where
  acked : id.str ∉ world.stores.processing
  completed :
    (∃ checkpointPath row', calls.execution.outcome = .ok checkpointPath ∧
        world.stores.jobs.lookup id = some row' ∧ row'.status = .completed ∧
          row'.checkpointPath = some checkpointPath) ↔
      Accepted calls start { row with id := id }
  failed : ¬ Accepted calls start { row with id := id } →
    ∃ row' message, world.stores.jobs.lookup id = some row' ∧ row'.status = .failed ∧
      row'.errorMessage = some message
  shown : ∃ row', world.stores.jobs.lookup id = some row' ∧ Shows id row'.status world
  executes : ExecutesAfter (PassesPreflight start.models calls.pick row) world.made
  others : world.stores.processing = RedisLists.lrem start.processing id.str
  untouched : Untouched start id world.stores

/-- An invocation in which no call of `process` fails keeps the contract, whatever
the executor does. -/
theorem process_contract {id : UUID} {row : JobRow} (found : start.jobs.lookup id = some row)
    (unfinished : row.status = .queued ∨ row.status = .running) (sound : calls.Sound) :
    (process calls id.str ⟨start, []⟩).1 = .ok () ∧
      Contract calls start id row (process calls id.str ⟨start, []⟩).2 := by
  have ended := meets_process calls found unfinished ⟨start, []⟩ rfl
  generalize process calls id.str ⟨start, []⟩ = final at ended ⊢
  obtain ⟨error | _, world⟩ := final
  · exact absurd sound ended.1
  obtain ⟨shown, between, shows⟩ := ended
  refine ⟨rfl, ?_⟩
  obtain ⟨row', stored, handled⟩ := between.row
  have acked : id.str ∉ world.stores.processing := by
    rw [between.processing, RedisLists.mem_lrem]
    simp
  have outcome : (row'.status = .completed ∧ shown = .completed ∧
        Accepted calls start { row with id := id } ∧
        ∃ path, calls.execution.outcome = .ok path ∧ row'.checkpointPath = some path) ∨
      (row'.status = .failed ∧ shown = .failed ∧ ¬ Accepted calls start { row with id := id } ∧
        ∃ message, row'.errorMessage = some message) := by
    cases handled with
    | completed path returned passed status kept shows =>
        exact Or.inl ⟨status, shows, ⟨passed, path, returned⟩, path, returned, kept⟩
    | failed message rejected status kept shows =>
        exact Or.inr ⟨status, shows, rejected sound, message, kept⟩
    | unmarked _ raised => exact absurd sound.markRunning raised
    | unpublished raised => exact absurd sound.publishCompleted raised
  obtain ⟨status, rfl, accepted, path, returned, kept⟩ |
    ⟨status, rfl, rejected, message, kept⟩ := outcome
  · exact
      { acked
        completed := iff_of_true ⟨path, row', returned, stored, status, kept⟩ accepted
        failed := fun rejected => absurd accepted rejected
        shown := ⟨row', stored, status ▸ shows⟩
        executes := between.calls
        others := between.processing
        untouched := between.untouched }
  · refine
      { acked
        completed := iff_of_false ?_ rejected
        failed := fun _ => ⟨row', message, stored, status, kept⟩
        shown := ⟨row', stored, status ▸ shows⟩
        executes := between.calls
        others := between.processing
        untouched := between.untouched }
    rintro ⟨_, other, _, stored', completed, _⟩
    obtain rfl := Option.some.inj (stored.symm.trans stored')
    exact absurd (status.symm.trans completed) (by decide)

end Run

def promptCall : Call :=
  ⟨0, 0, none⟩

/-- An invocation whose executor sends one heartbeat and returns. -/
def oneBeatCalls : ProcessCalls where
  getJob := promptCall
  markRunning := promptCall
  publishRunning := promptCall
  getModelMeta := promptCall
  pick := 0
  execution := ⟨[.heartbeat promptCall promptCall], .ok (checkpointPrefix Cluster.jobSeven)⟩
  markCompleted := promptCall
  publishCompleted := promptCall
  markFailed := promptCall
  publishFailed := promptCall
  ack := promptCall

def claimedStores : SharedStores :=
  { SharedStores.empty 0 Cluster.sevenModels with
    jobs := AList.insert Cluster.jobSeven (JobStore.newRow 0 Cluster.sevenRequest) ∅
    processing := [Cluster.jobSeven.str] }

theorem process_contract_oneBeat :
    (process oneBeatCalls Cluster.jobSeven.str ⟨claimedStores, []⟩).1 = .ok () ∧
      Contract oneBeatCalls claimedStores Cluster.jobSeven (JobStore.newRow 0 Cluster.sevenRequest)
        (process oneBeatCalls Cluster.jobSeven.str ⟨claimedStores, []⟩).2 :=
  process_contract (AList.lookup_insert _) (Or.inl rfl)
    ⟨rfl, rfl, rfl, rfl, rfl, rfl, rfl, rfl, rfl⟩

end JobProcessor

end Crucible
