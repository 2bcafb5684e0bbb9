import Crucible.ProcessContract

/-!
# Acknowledged jobs are finished

An invocation of `process` whose calls may raise.  The one way to acknowledge a
job that is still queued: `mark_running` raises, and the failure handler, whose
update wants a running row, runs through.
-/

namespace Crucible.JobProcessor

open RaisingScripts Script

section Faults

variable {calls : ProcessCalls} {start : SharedStores} {id : UUID}

/-- If `process` returns, and in any case if it acknowledges the job, its row is
finished. -/
def AckedFinished (calls : ProcessCalls) (start : SharedStores) (id : UUID) : Prop :=
  ((process calls id.str ⟨start, []⟩).1 = .ok () →
    id.str ∉ (process calls id.str ⟨start, []⟩).2.stores.processing ∧
      ∀ row, (process calls id.str ⟨start, []⟩).2.stores.jobs.lookup id = some row →
        row.status.terminal = true) ∧
  (id.str ∈ start.processing →
    id.str ∉ (process calls id.str ⟨start, []⟩).2.stores.processing →
      ∀ row, (process calls id.str ⟨start, []⟩).2.stores.jobs.lookup id = some row →
        row.status.terminal = true)

/-- The job is read while it is queued, `mark_running` raises, and no later call
does. -/
def UnmarkedAck (calls : ProcessCalls) (start : SharedStores) (id : UUID) : Prop :=
  start.HasStatus id .queued ∧ calls.getJob.raises = none ∧ calls.markRunning.raises ≠ none ∧
    calls.markFailed.raises = none ∧ calls.publishFailed.raises = none ∧ calls.ack.raises = none

theorem ack_ok_iff {rawJobId : String} {world : World} :
    (ack calls rawJobId world).1 = .ok () ↔ calls.ack.raises = none := by
  unfold ack Call.write
  cases calls.ack.raises <;> simp

theorem fail_ok_iff {rawJobId message : String} {world : World} :
    (fail calls rawJobId id message world).1 = .ok () ↔
      calls.markFailed.raises = none ∧ calls.publishFailed.raises = none ∧
        calls.ack.raises = none := by
  unfold fail andThen Call.write
  cases calls.markFailed.raises with
  | some error => simp
  | none =>
      cases calls.publishFailed.raises with
      | some error => simp
      | none => simpa using ack_ok_iff

theorem run_unmarked {job : Job} {error : RunError} (raised : calls.markRunning.raises = some error)
    (world : World) :
    run calls job world = (.error error, world.enter .markRunning calls.markRunning.elapsed) := by
  unfold run andThen Call.write
  rw [raised]

/-- What an invocation does that cannot mark its job as running. -/
theorem process_unmarked {row : JobRow} {error : RunError}
    (found : start.jobs.lookup id = some row) (unfinished : ¬ row.status.terminal = true)
    (loaded : calls.getJob.raises = none) (raised : calls.markRunning.raises = some error) :
    process calls id.str ⟨start, []⟩ =
      fail calls id.str id (failureMessage error)
        ((World.enter ⟨start, []⟩ .getJob calls.getJob.elapsed).enter .markRunning
          calls.markRunning.elapsed) := by
  have job : (World.enter ⟨start, []⟩ .getJob calls.getJob.elapsed).stores.jobs.getJob id =
      some { row with id := id } := by
    change (start.jobs.lookup id).map _ = _
    rw [found]
    rfl
  unfold process
  rw [UUID.parse_str]
  simp only [andThen, Call.read, loaded, job, if_neg unfinished, caught, run_unmarked raised]

theorem loaded_of_returned (returned : (process calls id.str ⟨start, []⟩).1 = .ok ()) :
    calls.getJob.raises = none := by
  unfold process at returned
  rw [UUID.parse_str] at returned
  cases raised : calls.getJob.raises with
  | none => rfl
  | some error => simp [andThen, Call.read, raised] at returned

theorem queued_of_unmarked (unmarked : UnmarkedAck calls start id) :
    (process calls id.str ⟨start, []⟩).1 = .ok () ∧
      ∃ row, (process calls id.str ⟨start, []⟩).2.stores.jobs.lookup id = some row ∧
        row.status = .queued := by
  obtain ⟨⟨row, found, queued⟩, loaded, raised, later⟩ := unmarked
  obtain ⟨error, raised⟩ := Option.ne_none_iff_exists'.mp raised
  rw [process_unmarked found (by rw [queued]; decide) loaded raised]
  have between : Between start id start.processing (fun row => row.status = .queued)
      (ExecutesAfter False) ((World.enter ⟨start, []⟩ .getJob calls.getJob.elapsed).enter
        .markRunning calls.markRunning.elapsed) :=
    ⟨⟨rfl, rfl, fun _ _ => rfl, fun _ _ => rfl⟩, rfl, ⟨row, found, queued⟩,
      Or.inl (by simp [World.enter])⟩
  obtain ⟨left, _⟩ :=
    (meets_fail id.str (failureMessage error) _ between).of_ok (fail_ok_iff.mpr later)
  obtain ⟨row', stored, before, queued, rfl⟩ := left.row
  have other : before.status ≠ (RepositoryUpdate.markFailed (failureMessage error)).guard := by
    rw [queued]
    exact JobStatus.noConfusion
  refine ⟨fail_ok_iff.mpr later, _, stored, ?_⟩
  rw [RepositoryUpdate.onRow, if_neg other, queued]

/-- A returned invocation for an unfinished job has finished it, or could not mark
it as running. -/
theorem finished_of_returned {row row' : JobRow} (found : start.jobs.lookup id = some row)
    (unfinished : row.status = .queued ∨ row.status = .running)
    (returned : (process calls id.str ⟨start, []⟩).1 = .ok ())
    (stored : (process calls id.str ⟨start, []⟩).2.stores.jobs.lookup id = some row')
    (marked : ¬ UnmarkedAck calls start id) : row'.status.terminal = true := by
  obtain ⟨shown, between, _⟩ := (meets_process calls found unfinished _ rfl).of_ok returned
  obtain ⟨other, stored', handled⟩ := between.row
  obtain rfl := Option.some.inj (stored.symm.trans stored')
  cases handled with
  | completed path _ _ status => rw [status]; rfl
  | failed message _ status => rw [status]; rfl
  | unpublished raised status => rw [status]; rfl
  | unmarked queued raised status =>
      refine absurd ⟨⟨row, found, queued⟩, loaded_of_returned returned, raised, ?_⟩ marked
      obtain ⟨error, raised⟩ := Option.ne_none_iff_exists'.mp raised
      rw [process_unmarked found (by rw [show row.status = .queued from queued]; decide)
        (loaded_of_returned returned) raised] at returned
      exact fail_ok_iff.mp returned

theorem process_settled (settled : ∀ row, start.jobs.lookup id = some row →
      row.status.terminal = true) :
    Meets (process calls id.str) (· = ⟨start, []⟩)
      (fun _ world => world.stores.jobs = start.jobs ∧ id.str ∉ world.stores.processing)
      (fun _ world => world.stores.processing = start.processing) := by
  have acked : Meets (ack calls id.str)
      (fun world => world.stores.jobs = start.jobs ∧ world.stores.processing = start.processing)
      (fun _ world => world.stores.jobs = start.jobs ∧ id.str ∉ world.stores.processing)
      (fun _ world => world.stores.processing = start.processing) := by
    refine Call.meets_write (fun _ world before => ⟨before.1, ?_⟩) fun _ _ world before => before.2
    change id.str ∉ RedisLists.lrem world.stores.processing id.str
    simp [RedisLists.mem_lrem]
  have loaded : Meets (calls.getJob.read .getJob fun stores => stores.jobs.getJob id)
      (· = ⟨start, []⟩)
      (fun job world => job = start.jobs.getJob id ∧ world.stores.jobs = start.jobs ∧
        world.stores.processing = start.processing)
      (fun _ world => world.stores.processing = start.processing) := by
    refine Call.meets_read (fun _ world before => ?_) fun _ _ world before => ?_
    · subst before
      exact ⟨rfl, rfl, rfl⟩
    · subst before
      rfl
  unfold process
  rw [UUID.parse_str]
  refine loaded.andThen fun job => Meets.pure fun same => ?_
  cases job with
  | none => exact acked
  | some job =>
      obtain ⟨row, found, rfl⟩ := Option.map_eq_some_iff.mp same.symm
      have finished : row.status.terminal = true := settled row found
      dsimp only
      rw [if_pos finished]
      exact acked

/-- A row is absent or finished, or there is something to do. -/
theorem settled_or_unfinished (start : SharedStores) (id : UUID) :
    (∀ row, start.jobs.lookup id = some row → row.status.terminal = true) ∨
      ∃ row, start.jobs.lookup id = some row ∧
        (row.status = .queued ∨ row.status = .running) := by
  cases found : start.jobs.lookup id with
  | none => exact Or.inl fun row same => by cases same
  | some row =>
      cases status : row.status with
      | queued => exact Or.inr ⟨row, rfl, Or.inl status⟩
      | running => exact Or.inr ⟨row, rfl, Or.inr status⟩
      | completed | failed | cancelled =>
          refine Or.inl fun other same => ?_
          rw [← Option.some.inj same, status]
          rfl

theorem unacked_of_raised {error : RunError}
    (raised : (process calls id.str ⟨start, []⟩).1 = .error error) :
    (process calls id.str ⟨start, []⟩).2.stores.processing = start.processing := by
  obtain settled | ⟨row, found, unfinished⟩ := settled_or_unfinished start id
  · exact (process_settled settled _ rfl).of_error raised
  · exact ((meets_process calls found unfinished _ rfl).of_error raised).2

/-- An acknowledged job is finished exactly when it is not left unmarked. -/
theorem acked_finished_iff :
    AckedFinished calls start id ↔ ¬ UnmarkedAck calls start id := by
  constructor
  · intro finished unmarked
    obtain ⟨returned, row, stored, queued⟩ := queued_of_unmarked unmarked
    have terminal := (finished.1 returned).2 row stored
    rw [queued] at terminal
    cases terminal
  · intro marked
    have finished : (process calls id.str ⟨start, []⟩).1 = .ok () →
        id.str ∉ (process calls id.str ⟨start, []⟩).2.stores.processing ∧
          ∀ row, (process calls id.str ⟨start, []⟩).2.stores.jobs.lookup id = some row →
            row.status.terminal = true := by
      intro returned
      obtain settled | ⟨row, found, unfinished⟩ := settled_or_unfinished start id
      · obtain ⟨kept, acked⟩ := (process_settled settled _ rfl).of_ok returned
        exact ⟨acked, kept ▸ settled⟩
      · obtain ⟨shown, between, _⟩ := (meets_process calls found unfinished _ rfl).of_ok returned
        refine ⟨?_, fun row' stored =>
          finished_of_returned found unfinished returned stored marked⟩
        rw [between.processing, RedisLists.mem_lrem]
        simp
    refine ⟨finished, fun claimed acked => ?_⟩
    cases outcome : (process calls id.str ⟨start, []⟩).1 with
    | ok _ => exact (finished outcome).2
    | error error => exact absurd (unacked_of_raised outcome ▸ claimed) acked

end Faults

/-! ## A database that comes back -/

/-- `mark_running` raises, and every other call takes effect. -/
def unmarkedCalls : ProcessCalls :=
  { oneBeatCalls with markRunning := ⟨0, 0, some (.exception "connection refused")⟩ }

/-- A queued job is acknowledged and stays queued. -/
theorem acked_while_queued :
    ¬ ∀ (calls : ProcessCalls) (start : SharedStores) (id : UUID),
      AckedFinished calls start id := by
  intro finished
  have unmarked : UnmarkedAck unmarkedCalls claimedStores Cluster.jobSeven := by
    refine ⟨⟨_, AList.lookup_insert _, rfl⟩, rfl, ?_, rfl, rfl, rfl⟩
    exact Option.some_ne_none _
  obtain ⟨returned, row, stored, queued⟩ := queued_of_unmarked unmarked
  have terminal :=
    ((finished unmarkedCalls claimedStores Cluster.jobSeven).1 returned).2 row stored
  rw [queued] at terminal
  cases terminal

end Crucible.JobProcessor
