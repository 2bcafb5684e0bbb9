import Crucible.JobFinality
import Crucible.RunSimulations

/-!
# Sessions as atomic transactions

The coarse view of the `jobs` table, in which a backend update and a guarded
statement of a worker each happen at one moment, is what clients see of the
interleaved SQL statements: every run of statements is matched by a run of
atomic calls with the same rows and the same answers, in which each call takes
effect at a statement of its own session.
-/

namespace Crucible

open LabelledRuns

/-! ## Atomic calls -/

/-- A call as its caller sees it: it has begun, or it has been answered. -/
inductive JobCall where
  | idle
  | updating (id : UUID) (update : BackendUpdate) (now : Time)
  | updated (id : UUID) (update : BackendUpdate) (result : Except UpdateError Job)
  | executing (id : UUID) (update : RepositoryUpdate) (now : Time)
  | executed

structure AtomicJobs where
  clock : Time
  jobs : JobTable
  calls : Nat → JobCall

namespace AtomicJobs

inductive Action where
  | tick (duration : Nat)
  | insert (id : UUID) (request : CreateJobRequest)
  | beginUpdate (session : Nat) (id : UUID) (update : BackendUpdate)
  | update (session : Nat) (acknowledged : Bool)
  | beginExecute (session : Nat) (id : UUID) (update : RepositoryUpdate)
  | execute (session : Nat)
  | abort (session : Nat)

def put (system : AtomicJobs) (session : Nat) (call : JobCall) (jobs : JobTable) : AtomicJobs :=
  { system with jobs := jobs, calls := Function.update system.calls session call }

/-- One call begins, takes effect as a whole, or fails without effect.  The
answer to an update that took effect may get lost. -/
def step (system : AtomicJobs) : Action → Option AtomicJobs
  | .tick duration => some { system with clock := system.clock + duration }
  | .insert id request =>
      if system.jobs.lookup id = none then
        some { system with jobs := system.jobs.insert id (JobStore.newRow system.clock request) }
      else
        none
  | .beginUpdate session id update =>
      match system.calls session with
      | .idle => some (system.put session (.updating id update system.clock) system.jobs)
      | _ => none
  | .update session acknowledged =>
      match system.calls session with
      | .updating id update now =>
          let (result, jobs) := JobStore.update system.jobs now id update.fields
          some (system.put session
            (.updated id update (if acknowledged then result else .error .database)) jobs)
      | _ => none
  | .beginExecute session id update =>
      match system.calls session with
      | .idle => some (system.put session (.executing id update system.clock) system.jobs)
      | _ => none
  | .execute session =>
      match system.calls session with
      | .executing id update now =>
          some (system.put session .executed (system.jobs.execute now id update))
      | _ => none
  | .abort session =>
      match system.calls session with
      | .updating id update _ =>
          some (system.put session (.updated id update (.error .database)) system.jobs)
      | .executing _ _ _ => some (system.put session .executed system.jobs)
      | _ => none

def initial (jobs : JobTable) (clock : Time) : AtomicJobs :=
  ⟨clock, jobs, fun _ => .idle⟩

end AtomicJobs

namespace JobSessions

/-- What the caller of a session sees.  A statement whose `WHERE` has matched no
row has taken its effect, which is none. -/
def call (system : JobSessions) (session : Nat) : JobCall :=
  match system.sessions session with
  | .closed => .idle
  | .updateBegun id update now | .updateLocked id update now _
  | .updateWritten id update now _ => .updating id update now
  | .updateReturned id update result => .updated id update result
  | .statementBegun id update now => .executing id update now
  | .statementExecuted id update now =>
      if system.rows.locks session id then .executing id update now else .executed
  | .statementReturned => .executed

/-- Where a statement takes effect: an update that finds no row at its `SELECT`,
one that is rejected at its validation, and all others at `COMMIT`; a statement
that matches no row when its `WHERE` is evaluated. -/
def points (system : JobSessions) : Action → List AtomicJobs.Action
  | .tick duration => [.tick duration]
  | .insert id request => [.insert id request]
  | .beginUpdate session id update => [.beginUpdate session id update]
  | .selectForUpdate session =>
      match system.sessions session with
      | .updateBegun id _ _ =>
          if system.rows.committed id = none then [.update session true] else []
      | _ => []
  | .validateAndWrite session =>
      match system.sessions session with
      | .updateLocked _ update _ currentStatus =>
          match validateTransition currentStatus update.target with
          | .error _ => [.update session true]
          | .ok _ => []
      | _ => []
  | .beginStatement session id update => [.beginExecute session id update]
  | .executeStatement session =>
      match system.sessions session with
      | .statementBegun id update _ =>
          if (system.rows.committed id).any fun row => row.status = update.guard then []
          else [.execute session]
      | _ => []
  | .commit session acknowledged =>
      match system.sessions session with
      | .updateWritten _ _ _ _ => [.update session acknowledged]
      | .statementExecuted id _ _ =>
          if system.rows.locks session id then [.execute session] else []
      | _ => []
  | .abort session =>
      match system.sessions session with
      | .statementExecuted id _ _ =>
          if system.rows.locks session id then [.abort session] else []
      | _ => [.abort session]

/-- The sessions and the atomic calls agree: on the time, the committed rows and
what each caller sees. -/
structure Refines (system : JobSessions) (atomic : AtomicJobs) : Prop where
  clock : atomic.clock = system.clock
  jobs : ∀ id, atomic.jobs.lookup id = system.rows.committed id
  calls : ∀ session, atomic.calls session = system.call session

theorem refines_initial (jobs : JobTable) (clock : Time) :
    Refines (initial (fun id => jobs.lookup id) clock) (AtomicJobs.initial jobs clock) :=
  ⟨rfl, fun _ => rfl, fun _ => rfl⟩

/-! ## One statement -/

variable {system system' : JobSessions} {atomic : AtomicJobs}

theorem Refines.put (held : Refines system atomic) {session : Nat} {next : Session}
    {rows : LockedRows UUID (Option JobRow) Nat} {nextCall : JobCall} {jobs : JobTable}
    (committed : ∀ id, jobs.lookup id = rows.committed id)
    (own : (system.put session next rows).call session = nextCall)
    (others : ∀ other, other ≠ session → rows.locks other = system.rows.locks other) :
    Refines (system.put session next rows) (atomic.put session nextCall jobs) where
  clock := held.clock
  jobs := committed
  calls other := by
    by_cases same : other = session
    · subst same
      rw [own]
      exact Function.update_self ..
    · have view : (system.put session next rows).call other = system.call other := by
        simp only [call, JobSessions.put, Function.update_of_ne same, others other same]
      rw [view, ← held.calls other]
      exact Function.update_of_ne same ..

/-- A session has moved without its caller noticing. -/
theorem Refines.stutter (held : Refines system atomic) {session : Nat} {next : Session}
    {rows : LockedRows UUID (Option JobRow) Nat} (committed : rows.committed = system.rows.committed)
    (own : (system.put session next rows).call session = system.call session)
    (others : ∀ other, other ≠ session → rows.locks other = system.rows.locks other) :
    Refines (system.put session next rows) atomic := by
  have moved : Refines (system.put session next rows)
      (atomic.put session (atomic.calls session) atomic.jobs) :=
    held.put (fun id => by rw [committed, held.jobs]) (own.trans (held.calls session).symm) others
  have same : atomic.put session (atomic.calls session) atomic.jobs = atomic := by
    simp [AtomicJobs.put]
  rwa [same] at moved

theorem update_of_missing {table : JobTable} (now : Time) {id : UUID} (fields : UpdateJobFields)
    (missing : table.lookup id = none) :
    JobStore.update table now id fields = (.error .jobNotFound, table) := by
  simp [JobStore.update, missing]

theorem update_of_error {table : JobTable} {now : Time} {id : UUID} {row : JobRow}
    {fields : UpdateJobFields} {target : JobStatus} {error : UpdateError}
    (found : table.lookup id = some row) (asked : fields.status = some target)
    (invalid : validateTransition row.status target = .error error) :
    JobStore.update table now id fields = (.error error, table) := by
  simp [JobStore.update, found, asked, invalid]

theorem update_of_ok {table : JobTable} {now : Time} {id : UUID} {row : JobRow}
    {fields : UpdateJobFields} {target : JobStatus}
    (found : table.lookup id = some row) (asked : fields.status = some target)
    (valid : validateTransition row.status target = .ok ()) :
    JobStore.update table now id fields =
      (.ok { fields.onRow now row with id := id }, table.insert id (fields.onRow now row)) := by
  simp [JobStore.update, found, asked, valid]

/-- The call of a session is an update that has not taken effect. -/
theorem Refines.replay_update (held : Refines system atomic) {session : Nat} {id : UUID}
    {update : BackendUpdate} {now : Time} (acknowledged : Bool)
    (open_ : system.call session = .updating id update now) :
    replay AtomicJobs.step Any atomic [.update session acknowledged] =
      some (atomic.put session
        (.updated id update (if acknowledged then
          (JobStore.update atomic.jobs now id update.fields).1 else .error .database))
        (JobStore.update atomic.jobs now id update.fields).2) := by
  simp [replay, Any, AtomicJobs.step, held.calls session, open_]

theorem Refines.replay_execute (held : Refines system atomic) {session : Nat} {id : UUID}
    {update : RepositoryUpdate} {now : Time} (open_ : system.call session = .executing id update now) :
    replay AtomicJobs.step Any atomic [.execute session] =
      some (atomic.put session .executed (atomic.jobs.execute now id update)) := by
  simp [replay, Any, AtomicJobs.step, held.calls session, open_]

theorem refines_abort (held : Refines system atomic) {session : Nat}
    (moved : system.step (.abort session) = some system') :
    ∃ atomic', replay AtomicJobs.step Any atomic (system.points (.abort session)) = some atomic' ∧
      Refines system' atomic' := by
  have others : ∀ other, other ≠ session →
      (system.rows.rollback session).locks other = system.rows.locks other :=
    fun other distinct => LockedRows.locks_rollback_of_ne distinct
  have updating {id : UUID} {update : BackendUpdate} {now : Time}
      (open_ : system.call session = .updating id update now)
      (point : system.points (.abort session) = [.abort session])
      (same : system' = system.put session (.updateReturned id update (.error .database))
        (system.rows.rollback session)) :
      ∃ atomic', replay AtomicJobs.step Any atomic (system.points (.abort session)) =
        some atomic' ∧ Refines system' atomic' := by
    rw [point, same]
    refine ⟨atomic.put session (.updated id update (.error .database)) atomic.jobs, ?_,
      held.put held.jobs ?_ others⟩
    · simp [replay, Any, AtomicJobs.step, held.calls session, open_]
    · simp [call, JobSessions.put]
  have executing {id : UUID} {update : RepositoryUpdate} {now : Time}
      (open_ : system.call session = .executing id update now)
      (point : system.points (.abort session) = [.abort session])
      (same : system' = system.put session .statementReturned (system.rows.rollback session)) :
      ∃ atomic', replay AtomicJobs.step Any atomic (system.points (.abort session)) =
        some atomic' ∧ Refines system' atomic' := by
    rw [point, same]
    refine ⟨atomic.put session .executed atomic.jobs, ?_, held.put held.jobs ?_ others⟩
    · simp [replay, Any, AtomicJobs.step, held.calls session, open_]
    · simp [call, JobSessions.put]
  cases opened : system.sessions session with
  | updateBegun id update now | updateLocked id update now currentStatus
  | updateWritten id update now written =>
      have open_ : system.call session = .updating id update now := by simp [call, opened]
      simp only [step, opened, Option.some.injEq] at moved
      exact updating open_ (by simp [points, opened]) moved.symm
  | statementBegun id update now =>
      have open_ : system.call session = .executing id update now := by simp [call, opened]
      simp only [step, opened, Option.some.injEq] at moved
      exact executing open_ (by simp [points, opened]) moved.symm
  | statementExecuted id update now =>
      simp only [step, opened, Option.some.injEq] at moved
      cases locks : system.rows.locks session id with
      | true =>
          have open_ : system.call session = .executing id update now := by
            simp [call, opened, locks]
          exact executing open_ (by simp [points, opened, locks]) moved.symm
      | false =>
          have point : system.points (.abort session) = [] := by simp [points, opened, locks]
          subst moved
          refine ⟨atomic, by rw [point]; rfl, held.stutter rfl ?_ others⟩
          simp [call, JobSessions.put, opened, locks]
  | closed | updateReturned id update result | statementReturned =>
      simp [step, opened] at moved

/-- Every statement is matched by what happens at its point. -/
theorem refines_step (locked : Locked system) (held : Refines system atomic) {action : Action}
    (moved : system.step action = some system') :
    ∃ atomic', replay AtomicJobs.step Any atomic (system.points action) = some atomic' ∧
      Refines system' atomic' := by
  cases outcome_of_step moved with
  | @ticked duration =>
      refine ⟨_, rfl, by simp [held.clock], held.jobs, held.calls⟩
  | @inserted id request fresh unlocked =>
      refine ⟨{ atomic with
        jobs := atomic.jobs.insert id (JobStore.newRow atomic.clock request) }, ?_,
        held.clock, fun other => ?_, held.calls⟩
      · simp [replay, Any, points, AtomicJobs.step, held.jobs, fresh]
      · simp only [KeyedTable.lookup_insert, Function.update_apply, held.jobs, held.clock]
  | @updateOpened session id update closed =>
      have idle : atomic.calls session = .idle := by
        rw [held.calls, call, closed]
      refine ⟨atomic.put session (.updating id update atomic.clock) atomic.jobs, ?_, ?_⟩
      · simp [replay, Any, points, AtomicJobs.step, idle]
      · refine held.put held.jobs ?_ fun _ _ => rfl
        simp [call, JobSessions.put, held.clock]
  | @missed session id update now opened absent =>
      have open_ : system.call session = .updating id update now := by simp [call, opened]
      have missing := update_of_missing now update.fields ((held.jobs id).trans absent)
      have point : system.points (.selectForUpdate session) = [.update session true] := by
        simp [points, opened, absent]
      rw [point, held.replay_update true open_, missing]
      refine ⟨_, rfl, held.put held.jobs ?_ fun _ _ => rfl⟩
      simp [call, JobSessions.put]
  | @selected session id update now row rows opened found acquired =>
      have point : system.points (.selectForUpdate session) = [] := by
        simp [points, opened, found]
      refine ⟨atomic, by rw [point]; rfl, held.stutter (LockedRows.acquire_eq_some acquired).1 ?_
        fun other distinct => LockedRows.locks_acquire_of_ne distinct acquired⟩
      simp [call, JobSessions.put, opened]
  | @rejected session id update now currentStatus error opened invalid =>
      obtain ⟨version, held'⟩ := locked.holds session id (by simp [opened, needs])
      have derived := locked.based id session version held'
      simp only [opened, Derives] at derived
      obtain ⟨_, _, row, found, rfl⟩ := derived
      have open_ : system.call session = .updating id update now := by simp [call, opened]
      have point : system.points (.validateAndWrite session) = [.update session true] := by
        simp [points, opened, invalid]
      rw [point, held.replay_update true open_,
        update_of_error ((held.jobs id).trans found) update.fields_status invalid]
      refine ⟨_, rfl, held.put held.jobs ?_
        fun other distinct => LockedRows.locks_rollback_of_ne distinct⟩
      simp [call, JobSessions.put]
  | @wrote session id update now currentStatus row opened valid seen =>
      have own := locked.holds session id (by simp [opened, needs])
      have point : system.points (.validateAndWrite session) = [] := by
        simp [points, opened, valid]
      refine ⟨atomic, by rw [point]; rfl, held.stutter rfl ?_
        fun other distinct => LockedRows.locks_write_of_ne distinct _ own⟩
      simp [call, JobSessions.put, opened]
  | @statementOpened session id update closed =>
      have idle : atomic.calls session = .idle := by
        rw [held.calls, call, closed]
      refine ⟨atomic.put session (.executing id update atomic.clock) atomic.jobs, ?_, ?_⟩
      · simp [replay, Any, points, AtomicJobs.step, idle]
      · refine held.put held.jobs ?_ fun _ _ => rfl
        simp [call, JobSessions.put, held.clock]
  | @unmatched session id update now opened mismatch =>
      have open_ : system.call session = .executing id update now := by simp [call, opened]
      have unlocked : system.rows.locks session id = false := by
        refine Bool.eq_false_iff.mpr fun locks => ?_
        obtain ⟨version, own⟩ := LockedRows.locks_iff.mp locks
        have derived := locked.based id session version own
        simp only [opened, Derives] at derived
      have point : system.points (.executeStatement session) = [.execute session] := by
        cases found : system.rows.committed id with
        | none => simp [points, opened, found]
        | some row => simp [points, opened, found, mismatch row found]
      rw [point, held.replay_execute open_]
      refine ⟨_, rfl, held.put (fun other => ?_) ?_ fun _ _ => rfl⟩
      · rw [JobTable.lookup_execute]
        split
        case isTrue same =>
          rw [same, held.jobs]
          cases found : system.rows.committed id with
          | none => rfl
          | some row =>
              rw [Option.map_some, RepositoryUpdate.onRow, if_neg (mismatch row found)]
        case isFalse => exact held.jobs other
      · simp [call, JobSessions.put, unlocked]
  | @matched session id update now row rows opened found match_ acquired =>
      have own : ∃ version, rows.draft id = some (session, version) := by
        obtain ⟨_, _, ⟨_, taken⟩ | ⟨rfl, own⟩⟩ := LockedRows.acquire_eq_some acquired
        · exact ⟨_, taken⟩
        · exact own
      have point : system.points (.executeStatement session) = [] := by
        simp [points, opened, found, match_]
      refine ⟨atomic, by rw [point]; rfl, held.stutter
        (LockedRows.acquire_eq_some acquired).1 ?_ fun other distinct => ?_⟩
      · have locks : (rows.write session id (some (update.set now row))).locks session id = true :=
          LockedRows.locks_iff.mpr ⟨_, Function.update_self ..⟩
        simp [call, JobSessions.put, opened, locks]
      · rw [LockedRows.locks_write_of_ne distinct _ own,
          LockedRows.locks_acquire_of_ne distinct acquired]
  | @updateCommitted session acknowledged id update now written opened =>
      obtain ⟨version, own⟩ := locked.holds session id (by simp [opened, needs])
      have derived := locked.based id session version own
      simp only [opened, Derives] at derived
      obtain ⟨_, rfl, row, found, rfl, valid⟩ := derived
      have only : ∀ other version', system.rows.draft other = some (session, version') →
          other = id := by
        intro other version' own'
        have derived' := locked.based other session version' own'
        simp only [opened, Derives] at derived'
        exact derived'.1.symm
      have open_ : system.call session = .updating id update now := by simp [call, opened]
      have point : system.points (.commit session acknowledged) =
          [.update session acknowledged] := by
        simp [points, opened]
      rw [point, held.replay_update acknowledged open_,
        update_of_ok ((held.jobs id).trans found) update.fields_status valid]
      refine ⟨_, rfl, held.put (fun other => ?_) ?_
        fun other distinct => LockedRows.locks_commit_of_ne distinct⟩
      · rw [LockedRows.commit_committed, seen_eq_update own only, KeyedTable.lookup_insert,
          Function.update_apply, held.jobs]
      · simp [call, JobSessions.put]
  | @statementCommitted session acknowledged id update now opened =>
      have only : ∀ other version, system.rows.draft other = some (session, version) →
          other = id := by
        intro other version own
        have derived := locked.based other session version own
        simp only [opened, Derives] at derived
        exact derived.1.symm
      have others : ∀ other, other ≠ session →
          (system.rows.commit session).locks other = system.rows.locks other :=
        fun other distinct => LockedRows.locks_commit_of_ne distinct
      cases locks : system.rows.locks session id with
      | true =>
          obtain ⟨version, own⟩ := LockedRows.locks_iff.mp locks
          have derived := locked.based id session version own
          simp only [opened, Derives] at derived
          obtain ⟨_, row, found, match_, rfl⟩ := derived
          have open_ : system.call session = .executing id update now := by
            simp [call, opened, locks]
          have point : system.points (.commit session acknowledged) = [.execute session] := by
            simp [points, opened, locks]
          rw [point, held.replay_execute open_]
          refine ⟨_, rfl, held.put (fun other => ?_) ?_ others⟩
          · rw [LockedRows.commit_committed, seen_eq_update own only, JobTable.lookup_execute,
              Function.update_apply, held.jobs, held.jobs, found]
            simp [RepositoryUpdate.onRow, match_]
          · simp [call, JobSessions.put]
      | false =>
          have point : system.points (.commit session acknowledged) = [] := by
            simp [points, opened, locks]
          refine ⟨atomic, by rw [point]; rfl, held.stutter (funext fun other => ?_) ?_ others⟩
          · rcases system.rows.seen_eq_or session other with same | own
            · exact same
            · obtain rfl := only other _ own
              rw [LockedRows.locks_iff.mpr ⟨_, own⟩] at locks
              cases locks
          · simp [call, JobSessions.put, opened, locks]
  | updateAborted open_ => exact refines_abort held moved
  | statementAborted open_ => exact refines_abort held moved

/-! ## All runs -/

/-- Every run of interleaved statements is a run of atomic calls, each of which
takes effect at one statement of its own session: same time, same rows, and the
same answers. -/
theorem sessions_linearizable {jobs : JobTable} {clock : Time} {actions : List Action}
    (followed : replay step Any (initial (fun id => jobs.lookup id) clock) actions =
      some system) :
    ∃ atomic, replay AtomicJobs.step Any (AtomicJobs.initial jobs clock)
        (translate step points (initial (fun id => jobs.lookup id) clock) actions) =
          some atomic ∧ Refines system atomic := by
  obtain ⟨atomic, matched, _, refines⟩ := replay_translate
    (fun state atomic => Locked state ∧ Refines state atomic)
    (fun _ _ _ _ held moved => by
      obtain ⟨atomic', matched, refines⟩ := refines_step held.1 held.2 moved
      exact ⟨atomic', matched, step_locked held.1 moved, refines⟩)
    ⟨locked_initial _ clock, refines_initial jobs clock⟩ followed
  exact ⟨atomic, matched, refines⟩

/-- The cancel of `racedCancel` is acknowledged, and so is its atomic call. -/
theorem sessions_linearizable_racedCancel :
    ∃ system atomic, cancelAcknowledged system = true ∧ Refines system atomic := by
  have replays : (replay step Any (initial (fun id => (∅ : JobTable).lookup id) 0)
      racedCancel).any cancelAcknowledged = true := by
    decide
  obtain ⟨system, followed, acknowledged⟩ := (Option.any_eq_true _ _).mp replays
  obtain ⟨atomic, _, refines⟩ := sessions_linearizable followed
  exact ⟨system, atomic, acknowledged, refines⟩

end JobSessions

end Crucible
