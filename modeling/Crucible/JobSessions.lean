import Crucible.HttpAnswers
import Crucible.LabelledRuns
import Crucible.RowLocks

/-!
# The `jobs` table under interleaved SQL statements

Every access of the system to the `jobs` table goes through one of a few
transactions: the insert of `JobStore.Create`, the `SELECT ... FOR UPDATE`,
`UPDATE`, `COMMIT` of `JobStore.Update`, and the single guarded `UPDATE` of each
repository method.  A backend request, a worker or a reconciler is a client
that opens such sessions one after the other, so the system of all sessions,
opened in any number and at any time, contains every interleaving of their
statements.

Statements follow Postgres at `READ COMMITTED`.  `NOW()` is the time of the
transaction's `BEGIN`.  A guarded `UPDATE` that meets a locked row waits for the
lock and evaluates its `WHERE` again on the version committed by then; a row
that does not match is left alone without waiting.
-/

namespace Crucible

/-- The updates that backend requests make through `JobStore.Update`. -/
inductive BackendUpdate where
  | enqueueFailed (errorMessage : String)
  | cancel
  deriving DecidableEq, Repr

namespace BackendUpdate

def fields : BackendUpdate → UpdateJobFields
  | enqueueFailed errorMessage => enqueueFailedFields errorMessage
  | cancel => cancelFields

def target : BackendUpdate → JobStatus
  | enqueueFailed _ => .failed
  | cancel => .cancelled

theorem fields_status (update : BackendUpdate) :
    update.fields.status = some update.target := by
  cases update <;> rfl

end BackendUpdate

/-- The state of one database session.  `now` is the time of its `BEGIN`. -/
inductive Session where
  | closed
  | updateBegun (id : UUID) (update : BackendUpdate) (now : Time)
  | updateLocked (id : UUID) (update : BackendUpdate) (now : Time) (currentStatus : JobStatus)
  | updateWritten (id : UUID) (update : BackendUpdate) (now : Time) (written : JobRow)
  | updateReturned (id : UUID) (update : BackendUpdate) (result : Except UpdateError Job)
  | statementBegun (id : UUID) (update : RepositoryUpdate) (now : Time)
  | statementExecuted (id : UUID) (update : RepositoryUpdate) (now : Time)
  | statementReturned

/-- The table with its row locks, and all sessions. -/
structure JobSessions where
  clock : Time
  rows : LockedRows UUID (Option JobRow) Nat
  sessions : Nat → Session

namespace JobSessions

inductive Action where
  | tick (duration : Nat)
  | insert (id : UUID) (request : CreateJobRequest)
  | beginUpdate (session : Nat) (id : UUID) (update : BackendUpdate)
  | selectForUpdate (session : Nat)
  | validateAndWrite (session : Nat)
  | beginStatement (session : Nat) (id : UUID) (update : RepositoryUpdate)
  | executeStatement (session : Nat)
  | commit (session : Nat) (acknowledged : Bool)
  | abort (session : Nat)

def put (system : JobSessions) (session : Nat) (next : Session)
    (rows : LockedRows UUID (Option JobRow) Nat) : JobSessions :=
  { system with rows := rows, sessions := Function.update system.sessions session next }

/-- One SQL statement of one session, or the passage of time.  The result is
`none` when the session is not at that statement or has to wait for a lock. -/
def step (system : JobSessions) : Action → Option JobSessions
  | .tick duration => some { system with clock := system.clock + duration }
  | .insert id request =>
      if system.rows.committed id = none ∧ system.rows.draft id = none then
        some { system with
          rows := { system.rows with
            committed := Function.update system.rows.committed id
              (some (JobStore.newRow system.clock request)) } }
      else
        none
  | .beginUpdate session id update =>
      match system.sessions session with
      | .closed =>
          some (system.put session (.updateBegun id update system.clock) system.rows)
      | _ => none
  | .selectForUpdate session =>
      match system.sessions session with
      | .updateBegun id update now =>
          match system.rows.committed id with
          | none =>
              some (system.put session (.updateReturned id update (.error .jobNotFound))
                system.rows)
          | some row =>
              (system.rows.acquire session id).map fun rows =>
                system.put session (.updateLocked id update now row.status) rows
      | _ => none
  | .validateAndWrite session =>
      match system.sessions session with
      | .updateLocked id update now currentStatus =>
          match validateTransition currentStatus update.target, system.rows.seen session id with
          | .error error, _ =>
              some (system.put session (.updateReturned id update (.error error))
                (system.rows.rollback session))
          | .ok (), some row =>
              let written := update.fields.onRow now row
              some (system.put session (.updateWritten id update now written)
                (system.rows.write session id (some written)))
          | .ok (), none => none
      | _ => none
  | .beginStatement session id update =>
      match system.sessions session with
      | .closed =>
          some (system.put session (.statementBegun id update system.clock) system.rows)
      | _ => none
  | .executeStatement session =>
      match system.sessions session with
      | .statementBegun id update now =>
          match system.rows.committed id with
          | none => some (system.put session (.statementExecuted id update now) system.rows)
          | some row =>
              if row.status = update.guard then
                (system.rows.acquire session id).map fun rows =>
                  system.put session (.statementExecuted id update now)
                    (rows.write session id (some (update.set now row)))
              else
                some (system.put session (.statementExecuted id update now) system.rows)
      | _ => none
  | .commit session acknowledged =>
      match system.sessions session with
      | .updateWritten id update _ written =>
          let result := if acknowledged then
            .ok { written with id := id } else .error .database
          some (system.put session (.updateReturned id update result)
            (system.rows.commit session))
      | .statementExecuted _ _ _ =>
          some (system.put session .statementReturned (system.rows.commit session))
      | _ => none
  | .abort session =>
      match system.sessions session with
      | .updateBegun id update _ | .updateLocked id update _ _
      | .updateWritten id update _ _ =>
          some (system.put session (.updateReturned id update (.error .database))
            (system.rows.rollback session))
      | .statementBegun _ _ _ | .statementExecuted _ _ _ =>
          some (system.put session .statementReturned (system.rows.rollback session))
      | _ => none

def initial (rows : UUID → Option JobRow) (clock : Time) : JobSessions where
  clock := clock
  rows := ⟨rows, fun _ => none⟩
  sessions := fun _ => .closed

/-! ## What uncommitted versions derive from -/

/-- How the version that a session holds under a lock derives from the
committed one. -/
def Derives : Session → UUID → Option JobRow → Option JobRow → Prop
  | .updateLocked own _ _ currentStatus, id, before, after =>
      own = id ∧ after = before ∧ ∃ row, before = some row ∧ row.status = currentStatus
  | .updateWritten own update now written, id, before, after =>
      own = id ∧ after = some written ∧ ∃ row, before = some row ∧
        written = update.fields.onRow now row ∧
        validateTransition row.status update.target = .ok ()
  | .statementExecuted own update now, id, before, after =>
      own = id ∧ ∃ row, before = some row ∧ row.status = update.guard ∧
        after = some (update.set now row)
  | _, _, _, _ => False

/-- The row whose lock a session needs at this point. -/
def needs : Session → Option UUID
  | .updateLocked id _ _ _ | .updateWritten id _ _ _ => some id
  | _ => none

/-- The `NOW()` of an open transaction. -/
def begun : Session → Option Time
  | .updateBegun _ _ now | .updateLocked _ _ now _ | .updateWritten _ _ now _
  | .statementBegun _ _ now | .statementExecuted _ _ now => some now
  | .closed | .updateReturned _ _ _ | .statementReturned => none

/-- What a step did: the constructor says what the session found, and the index
what it left behind. -/
inductive Outcome (system : JobSessions) : Action → JobSessions → Prop where
  | ticked {duration : Nat} :
      Outcome system (.tick duration) { system with clock := system.clock + duration }
  | inserted {id : UUID} {request : CreateJobRequest}
      (fresh : system.rows.committed id = none) (unlocked : system.rows.draft id = none) :
      Outcome system (.insert id request)
        { system with
          rows := { system.rows with
            committed := Function.update system.rows.committed id
              (some (JobStore.newRow system.clock request)) } }
  | updateOpened {session : Nat} {id : UUID} {update : BackendUpdate}
      (closed : system.sessions session = .closed) :
      Outcome system (.beginUpdate session id update)
        (system.put session (.updateBegun id update system.clock) system.rows)
  | missed {session : Nat} {id : UUID} {update : BackendUpdate} {now : Time}
      (opened : system.sessions session = .updateBegun id update now)
      (absent : system.rows.committed id = none) :
      Outcome system (.selectForUpdate session)
        (system.put session (.updateReturned id update (.error .jobNotFound)) system.rows)
  | selected {session : Nat} {id : UUID} {update : BackendUpdate} {now : Time} {row : JobRow}
      {rows : LockedRows UUID (Option JobRow) Nat}
      (opened : system.sessions session = .updateBegun id update now)
      (found : system.rows.committed id = some row)
      (acquired : system.rows.acquire session id = some rows) :
      Outcome system (.selectForUpdate session)
        (system.put session (.updateLocked id update now row.status) rows)
  | rejected {session : Nat} {id : UUID} {update : BackendUpdate} {now : Time}
      {currentStatus : JobStatus} {error : UpdateError}
      (opened : system.sessions session = .updateLocked id update now currentStatus)
      (invalid : validateTransition currentStatus update.target = .error error) :
      Outcome system (.validateAndWrite session)
        (system.put session (.updateReturned id update (.error error))
          (system.rows.rollback session))
  | wrote {session : Nat} {id : UUID} {update : BackendUpdate} {now : Time}
      {currentStatus : JobStatus} {row : JobRow}
      (opened : system.sessions session = .updateLocked id update now currentStatus)
      (valid : validateTransition currentStatus update.target = .ok ())
      (seen : system.rows.seen session id = some row) :
      Outcome system (.validateAndWrite session)
        (system.put session (.updateWritten id update now (update.fields.onRow now row))
          (system.rows.write session id (some (update.fields.onRow now row))))
  | statementOpened {session : Nat} {id : UUID} {update : RepositoryUpdate}
      (closed : system.sessions session = .closed) :
      Outcome system (.beginStatement session id update)
        (system.put session (.statementBegun id update system.clock) system.rows)
  | unmatched {session : Nat} {id : UUID} {update : RepositoryUpdate} {now : Time}
      (opened : system.sessions session = .statementBegun id update now)
      (mismatch : ∀ row, system.rows.committed id = some row → row.status ≠ update.guard) :
      Outcome system (.executeStatement session)
        (system.put session (.statementExecuted id update now) system.rows)
  | matched {session : Nat} {id : UUID} {update : RepositoryUpdate} {now : Time} {row : JobRow}
      {rows : LockedRows UUID (Option JobRow) Nat}
      (opened : system.sessions session = .statementBegun id update now)
      (found : system.rows.committed id = some row) (match_ : row.status = update.guard)
      (acquired : system.rows.acquire session id = some rows) :
      Outcome system (.executeStatement session)
        (system.put session (.statementExecuted id update now)
          (rows.write session id (some (update.set now row))))
  | updateCommitted {session : Nat} {acknowledged : Bool} {id : UUID} {update : BackendUpdate}
      {now : Time} {written : JobRow}
      (opened : system.sessions session = .updateWritten id update now written) :
      Outcome system (.commit session acknowledged)
        (system.put session
          (.updateReturned id update
            (if acknowledged then .ok { written with id := id } else .error .database))
          (system.rows.commit session))
  | statementCommitted {session : Nat} {acknowledged : Bool} {id : UUID}
      {update : RepositoryUpdate} {now : Time}
      (opened : system.sessions session = .statementExecuted id update now) :
      Outcome system (.commit session acknowledged)
        (system.put session .statementReturned (system.rows.commit session))
  | updateAborted {session : Nat} {id : UUID} {update : BackendUpdate} {now : Time}
      (open_ : begun (system.sessions session) = some now) :
      Outcome system (.abort session)
        (system.put session (.updateReturned id update (.error .database))
          (system.rows.rollback session))
  | statementAborted {session : Nat} {now : Time}
      (open_ : begun (system.sessions session) = some now) :
      Outcome system (.abort session)
        (system.put session .statementReturned (system.rows.rollback session))

theorem outcome_of_step {system system' : JobSessions} {action : Action}
    (moved : system.step action = some system') : Outcome system action system' := by
  cases action with
  | tick duration => cases moved; exact .ticked
  | insert id request =>
      simp only [step, Option.ite_none_right_eq_some] at moved
      obtain ⟨⟨fresh, unlocked⟩, moved⟩ := moved
      cases moved
      exact .inserted fresh unlocked
  | beginUpdate session id update =>
      simp only [step] at moved
      split at moved <;> cases moved
      case h_1 closed => exact .updateOpened closed
  | selectForUpdate session =>
      simp only [step] at moved
      split at moved
      case h_2 => cases moved
      case h_1 id update now opened =>
        split at moved
        case h_1 absent => cases moved; exact .missed opened absent
        case h_2 row found =>
          obtain ⟨rows, acquired, rfl⟩ := Option.map_eq_some_iff.mp moved
          exact .selected opened found acquired
  | validateAndWrite session =>
      simp only [step] at moved
      split at moved
      case h_2 => cases moved
      case h_1 id update now currentStatus opened =>
        split at moved
        case h_1 error invalid => cases moved; exact .rejected opened invalid
        case h_2 row valid seen => cases moved; exact .wrote opened valid seen
        case h_3 => cases moved
  | beginStatement session id update =>
      simp only [step] at moved
      split at moved <;> cases moved
      case h_1 closed => exact .statementOpened closed
  | executeStatement session =>
      simp only [step] at moved
      split at moved
      case h_2 => cases moved
      case h_1 id update now opened =>
        split at moved
        case h_1 absent =>
          cases moved
          exact .unmatched opened fun row found => by simp [absent] at found
        case h_2 row found =>
          split at moved
          case isFalse mismatch =>
            cases moved
            refine .unmatched opened fun other same => ?_
            obtain rfl : row = other := Option.some.inj (found.symm.trans same)
            exact mismatch
          case isTrue match_ =>
            obtain ⟨rows, acquired, rfl⟩ := Option.map_eq_some_iff.mp moved
            exact .matched opened found match_ acquired
  | commit session acknowledged =>
      simp only [step] at moved
      split at moved
      case h_1 opened => cases moved; exact .updateCommitted opened
      case h_2 opened => cases moved; exact .statementCommitted opened
      case h_3 => cases moved
  | abort session =>
      simp only [step] at moved
      split at moved
      case h_6 => cases moved
      case h_1 opened => cases moved; exact .updateAborted (by rw [opened, begun])
      case h_2 opened => cases moved; exact .updateAborted (by rw [opened, begun])
      case h_3 opened => cases moved; exact .updateAborted (by rw [opened, begun])
      case h_4 opened => cases moved; exact .statementAborted (by rw [opened, begun])
      case h_5 opened => cases moved; exact .statementAborted (by rw [opened, begun])

/-- What row locks guarantee in every reachable state. -/
structure Locked (system : JobSessions) : Prop where
  based : LockedRows.Based Derives system.sessions system.rows
  holds : LockedRows.Holds needs system.sessions system.rows
  past : ∀ session now, begun (system.sessions session) = some now → now ≤ system.clock

/-- What one step can do to the committed rows. -/
inductive Effect (system : JobSessions) (action : Action) (system' : JobSessions) : Prop where
  | quiet (unchanged : system'.rows.committed = system.rows.committed)
  | inserted {id : UUID} {request : CreateJobRequest}
      (fresh : system.rows.committed id = none)
      (committed : system'.rows.committed = Function.update system.rows.committed id
        (some (JobStore.newRow system.clock request)))
  | updated {id : UUID} {update : BackendUpdate} {now : Time} {row : JobRow}
      (past : now ≤ system.clock) (found : system.rows.committed id = some row)
      (valid : validateTransition row.status update.target = .ok ())
      (committed : system'.rows.committed = Function.update system.rows.committed id
        (some (update.fields.onRow now row)))
  | executed {session : Nat} {acknowledged : Bool} {id : UUID} {update : RepositoryUpdate}
      {now : Time} {row : JobRow}
      (committing : action = .commit session acknowledged)
      (statement : system.sessions session = .statementExecuted id update now)
      (past : now ≤ system.clock) (found : system.rows.committed id = some row)
      (matched : row.status = update.guard)
      (committed : system'.rows.committed = Function.update system.rows.committed id
        (some (update.set now row)))

theorem locked_initial (rows : UUID → Option JobRow) (clock : Time) :
    Locked (initial rows clock) where
  based := by intro key holder version locked; cases locked
  holds := by intro holder key needed; cases needed
  past := by intro session now open_; cases open_

theorem past_put {system : JobSessions} (locked : Locked system) {session : Nat}
    {next : Session} {rows : LockedRows UUID (Option JobRow) Nat}
    (keeps : ∀ now, begun next = some now →
      now = system.clock ∨ begun (system.sessions session) = some now) :
    ∀ other now, begun ((system.put session next rows).sessions other) = some now →
      now ≤ (system.put session next rows).clock := by
  intro other now open_
  by_cases own : other = session
  · subst own
    rcases keeps now (by simpa [put] using open_) with rfl | before
    · exact le_refl _
    · exact locked.past _ _ before
  · exact locked.past other now (by simpa [put, Function.update_of_ne own] using open_)

theorem locked_put {system : JobSessions} (locked : Locked system) {session : Nat}
    {next : Session}
    (derives : ∀ id before after,
      Derives (system.sessions session) id before after → Derives next id before after)
    (needed : needs next = none)
    (keeps : ∀ now, begun next = some now →
      now = system.clock ∨ begun (system.sessions session) = some now) :
    Locked (system.put session next system.rows) where
  based := locked.based.update derives
  holds := locked.holds.update fun key needs => by simp [needed] at needs
  past := past_put locked keeps

theorem locked_end {system : JobSessions} (locked : Locked system) {session : Nat}
    {next : Session} (needed : needs next = none) (ended : begun next = none) :
    Locked (system.put session next (system.rows.commit session)) ∧
      Locked (system.put session next (system.rows.rollback session)) := by
  have keeps : ∀ now, begun next = some now →
      now = system.clock ∨ begun (system.sessions session) = some now := by
    intro now open_
    simp [ended] at open_
  exact ⟨⟨locked.based.commit, locked.holds.commit needed, past_put locked keeps⟩,
    ⟨locked.based.rollback, locked.holds.rollback needed, past_put locked keeps⟩⟩

/-- A guarded `UPDATE` locks and writes at once: it passes through a state that
only holds the lock. -/
theorem locked_matched {system : JobSessions} (locked : Locked system) {session : Nat}
    {id : UUID} {update : RepositoryUpdate} {now : Time} {row : JobRow}
    {rows : LockedRows UUID (Option JobRow) Nat}
    (opened : system.sessions session = .statementBegun id update now)
    (found : system.rows.committed id = some row) (match_ : row.status = update.guard)
    (acquired : system.rows.acquire session id = some rows) :
    Locked (system.put session (.statementExecuted id update now)
      (rows.write session id (some (update.set now row)))) := by
  let waiting : Session := .updateLocked id .cancel now row.status
  have taken : LockedRows.Based Derives
      (Function.update system.sessions session waiting) rows :=
    locked.based.acquire acquired (by simp [opened, Derives]) ⟨rfl, rfl, row, found, rfl⟩
  have held : LockedRows.Holds needs
      (Function.update system.sessions session waiting) rows :=
    locked.holds.acquire acquired (by simp [waiting, needs, eq_comm])
  have own := held session id (by simp [waiting, needs])
  have derives : Derives (.statementExecuted id update now) id (rows.committed id)
      (some (update.set now row)) := by
    rw [(LockedRows.acquire_eq_some acquired).1]
    exact ⟨rfl, row, found, match_, rfl⟩
  have based := taken.write
    (fun other before after distinct derived => by
      simp only [Function.update_self, waiting, Derives] at derived
      exact absurd derived.1.symm distinct) own derives
  have holds : LockedRows.Holds needs
      (Function.update (Function.update system.sessions session waiting) session
        (.statementExecuted id update now))
      (rows.write session id (some (update.set now row))) :=
    held.write own (by intro other needed; simp [needs] at needed)
  simp only [Function.update_idem] at based holds
  refine ⟨based, holds, past_put locked ?_⟩
  intro start open_
  exact Or.inr (by simpa [begun, opened] using open_)

/-- Every statement keeps what row locks guarantee. -/
theorem step_locked {system system' : JobSessions} {action : Action}
    (locked : Locked system) (moved : system.step action = some system') :
    Locked system' := by
  cases outcome_of_step moved with
  | ticked =>
      exact ⟨locked.based, locked.holds, fun session now open_ =>
        le_trans (locked.past session now open_) (by simp)⟩
  | @inserted id request fresh unlocked =>
      refine ⟨?_, locked.holds, locked.past⟩
      intro key holder version held
      have distinct : key ≠ id := by
        rintro rfl
        simp [unlocked] at held
      simpa [Function.update_of_ne distinct] using locked.based key holder version held
  | updateOpened closed =>
      exact locked_put locked (by simp [closed, Derives]) rfl (by simp [begun])
  | missed opened absent =>
      exact locked_put locked (by simp [opened, Derives]) rfl (by simp [begun])
  | selected opened found acquired =>
      refine ⟨locked.based.acquire acquired (by simp [opened, Derives]) ?_,
        locked.holds.acquire acquired (by simp [needs, eq_comm]), past_put locked ?_⟩
      · exact ⟨rfl, rfl, _, found, rfl⟩
      · intro start open_
        exact Or.inr (by simpa [begun, opened] using open_)
  | rejected opened invalid => exact (locked_end locked rfl rfl).2
  | @wrote session id update now currentStatus row opened valid seen =>
      obtain ⟨version, held⟩ := locked.holds session id (by simp [opened, needs])
      have derived := locked.based id session version held
      simp only [opened, Derives] at derived
      obtain ⟨_, rfl, committedRow, found, sameStatus⟩ := derived
      obtain rfl : committedRow = row := by
        simpa [LockedRows.seen_of_draft held, found] using seen
      refine ⟨locked.based.write ?_ ⟨_, held⟩ ?_,
        locked.holds.write ⟨_, held⟩ (by simp [needs, eq_comm]), past_put locked ?_⟩
      · intro other before after distinct derived
        simp only [opened, Derives] at derived
        exact absurd derived.1.symm distinct
      · exact ⟨rfl, rfl, committedRow, found, rfl, by rw [sameStatus, valid]⟩
      · intro start open_
        exact Or.inr (by simpa [begun, opened] using open_)
  | statementOpened closed =>
      exact locked_put locked (by simp [closed, Derives]) rfl (by simp [begun])
  | unmatched opened mismatch =>
      refine locked_put locked (by simp [opened, Derives]) rfl ?_
      intro start open_
      exact Or.inr (by simpa [begun, opened] using open_)
  | matched opened found match_ acquired =>
      exact locked_matched locked opened found match_ acquired
  | updateCommitted opened => exact (locked_end locked rfl rfl).1
  | statementCommitted opened => exact (locked_end locked rfl rfl).1
  | updateAborted open_ => exact (locked_end locked rfl rfl).2
  | statementAborted open_ => exact (locked_end locked rfl rfl).2

/-- A session that holds one lock commits that row and no other. -/
theorem seen_eq_update {rows : LockedRows UUID (Option JobRow) Nat} {session : Nat}
    {id : UUID} {version : Option JobRow} (held : rows.draft id = some (session, version))
    (only : ∀ other version', rows.draft other = some (session, version') → other = id) :
    rows.seen session = Function.update rows.committed id version := by
  funext other
  by_cases own : other = id
  · subst own
    simpa using LockedRows.seen_of_draft held
  · rw [Function.update_of_ne own]
    rcases rows.seen_eq_or session other with unchanged | drafted
    · exact unchanged
    · exact absurd (only other _ drafted) own

/-- Only an insert or a commit changes committed rows, and a commit changes at
most the one row whose lock its session holds. -/
theorem step_effect {system system' : JobSessions} {action : Action}
    (locked : Locked system) (moved : system.step action = some system') :
    Effect system action system' := by
  cases outcome_of_step moved with
  | inserted fresh unlocked => exact .inserted fresh rfl
  | selected opened found acquired => exact .quiet (LockedRows.acquire_eq_some acquired).1
  | matched opened found match_ acquired =>
      exact .quiet (LockedRows.acquire_eq_some acquired).1
  | @updateCommitted session acknowledged id update now written opened =>
      obtain ⟨version, held⟩ := locked.holds session id (by simp [opened, needs])
      have derived := locked.based id session version held
      simp only [opened, Derives] at derived
      obtain ⟨_, rfl, row, found, rfl, valid⟩ := derived
      refine .updated (locked.past session now (by simp [opened, begun])) found valid ?_
      exact seen_eq_update held fun other version' held' => by
        have derived' := locked.based other session version' held'
        simp only [opened, Derives] at derived'
        exact derived'.1.symm
  | @statementCommitted session acknowledged id update now opened =>
      have own : ∀ other version, system.rows.draft other = some (session, version) →
          other = id := by
        intro other version held
        have derived := locked.based other session version held
        simp only [opened, Derives] at derived
        exact derived.1.symm
      rcases system.rows.seen_eq_or session id with unchanged | held
      · refine .quiet (funext fun other => ?_)
        rcases system.rows.seen_eq_or session other with same | drafted
        · exact same
        · obtain rfl := own other _ drafted
          exact unchanged
      · have derived := locked.based id session _ held
        simp only [opened, Derives] at derived
        obtain ⟨_, row, found, matched, written⟩ := derived
        rw [written] at held
        exact .executed rfl opened (locked.past session now (by simp [opened, begun]))
          found matched (seen_eq_update held own)
  | ticked | updateOpened | missed | rejected | wrote | statementOpened | unmatched
  | updateAborted | statementAborted => exact .quiet rfl

end JobSessions

end Crucible
