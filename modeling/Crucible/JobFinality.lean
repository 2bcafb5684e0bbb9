import Crucible.JobSessions

/-!
# Finality of job rows

In every run of interleaved SQL statements a row's status moves along the edges
of the state machine, only `reset_to_queued` leads back to the queue, and a
finished row stays as it is.  A cancel that was answered with success is
therefore final.
-/

namespace Crucible

namespace JobSessions

open LabelledRuns

theorem Effect.rowChange {system system' : JobSessions} {action : Action}
    (effect : Effect system action system') {id : UUID} {row : JobRow}
    (found : system.rows.committed id = some row) :
    ∃ row', system'.rows.committed id = some row' ∧ RowChange row row' := by
  have untouched {other : UUID} {version : Option JobRow} (distinct : id ≠ other)
      (committed : system'.rows.committed =
        Function.update system.rows.committed other version) :
      ∃ row', system'.rows.committed id = some row' ∧ RowChange row row' :=
    ⟨row, by rw [committed, Function.update_of_ne distinct, found], .same rfl⟩
  cases effect with
  | quiet unchanged => exact ⟨row, by rw [unchanged, found], .same rfl⟩
  | @inserted other request fresh committed =>
      refine untouched ?_ committed
      rintro rfl
      simp [fresh] at found
  | @updated other update now before past found' valid committed =>
      by_cases own : id = other
      · subst own
        obtain rfl : row = before := by simpa [found] using found'
        refine ⟨_, by rw [committed, Function.update_self], ?_⟩
        exact UpdateJobFields.rowChange update.fields_status now valid
      · exact untouched own committed
  | @executed session acknowledged other update now before _ _ past found' matched committed =>
      by_cases own : id = other
      · subst own
        obtain rfl : row = before := by simpa [found] using found'
        refine ⟨_, by rw [committed, Function.update_self], ?_⟩
        simpa [RepositoryUpdate.onRow, matched] using update.rowChange now row
      · exact untouched own committed

/-- Only a commit of `reset_to_queued` takes a row back to the queue. -/
theorem Effect.reclaim {system system' : JobSessions} {action : Action}
    (effect : Effect system action system') {id : UUID} {row row' : JobRow}
    (found : system.rows.committed id = some row) (running : row.status = .running)
    (found' : system'.rows.committed id = some row') (queued : row'.status = .queued) :
    ∃ session acknowledged now, action = .commit session acknowledged ∧
      system.sessions session = .statementExecuted id .resetToQueued now := by
  have untouched {other : UUID} {version : Option JobRow} (distinct : id ≠ other) :
      system'.rows.committed ≠ Function.update system.rows.committed other version := by
    intro committed
    rw [committed, Function.update_of_ne distinct, found] at found'
    cases found'
    simp [running] at queued
  cases effect with
  | quiet unchanged =>
      rw [unchanged, found] at found'
      cases found'
      simp [running] at queued
  | @inserted other request fresh committed =>
      refine absurd committed (untouched ?_)
      rintro rfl
      simp [fresh] at found
  | @updated other update now before past before_found valid committed =>
      by_cases own : id = other
      · subst own
        rw [committed, Function.update_self] at found'
        cases found'
        cases update <;>
          simp [UpdateJobFields.onRow, BackendUpdate.fields, enqueueFailedFields,
            cancelFields] at queued
      · exact absurd committed (untouched own)
  | @executed session acknowledged other update now before committing statement past
      before_found matched committed =>
      by_cases own : id = other
      · subst own
        rw [committed, Function.update_self] at found'
        cases found'
        refine ⟨session, acknowledged, now, committing, ?_⟩
        cases update with
        | resetToQueued => exact statement
        | heartbeat =>
            obtain rfl : row = before := by simpa [found] using before_found
            simp [RepositoryUpdate.set, running] at queued
        | markRunning => simp [RepositoryUpdate.set] at queued
        | markCompleted _ => simp [RepositoryUpdate.set] at queued
        | markFailed _ => simp [RepositoryUpdate.set] at queued
      · exact absurd committed (untouched own)

/-- What a statement does to the committed rows is what one transaction of the
coarser view does to the table. -/
theorem Effect.tableStep {system system' : JobSessions} {action : Action}
    (effect : Effect system action system') {table : JobTable}
    (same : ∀ id, table.lookup id = system.rows.committed id) :
    ∃ table', TableStep system.clock table table' ∧
      ∀ id, table'.lookup id = system'.rows.committed id := by
  cases effect with
  | quiet unchanged => exact ⟨table, .same, fun id => by rw [unchanged, same]⟩
  | @inserted id request fresh committed =>
      refine ⟨_, .create request le_rfl (by rw [same, fresh]), fun other => ?_⟩
      rw [KeyedTable.lookup_insert, committed, Function.update_apply, same]
  | @updated id update now row past found valid committed =>
      refine ⟨_, .update id past update.fields_status, fun other => ?_⟩
      have written : (JobStore.update table now id update.fields).2 =
          table.insert id (update.fields.onRow now row) := by
        simp [JobStore.update, same, found, update.fields_status, valid]
      rw [written, KeyedTable.lookup_insert, committed, Function.update_apply, same]
  | @executed session acknowledged id update now row _ _ past found matched committed =>
      refine ⟨_, .execute id update past, fun other => ?_⟩
      rw [JobTable.lookup_execute, committed, Function.update_apply, same, same, found]
      simp [RepositoryUpdate.onRow, matched]

/-- A session whose update was acknowledged finds its row in the status it
asked for. -/
def Answered (system : JobSessions) : Prop :=
  ∀ session id update job, system.sessions session = .updateReturned id update (.ok job) →
    ∃ row, system.rows.committed id = some row ∧ row.status = update.target

theorem BackendUpdate.target_terminal (update : BackendUpdate) :
    update.target.terminal = true := by
  cases update <;> rfl

/-- The step that acknowledges an update is the commit that wrote it. -/
theorem step_acknowledged {system system' : JobSessions} {action : Action}
    (locked : Locked system) (moved : system.step action = some system')
    {session : Nat} {id : UUID} {update : BackendUpdate} {job : Job}
    (returned : system'.sessions session = .updateReturned id update (.ok job)) :
    system.sessions session = .updateReturned id update (.ok job) ∨
      ∃ row, system'.rows.committed id = some row ∧ row.status = update.target := by
  have elsewhere {own : Nat} {next : Session} {rows : LockedRows UUID (Option JobRow) Nat}
      (put : system' = system.put own next rows)
      (other : next ≠ .updateReturned id update (.ok job)) :
      system.sessions session = .updateReturned id update (.ok job) := by
    subst put
    by_cases same : session = own
    · subst same
      exact absurd (by simpa [JobSessions.put] using returned) other
    · simpa [JobSessions.put, Function.update_of_ne same] using returned
  cases outcome_of_step moved with
  | @updateCommitted own acknowledged target asked now written opened =>
      by_cases same : session = own
      · subst same
        obtain ⟨version, held⟩ := locked.holds session target (by simp [opened, needs])
        have derived := locked.based target session version held
        simp only [opened, Derives] at derived
        obtain ⟨_, rfl, row, _, rfl, _⟩ := derived
        simp only [put, Function.update_self, Session.updateReturned.injEq] at returned
        obtain ⟨rfl, rfl, _⟩ := returned
        refine Or.inr ⟨_, LockedRows.seen_of_draft held, ?_⟩
        simp [UpdateJobFields.onRow, asked.fields_status]
      · exact Or.inl (by simpa [put, Function.update_of_ne same] using returned)
  | ticked | inserted => exact Or.inl returned
  | updateOpened | missed | selected | rejected | wrote | statementOpened | unmatched | matched
  | statementCommitted | updateAborted | statementAborted =>
      exact Or.inl (elsewhere rfl (by simp))

theorem step_answered {system system' : JobSessions} {action : Action}
    (locked : Locked system) (answered : Answered system)
    (moved : system.step action = some system') : Answered system' := by
  intro session id update job returned
  rcases step_acknowledged locked moved returned with before | written
  · obtain ⟨row, found, status⟩ := answered session id update job before
    obtain ⟨row', found', change⟩ := (step_effect locked moved).rowChange found
    have unchanged := change.eq_of_terminal
      (by rw [status]; exact BackendUpdate.target_terminal update)
    exact ⟨row', found', by rw [unchanged, status]⟩
  · exact written

theorem runs_locked {rows : UUID → Option JobRow} {clock : Time} {system : JobSessions}
    (run : Runs step Any (initial rows clock) system) : Locked system ∧ Answered system := by
  refine runs_invariant (fun state => Locked state ∧ Answered state) ?_ ?_ run
  · intro current action next held _ moved
    exact ⟨step_locked held.1 moved, step_answered held.1 held.2 moved⟩
  · exact ⟨locked_initial rows clock, by intro session id update job returned; cases returned⟩

theorem runs_finished {system later : JobSessions} (locked : Locked system)
    (run : Runs step Any system later) {id : UUID} {row : JobRow}
    (found : system.rows.committed id = some row) (finished : row.status.terminal = true) :
    later.rows.committed id = some row := by
  refine (runs_invariant
    (fun state => Locked state ∧ state.rows.committed id = some row)
    ?_ ⟨locked, found⟩ run).2
  intro current action next held _ moved
  obtain ⟨row', found', change⟩ := (step_effect held.1 moved).rowChange held.2
  exact ⟨step_locked held.1 moved, by rw [found', change.eq_of_terminal finished]⟩

/-- Under every interleaving of statements of any number of sessions, rows only
follow the state machine, only `reset_to_queued` reclaims a job, a finished row
never changes again, and a cancel answered with 200 is final. -/
theorem rows_follow_state_machine {rows : UUID → Option JobRow} {clock : Time}
    {system : JobSessions} (run : Runs step Any (initial rows clock) system) :
    (∀ action next id row, system.step action = some next →
      system.rows.committed id = some row →
      ∃ row', next.rows.committed id = some row' ∧
        (row'.status ≠ row.status → StatusEdge row.status row'.status) ∧
        (row.status = .running → row'.status = .queued →
          ∃ session acknowledged now, action = .commit session acknowledged ∧
            system.sessions session = .statementExecuted id .resetToQueued now)) ∧
      (∀ later id row, Runs step Any system later → system.rows.committed id = some row →
        row.status.terminal = true → later.rows.committed id = some row) ∧
      ∀ later session id result, Runs step Any system later →
        system.sessions session = .updateReturned id .cancel result →
        (cancelAnswer result).code = 200 →
        ∃ row, later.rows.committed id = some row ∧ row.status = .cancelled := by
  obtain ⟨locked, answered⟩ := runs_locked run
  refine ⟨?_, ?_, ?_⟩
  · intro action next id row moved found
    have effect := step_effect locked moved
    obtain ⟨row', found', change⟩ := effect.rowChange found
    exact ⟨row', found', change.edge, fun running queued =>
      effect.reclaim found running found' queued⟩
  · intro later id row onward found finished
    exact runs_finished locked onward found finished
  · intro later session id result onward returned success
    obtain ⟨job, rfl⟩ := cancelAnswer_code_eq_200.mp success
    obtain ⟨row, found, status⟩ := answered session id .cancel job returned
    exact ⟨row, runs_finished locked onward found (by rw [status]; rfl), status⟩

/-- A cancel that races with a claim: the worker's update matches the queued
row but has to wait for the lock of the cancel. -/
def racedCancel : List Action :=
  [.insert ⟨7⟩ ⟨"org/model", "datasets/chat/v1/data.json", ⟨1, 1, 1, 1, 1⟩⟩,
    .beginStatement 0 ⟨7⟩ .markRunning, .beginUpdate 1 ⟨7⟩ .cancel, .selectForUpdate 1,
    .validateAndWrite 1, .commit 1 true, .executeStatement 0, .commit 0 true]

def cancelAcknowledged (system : JobSessions) : Bool :=
  match system.sessions 1 with
  | .updateReturned ⟨7⟩ .cancel (.ok _) => true
  | _ => false

theorem racedCancel_answered :
    (replay step Any (initial (fun _ => none) 0) racedCancel).any cancelAcknowledged = true := by
  decide

theorem rows_follow_state_machine_racedCancel :
    ∃ system, Runs step Any (initial (fun _ => none) 0) system ∧
      ∀ later, Runs step Any system later →
        ∃ row, later.rows.committed ⟨7⟩ = some row ∧ row.status = .cancelled := by
  obtain ⟨system, run, reached⟩ := exists_runs_of_replay racedCancel_answered
  refine ⟨system, run, fun later onward => ?_⟩
  unfold cancelAcknowledged at reached
  split at reached
  case h_1 job returned =>
    exact (rows_follow_state_machine run).2.2 later 1 ⟨7⟩ (.ok job) onward returned rfl
  case h_2 => cases reached

end JobSessions

end Crucible
