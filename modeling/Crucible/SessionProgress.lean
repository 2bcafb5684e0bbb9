import Crucible.JobTransactions

/-!
# Sessions come to their end

No set of sessions can block itself: a session waits for at most one other, and
whoever holds a lock needs no further one.  Every open session can therefore be
finished without anyone giving up.
-/

namespace Crucible

open LabelledRuns

namespace JobSessions

variable {system : JobSessions}

/-- The statements by which sessions come to their end; none of them gives up. -/
def Action.advances : Action → Bool
  | .selectForUpdate _ | .validateAndWrite _ | .executeStatement _ | .commit _ true => true
  | _ => false

/-- A session has come to its end, and its caller knows how. -/
def Settled (system : JobSessions) (session : Nat) : Prop :=
  (∃ id update result, system.sessions session = .updateReturned id update result ∧
    result ≠ .error .database) ∨ system.sessions session = .statementReturned

/-- A session comes to its end by a number of its own statements, which leave the
other sessions and their locks alone. -/
def FinishesWithin (system : JobSessions) (session limit : Nat) : Prop :=
  ∃ actions later, actions.length ≤ limit ∧ (∀ action ∈ actions, action.advances = true) ∧
    replay step Any system actions = some later ∧ later.Settled session ∧
    (∀ other, other ≠ session → later.sessions other = system.sessions other) ∧
    ∀ id owner version, later.rows.draft id = some (owner, version) →
      owner ≠ session ∧ system.rows.draft id = some (owner, version)

theorem FinishesWithin.cons {session limit : Nat} {action : Action} {next : Session}
    {rows : LockedRows UUID (Option JobRow) Nat} (advances : action.advances = true)
    (moved : system.step action = some (system.put session next rows))
    (locks : ∀ id owner version, rows.draft id = some (owner, version) → owner ≠ session →
      system.rows.draft id = some (owner, version))
    (rest : (system.put session next rows).FinishesWithin session limit) :
    system.FinishesWithin session (limit + 1) := by
  obtain ⟨actions, later, short, statements, followed, settled, others, drafts⟩ := rest
  refine ⟨action :: actions, later, Nat.succ_le_succ short, ?_, ?_, settled, ?_, ?_⟩
  · intro other member
    rcases List.mem_cons.mp member with rfl | member
    · exact advances
    · exact statements other member
  · simp only [replay, Any, if_true, moved]
    exact followed
  · intro other distinct
    rw [others other distinct]
    exact Function.update_of_ne distinct ..
  · intro id owner version locked
    obtain ⟨distinct, before⟩ := drafts id owner version locked
    exact ⟨distinct, locks id owner version before distinct⟩

theorem finishesWithin_last {session : Nat} {action : Action} {next : Session}
    {rows : LockedRows UUID (Option JobRow) Nat} (advances : action.advances = true)
    (moved : system.step action = some (system.put session next rows))
    (released : ∀ id owner version, rows.draft id = some (owner, version) →
      owner ≠ session ∧ system.rows.draft id = some (owner, version))
    (settled : (system.put session next rows).Settled session) :
    system.FinishesWithin session 1 := by
  refine ⟨[action], _, le_rfl, by simpa using advances, by simp [replay, Any, moved], settled,
    fun other distinct => Function.update_of_ne distinct .., released⟩

/-- What is locked after a session has ended was locked before, by another one. -/
theorem released_rollback (system : JobSessions) (session : Nat) (id : UUID) (owner : Nat)
    (version : Option JobRow)
    (held : (system.rows.rollback session).draft id = some (owner, version)) :
    owner ≠ session ∧ system.rows.draft id = some (owner, version) :=
  (LockedRows.rollback_draft held).symm

theorem finishesWithin_mono {session limit limit' : Nat} (less : limit ≤ limit')
    (finishes : system.FinishesWithin session limit) : system.FinishesWithin session limit' := by
  obtain ⟨actions, later, short, rest⟩ := finishes
  exact ⟨actions, later, short.trans less, rest⟩

/-- Whoever is past its locking statement finishes without waiting. -/
theorem finishes_of_written {session : Nat} {id : UUID} {update : BackendUpdate} {now : Time}
    {written : JobRow} (opened : system.sessions session = .updateWritten id update now written) :
    system.FinishesWithin session 1 := by
  have moved : system.step (.commit session true) = some (system.put session
      (.updateReturned id update (.ok { written with id := id }))
      (system.rows.commit session)) := by
    simp [step, opened]
  exact finishesWithin_last rfl moved (released_rollback system session)
    (.inl ⟨id, update, _, Function.update_self .., by simp⟩)

theorem finishes_of_executed {session : Nat} {id : UUID} {update : RepositoryUpdate}
    {now : Time} (opened : system.sessions session = .statementExecuted id update now) :
    system.FinishesWithin session 1 := by
  have moved : system.step (.commit session true) = some (system.put session .statementReturned
      (system.rows.commit session)) := by
    simp [step, opened]
  exact finishesWithin_last rfl moved (released_rollback system session)
    (.inr (Function.update_self ..))

theorem validateTransition_ne_database (source target : JobStatus) :
    validateTransition source target ≠ .error .database := by
  cases source <;> cases target <;> decide

theorem finishes_of_locked (locked : Locked system) {session : Nat} {id : UUID}
    {update : BackendUpdate} {now : Time} {currentStatus : JobStatus}
    (opened : system.sessions session = .updateLocked id update now currentStatus) :
    system.FinishesWithin session 2 := by
  obtain ⟨version, own⟩ := locked.holds session id (by simp [opened, needs])
  have derived := locked.based id session version own
  simp only [opened, Derives] at derived
  obtain ⟨_, rfl, row, found, rfl⟩ := derived
  have seen : system.rows.seen session id = some row := by
    rw [LockedRows.seen_of_draft own, found]
  cases valid : validateTransition row.status update.target with
  | error error =>
      have moved : system.step (.validateAndWrite session) = some (system.put session
          (.updateReturned id update (.error error)) (system.rows.rollback session)) := by
        simp [step, opened, valid]
      refine finishesWithin_mono (by omega) (finishesWithin_last rfl moved
        (released_rollback system session)
        (.inl ⟨id, update, _, Function.update_self .., fun same => ?_⟩))
      cases same
      exact validateTransition_ne_database _ _ valid
  | ok _ =>
      have moved : system.step (.validateAndWrite session) = some (system.put session
          (.updateWritten id update now (update.fields.onRow now row))
          (system.rows.write session id (some (update.fields.onRow now row)))) := by
        simp [step, opened, valid, seen]
      refine .cons rfl moved (fun other owner version before distinct => ?_)
        (finishes_of_written (Function.update_self ..))
      by_cases atKey : other = id
      · subst atKey
        simp only [LockedRows.write, Function.update_self] at before
        cases before
        exact absurd rfl distinct
      · rwa [LockedRows.write_draft_of_ne _ _ _ atKey] at before

theorem draft_of_acquire {rows : LockedRows UUID (Option JobRow) Nat} {session : Nat} {id : UUID}
    (acquired : system.rows.acquire session id = some rows) {other : UUID} {owner : Nat}
    {version : Option JobRow} (held : rows.draft other = some (owner, version))
    (distinct : owner ≠ session) : system.rows.draft other = some (owner, version) := by
  obtain ⟨_, elsewhere, ⟨_, taken⟩ | ⟨rfl, _⟩⟩ := LockedRows.acquire_eq_some acquired
  · by_cases atKey : other = id
    · subst atKey
      rw [taken] at held
      cases held
      exact absurd rfl distinct
    · rwa [elsewhere other atKey] at held
  · exact held

theorem unlocked_of_opened (locked : Locked system) {session : Nat} {id : UUID}
    (opened : (∃ update now, system.sessions session = .updateBegun id update now) ∨
      ∃ update now, system.sessions session = .statementBegun id update now)
    {other : UUID} {owner : Nat} {version : Option JobRow}
    (held : system.rows.draft other = some (owner, version)) : owner ≠ session := by
  rintro rfl
  have derived := locked.based other owner version held
  rcases opened with ⟨update, now, opened⟩ | ⟨update, now, opened⟩ <;>
    simp only [opened, Derives] at derived

theorem finishes_of_unlocked (locked : Locked system) {session : Nat} {id : UUID}
    (free : system.rows.draft id = none)
    (opened : (∃ update now, system.sessions session = .updateBegun id update now) ∨
      ∃ update now, system.sessions session = .statementBegun id update now) :
    system.FinishesWithin session 3 := by
  have unlocked : ∀ other owner version, system.rows.draft other = some (owner, version) →
      owner ≠ session := fun _ _ _ held => unlocked_of_opened locked opened held
  obtain ⟨rows, acquired⟩ : ∃ rows, system.rows.acquire session id = some rows :=
    ⟨_, by rw [LockedRows.acquire, free]⟩
  rcases opened with ⟨update, now, opened⟩ | ⟨update, now, opened⟩
  · cases found : system.rows.committed id with
    | none =>
        have moved : system.step (.selectForUpdate session) = some (system.put session
            (.updateReturned id update (.error .jobNotFound)) system.rows) := by
          simp [step, opened, found]
        exact finishesWithin_mono (by omega) (finishesWithin_last rfl moved
          (fun other owner version held => ⟨unlocked other owner version held, held⟩)
          (.inl ⟨id, update, _, Function.update_self .., by simp⟩))
    | some row =>
        have moved : system.step (.selectForUpdate session) = some (system.put session
            (.updateLocked id update now row.status) rows) := by
          simp [step, opened, found, acquired]
        exact .cons rfl moved (fun _ _ _ held distinct => draft_of_acquire acquired held distinct)
          (finishes_of_locked (step_locked locked moved) (Function.update_self ..))
  · by_cases match_ : ∃ row, system.rows.committed id = some row ∧ row.status = update.guard
    · obtain ⟨row, found, match_⟩ := match_
      have moved : system.step (.executeStatement session) = some (system.put session
          (.statementExecuted id update now)
          (rows.write session id (some (update.set now row)))) := by
        simp [step, opened, found, match_, acquired]
      refine finishesWithin_mono (by omega) (.cons rfl moved (fun other owner version held distinct =>
        draft_of_acquire acquired ?_ distinct) (finishes_of_executed (Function.update_self ..)))
      by_cases atKey : other = id
      · subst atKey
        simp only [LockedRows.write, Function.update_self] at held
        cases held
        exact absurd rfl distinct
      · rwa [LockedRows.write_draft_of_ne _ _ _ atKey] at held
    · have moved : system.step (.executeStatement session) = some (system.put session
          (.statementExecuted id update now) system.rows) := by
        cases found : system.rows.committed id with
        | none => simp [step, opened, found]
        | some row =>
            have mismatch : row.status ≠ update.guard := fun same => match_ ⟨row, found, same⟩
            simp [step, opened, found, mismatch]
      exact finishesWithin_mono (by omega) (.cons rfl moved (fun _ _ _ held _ => held)
        (finishes_of_executed (Function.update_self ..)))

/-- Whoever holds a lock finishes without waiting. -/
theorem finishes_of_holder (locked : Locked system) {session : Nat} {id : UUID}
    {version : Option JobRow} (held : system.rows.draft id = some (session, version)) :
    system.FinishesWithin session 2 := by
  have derived := locked.based id session version held
  cases opened : system.sessions session with
  | updateLocked own update now currentStatus => exact finishes_of_locked locked opened
  | updateWritten own update now written =>
      exact finishesWithin_mono (by omega) (finishes_of_written opened)
  | statementExecuted own update now =>
      exact finishesWithin_mono (by omega) (finishes_of_executed opened)
  | _ => simp [opened, Derives] at derived

theorem replay_locked {later : JobSessions} {actions : List Action} (locked : Locked system)
    (followed : replay step Any system actions = some later) : Locked later :=
  runs_invariant Locked (fun _ _ _ held _ moved => step_locked held moved) locked
    (runs_of_replay followed)

/-- In every reachable state every open session can be brought to its end by at
most five statements, with no session giving up. -/
theorem sessions_finish {rows : UUID → Option JobRow} {clock now : Time}
    (run : Runs step Any (initial rows clock) system) {session : Nat}
    (open_ : begun (system.sessions session) = some now) :
    ∃ actions later, actions.length ≤ 5 ∧ (∀ action ∈ actions, action.advances = true) ∧
      replay step Any system actions = some later ∧ later.Settled session := by
  have locked := (runs_locked run).1
  have alone {limit : Nat} (short : limit ≤ 5) (finishes : system.FinishesWithin session limit) :
      ∃ actions later, actions.length ≤ 5 ∧ (∀ action ∈ actions, action.advances = true) ∧
        replay step Any system actions = some later ∧ later.Settled session := by
    obtain ⟨actions, later, count, advances, followed, settled, _⟩ := finishes
    exact ⟨actions, later, count.trans short, advances, followed, settled⟩
  have waiting {id : UUID}
      (opened : (∃ update now, system.sessions session = .updateBegun id update now) ∨
        ∃ update now, system.sessions session = .statementBegun id update now) :
      ∃ actions later, actions.length ≤ 5 ∧ (∀ action ∈ actions, action.advances = true) ∧
        replay step Any system actions = some later ∧ later.Settled session := by
    cases lock : system.rows.draft id with
    | none => exact alone (by omega) (finishes_of_unlocked locked lock opened)
    | some entry =>
        obtain ⟨holder, version⟩ := entry
        have distinct := unlocked_of_opened locked opened lock
        obtain ⟨actions, middle, count, advances, followed, _, others, drafts⟩ :=
          finishes_of_holder locked lock
        have free : middle.rows.draft id = none := by
          cases left : middle.rows.draft id with
          | none => rfl
          | some entry =>
              obtain ⟨other, before⟩ := drafts id entry.1 entry.2 left
              rw [lock] at before
              cases before
              exact absurd rfl other
        rw [← others session (Ne.symm distinct)] at opened
        obtain ⟨rest, later, count', advances', followed', settled, _⟩ :=
          finishes_of_unlocked (replay_locked locked followed) free opened
        refine ⟨actions ++ rest, later, ?_, fun action member => ?_, ?_, settled⟩
        · rw [List.length_append]
          omega
        · exact (List.mem_append.mp member).elim (advances action) (advances' action)
        · rw [replay_append, followed]
          exact followed'
  cases opened : system.sessions session with
  | updateBegun id update start => exact waiting (.inl ⟨update, start, opened⟩)
  | statementBegun id update start => exact waiting (.inr ⟨update, start, opened⟩)
  | updateLocked id update start currentStatus =>
      exact alone (by omega) (finishes_of_locked locked opened)
  | updateWritten id update start written => exact alone (by omega) (finishes_of_written opened)
  | statementExecuted id update start => exact alone (by omega) (finishes_of_executed opened)
  | closed | updateReturned id update result | statementReturned => simp [opened, begun] at open_

/-- The worker's update of `racedCancel` waits for the lock of the cancel. -/
theorem sessions_finish_racedCancel :
    ∃ system : JobSessions, system.step (.executeStatement 0) = none ∧
      ∃ actions later, actions.length ≤ 5 ∧ (∀ action ∈ actions, action.advances = true) ∧
        replay step Any system actions = some later ∧ later.Settled 0 := by
  have waits : (replay step Any (initial (fun _ => none) 0) (racedCancel.take 4)).any
      (fun system => (system.step (.executeStatement 0)).isNone &&
        decide (begun (system.sessions 0) = some 0)) = true := by
    decide
  obtain ⟨system, run, reached⟩ := exists_runs_of_replay waits
  obtain ⟨blocked, open_⟩ := Bool.and_eq_true_iff.mp reached
  exact ⟨system, Option.isNone_iff_eq_none.mp blocked,
    sessions_finish run (of_decide_eq_true open_)⟩

end JobSessions

end Crucible
