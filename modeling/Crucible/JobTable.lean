import Crucible.JobSchema
import Crucible.KeyedTable

/-!
# The `jobs` table under both of its writers

The backend writes job rows through `JobStore` (an insert and a validated
update), the worker through the five guarded updates of
`PostgresJobRepository`.  This file gives the effect each of them has on the
table when it commits, and shows that all of them respect one state machine:
a status moves along a fixed set of edges and a finished row never changes.
-/

namespace Crucible

/-- The committed rows of the `jobs` table. -/
abbrev JobTable := KeyedTable UUID JobRow

/-! ## The worker's repository -/

/-- The `UPDATE` statements of `PostgresJobRepository`. -/
inductive RepositoryUpdate where
  | markRunning
  | heartbeat
  | markCompleted (checkpointPath : String)
  | markFailed (errorMessage : String)
  | resetToQueued
  deriving DecidableEq, Repr

namespace RepositoryUpdate

/-- The status that the `WHERE` clause requires. -/
def guard : RepositoryUpdate → JobStatus
  | markRunning => .queued
  | heartbeat | markCompleted _ | markFailed _ | resetToQueued => .running

/-- The `SET` clause, at the transaction's `NOW()`. -/
def set (now : Time) (row : JobRow) : RepositoryUpdate → JobRow
  | markRunning => { row with status := .running, updatedAt := now }
  | heartbeat => { row with updatedAt := now }
  | markCompleted checkpointPath =>
      { row with status := .completed, checkpointPath := some checkpointPath, updatedAt := now }
  | markFailed errorMessage =>
      { row with status := .failed, errorMessage := some errorMessage, updatedAt := now }
  | resetToQueued => { row with status := .queued, updatedAt := now }

def onRow (update : RepositoryUpdate) (now : Time) (row : JobRow) : JobRow :=
  if row.status = update.guard then update.set now row else row

end RepositoryUpdate

namespace JobTable

/-- `get_job` and `JobStore.GetByID`. -/
def getJob (table : JobTable) (id : UUID) : Option Job :=
  (table.lookup id).map fun row => { row with id := id }

/-- `_update`: one guarded `UPDATE` in a transaction of its own. -/
def execute (table : JobTable) (now : Time) (id : UUID) (update : RepositoryUpdate) :
    JobTable :=
  KeyedTable.modify table id (update.onRow now)

def findStaleRunning (table : JobTable) (now : Time) (olderThanSeconds : Int) : List UUID :=
  KeyedTable.select table fun row =>
    row.status = .running ∧ row.updatedAt < now - seconds olderThanSeconds

def findOrphanQueued (table : JobTable) (now : Time) (graceSeconds : Int) : List UUID :=
  KeyedTable.select table fun row =>
    row.status = .queued ∧ row.createdAt < now - seconds graceSeconds ∧
      row.updatedAt < now - seconds graceSeconds

end JobTable

/-! ## The backend's store -/

def validTransitions : JobStatus → Option (List JobStatus)
  | .queued => some [.running, .cancelled]
  | .running => some [.completed, .failed, .cancelled]
  | .completed | .failed | .cancelled => none

inductive UpdateError where
  | jobNotFound
  | invalidTransition (source target : JobStatus)
  | database
  deriving DecidableEq, Repr

def invalidTransitionMessage (source target : JobStatus) : String :=
  "invalid status transition: " ++ source.value ++ " -> " ++ target.value

def validateTransition (source target : JobStatus) : Except UpdateError Unit :=
  match validTransitions source with
  | none => .error (.invalidTransition source target)
  | some allowed =>
      if target ∈ allowed then .ok () else .error (.invalidTransition source target)

/-- `UpdateJobFields`; `none` leaves a column as it is. -/
structure UpdateJobFields where
  status : Option JobStatus
  checkpointPath : Option String
  errorMessage : Option String
  deriving DecidableEq, Repr

/-- The `SET` clause of `JobStore.Update`, with its `COALESCE`s. -/
def UpdateJobFields.onRow (fields : UpdateJobFields) (now : Time) (row : JobRow) : JobRow :=
  { row with
    status := fields.status.getD row.status
    checkpointPath := fields.checkpointPath.or row.checkpointPath
    errorMessage := fields.errorMessage.or row.errorMessage
    updatedAt := now }

namespace JobStore

/-- The row that `JobStore.Create` inserts. -/
def newRow (now : Time) (request : CreateJobRequest) : JobRow where
  status := .queued
  baseModel := request.baseModel
  datasetPath := request.datasetPath
  hyperparameters := request.hyperparameters
  checkpointPath := none
  errorMessage := none
  createdAt := now
  updatedAt := now

/-- `JobStore.Update` as one transaction: without a status the row is written
unconditionally, with one the transition is validated under the row lock. -/
def update (table : JobTable) (now : Time) (id : UUID) (fields : UpdateJobFields) :
    Except UpdateError Job × JobTable :=
  match table.lookup id with
  | none => (.error .jobNotFound, table)
  | some row =>
      let written := fields.onRow now row
      let committed := (.ok { written with id := id }, table.insert id written)
      match fields.status with
      | none => committed
      | some target =>
          match validateTransition row.status target with
          | .error error => (.error error, table)
          | .ok () => committed

end JobStore

/-- The fields of the update by which `CreateJob` reports a failed enqueue. -/
def enqueueFailedFields (errorMessage : String) : UpdateJobFields :=
  ⟨some .failed, none, some errorMessage⟩

/-- The fields of the update by which `UpdateJob` cancels. -/
def cancelFields : UpdateJobFields :=
  ⟨some .cancelled, none, none⟩

/-! ## The common state machine -/

inductive StatusEdge : JobStatus → JobStatus → Prop where
  | claim : StatusEdge .queued .running
  | cancelQueued : StatusEdge .queued .cancelled
  | complete : StatusEdge .running .completed
  | fail : StatusEdge .running .failed
  | cancelRunning : StatusEdge .running .cancelled
  | reclaim : StatusEdge .running .queued

theorem StatusEdge.source_unfinished {source target : JobStatus}
    (edge : StatusEdge source target) : source.terminal = false := by
  cases edge <;> rfl

/-- A change of a row that the state machine permits: the row stays as it is,
or it was unfinished and its status is kept or follows an edge.  The creation
time never changes. -/
inductive RowChange (row row' : JobRow) : Prop where
  | same (unchanged : row' = row)
  | active (unfinished : row.status.terminal = false)
      (edge : row'.status = row.status ∨ StatusEdge row.status row'.status)
      (created : row'.createdAt = row.createdAt)

namespace RowChange

theorem createdAt {row row' : JobRow} (change : RowChange row row') :
    row'.createdAt = row.createdAt := by
  cases change with
  | same unchanged => rw [unchanged]
  | active _ _ created => exact created

theorem eq_of_terminal {row row' : JobRow} (change : RowChange row row')
    (finished : row.status.terminal = true) : row' = row := by
  cases change with
  | same unchanged => exact unchanged
  | active unfinished => simp [finished] at unfinished

theorem edge {row row' : JobRow} (change : RowChange row row')
    (moved : row'.status ≠ row.status) : StatusEdge row.status row'.status := by
  cases change with
  | same unchanged => exact absurd (by rw [unchanged]) moved
  | active _ edge => exact edge.resolve_left moved

end RowChange

/-- Every statement of the worker makes a permitted change. -/
theorem RepositoryUpdate.rowChange (update : RepositoryUpdate) (now : Time) (row : JobRow) :
    RowChange row (update.onRow now row) := by
  unfold onRow
  split
  case isFalse => exact .same rfl
  case isTrue matched =>
    cases update <;> simp only [guard] at matched <;>
      refine .active (by simp [matched, JobStatus.terminal]) ?_ rfl <;>
      simp only [set, matched, true_or]
    · exact .inr .claim
    · exact .inr .complete
    · exact .inr .fail
    · exact .inr .reclaim

/-- The transition table lists exactly the edges of the state machine that do
not lead back to the queue. -/
theorem validateTransition_iff_edge (source target : JobStatus) :
    validateTransition source target = .ok () ↔
      StatusEdge source target ∧ target ≠ .queued := by
  constructor
  · intro valid
    cases source <;> cases target <;> first
      | exact ⟨by constructor, by decide⟩
      | simp [validateTransition, validTransitions] at valid
  · rintro ⟨edge, notQueued⟩
    cases edge <;> first | rfl | exact absurd rfl notQueued

theorem UpdateJobFields.rowChange {fields : UpdateJobFields} {target : JobStatus}
    (asked : fields.status = some target) (now : Time) {row : JobRow}
    (valid : validateTransition row.status target = .ok ()) :
    RowChange row (fields.onRow now row) := by
  have edge := ((validateTransition_iff_edge _ _).mp valid).1
  refine .active ?_ (.inr (by simpa [onRow, asked] using edge)) rfl
  exact edge.source_unfinished

/-- One committed transaction of the backend or a worker on the table, at a
`NOW()` that is not in the future. -/
inductive TableStep (clock : Time) (table : JobTable) : JobTable → Prop where
  | same : TableStep clock table table
  | create {now : Time} {id : UUID} (request : CreateJobRequest) (started : now ≤ clock)
      (fresh : table.lookup id = none) :
      TableStep clock table (table.insert id (JobStore.newRow now request))
  | execute {now : Time} (id : UUID) (update : RepositoryUpdate) (started : now ≤ clock) :
      TableStep clock table (table.execute now id update)
  | update {now : Time} (id : UUID) {fields : UpdateJobFields} {target : JobStatus}
      (started : now ≤ clock) (asked : fields.status = some target) :
      TableStep clock table (JobStore.update table now id fields).2

theorem JobTable.lookup_execute (table : JobTable) (now : Time) (id other : UUID)
    (update : RepositoryUpdate) :
    (table.execute now id update).lookup other =
      if other = id then (table.lookup id).map (update.onRow now)
      else table.lookup other :=
  KeyedTable.lookup_modify ..

/-- An update changes nothing, or it writes its own row, with a status only along an
edge. -/
theorem JobStore.update_cases (table : JobTable) (now : Time) (id : UUID)
    (fields : UpdateJobFields) :
    (JobStore.update table now id fields).2 = table ∨
      ∃ row, table.lookup id = some row ∧
        (∀ target, fields.status = some target →
          validateTransition row.status target = .ok ()) ∧
        (JobStore.update table now id fields).2 = table.insert id (fields.onRow now row) := by
  unfold JobStore.update
  cases table.lookup id with
  | none => exact Or.inl rfl
  | some row =>
      cases fields.status with
      | none => exact Or.inr ⟨row, rfl, by simp, rfl⟩
      | some target =>
          dsimp only
          cases valid : validateTransition row.status target with
          | error error => exact Or.inl rfl
          | ok _ => exact Or.inr ⟨row, rfl, by simp [valid], rfl⟩

theorem JobStore.lookup_update (table : JobTable) (now : Time) (id other : UUID)
    (fields : UpdateJobFields) :
    (JobStore.update table now id fields).2.lookup other = table.lookup other ∨
      other = id ∧ ∃ row, table.lookup id = some row ∧
        (∀ target, fields.status = some target →
          validateTransition row.status target = .ok ()) ∧
        (JobStore.update table now id fields).2.lookup other =
          some (fields.onRow now row) := by
  obtain same | ⟨row, found, valid, written⟩ := JobStore.update_cases table now id fields
  · exact Or.inl (by rw [same])
  · rw [written]
    by_cases own : other = id
    · subst own
      exact Or.inr ⟨rfl, row, found, valid, AList.lookup_insert _⟩
    · exact Or.inl (AList.lookup_insert_ne own)

theorem JobStore.lookup_of_update_ok {table : JobTable} {now : Time} {id : UUID}
    {fields : UpdateJobFields} {job : Job}
    (done : (JobStore.update table now id fields).1 = .ok job) :
    ∃ row, job = { row with id := id } ∧
      (JobStore.update table now id fields).2.lookup id = some row := by
  unfold JobStore.update at done ⊢
  cases found : table.lookup id with
  | none => simp [found] at done
  | some row =>
      simp only [found] at done ⊢
      split at done
      case h_1 =>
        cases done
        exact ⟨_, rfl, AList.lookup_insert _⟩
      case h_2 target asked =>
        split at done
        case h_1 => cases done
        case h_2 =>
          cases done
          exact ⟨_, rfl, AList.lookup_insert _⟩

theorem JobStore.status_of_update_ok {table : JobTable} {now : Time} {id : UUID}
    {fields : UpdateJobFields} {target : JobStatus} {job : Job}
    (done : (JobStore.update table now id fields).1 = .ok job)
    (asked : fields.status = some target) : job.status = target := by
  unfold JobStore.update at done
  cases found : table.lookup id with
  | none => simp [found] at done
  | some row =>
      simp only [found, asked] at done
      split at done <;> cases done
      simp [UpdateJobFields.onRow, asked]

/-- No transaction removes a row, and every change of one is permitted. -/
theorem TableStep.rowChange {clock : Time} {table table' : JobTable}
    (step : TableStep clock table table') {id : UUID} {row : JobRow}
    (found : table.lookup id = some row) :
    ∃ row', table'.lookup id = some row' ∧ RowChange row row' := by
  cases step with
  | same => exact ⟨row, found, .same rfl⟩
  | @create now new request started fresh =>
      have distinct : id ≠ new := by
        rintro rfl
        simp [fresh] at found
      exact ⟨row, by rwa [AList.lookup_insert_ne distinct], .same rfl⟩
  | @execute now target update started =>
      rw [JobTable.lookup_execute]
      by_cases own : id = target
      · subst own
        exact ⟨update.onRow now row, by simp [found], update.rowChange now row⟩
      · exact ⟨row, by simp [own, found], .same rfl⟩
  | @update now own fields target started asked =>
      rcases JobStore.lookup_update table now own id fields with
        unchanged | ⟨rfl, row', found', valid, written⟩
      · exact ⟨row, by rw [unchanged, found], .same rfl⟩
      · obtain rfl : row = row' := by simpa [found] using found'
        exact ⟨_, written, UpdateJobFields.rowChange asked now (valid target asked)⟩

end Crucible
