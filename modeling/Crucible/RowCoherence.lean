import Crucible.CheckpointIntegrity

/-!
# Coherence of job rows

The result columns of a row are written together with its status and never
cleared, so they tell the status: only a completed row has a checkpoint path,
and only a failed row has an error message.
-/

namespace Crucible

open LabelledRuns

/-- At least one object is stored under the checkpoint prefix of a job. -/
def SharedStores.HasCheckpoint (stores : SharedStores) (id : UUID) : Prop :=
  ∃ key ∈ stores.objects.keys, (checkpointPrefix id).toList <+: key.toList

/-- The result columns of a row agree with its status. -/
structure RowCoherent (stores : SharedStores) (id : UUID) (row : JobRow) : Prop where
  completed : row.status = .completed ↔ row.checkpointPath ≠ none
  stored : row.status = .completed →
    row.checkpointPath = some (checkpointPrefix id) ∧ stores.HasCheckpoint id
  failed : row.status = .failed ↔ row.errorMessage ≠ none
  unfinished : row.status = .queued ∨ row.status = .running ∨ row.status = .cancelled →
    row.checkpointPath = none ∧ row.errorMessage = none

/-- The statements that report a result, with what they report. -/
def Write.Reports (stores : SharedStores) : Write → Prop
  | .execute _ id (.markCompleted path) => path = checkpointPrefix id ∧ stores.HasCheckpoint id
  | .updateJob _ _ fields =>
      fields = cancelFields ∨ ∃ errMsg, fields = enqueueFailedFields errMsg
  | _ => True

namespace RowCoherent

variable {stores : SharedStores} {id : UUID} {row : JobRow}

theorem of_columns (completed : row.status = .completed ↔ row.checkpointPath ≠ none)
    (stored : row.status = .completed →
      row.checkpointPath = some (checkpointPrefix id) ∧ stores.HasCheckpoint id)
    (failed : row.status = .failed ↔ row.errorMessage ≠ none) :
    RowCoherent stores id row := by
  refine ⟨completed, stored, failed, fun unfinished => ⟨?_, ?_⟩⟩
  · by_contra set
    have done := completed.mpr set
    simp [done] at unfinished
  · by_contra set
    have done := failed.mpr set
    simp [done] at unfinished

theorem of_stores {stores' : SharedStores} (coherent : RowCoherent stores id row)
    (grows : stores.HasCheckpoint id → stores'.HasCheckpoint id) :
    RowCoherent stores' id row :=
  ⟨coherent.completed, fun done => (coherent.stored done).imp_right grows, coherent.failed,
    coherent.unfinished⟩

theorem newRow (now : Time) (request : CreateJobRequest) :
    RowCoherent stores id (JobStore.newRow now request) :=
  of_columns (by simp [JobStore.newRow]) (by simp [JobStore.newRow]) (by simp [JobStore.newRow])

theorem onRow (coherent : RowCoherent stores id row) {update : RepositoryUpdate} (now : Time)
    (reports : ∀ path, update = .markCompleted path →
      path = checkpointPrefix id ∧ stores.HasCheckpoint id) :
    RowCoherent stores id (update.onRow now row) := by
  unfold RepositoryUpdate.onRow
  split
  case isFalse => exact coherent
  case isTrue matched =>
    have blank : row.checkpointPath = none ∧ row.errorMessage = none := by
      refine coherent.unfinished ?_
      cases update <;> simp [RepositoryUpdate.guard] at matched <;> simp [matched]
    cases update with
    | markCompleted path =>
        obtain ⟨rfl, stored⟩ := reports path rfl
        refine of_columns ?_ (fun _ => ⟨rfl, stored⟩) ?_
        · simp [RepositoryUpdate.set]
        · simp [RepositoryUpdate.set, blank]
    | _ =>
        refine of_columns ?_ ?_ ?_ <;> simp [RepositoryUpdate.set, blank]
        all_goals simp only [RepositoryUpdate.guard] at matched
        all_goals simp [matched]

theorem fields (coherent : RowCoherent stores id row) {fields : UpdateJobFields}
    {target : JobStatus} (now : Time) (asked : fields.status = some target)
    (valid : validateTransition row.status target = .ok ())
    (reports : fields = cancelFields ∨ ∃ errMsg, fields = enqueueFailedFields errMsg) :
    RowCoherent stores id (fields.onRow now row) := by
  have active := ((validateTransition_iff_edge _ _).mp valid).1.source_unfinished
  have blank : row.checkpointPath = none ∧ row.errorMessage = none := by
    refine coherent.unfinished ?_
    cases status : row.status <;> simp [status, JobStatus.terminal] at active <;> simp
  obtain rfl | ⟨errMsg, rfl⟩ := reports
  · refine of_columns ?_ ?_ ?_ <;> simp [UpdateJobFields.onRow, cancelFields, blank]
  · refine of_columns ?_ ?_ ?_ <;> simp [UpdateJobFields.onRow, enqueueFailedFields, blank]

end RowCoherent

namespace SharedStores

variable {stores : SharedStores} {write : Write}

theorem hasCheckpoint_write {id : UUID} (stored : stores.HasCheckpoint id) :
    (stores.write write).HasCheckpoint id := by
  obtain ⟨key, member, under⟩ := stored
  cases write with
  | uploadFile other content =>
      exact ⟨key, mem_keys_insert.mpr (.inr member), under⟩
  | claim =>
      simp only [HasCheckpoint, SharedStores.write]
      split <;> exact ⟨key, member, under⟩
  | _ => exact ⟨key, member, under⟩

def Coherent (stores : SharedStores) : Prop :=
  ∀ id row, stores.jobs.lookup id = some row → RowCoherent stores id row

theorem coherent_write (coherent : stores.Coherent) (possible : stores.Possible write)
    (reports : write.Reports stores) : (stores.write write).Coherent := by
  intro id row found
  have grow : ∀ {row : JobRow}, RowCoherent stores id row →
      RowCoherent (stores.write write) id row :=
    fun held => held.of_stores hasCheckpoint_write
  cases rowSource_write found with
  | kept before => exact grow (coherent id row before)
  | created now request written =>
      subst written
      exact RowCoherent.newRow now request
  | updated now fields before held valid written =>
      obtain ⟨_, status, asked, _⟩ := possible
      subst written
      exact grow ((coherent id before held).fields now asked (valid status asked) reports)
  | executed now update before held matched written =>
      have same : update.onRow now before = row := (if_pos matched).trans written.symm
      refine grow (same ▸ (coherent id before held).onRow now fun path completes => ?_)
      subst completes
      exact reports

end SharedStores

/-- What a worker's upload has stored: once a file is done there is an object
under the prefix, and a completion is reported only after that. -/
structure WorkerPc.Stores (stores : SharedStores) (pc : WorkerPc) : Prop where
  uploads : ∀ id output todo, pc.upload = some (id, output, todo) →
    output.files ≠ [] ∧ (todo = output.files ∨ stores.HasCheckpoint id)
  completes : ∀ id path, pc.completes = some (id, path) →
    path = checkpointPrefix id ∧ stores.HasCheckpoint id

namespace WorkerPc

variable {stores : SharedStores} {pc pc' : WorkerPc} {choice : Choice} {write : Write}

theorem Stores.of_idle (upload : pc.upload = none) (completes : pc.completes = none) :
    pc.Stores stores :=
  ⟨fun id output todo uploading => by simp [upload] at uploading,
    fun id path completing => by simp [completes] at completing⟩

theorem Stores.grow {stores' : SharedStores} (held : pc.Stores stores)
    (grows : ∀ id, stores.HasCheckpoint id → stores'.HasCheckpoint id) : pc.Stores stores' :=
  ⟨fun id output todo uploading =>
      (held.uploads id output todo uploading).imp_right (·.imp_right (grows id)),
    fun id path completing => (held.completes id path completing).imp_right (grows id)⟩

theorem Stores.step (held : pc.Stores stores) (stepped : UploadStep choice pc write pc') :
    pc'.Stores (stores.write write) := by
  cases stepped with
  | other leaves upload completes => exact .of_idle upload completes
  | begin training finished upload completes =>
      obtain none | ⟨nonempty, some⟩ := upload
      · exact .of_idle none completes
      · refine ⟨fun id output todo uploading => ?_,
          fun id path completing => by simp [completes] at completing⟩
        rw [some] at uploading
        cases uploading
        exact ⟨nonempty, .inl rfl⟩
  | @file id output file todo pc' uploading upload completes =>
      have stored : (stores.write (.uploadFile (checkpointKey id file.1) file.2)).HasCheckpoint
          id :=
        ⟨_, mem_keys_insert.mpr (.inl rfl), prefix_checkpointKey.mpr rfl⟩
      obtain none | some := upload
      · exact .of_idle none completes
      · refine ⟨fun other output' todo' uploading' => ?_,
          fun id path completing => by simp [completes] at completing⟩
        rw [some] at uploading'
        cases uploading'
        exact ⟨(held.uploads _ _ _ uploading).1, .inr stored⟩
  | @finish id output pc' uploading upload completes =>
      refine ⟨fun id output todo uploading' => by simp [upload] at uploading',
        fun other path completing => ?_⟩
      rw [completes] at completing
      cases completing
      obtain ⟨nonempty, done⟩ := held.uploads _ _ _ uploading
      exact ⟨rfl, done.resolve_left (Ne.symm nonempty)⟩
  | complete completing upload completes => exact .of_idle upload completes

theorem call_ne_updateJob {now : Time} {id : UUID} {fields : UpdateJobFields} :
    pc.call choice ≠ .updateJob now id fields := by
  cases pc with
  | reconciling pc => cases pc <;> nofun
  | processing lastReconcile rawJobId marked pc =>
      cases pc with
      | executing job model pc =>
          intro made
          have executes := pc.executes_call job choice
          simp only [call, ProcessorPc.call] at made
          simp [made, Write.Executes] at executes
      | _ => nofun
  | _ => nofun

/-- What a worker writes reports no more than its uploads have stored. -/
theorem Stores.reports {config : Config} (held : pc.Stores stores)
    (stepped : pc.step config stores choice = some (write, pc')) : write.Reports stores := by
  have upload := uploadStep_step stepped
  cases write with
  | execute now id update =>
      cases update with
      | markCompleted path =>
          cases upload with
          | other leaves => exact leaves.elim
          | complete completing => exact held.completes id path completing
      | _ => trivial
  | updateJob now id fields =>
      obtain none | called := step_write stepped
      · cases none
      · exact absurd called.symm call_ne_updateJob
  | _ => trivial

end WorkerPc

theorem RequestPc.reports_step {stores : SharedStores} {choice : Choice} {pc pc' : RequestPc}
    {write : Write} (stepped : pc.step stores choice = some (write, pc')) :
    write.Reports stores := by
  obtain rfl | rfl := step_write stepped
  · trivial
  · cases pc with
    | markEnqueueFailed id errMsg => exact .inr ⟨errMsg, rfl⟩
    | update id => exact .inl rfl
    | _ => trivial

namespace Cluster

variable {n m : Nat} {config : Config} {cluster next : Cluster n m}

/-- The invariant: rows are coherent, and uploads have stored what they will
report. -/
structure Coherent (cluster : Cluster n m) : Prop where
  rows : cluster.stores.Coherent
  workers : ∀ worker, (cluster.workers worker).pc.Stores cluster.stores

theorem coherent_initial (clock : Time) (models : List ModelRow) :
    (initial clock models : Cluster n m).Coherent where
  rows _ _ found := by cases found
  workers _ := .of_idle rfl rfl

theorem hasCheckpoint_step {action : Action n m}
    (moved : cluster.step config action = some next) {id : UUID}
    (stored : cluster.stores.HasCheckpoint id) : next.stores.HasCheckpoint id := by
  cases action with
  | work worker choice =>
      obtain ⟨_, write, pc, _, rfl⟩ := step_work moved
      exact SharedStores.hasCheckpoint_write stored
  | serve request choice =>
      obtain ⟨_, write, pc, _, rfl⟩ := step_serve moved
      exact SharedStores.hasCheckpoint_write stored
  | arrive request call => obtain rfl := step_arrive moved; exact stored
  | start worker => obtain ⟨_, rfl⟩ := step_start moved; exact stored
  | tick duration | setModels models | crash worker | drop request => cases moved; exact stored

theorem Coherent.step (held : cluster.Coherent) {action : Action n m}
    (moved : cluster.step config action = some next) : next.Coherent where
  rows := by
    cases action with
    | work worker choice =>
        obtain ⟨current, write, pc, stepped, rfl⟩ := step_work moved
        exact SharedStores.coherent_write held.rows (WorkerPc.step_possible current.2 stepped)
          ((held.workers worker).reports stepped)
    | serve request choice =>
        obtain ⟨current, write, pc, stepped, rfl⟩ := step_serve moved
        exact SharedStores.coherent_write held.rows (RequestPc.step_possible current.2 stepped)
          (RequestPc.reports_step stepped)
    | arrive request call => obtain rfl := step_arrive moved; exact held.rows
    | start worker => obtain ⟨_, rfl⟩ := step_start moved; exact held.rows
    | tick duration | setModels models =>
        cases moved
        exact fun id row found => (held.rows id row found).of_stores fun stored => stored
    | crash worker | drop request => cases moved; exact held.rows
  workers := by
    refine step_workers (fun stores pc => pc.Stores stores) moved held.workers
      (fun worker held => ?_) (.of_idle rfl rfl) (.of_idle rfl rfl)
      fun worker choice write pc' _ _ stepped same => ?_
    · exact held.grow fun id => hasCheckpoint_step moved
    · rw [same]
      exact (held.workers worker).step (WorkerPc.uploadStep_step stepped)

/-- In every reachable state every row is coherent. -/
theorem rows_coherent {clock : Time} {models : List ModelRow}
    (run : Runs (step config) Any (initial clock models) cluster) {id : UUID} {row : JobRow}
    (found : cluster.stores.jobs.lookup id = some row) :
    RowCoherent cluster.stores id row :=
  (runs_invariant Coherent (fun _ _ _ held _ moved => held.step moved)
    (coherent_initial clock models) run).rows id row found

theorem rows_coherent_repeatedUpload :
    ∃ (cluster : Cluster 1 1) (row : JobRow),
      cluster.stores.jobs.lookup jobSeven = some row ∧ row.status = .completed ∧
        RowCoherent cluster.stores jobSeven row := by
  have replays : (replay (step shortConfig) Any (initial 0 sevenModels)
      (repeatedUpload (0 : Fin 1) (0 : Fin 1))).any
      (fun cluster => decide (cluster.stores.HasStatus jobSeven .completed)) = true := by
    decide +kernel
  obtain ⟨cluster, run, reached⟩ := exists_runs_of_replay replays
  obtain ⟨row, found, completed⟩ := of_decide_eq_true reached
  exact ⟨cluster, row, found, completed, rows_coherent run found⟩

end Cluster

end Crucible
