import Crucible.Cluster

/-!
# Checkpoints of completed jobs

All attempts of a job upload file by file under the same prefix, and nothing is
ever removed there.  The objects under the checkpoint path of a completed job
are the files of one training run as long as every upload that begins fits what
it finds: leftovers of earlier attempts have the paths of files that it brings,
and other uploads of the job have the same output.
-/

namespace Crucible

open LabelledRuns

/-! ## Object keys -/

theorem toList_checkpointKey (id : UUID) (path : String) :
    (checkpointKey id path).toList = (checkpointPrefix id).toList ++ path.toList := by
  rw [checkpointKey, String.toList_append]

theorem checkpointKey_inj {id : UUID} {first second : String} :
    checkpointKey id first = checkpointKey id second ↔ first = second := by
  constructor
  · intro same
    have lists := congrArg String.toList same
    rw [toList_checkpointKey, toList_checkpointKey, List.append_cancel_left_eq] at lists
    exact String.toList_injective lists
  · rintro rfl
    rfl

/-- A key of one job lies under the prefix of another only if they are the same
job, since all identifiers are equally long. -/
theorem prefix_checkpointKey {id other : UUID} {path : String} :
    (checkpointPrefix id).toList <+: (checkpointKey other path).toList ↔ id = other := by
  constructor
  · rintro ⟨rest, same⟩
    rw [toList_checkpointKey, checkpointPrefix, checkpointPrefix] at same
    simp only [String.toList_append, List.append_assoc, List.append_cancel_left_eq] at same
    have lengths : id.str.toList.length = other.str.toList.length := by
      rw [UUID.length_toList_str, UUID.length_toList_str]
    exact UUID.str_injective (String.toList_injective (List.append_inj_left same lengths))
  · rintro rfl
    rw [toList_checkpointKey]
    exact List.prefix_append _ _

theorem checkpointKey_ne {id other : UUID} (distinct : id ≠ other) (first second : String) :
    checkpointKey id first ≠ checkpointKey other second := by
  intro same
  have under : (checkpointPrefix id).toList <+: (checkpointKey id first).toList :=
    prefix_checkpointKey.mpr rfl
  rw [same] at under
  exact distinct (prefix_checkpointKey.mp under)

/-! ## Objects under a path -/

/-- The objects under a path are exactly the files of a directory. -/
structure HoldsFiles (objects : KeyedTable String Bytes) (path : String)
    (output : Directory) : Prop where
  only : ∀ key ∈ objects.keys, path.toList <+: key.toList →
    ∃ file ∈ output.files, key = path ++ file.1
  all : ∀ file ∈ output.files, objects.lookup (path ++ file.1) = some file.2

instance (objects : KeyedTable String Bytes) (path : String) (output : Directory) :
    Decidable (HoldsFiles objects path output) :=
  decidable_of_iff ((∀ key ∈ objects.keys, path.toList <+: key.toList →
      ∃ file ∈ output.files, key = path ++ file.1) ∧
      ∀ file ∈ output.files, objects.lookup (path ++ file.1) = some file.2)
    ⟨fun ⟨only, all⟩ => ⟨only, all⟩, fun ⟨only, all⟩ => ⟨only, all⟩⟩

/-- A completed job names a path under which there are exactly the files that
one of its training runs left. -/
def SharedStores.Intact (stores : SharedStores) (id : UUID) : Prop :=
  ∀ row ∈ stores.jobs.lookup id, row.status = .completed →
    ∃ path ∈ row.checkpointPath, ∃ output ∈ stores.outputs id,
      HoldsFiles stores.objects path output

instance (stores : SharedStores) (id : UUID) : Decidable (stores.Intact id) :=
  inferInstanceAs (Decidable (∀ row ∈ _, _ → ∃ path ∈ _, ∃ output ∈ _, _))

section Objects

variable {objects : KeyedTable String Bytes} {id : UUID} {output : Directory}

theorem mem_keys_insert {key other : String} {content : Bytes} :
    other ∈ (objects.insert key content).keys ↔ other = key ∨ other ∈ objects.keys := by
  rw [← AList.mem_keys, AList.mem_insert, AList.mem_keys]

theorem Directory.file_unique (output : Directory) {first second : String × Bytes}
    (mem : first ∈ output.files) (mem' : second ∈ output.files) (same : first.1 = second.1) :
    first = second :=
  List.inj_on_of_nodup_map output.distinct mem mem' same

theorem HoldsFiles.insert_other (holds : HoldsFiles objects (checkpointPrefix id) output)
    {other : UUID} (distinct : id ≠ other) (path : String) (content : Bytes) :
    HoldsFiles (objects.insert (checkpointKey other path) content)
      (checkpointPrefix id) output where
  only key member under := by
    rcases mem_keys_insert.mp member with rfl | old
    · exact absurd (prefix_checkpointKey.mp under) distinct
    · exact holds.only key old under
  all file member := by
    have away : checkpointPrefix id ++ file.1 ≠ checkpointKey other path :=
      checkpointKey_ne distinct file.1 path
    rw [AList.lookup_insert_ne away]
    exact holds.all file member

theorem HoldsFiles.insert_again (holds : HoldsFiles objects (checkpointPrefix id) output)
    {file : String × Bytes} (mine : file ∈ output.files) :
    HoldsFiles (objects.insert (checkpointKey id file.1) file.2)
      (checkpointPrefix id) output where
  only key member under := by
    rcases mem_keys_insert.mp member with rfl | old
    · exact ⟨file, mine, rfl⟩
    · exact holds.only key old under
  all other member := by
    rw [KeyedTable.lookup_insert]
    split
    case isTrue same =>
      rw [output.file_unique member mine (checkpointKey_inj.mp same)]
    case isFalse => exact holds.all other member

end Objects

/-! ## Uploads in progress -/

namespace WorkerPc

/-- The upload that a worker is in: job, output and files to do. -/
def upload : WorkerPc → Option (UUID × Directory × List (String × Bytes))
  | .processing _ _ _ (.executing job _ (.upload output todo)) => some (job.id, output, todo)
  | _ => none

/-- The completion that a worker is about to record: job and checkpoint path. -/
def completes : WorkerPc → Option (UUID × String)
  | .processing _ _ _ (.markCompleted job path) => some (job.id, path)
  | _ => none

/-- The job whose trainer a worker is running. -/
def training : WorkerPc → Option UUID
  | .processing _ _ _ (.executing job _ .train) => some job.id
  | _ => none

end WorkerPc

def Training.output : Training → Option Directory
  | .finish output => some output
  | .heartbeat | .fail => none

/-- Writes that change neither objects nor outputs, and complete no job. -/
def Write.LeavesCheckpoints : Write → Prop
  | .uploadFile _ _ | .trained _ _ | .execute _ _ (.markCompleted _) => False
  | .updateJob _ _ fields => fields.status = some .failed ∨ fields.status = some .cancelled
  | _ => True

inductive UploadStep (choice : Choice) (pc : WorkerPc) : Write → WorkerPc → Prop where
  | other {write : Write} {pc' : WorkerPc} (leaves : write.LeavesCheckpoints)
      (upload : pc'.upload = none) (completes : pc'.completes = none) :
      UploadStep choice pc write pc'
  | begin {id : UUID} {output : Directory} {pc' : WorkerPc} (training : pc.training = some id)
      (finished : choice.training.output = some output)
      (upload : pc'.upload = none ∨
        output.files ≠ [] ∧ pc'.upload = some (id, output, output.files))
      (completes : pc'.completes = none) : UploadStep choice pc (.trained id output) pc'
  | file {id : UUID} {output : Directory} {file : String × Bytes}
      {todo : List (String × Bytes)} {pc' : WorkerPc}
      (uploading : pc.upload = some (id, output, file :: todo))
      (upload : pc'.upload = none ∨ pc'.upload = some (id, output, todo))
      (completes : pc'.completes = none) :
      UploadStep choice pc (.uploadFile (checkpointKey id file.1) file.2) pc'
  | finish {id : UUID} {output : Directory} {pc' : WorkerPc}
      (uploading : pc.upload = some (id, output, [])) (upload : pc'.upload = none)
      (completes : pc'.completes = some (id, checkpointPrefix id)) :
      UploadStep choice pc .nothing pc'
  | complete {now : Time} {id : UUID} {path : String} {pc' : WorkerPc}
      (completing : pc.completes = some (id, path)) (upload : pc'.upload = none)
      (completes : pc'.completes = none) :
      UploadStep choice pc (.execute now id (.markCompleted path)) pc'

namespace WorkerPc

variable {config : Config} {stores : SharedStores} {choice : Choice}

theorem uploadStep_executing (lastReconcile : Time) (rawJobId : String)
    (marked marked' : Option JobStatus) (job : Job) (model : ModelMeta) (pc : ExecutorPc) :
    UploadStep choice (processing lastReconcile rawJobId marked (.executing job model pc))
      (pc.step job choice).1
      (processing lastReconcile rawJobId marked'
        (ProcessorPc.afterExecutor job model (pc.step job choice).2)) := by
  cases pc with
  | train =>
      cases training : choice.training with
      | heartbeat | fail =>
          simp only [ExecutorPc.step, training]
          exact .other trivial rfl rfl
      | finish output =>
          simp only [ExecutorPc.step, training]
          by_cases empty : output.files = []
          · rw [if_pos empty]
            exact .begin rfl (by rw [training]; rfl) (.inl rfl) rfl
          · rw [if_neg empty]
            exact .begin rfl (by rw [training]; rfl) (.inr ⟨empty, rfl⟩) rfl
  | upload output todo =>
      cases todo with
      | nil => exact .finish rfl rfl rfl
      | cons file todo =>
          cases fault : choice.fault <;> simp only [ExecutorPc.step, attempt, fault]
          · exact .file rfl (.inr rfl) rfl
          · exact .other trivial rfl rfl
          · exact .file rfl (.inl rfl) rfl
  | heartbeat site | publishHeartbeat site =>
      cases fault : choice.fault <;> cases site <;>
        simp only [ExecutorPc.step, attempt, fault, BeatSite.next, BeatSite.failed] <;>
        exact .other trivial rfl rfl
  | ensure | download =>
      cases fault : choice.fault <;> simp only [ExecutorPc.step, attempt, fault] <;>
        exact .other trivial rfl rfl

/-- A call of `process` that is not one of the executor and does not record a
completion. -/
theorem uploadStep_goto {lastReconcile : Time} {rawJobId : String} {marked : Option JobStatus}
    {pc : WorkerPc} {pc' : ProcessorPc} {write : Write} (leaves : write.LeavesCheckpoints)
    (idle : ∀ last raw marked, (processing last raw marked pc').upload = none ∧
      (processing last raw marked pc').completes = none) :
    UploadStep choice pc write (processing lastReconcile rawJobId marked pc') :=
  .other leaves (idle _ _ _).1 (idle _ _ _).2

theorem idle_afterGetJob (job : Option Job) (last : Time) (raw : String)
    (marked : Option JobStatus) :
    (processing last raw marked (.afterGetJob job)).upload = none ∧
      (processing last raw marked (.afterGetJob job)).completes = none := by
  unfold ProcessorPc.afterGetJob
  split
  case h_1 => exact ⟨rfl, rfl⟩
  case h_2 => split <;> exact ⟨rfl, rfl⟩

theorem idle_afterPublishRunning (job : Job) (last : Time) (raw : String)
    (marked : Option JobStatus) :
    (processing last raw marked (.afterPublishRunning job)).upload = none ∧
      (processing last raw marked (.afterPublishRunning job)).completes = none := by
  unfold ProcessorPc.afterPublishRunning
  split <;> exact ⟨rfl, rfl⟩

theorem idle_afterGetModelMeta (job : Job) (model : Option ModelMeta) (last : Time)
    (raw : String) (marked : Option JobStatus) :
    (processing last raw marked (.afterGetModelMeta job model)).upload = none ∧
      (processing last raw marked (.afterGetModelMeta job model)).completes = none := by
  unfold ProcessorPc.afterGetModelMeta
  split
  case h_1 => exact ⟨rfl, rfl⟩
  case h_2 => split <;> exact ⟨rfl, rfl⟩

theorem uploadStep_processing {lastReconcile : Time} {rawJobId : String}
    {marked marked' : Option JobStatus} {pc : ProcessorPc} {write : Write}
    {next : Next ProcessorPc Unit}
    (stepped : pc.step rawJobId stores choice = some (write, next)) :
    UploadStep choice (processing lastReconcile rawJobId marked pc) write
      (afterProcessor lastReconcile rawJobId marked' next) := by
  cases pc with
  | executing job model pc =>
      obtain ⟨rfl, rfl⟩ := ProcessorPc.step_executing stepped
      exact uploadStep_executing ..
  | markCompleted job path =>
      rcases attempt_eq (Option.some.inj stepped) with
        ⟨_, rfl, rfl⟩ | ⟨_, rfl, rfl⟩ | ⟨_, rfl, rfl⟩
      · exact .complete rfl rfl rfl
      · exact .other trivial rfl rfl
      · exact .complete rfl rfl rfl
  | getJob id =>
      rcases attempt_eq (Option.some.inj stepped) with
        ⟨_, rfl, rfl⟩ | ⟨_, rfl, rfl⟩ | ⟨_, rfl, rfl⟩
      · exact uploadStep_goto trivial (idle_afterGetJob _)
      · exact .other trivial rfl rfl
      · exact .other trivial rfl rfl
  | publishRunning job =>
      rcases attempt_eq (Option.some.inj stepped) with
        ⟨_, rfl, rfl⟩ | ⟨_, rfl, rfl⟩ | ⟨_, rfl, rfl⟩
      · exact uploadStep_goto trivial (idle_afterPublishRunning job)
      · exact .other trivial rfl rfl
      · exact .other trivial rfl rfl
  | getModelMeta job =>
      obtain ⟨_, called⟩ := Option.ite_none_right_eq_some.mp stepped
      rcases attempt_eq (Option.some.inj called) with
        ⟨_, rfl, rfl⟩ | ⟨_, rfl, rfl⟩ | ⟨_, rfl, rfl⟩
      · exact uploadStep_goto trivial (idle_afterGetModelMeta job _)
      · exact .other trivial rfl rfl
      · exact .other trivial rfl rfl
  | _ =>
      rcases attempt_eq (Option.some.inj stepped) with
        ⟨_, rfl, rfl⟩ | ⟨_, rfl, rfl⟩ | ⟨_, rfl, rfl⟩ <;> exact .other trivial rfl rfl

theorem uploadStep_step {pc pc' : WorkerPc} {write : Write}
    (stepped : pc.step config stores choice = some (write, pc')) :
    UploadStep choice pc write pc' := by
  cases pc with
  | reconciling pc =>
      obtain ⟨next, inner, rfl⟩ := step_reconciling stepped
      have leaves : write.LeavesCheckpoints := by
        rcases ReconcilerPc.step_write inner with rfl | rfl
        · trivial
        · cases pc <;> trivial
      cases next <;> exact .other leaves rfl rfl
  | claiming lastReconcile =>
      simp only [step] at stepped
      split at stepped
      case h_1 =>
        rcases attempt_eq (Option.some.inj stepped) with
          ⟨_, rfl, rfl⟩ | ⟨_, rfl, rfl⟩ | ⟨_, rfl, rfl⟩ <;> exact .other trivial rfl rfl
      case h_2 rawJobId last =>
        have idle : ∀ last raw marked,
            (processing last raw marked (.start rawJobId)).upload = none ∧
              (processing last raw marked (.start rawJobId)).completes = none := by
          intro last raw marked
          unfold ProcessorPc.start
          split <;> exact ⟨rfl, rfl⟩
        rcases attempt_eq (Option.some.inj stepped) with
          ⟨_, rfl, same⟩ | ⟨_, rfl, same⟩ | ⟨_, rfl, same⟩ <;> rw [same]
        · exact uploadStep_goto trivial idle
        · exact .other trivial rfl rfl
        · exact .other trivial rfl rfl
  | processing lastReconcile rawJobId marked pc =>
      obtain ⟨next, inner, rfl⟩ := step_processing stepped
      exact uploadStep_processing inner
  | checking lastReconcile =>
      simp only [step] at stepped
      split at stepped <;> cases stepped <;> exact .other trivial rfl rfl
  | dead => cases stepped

end WorkerPc

/-! ## The invariant -/

/-- What an upload in progress has achieved: under the prefix there are only
objects with paths of the output, and the files that are done are stored. -/
structure Uploading (stores : SharedStores) (id : UUID) (output : Directory)
    (todo : List (String × Bytes)) : Prop where
  trained : output ∈ stores.outputs id
  remaining : todo ⊆ output.files
  only : ∀ key ∈ stores.objects.keys, (checkpointPrefix id).toList <+: key.toList →
    ∃ file ∈ output.files, key = checkpointKey id file.1
  stored : ∀ file ∈ output.files,
    file ∈ todo ∨ stores.objects.lookup (checkpointKey id file.1) = some file.2

/-- A job is completed, or a worker is about to record that. -/
def Done {n : Nat} (stores : SharedStores) (pcs : Fin n → WorkerPc) (id : UUID) : Prop :=
  (∃ worker path, (pcs worker).completes = some (id, path)) ∨ stores.HasStatus id .completed

/-- Uploads of a job have the same output, and a job that is done holds the
files of one output, which every upload still in progress repeats. -/
structure Sealed {n : Nat} (stores : SharedStores) (pcs : Fin n → WorkerPc) : Prop where
  uploads : ∀ worker id output todo, (pcs worker).upload = some (id, output, todo) →
    Uploading stores id output todo
  agree : ∀ worker other id output output' todo todo',
    (pcs worker).upload = some (id, output, todo) →
    (pcs other).upload = some (id, output', todo') → output = output'
  paths : ∀ worker id path, (pcs worker).completes = some (id, path) →
    path = checkpointPrefix id
  rows : ∀ id row, stores.jobs.lookup id = some row → row.status = .completed →
    row.checkpointPath = some (checkpointPrefix id)
  done : ∀ id, Done stores pcs id →
    ∃ output ∈ stores.outputs id, HoldsFiles stores.objects (checkpointPrefix id) output
  repeats : ∀ worker id output todo, (pcs worker).upload = some (id, output, todo) →
    Done stores pcs id → HoldsFiles stores.objects (checkpointPrefix id) output

theorem Uploading.holdsFiles {stores : SharedStores} {id : UUID} {output : Directory}
    (uploading : Uploading stores id output []) :
    HoldsFiles stores.objects (checkpointPrefix id) output where
  only := uploading.only
  all file member := (uploading.stored file member).resolve_left (List.not_mem_nil)

namespace Sealed

variable {n : Nat} {stores stores' : SharedStores} {pcs : Fin n → WorkerPc}

theorem intact (held : Sealed stores pcs) (id : UUID) : stores.Intact id := by
  intro row found completed
  obtain ⟨output, trained, holds⟩ := held.done id (.inr ⟨row, found, completed⟩)
  exact ⟨_, held.rows id row found completed, output, trained, holds⟩

/-- A write that leaves checkpoints alone and completes no job. -/
theorem of_same (held : Sealed stores pcs) (objects : stores'.objects = stores.objects)
    (outputs : stores'.outputs = stores.outputs)
    (completed : ∀ id row, stores'.jobs.lookup id = some row → row.status = .completed →
      stores.jobs.lookup id = some row) : Sealed stores' pcs := by
  have done : ∀ id, Done stores' pcs id → Done stores pcs id := by
    rintro id (completing | ⟨row, found, status⟩)
    · exact .inl completing
    · exact .inr ⟨row, completed id row found status, status⟩
  refine ⟨fun worker id output todo at_ => ?_, held.agree, held.paths,
    fun id row found status => held.rows id row (completed id row found status) status,
    fun id finished => ?_, fun worker id output todo at_ finished => ?_⟩
  · obtain ⟨trained, rest, only, stored⟩ := held.uploads worker id output todo at_
    exact ⟨by rwa [outputs], rest, by rwa [objects], by rwa [objects]⟩
  · rw [objects, outputs]
    exact held.done id (done id finished)
  · rw [objects]
    exact held.repeats worker id output todo at_ (done id finished)

theorem trained (held : Sealed stores pcs) (own : UUID) (left : Directory) :
    Sealed (stores.write (.trained own left)) pcs := by
  have kept : ∀ {id : UUID} {output : Directory}, output ∈ stores.outputs id →
      output ∈ (stores.write (.trained own left)).outputs id := by
    intro id output member
    by_cases same : id = own
    · subst same
      simpa [SharedStores.write] using Or.inr member
    · simpa [SharedStores.write, same] using member
  refine ⟨fun worker id output todo at_ => ?_, held.agree, held.paths, held.rows,
    fun id finished => ?_, held.repeats⟩
  · obtain ⟨recorded, rest, only, stored⟩ := held.uploads worker id output todo at_
    exact ⟨kept recorded, rest, only, stored⟩
  · obtain ⟨output, recorded, holds⟩ := held.done id finished
    exact ⟨output, kept recorded, holds⟩

theorem uploadFile (held : Sealed stores pcs) {worker : Fin n} {own : UUID}
    {output : Directory} {file : String × Bytes} {todo : List (String × Bytes)}
    (at_ : (pcs worker).upload = some (own, output, file :: todo)) :
    Sealed (stores.write (.uploadFile (checkpointKey own file.1) file.2)) pcs := by
  have mine := held.uploads worker own output _ at_
  have listed : file ∈ output.files := mine.remaining List.mem_cons_self
  refine ⟨fun other id output' todo' at_' => ?_, held.agree, held.paths, held.rows,
    fun id finished => ?_, fun other id output' todo' at_' finished => ?_⟩
  · obtain ⟨recorded, rest, only, stored⟩ := held.uploads other id output' todo' at_'
    refine ⟨recorded, rest, fun key member under => ?_, fun file' member => ?_⟩
    · rcases mem_keys_insert.mp member with rfl | old
      · obtain rfl := prefix_checkpointKey.mp under
        obtain rfl := held.agree worker other id output output' _ _ at_ at_'
        exact ⟨file, listed, rfl⟩
      · exact only key old under
    · refine (stored file' member).imp_right fun before => ?_
      simp only [SharedStores.write]
      rw [KeyedTable.lookup_insert]
      split
      case isFalse => exact before
      case isTrue same =>
        by_cases job : id = own
        · subst job
          obtain rfl := held.agree worker other id output output' _ _ at_ at_'
          rw [output.file_unique member listed (checkpointKey_inj.mp same)]
        · exact absurd same (checkpointKey_ne job _ _)
  · by_cases job : id = own
    · subst job
      exact ⟨output, mine.trained,
        (held.repeats worker id output _ at_ finished).insert_again listed⟩
    · obtain ⟨output', recorded, holds⟩ := held.done id finished
      exact ⟨output', recorded, holds.insert_other job _ _⟩
  · by_cases job : id = own
    · subst job
      obtain rfl := held.agree worker other id output output' _ _ at_ at_'
      exact (held.repeats worker id output _ at_ finished).insert_again listed
    · exact (held.repeats other id output' todo' at_' finished).insert_other job _ _

theorem markCompleted (held : Sealed stores pcs) {worker : Fin n} {own : UUID}
    {path : String} (at_ : (pcs worker).completes = some (own, path)) (now : Time) :
    Sealed (stores.write (.execute now own (.markCompleted path))) pcs := by
  obtain rfl := held.paths worker own path at_
  have completed : ∀ id row,
      (stores.write (.execute now own (.markCompleted (checkpointPrefix own)))).jobs.lookup id =
        some row → row.status = .completed →
      stores.jobs.lookup id = some row ∨
        id = own ∧ row.checkpointPath = some (checkpointPrefix own) := by
    intro id row found status
    cases SharedStores.rowSource_write found with
    | kept before => exact .inl before
    | executed now update old before matched written =>
        subst written
        exact .inr ⟨rfl, rfl⟩
  have done : ∀ id, Done (stores.write
      (.execute now own (.markCompleted (checkpointPrefix own)))) pcs id →
      Done stores pcs id := by
    rintro id (completing | ⟨row, found, status⟩)
    · exact .inl completing
    · rcases completed id row found status with old | ⟨rfl, _⟩
      · exact .inr ⟨row, old, status⟩
      · exact .inl ⟨worker, _, at_⟩
  refine ⟨fun other id output todo at_' => ?_, held.agree, held.paths,
    fun id row found status => ?_,
    fun id finished => held.done id (done id finished),
    fun other id output todo at_' finished =>
      held.repeats other id output todo at_' (done id finished)⟩
  · obtain ⟨recorded, rest, only, stored⟩ := held.uploads other id output todo at_'
    exact ⟨recorded, rest, only, stored⟩
  · rcases completed id row found status with old | ⟨rfl, path⟩
    · exact held.rows id row old status
    · exact path

theorem move (held : Sealed stores pcs) {worker : Fin n} {pc' : WorkerPc}
    (single : pc'.upload = none ∨ pc'.completes = none)
    (upload : ∀ id output todo, pc'.upload = some (id, output, todo) →
      Uploading stores id output todo ∧
        (∀ other output' todo', (pcs other).upload = some (id, output', todo') →
          output' = output) ∧
        (Done stores pcs id → HoldsFiles stores.objects (checkpointPrefix id) output))
    (completes : ∀ id path, pc'.completes = some (id, path) → path = checkpointPrefix id ∧
      ∃ output ∈ stores.outputs id, HoldsFiles stores.objects (checkpointPrefix id) output ∧
        ∀ other output' todo', (pcs other).upload = some (id, output', todo') →
          output' = output) :
    Sealed stores (Function.update pcs worker pc') := by
  have own : Function.update pcs worker pc' worker = pc' := Function.update_self ..
  have rest : ∀ other, other ≠ worker → Function.update pcs worker pc' other = pcs other :=
    fun other distinct => Function.update_of_ne distinct ..
  have done : ∀ id, Done stores (Function.update pcs worker pc') id →
      Done stores pcs id ∨ ∃ path, pc'.completes = some (id, path) := by
    rintro id (⟨other, path, at_⟩ | completed)
    · by_cases same : other = worker
      · rw [same, own] at at_
        exact .inr ⟨path, at_⟩
      · rw [rest other same] at at_
        exact .inl (.inl ⟨other, path, at_⟩)
    · exact .inl (.inr completed)
  refine ⟨?_, ?_, ?_, held.rows, ?_, ?_⟩
  · intro other id output todo at_
    by_cases same : other = worker
    · rw [same, own] at at_
      exact (upload id output todo at_).1
    · rw [rest other same] at at_
      exact held.uploads other id output todo at_
  · intro first second id output output' todo todo' at_ at_'
    by_cases same : first = worker <;> by_cases same' : second = worker
    · rw [same, own] at at_
      rw [same', own] at at_'
      cases at_.symm.trans at_'
      rfl
    · rw [same, own] at at_
      rw [rest second same'] at at_'
      exact ((upload id output todo at_).2.1 second output' todo' at_').symm
    · rw [rest first same] at at_
      rw [same', own] at at_'
      exact (upload id output' todo' at_').2.1 first output todo at_
    · rw [rest first same] at at_
      rw [rest second same'] at at_'
      exact held.agree first second id output output' todo todo' at_ at_'
  · intro other id path at_
    by_cases same : other = worker
    · rw [same, own] at at_
      exact (completes id path at_).1
    · rw [rest other same] at at_
      exact held.paths other id path at_
  · intro id finished
    rcases done id finished with before | ⟨path, at_⟩
    · exact held.done id before
    · obtain ⟨_, output, recorded, holds, _⟩ := completes id path at_
      exact ⟨output, recorded, holds⟩
  · intro other id output todo at_ finished
    by_cases same : other = worker
    · rw [same, own] at at_
      rcases done id finished with before | ⟨path, completing⟩
      · exact (upload id output todo at_).2.2 before
      · rcases single with none_ | none_
        · rw [none_] at at_
          cases at_
        · rw [none_] at completing
          cases completing
    · rw [rest other same] at at_
      rcases done id finished with before | ⟨path, completing⟩
      · exact held.repeats other id output todo at_ before
      · obtain ⟨_, output', _, holds, alone⟩ := completes id path completing
        rw [alone other output todo at_]
        exact holds

theorem move_idle (held : Sealed stores pcs) {worker : Fin n} {pc' : WorkerPc}
    (upload : pc'.upload = none) (completes : pc'.completes = none) :
    Sealed stores (Function.update pcs worker pc') := by
  refine held.move (.inl upload) (fun id output todo at_ => ?_) (fun id path at_ => ?_)
  · rw [upload] at at_
    cases at_
  · rw [completes] at at_
    cases at_

end Sealed

namespace SharedStores

variable {stores : SharedStores} {write : Write}

theorem objects_write (leaves : write.LeavesCheckpoints) :
    (stores.write write).objects = stores.objects ∧
      (stores.write write).outputs = stores.outputs := by
  cases write with
  | uploadFile key content | trained id output => exact False.elim leaves
  | claim =>
      simp only [SharedStores.write]
      split <;> exact ⟨rfl, rfl⟩
  | _ => exact ⟨rfl, rfl⟩

theorem completed_write (leaves : write.LeavesCheckpoints) {id : UUID} {row : JobRow}
    (found : (stores.write write).jobs.lookup id = some row)
    (completed : row.status = .completed) : stores.jobs.lookup id = some row := by
  cases rowSource_write found with
  | kept before => exact before
  | created now request written => cases written; cases completed
  | updated now fields old before valid written =>
      subst written
      rcases leaves with asked | asked <;> simp [UpdateJobFields.onRow, asked] at completed
  | executed now update old before matched written =>
      subst written
      cases update with
      | markCompleted path => exact False.elim leaves
      | heartbeat => cases matched.symm.trans completed
      | _ => cases completed

end SharedStores

theorem Sealed.leaves {n : Nat} {stores : SharedStores} {pcs : Fin n → WorkerPc} {write : Write}
    (held : Sealed stores pcs) (leaves : write.LeavesCheckpoints) :
    Sealed (stores.write write) pcs :=
  held.of_same (SharedStores.objects_write leaves).1 (SharedStores.objects_write leaves).2
    fun _ _ found completed => SharedStores.completed_write leaves found completed

theorem RequestPc.leaves_call (choice : Choice) (pc : RequestPc) :
    (pc.call choice).LeavesCheckpoints := by
  cases pc with
  | markEnqueueFailed id errMsg => exact .inl rfl
  | update id => exact .inr rfl
  | _ => trivial

namespace Cluster

variable {n m : Nat} {config : Config} {cluster next : Cluster n m}

/-- An upload that begins fits what it finds. -/
structure UploadFits (cluster : Cluster n m) (id : UUID) (output : Directory) : Prop where
  overwrites : ∀ key ∈ cluster.stores.objects.keys, (checkpointPrefix id).toList <+: key.toList →
    ∃ file ∈ output.files, key = checkpointKey id file.1
  agrees : ∀ other, ∀ upload ∈ (cluster.workers other).pc.upload, upload.1 = id →
    upload.2.1 = output
  repeats : (∃ other, ∃ completion ∈ (cluster.workers other).pc.completes, completion.1 = id) ∨
      cluster.stores.HasStatus id .completed →
    ∀ file ∈ output.files,
      cluster.stores.objects.lookup (checkpointKey id file.1) = some file.2

instance (cluster : Cluster n m) (id : UUID) (output : Directory) :
    Decidable (cluster.UploadFits id output) :=
  decidable_of_iff ((∀ key ∈ cluster.stores.objects.keys,
      (checkpointPrefix id).toList <+: key.toList →
        ∃ file ∈ output.files, key = checkpointKey id file.1) ∧
      (∀ other, ∀ upload ∈ (cluster.workers other).pc.upload, upload.1 = id →
        upload.2.1 = output) ∧
      ((∃ other, ∃ completion ∈ (cluster.workers other).pc.completes, completion.1 = id) ∨
          cluster.stores.HasStatus id .completed →
        ∀ file ∈ output.files,
          cluster.stores.objects.lookup (checkpointKey id file.1) = some file.2))
    ⟨fun ⟨overwrites, agrees, repeats⟩ => ⟨overwrites, agrees, repeats⟩,
      fun ⟨overwrites, agrees, repeats⟩ => ⟨overwrites, agrees, repeats⟩⟩

def UploadsFit (cluster : Cluster n m) : Action n m → Prop
  | .work worker choice => ∀ id ∈ (cluster.workers worker).pc.training,
      ∀ output ∈ choice.training.output, output.files ≠ [] → cluster.UploadFits id output
  | _ => True

instance (cluster : Cluster n m) (action : Action n m) : Decidable (UploadsFit cluster action) :=
  match action with
  | .work _ choice =>
      inferInstanceAs (Decidable (∀ id ∈ _, ∀ output ∈ choice.training.output, _ → _))
  | .tick _ | .setModels _ | .start _ | .crash _ | .arrive _ _ | .serve _ _ | .drop _ =>
      isTrue trivial

def pcs (cluster : Cluster n m) (worker : Fin n) : WorkerPc :=
  (cluster.workers worker).pc

theorem pcs_putWorker (cluster : Cluster n m) (worker : Fin n) (write : Write)
    (pc : WorkerPc) :
    (cluster.putWorker worker write pc).pcs = Function.update cluster.pcs worker pc := by
  funext other
  by_cases same : other = worker
  · subst same
    simp [pcs]
  · simp [pcs, putWorker_of_ne same, same]

/-- A worker's call keeps the seal, when an upload that begins fits. -/
theorem sealed_work (held : Sealed cluster.stores cluster.pcs) {worker : Fin n}
    {choice : Choice} {write : Write} {pc : WorkerPc}
    (stepped : UploadStep choice (cluster.pcs worker) write pc)
    (fits : UploadsFit cluster (.work worker choice)) :
    Sealed (cluster.stores.write write) (Function.update cluster.pcs worker pc) := by
  cases stepped with
  | other leaves upload completes => exact (held.leaves leaves).move_idle upload completes
  | complete completing upload completes =>
      exact (held.markCompleted completing _).move_idle upload completes
  | @begin id output _ training finished upload completes =>
      have after := held.trained id output
      rcases upload with none_ | ⟨nonempty, begins⟩
      · exact after.move_idle none_ completes
      · obtain ⟨overwrites, agrees, repeats⟩ := fits id training output finished nonempty
        refine after.move (.inr completes) (fun own output' todo at_ => ?_)
          (fun own path at_ => by rw [completes] at at_; cases at_)
        rw [begins] at at_
        cases at_
        refine ⟨⟨?_, List.Subset.refl _, overwrites, fun file member => .inl member⟩, ?_, ?_⟩
        · simp [SharedStores.write]
        · intro other output' todo' at_
          exact agrees other _ at_ rfl
        · rintro (⟨other, path, at_⟩ | completed)
          · exact ⟨overwrites, repeats (.inl ⟨other, _, at_, rfl⟩)⟩
          · exact ⟨overwrites, repeats (.inr completed)⟩
  | @file id output file todo _ uploading upload completes =>
      have after := held.uploadFile uploading
      rcases upload with none_ | goes
      · exact after.move_idle none_ completes
      · refine after.move (.inr completes) (fun own output' todo' at_ => ?_)
          (fun own path at_ => by rw [completes] at at_; cases at_)
        rw [goes] at at_
        cases at_
        obtain ⟨recorded, remaining, only, stored⟩ := after.uploads worker id output _ uploading
        refine ⟨⟨recorded, fun other member => remaining (List.mem_cons_of_mem _ member), only,
          fun other member => ?_⟩, ?_, after.repeats worker id output _ uploading⟩
        · rcases stored other member with left | done
          · rcases List.mem_cons.mp left with rfl | later
            · exact .inr (AList.lookup_insert _)
            · exact .inl later
          · exact .inr done
        · intro other output' todo' at_
          exact after.agree other worker id output' output _ _ at_ uploading
  | @finish id output _ uploading upload completes =>
      refine held.move (.inl upload)
        (fun own output' todo' at_ => by rw [upload] at at_; cases at_)
        (fun own path at_ => ?_)
      rw [completes] at at_
      cases at_
      have mine := held.uploads worker id output [] uploading
      exact ⟨rfl, output, mine.trained, mine.holdsFiles, fun other output' todo' at_ =>
        held.agree other worker id output' output _ _ at_ uploading⟩

theorem sealed_step {action : Action n m} (held : Sealed cluster.stores cluster.pcs)
    (fits : UploadsFit cluster action) (moved : step config cluster action = some next) :
    Sealed next.stores next.pcs := by
  have idle : ∀ (worker : Fin n) (pc : WorkerPc), pc.upload = none → pc.completes = none →
      Sealed (cluster.putWorker worker .nothing pc).stores
        (cluster.putWorker worker .nothing pc).pcs := by
    intro worker pc upload completes
    rw [pcs_putWorker]
    exact held.move_idle upload completes
  cases action with
  | work worker choice =>
      obtain ⟨_, write, pc, stepped, rfl⟩ := step_work moved
      rw [pcs_putWorker]
      exact sealed_work held (WorkerPc.uploadStep_step stepped) fits
  | serve request choice =>
      obtain ⟨_, write, pc, stepped, rfl⟩ := step_serve moved
      rcases RequestPc.step_write stepped with rfl | rfl
      · exact held
      · exact held.leaves (RequestPc.leaves_call choice _)
  | start worker => obtain ⟨_, rfl⟩ := step_start moved; exact idle worker _ rfl rfl
  | crash worker => cases moved; exact idle worker _ rfl rfl
  | arrive request call => obtain rfl := step_arrive moved; exact held
  | tick duration =>
      cases moved
      exact held.of_same rfl rfl fun _ _ found _ => found
  | setModels models =>
      cases moved
      exact held.of_same rfl rfl fun _ _ found _ => found
  | drop request => cases moved; exact held

theorem sealed_initial (clock : Time) (models : List ModelRow) :
    Sealed (initial clock models : Cluster n m).stores
      (initial clock models : Cluster n m).pcs where
  uploads _ _ _ _ at_ := by cases at_
  agree _ _ _ _ _ _ _ at_ := by cases at_
  paths _ _ _ at_ := by cases at_
  rows _ _ found := by cases found
  done _ finished := by
    rcases finished with ⟨_, _, at_⟩ | ⟨_, found, _⟩
    · cases at_
    · cases found
  repeats _ _ _ _ at_ := by cases at_

/-- While every upload that begins fits what it finds, a completed job names a
path under which there are exactly the files of one of its training runs. -/
theorem checkpoints_intact {clock : Time} {models : List ModelRow}
    (run : Runs (step config) UploadsFit (initial clock models) cluster) (id : UUID) :
    cluster.stores.Intact id := by
  have held := runs_invariant
    (fun state : Cluster n m => Sealed state.stores state.pcs)
    (fun _ _ _ held fits moved => sealed_step held fits moved) (sealed_initial clock models) run
  exact held.intact id

def twoFiles : Directory :=
  ⟨[("checkpoint-1.bin", [1]), ("checkpoint-2.bin", [2])], by decide⟩

/-- A worker executes job seven and dies after the first of two files; a
later attempt leaves the same two files, and the job is completed. -/
def repeatedUpload (worker : Fin n) (request : Fin m) : List (Action n m) :=
  createSeven request ++ .start worker :: calls worker 0 7 ++ calls worker 0 6 ++
    [.work worker { callAt 0 with training := .finish twoFiles }] ++ calls worker 0 1 ++
    [.crash worker, .tick 30000000, .start worker,
      .work worker { callAt 30 with order := [jobSeven] }] ++
    calls worker 30 9 ++ trains worker 30 twoFiles ++ calls worker 30 1

theorem checkpoints_intact_repeatedUpload :
    ∃ cluster : Cluster 1 1, cluster.stores.HasStatus jobSeven .completed ∧
      cluster.stores.Intact jobSeven := by
  have replays : (replay (step shortConfig) UploadsFit (initial 0 sevenModels)
      (repeatedUpload (0 : Fin 1) (0 : Fin 1))).any (fun cluster =>
        decide (cluster.stores.HasStatus jobSeven .completed)) = true := by
    decide +kernel
  obtain ⟨cluster, run, completed⟩ := exists_runs_of_replay replays
  exact ⟨cluster, of_decide_eq_true completed, checkpoints_intact run jobSeven⟩

/-- The same, but the later attempt leaves one file under another name. -/
def mixedUpload (worker : Fin n) (request : Fin m) : List (Action n m) :=
  createSeven request ++ .start worker :: calls worker 0 7 ++ calls worker 0 6 ++
    [.work worker { callAt 0 with training := .finish twoFiles }] ++ calls worker 0 1 ++
    [.crash worker, .tick 30000000, .start worker,
      .work worker { callAt 30 with order := [jobSeven] }] ++
    calls worker 30 9 ++ trains worker 30 sevenOutput ++ calls worker 30 1

/-- Job seven is completed with a leftover of its first attempt among the
objects of its checkpoint. -/
theorem checkpoint_mixed :
    ∃ cluster : Cluster 1 1,
      Runs (step shortConfig) Any (initial 0 sevenModels) cluster ∧
        cluster.stores.HasStatus jobSeven .completed ∧ ¬ cluster.stores.Intact jobSeven := by
  have replays : (replay (step shortConfig) Any (initial 0 sevenModels)
      (mixedUpload (0 : Fin 1) (0 : Fin 1))).any
      (fun cluster => decide (cluster.stores.HasStatus jobSeven .completed ∧
        ¬ cluster.stores.Intact jobSeven)) = true := by
    decide +kernel
  obtain ⟨cluster, run, reached⟩ := exists_runs_of_replay replays
  obtain ⟨completed, mixed⟩ := of_decide_eq_true reached
  exact ⟨cluster, run, completed, mixed⟩

end Cluster

end Crucible
