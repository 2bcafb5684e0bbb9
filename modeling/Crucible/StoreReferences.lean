import Crucible.CheckpointIntegrity
import Crucible.CrashWindows
import Crucible.StatusOverlay

/-!
# References between the stores

Redis and Garage know nothing of the `jobs` table, and no transaction spans two
of the stores.  Still, in every reachable state whatever they hold belongs to a
row: the entries of both lists, the status hashes, and the objects, each of
which is a file that a training run of its job has left.
-/

namespace Crucible

open LabelledRuns

/-! ## What the stores hold -/

/-- A hash is in whole seconds of the past, and one with an outcome expires
within a day. -/
structure StatusHash.Dated (clock : Time) (hash : StatusHash) : Prop where
  whole : hash.updatedAt % seconds 1 = 0
  past : hash.updatedAt ≤ clock
  expires : hash.status.terminal = true →
    ∃ expiry, hash.expiresAt = some expiry ∧ expiry ≤ clock + seconds terminalTtlSeconds

namespace SharedStores

/-- An object is a file of an output directory that a training run of its job
has left. -/
def Produced (stores : SharedStores) (key : String) (content : Bytes) : Prop :=
  ∃ id, ∃ output ∈ stores.outputs id, ∃ file ∈ output.files,
    (∃ row, stores.jobs.lookup id = some row) ∧ key = checkpointKey id file.1 ∧
      content = file.2

/-- Whatever Redis and Garage hold belongs to a row. -/
structure References (stores : SharedStores) : Prop where
  entries : ∀ entry, entry ∈ stores.queue ∨ entry ∈ stores.processing → stores.Known entry
  hashes : ∀ id hash, stores.statuses id = some hash →
    (∃ row, stores.jobs.lookup id = some row) ∧ hash.Dated stores.clock
  objects : ∀ key content, stores.objects.lookup key = some content →
    stores.Produced key content

/-- A write whose new contents belong to rows. -/
def Refers (stores : SharedStores) : Write → Prop
  | .enqueue id => ∃ row, stores.jobs.lookup id = some row
  | .requeue rawJobId => stores.Known rawJobId
  | .publish now id status terminal =>
      (∃ row, stores.jobs.lookup id = some row) ∧ now ≤ stores.clock ∧
        (status.terminal = true → terminal = true)
  | .uploadFile key content => stores.Produced key content
  | _ => True

variable {stores : SharedStores} {write : Write}

theorem Produced.grow {stores' : SharedStores} {key : String} {content : Bytes}
    (produced : stores.Produced key content)
    (rows : ∀ id, (∃ row, stores.jobs.lookup id = some row) →
      ∃ row, stores'.jobs.lookup id = some row)
    (outputs : ∀ id, stores.outputs id ⊆ stores'.outputs id) :
    stores'.Produced key content := by
  obtain ⟨id, output, trained, file, member, row, same⟩ := produced
  exact ⟨id, output, outputs id trained, file, member, rows id row, same⟩

theorem outputs_write (id : UUID) : stores.outputs id ⊆ (stores.write write).outputs id := by
  intro output trained
  cases write with
  | trained own left =>
      simp only [SharedStores.write, Function.update_apply]
      split
      case isTrue same => exact List.mem_cons_of_mem left (same ▸ trained)
      case isFalse => exact trained
  | claim =>
      simp only [SharedStores.write]
      split <;> exact trained
  | _ => exact trained

theorem hash_write {id : UUID} {hash : StatusHash}
    (found : (stores.write write).statuses id = some hash) :
    stores.statuses id = some hash ∨
      ∃ now terminal, write = .publish now id hash.status terminal ∧
        hash.updatedAt = nowRfc3339 now ∧
        (terminal = true →
          hash.expiresAt = some (stores.clock + seconds terminalTtlSeconds)) := by
  cases write with
  | publish now other status terminal =>
      simp only [SharedStores.write, publish, Function.update_apply] at found
      split at found
      case isTrue same =>
        cases found
        exact .inr ⟨now, terminal, by rw [same], rfl, fun final => if_pos final⟩
      case isFalse => exact .inl found
  | claim =>
      simp only [SharedStores.write] at found
      split at found <;> exact .inl found
  | _ => exact .inl found

theorem object_write {key : String} {content : Bytes}
    (found : (stores.write write).objects.lookup key = some content) :
    stores.objects.lookup key = some content ∨ write = .uploadFile key content := by
  cases write with
  | uploadFile other uploaded =>
      rw [SharedStores.write, KeyedTable.lookup_insert] at found
      split at found
      case isTrue same =>
        cases found
        exact .inr (by rw [same])
      case isFalse => exact .inl found
  | claim =>
      simp only [SharedStores.write] at found
      split at found <;> exact .inl found
  | _ => exact .inl found

theorem nowRfc3339_le (now : Time) : nowRfc3339 now ≤ now :=
  Int.ediv_mul_le now (by decide)

theorem nowRfc3339_whole (now : Time) : nowRfc3339 now % seconds 1 = 0 :=
  Int.mul_emod_left _ _

theorem references_write (held : stores.References) (possible : stores.Possible write)
    (refers : stores.Refers write) : (stores.write write).References := by
  have rows : ∀ id, (∃ row, stores.jobs.lookup id = some row) →
      ∃ row, (stores.write write).jobs.lookup id = some row := by
    rintro id ⟨row, found⟩
    obtain ⟨row', found', _⟩ := (write_tableStep possible).rowChange found
    exact ⟨row', found'⟩
  have known {entry : String} : stores.Known entry → (stores.write write).Known entry :=
    fun ⟨id, same, row⟩ => ⟨id, same, rows id row⟩
  refine ⟨fun entry member => ?_, fun id hash found => ?_, fun key content found => ?_⟩
  · rcases entries_write member with old | ⟨id, rfl, rfl⟩ | rfl
    · exact known (held.entries entry old)
    · exact known ⟨id, rfl, refers⟩
    · exact known refers
  · rw [write_clock]
    rcases hash_write found with old | ⟨now, terminal, rfl, updated, expires⟩
    · obtain ⟨row, dated⟩ := held.hashes id hash old
      exact ⟨rows id row, dated⟩
    · obtain ⟨row, past, final⟩ := refers
      refine ⟨rows id row, ?_, ?_, fun outcome => ⟨_, expires (final outcome), le_rfl⟩⟩
      · rw [updated]
        exact nowRfc3339_whole now
      · rw [updated]
        exact (nowRfc3339_le now).trans past
  · rcases object_write found with old | rfl
    · exact (held.objects key content old).grow rows outputs_write
    · exact Produced.grow refers rows outputs_write

end SharedStores

/-! ## What workers name -/

/-- A worker has a job in its hands or on its pass's list. -/
def WorkerPc.Names (id : UUID) : WorkerPc → Prop
  | .reconciling pc => id ∈ pc.ids
  | .processing _ rawJobId _ _ => rawJobId = id.str
  | _ => False

namespace WorkerPc

variable {config : Config} {stores : SharedStores} {choice : Choice} {pc pc' : WorkerPc}
  {write : Write} {id : UUID}

/-- A worker names what it named before, or claims or lists it now. -/
theorem names_step (stepped : pc.step config stores choice = some (write, pc'))
    (names : pc'.Names id) :
    pc.Names id ∨ id.str ∈ stores.queue ∨ ∃ row, stores.jobs.lookup id = some row := by
  cases pc with
  | reconciling pc =>
      obtain ⟨next, inner, rfl⟩ := step_reconciling stepped
      cases next with
      | goto pc' => exact (ReconcilerPc.ids_step inner names).imp_right .inr
      | returned result => exact names.elim
      | raised message => exact names.elim
  | claiming lastReconcile =>
      simp only [step] at stepped
      split at stepped
      case h_1 =>
        rcases attempt_eq (Option.some.inj stepped) with
          ⟨_, _, rfl⟩ | ⟨_, _, rfl⟩ | ⟨_, _, rfl⟩ <;> exact names.elim
      case h_2 rawJobId last =>
        rcases attempt_eq (Option.some.inj stepped) with
          ⟨_, _, same⟩ | ⟨_, _, same⟩ | ⟨_, _, same⟩ <;> rw [same] at names
        · cases names
          exact .inr (.inl (List.mem_of_getLast? last))
        · exact names.elim
        · exact names.elim
  | processing lastReconcile rawJobId marked pc =>
      obtain ⟨next, _, rfl⟩ := step_processing stepped
      cases next with
      | goto pc' => exact .inl names
      | returned result => exact names.elim
      | raised message => exact names.elim
  | checking lastReconcile =>
      simp only [step] at stepped
      split at stepped <;> cases stepped
      · cases names
      · exact names.elim
  | dead => cases stepped

theorem names_of_call_publish {now : Time} {status : JobStatus} {terminal : Bool}
    (named : pc.Named) (made : pc.call choice = .publish now id status terminal) :
    pc.Names id ∧ now = choice.now ∧ (status.terminal = true → terminal = true) := by
  cases pc with
  | reconciling pc =>
      cases pc <;> cases made
      exact ⟨List.mem_cons_self, rfl, fun final => by cases final⟩
  | processing lastReconcile rawJobId marked pc =>
      obtain ⟨own, parsed, about⟩ := named
      have mine (same : pc.jobId = some id) : rawJobId = id.str := by
        rw [parsed, about id same]
      cases pc with
      | publishRunning job | publishCompleted job | publishFailed target =>
          cases made
          exact ⟨mine rfl, rfl, by simp [JobStatus.terminal]⟩
      | executing job model pc =>
          cases pc with
          | publishHeartbeat site =>
              cases made
              exact ⟨mine rfl, rfl, fun final => by cases final⟩
          | train =>
              simp only [call, ProcessorPc.call, ExecutorPc.call] at made
              split at made <;> cases made
          | upload output todo => cases todo <;> cases made
          | _ => cases made
      | _ => cases made
  | _ => cases made

theorem upload_of_call {key : String} {content : Bytes}
    (stepped : pc.step config stores choice = some (.uploadFile key content, pc')) :
    ∃ id output file todo, pc.upload = some (id, output, file :: todo) ∧
      key = checkpointKey id file.1 ∧ content = file.2 := by
  cases uploadStep_step stepped with
  | other leaves => exact leaves.elim
  | file uploading => exact ⟨_, _, _, _, uploading, rfl, rfl⟩

theorem names_of_upload {output : Directory} {todo : List (String × Bytes)} (named : pc.Named)
    (uploading : pc.upload = some (id, output, todo)) : pc.Names id := by
  unfold upload at uploading
  split at uploading
  case h_1 lastReconcile rawJobId marked job model left remaining =>
    cases uploading
    obtain ⟨own, parsed, about⟩ := named
    exact parsed.trans (congrArg UUID.str (about job.id rfl)).symm
  case h_2 => cases uploading

/-- The upload that a worker is in is of an output that its trainer has left. -/
def UploadsOutput (stores : SharedStores) (pc : WorkerPc) : Prop :=
  ∀ id output todo, pc.upload = some (id, output, todo) →
    output ∈ stores.outputs id ∧ todo ⊆ output.files

theorem uploadsOutput_step (held : pc.UploadsOutput stores)
    (stepped : pc.step config stores choice = some (write, pc')) :
    pc'.UploadsOutput (stores.write write) := by
  intro id output todo uploading
  cases uploadStep_step stepped with
  | other leaves upload | finish _ upload | complete _ upload => simp [upload] at uploading
  | begin training finished upload =>
      rcases upload with none | ⟨_, some⟩
      · simp [none] at uploading
      · rw [some] at uploading
        cases uploading
        exact ⟨by simp [SharedStores.write], List.Subset.refl _⟩
  | @file own left file rest pc' before upload =>
      rcases upload with none | some
      · simp [none] at uploading
      · rw [some] at uploading
        cases uploading
        obtain ⟨trained, remaining⟩ := held _ _ _ before
        exact ⟨trained, fun _ member => remaining (List.mem_cons_of_mem _ member)⟩

end WorkerPc

/-! ## All runs -/

namespace Cluster

variable {n m : Nat} {config : Config} {cluster next : Cluster n m}

/-- The invariant: all references are to rows, also those in the hands of
workers and requests. -/
structure Referenced (cluster : Cluster n m) : Prop where
  stores : cluster.stores.References
  named : Named cluster
  workers : ∀ worker id, (cluster.workers worker).pc.Names id →
    ∃ row, cluster.stores.jobs.lookup id = some row
  uploads : ∀ worker, (cluster.workers worker).pc.UploadsOutput cluster.stores
  inserted : ∀ request, Inserted cluster.stores (cluster.requests request).pc

theorem referenced_initial (clock : Time) (models : List ModelRow) :
    Referenced (initial clock models : Cluster n m) where
  stores := by
    refine ⟨fun entry member => ?_, fun _ _ => nofun, fun _ _ => nofun⟩
    rcases member with member | member <;> cases member
  named := named_initial clock models
  workers _ _ := False.elim
  uploads _ _ _ _ := nofun
  inserted _ _ := nofun

/-- Workers write nothing but what belongs to rows. -/
theorem Referenced.refers_work (held : Referenced cluster) {worker : Fin n} {choice : Choice}
    {write : Write} {pc : WorkerPc} (past : choice.now ≤ cluster.stores.clock)
    (stepped : (cluster.workers worker).pc.step config cluster.stores choice =
      some (write, pc)) : cluster.stores.Refers write := by
  have named := held.named.held worker
  cases write with
  | enqueue id =>
      rcases WorkerPc.step_write stepped with made | made
      · cases made
      · exact (WorkerPc.call_ne_enqueue made.symm).elim
  | requeue rawJobId =>
      rcases WorkerPc.step_write stepped with made | made
      · cases made
      · obtain ⟨id, rfl⟩ := WorkerPc.call_requeue made.symm
        have listed := WorkerPc.mem_ids_of_call_requeue made.symm
        refine ⟨id, rfl, held.workers worker id ?_⟩
        cases at_ : (cluster.workers worker).pc <;> rw [at_] at listed
        case reconciling => exact listed
        all_goals cases listed
  | publish now id status terminal =>
      rcases WorkerPc.step_write stepped with made | made
      · cases made
      · obtain ⟨names, rfl, expires⟩ := WorkerPc.names_of_call_publish named made.symm
        exact ⟨held.workers worker id names, past, expires⟩
  | uploadFile key content =>
      obtain ⟨id, output, file, todo, uploading, rfl, rfl⟩ := WorkerPc.upload_of_call stepped
      obtain ⟨trained, remaining⟩ := held.uploads worker id output _ uploading
      exact ⟨id, output, trained, file, remaining List.mem_cons_self,
        held.workers worker id (WorkerPc.names_of_upload named uploading), rfl, rfl⟩
  | _ => trivial

theorem Referenced.refers_serve (held : Referenced cluster) {request : Fin m}
    {choice : Choice} {write : Write} {pc : RequestPc}
    (stepped : (cluster.requests request).pc.step cluster.stores choice = some (write, pc)) :
    cluster.stores.Refers write := by
  have inserted := held.inserted request
  rcases RequestPc.step_write stepped with rfl | rfl
  · trivial
  · cases at_ : (cluster.requests request).pc with
    | enqueue job =>
        rw [at_] at inserted
        exact inserted job.id rfl
    | _ => trivial

theorem references_step {action : Action n m} (held : Referenced cluster)
    (moved : step config cluster action = some next) : next.stores.References := by
  cases action with
  | work worker choice =>
      obtain ⟨current, write, pc, stepped, rfl⟩ := step_work moved
      exact SharedStores.references_write held.stores (WorkerPc.step_possible current.2 stepped)
        (held.refers_work current.2 stepped)
  | serve request choice =>
      obtain ⟨current, write, pc, stepped, rfl⟩ := step_serve moved
      exact SharedStores.references_write held.stores (RequestPc.step_possible current.2 stepped)
        (held.refers_serve stepped)
  | tick duration =>
      cases moved
      refine ⟨held.stores.entries, fun id hash found => ?_, held.stores.objects⟩
      obtain ⟨row, dated⟩ := held.stores.hashes id hash found
      have later : cluster.stores.clock ≤ cluster.stores.clock + duration :=
        Int.le_add_of_nonneg_right (Int.natCast_nonneg _)
      refine ⟨row, dated.whole, dated.past.trans later, fun final => ?_⟩
      obtain ⟨expiry, expires, soon⟩ := dated.expires final
      exact ⟨expiry, expires, soon.trans (Int.add_le_add_right later _)⟩
  | setModels models =>
      cases moved
      exact ⟨held.stores.entries, held.stores.hashes, held.stores.objects⟩
  | start worker => obtain ⟨_, rfl⟩ := step_start moved; exact held.stores
  | arrive request call => obtain rfl := step_arrive moved; exact held.stores
  | crash worker | drop request => cases moved; exact held.stores

theorem outputs_step {action : Action n m} (moved : step config cluster action = some next)
    (id : UUID) : cluster.stores.outputs id ⊆ next.stores.outputs id := by
  cases action with
  | work worker choice =>
      obtain ⟨_, write, pc, _, rfl⟩ := step_work moved
      exact SharedStores.outputs_write id
  | serve request choice =>
      obtain ⟨_, write, pc, _, rfl⟩ := step_serve moved
      exact SharedStores.outputs_write id
  | start worker => obtain ⟨_, rfl⟩ := step_start moved; exact List.Subset.refl _
  | arrive request call => obtain rfl := step_arrive moved; exact List.Subset.refl _
  | tick duration | setModels models | crash worker | drop request =>
      cases moved
      exact List.Subset.refl _

theorem referenced_step {action : Action n m} (held : Referenced cluster)
    (moved : step config cluster action = some next) : Referenced next where
  stores := references_step held moved
  named := step_named held.named moved
  workers := by
    refine step_workers
      (fun stores pc => ∀ id, pc.Names id → ∃ row, stores.jobs.lookup id = some row) moved
      held.workers (fun worker old id names => found_step moved (old id names))
      (fun _ => False.elim) (fun _ names => by cases names) ?_
    intro worker choice write pc' _ _ stepped _ id names
    refine found_step moved ?_
    rcases WorkerPc.names_step stepped names with old | queued | found
    · exact held.workers worker id old
    · obtain ⟨own, same, row⟩ := held.stores.entries _ (.inl queued)
      exact UUID.str_injective same ▸ row
    · exact found
  uploads := by
    refine step_workers (fun stores pc => pc.UploadsOutput stores) moved held.uploads ?_
      (fun _ _ _ => nofun) (fun _ _ _ => nofun) ?_
    · intro worker old id output todo uploading
      exact (old id output todo uploading).imp_left fun trained => outputs_step moved id trained
    · intro worker choice write pc' _ _ stepped stores
      rw [stores]
      exact WorkerPc.uploadsOutput_step (held.uploads worker) stepped
  inserted := inserted_step held.inserted moved

/-- In every reachable state all entries of the lists, all status hashes and all
objects belong to rows; hashes are dated and outcomes expire; and every object
is a file that a training run of its job has left. -/
theorem references_kept {clock : Time} {models : List ModelRow}
    (run : Runs (step config) Any (initial clock models) cluster) : cluster.stores.References :=
  (runs_invariant Referenced (fun _ _ _ held _ moved => referenced_step held moved)
    (referenced_initial clock models) run).stores

/-- A worker has died and left a hash and an entry in `jobs:processing`. -/
theorem references_kept_diedExecuting :
    ∃ cluster : Cluster 1 1, cluster.stores.References ∧
      jobSeven.str ∈ cluster.stores.processing ∧ cluster.stores.statuses jobSeven ≠ none := by
  have replays : (replay (step shortConfig) Any (initial 0 sevenModels)
      (diedExecuting (0 : Fin 1) (0 : Fin 1))).any (fun cluster =>
        decide (jobSeven.str ∈ cluster.stores.processing) &&
          (cluster.stores.statuses jobSeven).isSome) = true := by
    decide +kernel
  obtain ⟨cluster, run, reached⟩ := exists_runs_of_replay replays
  obtain ⟨listed, hash⟩ := Bool.and_eq_true_iff.mp reached
  exact ⟨cluster, references_kept run, of_decide_eq_true listed,
    Option.isSome_iff_ne_none.mp hash⟩

end Cluster

end Crucible
