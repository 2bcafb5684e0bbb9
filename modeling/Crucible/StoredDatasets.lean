import Crucible.DatasetObjects
import Crucible.SignedRows

/-!
# Ready datasets are stored

Runs of `register_dataset` upload their files one by one while other runs do the
same, and a run may fail or be killed at any point.  At any moment everything
that a ready row stands for is in the bucket, so that the worker downloads it as
it was.
-/

namespace Crucible

/-! ## Registry and bucket -/

/-- The registry and the bucket, with what the runs were started on and the
objects that they still have to upload. -/
structure DatasetPlatform (n : Nat) where
  registry : DatasetRegistry n
  bucket : Bucket
  submissions : Fin n → Option Submission
  pending : Fin n → List (String × Bytes)

namespace DatasetPlatform

open LabelledRuns DatasetRegistry

variable {n : Nat}

inductive Action (n : Nat) where
  | start (run : Fin n) (submission : Submission)
  | statement (run : Fin n)
  | upload (run : Fin n) (fault : Fault)
  | verify (run : Fin n) (fault : Fault)
  | abort (run : Fin n)

def register (platform : DatasetPlatform n) (action : DatasetRegistry.Action n) :
    Option (DatasetPlatform n) :=
  (platform.registry.step action).map fun registry => { platform with registry := registry }

def store (platform : DatasetPlatform n) (object : String × Bytes) : DatasetPlatform n :=
  { platform with bucket := AList.insert object.1 object.2 platform.bucket }

/-- Whether the check at the end of `upload_dataset` finds all keys of a run. -/
def found (sha256 : Bytes → String) (platform : DatasetPlatform n) (run : Fin n) : Bool :=
  (platform.submissions run).all fun submission =>
    (submission.objects sha256).all fun object => object.1 ∈ platform.bucket

/-- One step: an exception inside `upload_dataset` leads to the deletion of the
reserved row. -/
def step (sha256 : Bytes → String) (platform : DatasetPlatform n) :
    Action n → Option (DatasetPlatform n)
  | .start run submission =>
      (platform.registry.step (.start run (submission.registration sha256))).map fun registry =>
        { platform with
          registry := registry
          submissions := Function.update platform.submissions run (some submission)
          pending := Function.update platform.pending run (submission.objects sha256) }
  | .statement run => platform.register (.statement run)
  | .upload run fault =>
      match platform.pending run with
      | [] => none
      | object :: rest =>
          match fault with
          | .none =>
              match platform.registry.runs run with
              | .uploading _ _ => some { platform.store object with
                  pending := Function.update platform.pending run rest }
              | _ => none
          | .before => platform.register (.uploadFailed run)
          | .after => (platform.store object).register (.uploadFailed run)
  | .verify run fault =>
      match platform.pending run with
      | [] =>
          if fault = .none ∧ platform.found sha256 run then
            platform.register (.uploaded run)
          else
            platform.register (.uploadFailed run)
      | _ :: _ => none
  | .abort run => platform.register (.abort run)

def initial (table : Nat → Option DatasetRow) (nextId : Nat) (bucket : Bucket) :
    DatasetPlatform n where
  registry := .initial table nextId
  bucket := bucket
  submissions := fun _ => none
  pending := fun _ => []

def Submits (submissions : Set Submission) (_ : DatasetPlatform n) : Action n → Prop
  | .start _ submission => submission ∈ submissions
  | _ => True

/-- A ready row of a submission whose objects are all in a bucket. -/
def Backed (sha256 : Bytes → String) (submissions : Set Submission) (bucket : Bucket)
    (row : DatasetRow) : Prop :=
  ∃ submission ∈ submissions,
    row = { (submission.registration sha256).row with status := .ready } ∧
      bucket.Complete sha256 submission

section Invariant

variable {sha256 : Bytes → String} {submissions : Set Submission} {prior : DatasetRow → Prop}
  {platform next : DatasetPlatform n} {run : Fin n}

def signs (sha256 : Bytes → String) (platform : DatasetPlatform n) (run : Fin n) :
    Option Registration :=
  (platform.submissions run).map fun submission => submission.registration sha256

def Done (platform : DatasetPlatform n) (run : Fin n) : Prop :=
  platform.submissions run ≠ none ∧ platform.pending run = []

structure Stocked (sha256 : Bytes → String) (submissions : Set Submission)
    (prior : DatasetRow → Prop) (platform : DatasetPlatform n) : Prop where
  registry : platform.registry.Signed prior (platform.signs sha256) platform.Done
  bucket : platform.bucket.Known sha256 submissions
  prior : ∀ row, prior row → Backed sha256 submissions platform.bucket row
  submitted : ∀ run submission, platform.submissions run = some submission →
    submission ∈ submissions ∧ (∀ object ∈ platform.pending run,
      object ∈ submission.objects sha256) ∧ ∀ object ∈ submission.objects sha256,
        object.1 ∈ platform.bucket ∨ object ∈ platform.pending run
  started : ∀ run, platform.submissions run ≠ none → platform.registry.runs run ≠ .idle

theorem Stocked.register (held : platform.Stocked sha256 submissions prior)
    {action : DatasetRegistry.Action n} (other : action.starts = false)
    (uploads : ∀ run, action = .uploaded run → platform.Done run)
    (moved : platform.register action = some next) : next.Stocked sha256 submissions prior := by
  obtain ⟨registry, stepped, rfl⟩ := Option.map_eq_some_iff.mp moved
  exact {
    registry := held.registry.step (fun run registration same => by rw [same] at other; cases other)
      uploads stepped
    bucket := held.bucket
    prior := held.prior
    submitted := held.submitted
    started := fun run submitted => step_ne_idle stepped (held.started run submitted) }

theorem Backed.grow {bucket bucket' : Bucket} {row : DatasetRow}
    (backed : Backed sha256 submissions bucket row) (grows : ∀ key ∈ bucket, key ∈ bucket') :
    Backed sha256 submissions bucket' row := by
  obtain ⟨submission, member, same, complete⟩ := backed
  exact ⟨submission, member, same, fun object listed => grows _ (complete object listed)⟩

theorem Stocked.store (held : platform.Stocked sha256 submissions prior)
    {object : String × Bytes} (pending : object ∈ platform.pending run)
    (submitted : platform.submissions run ≠ none) :
    (platform.store object).Stocked sha256 submissions prior := by
  have grows : ∀ key ∈ platform.bucket, key ∈ (platform.store object).bucket :=
    fun key stored => (AList.mem_insert _).mpr (.inr stored)
  obtain ⟨submission, listed⟩ := Option.ne_none_iff_exists'.mp submitted
  obtain ⟨member, own, _⟩ := held.submitted run submission listed
  exact {
    registry := held.registry
    bucket := held.bucket.insert member (own object pending)
    prior := fun row before => (held.prior row before).grow grows
    submitted := fun other submission' listed' => by
      obtain ⟨member', own', stored⟩ := held.submitted other submission' listed'
      exact ⟨member', own', fun object' listed => (stored object' listed).imp_left (grows _)⟩
    started := held.started }

theorem Stocked.advance (held : platform.Stocked sha256 submissions prior)
    {object : String × Bytes} {rest : List (String × Bytes)}
    (pending : platform.pending run = object :: rest) (stored : object.1 ∈ platform.bucket) :
    Stocked sha256 submissions prior
      { platform with pending := Function.update platform.pending run rest } := by
  have apart {other : Fin n} (empty : platform.pending other = []) : other ≠ run := by
    rintro rfl
    rw [pending] at empty
    cases empty
  exact {
    registry := held.registry.mono (fun _ _ listed => listed) fun other done =>
      ⟨done.1, (Function.update_of_ne (apart done.2) ..).trans done.2⟩
    bucket := held.bucket
    prior := held.prior
    submitted := fun other submission listed => by
      obtain ⟨member, own, present⟩ := held.submitted other submission listed
      refine ⟨member, ?_⟩
      by_cases mine : other = run
      · subst mine
        simp only [Function.update_self]
        rw [pending] at own present
        refine ⟨fun object' left => own object' (List.mem_cons_of_mem _ left),
          fun object' all => ?_⟩
        rcases present object' all with there | left
        · exact .inl there
        · rcases List.mem_cons.mp left with rfl | later
          · exact .inl stored
          · exact .inr later
      · simp only [Function.update_of_ne mine]
        exact ⟨own, present⟩
    started := held.started }

theorem Stocked.start (held : platform.Stocked sha256 submissions prior)
    {submission : Submission} (member : submission ∈ submissions)
    (moved : step sha256 platform (.start run submission) = some next) :
    next.Stocked sha256 submissions prior := by
  obtain ⟨registry, stepped, rfl⟩ := Option.map_eq_some_iff.mp moved
  have idle : platform.registry.runs run = .idle := by
    simp only [DatasetRegistry.step] at stepped
    split at stepped
    case h_1 located => exact located
    case h_2 => cases stepped
  have unsubmitted : platform.submissions run = none := by
    by_contra submitted
    exact held.started run submitted idle
  have apart {other : Fin n} (submitted : platform.submissions other ≠ none) : other ≠ run := by
    rintro rfl
    exact submitted unsubmitted
  exact {
    registry := by
      refine (held.registry.mono (fun other registration listed => ?_) fun other done => ?_).step
        (fun other registration same => ?_) (fun other same => by cases same) stepped
      · have before : platform.submissions other ≠ none := by
          intro none
          simp [signs, none] at listed
        simpa [signs, Function.update_of_ne (apart before)] using listed
      · simp only [Done, Function.update_of_ne (apart done.1)]
        exact done
      · cases same
        simp [signs]
    bucket := held.bucket
    prior := held.prior
    submitted := fun other submission' listed => by
      by_cases mine : other = run
      · subst mine
        simp only [Function.update_self] at listed ⊢
        cases listed
        exact ⟨member, fun object own => own, fun object all => .inr all⟩
      · simp only [Function.update_of_ne mine] at listed ⊢
        exact held.submitted other submission' listed
    started := fun other submitted => by
      by_cases mine : other = run
      · subst mine
        have moved : registry.runs other = .selecting (submission.registration sha256) := by
          simp only [DatasetRegistry.step, idle] at stepped
          cases stepped
          exact Function.update_self ..
        rw [moved]
        simp
      · simp only [Function.update_of_ne mine] at submitted
        exact step_ne_idle stepped (held.started other submitted) }

theorem Stocked.step (held : platform.Stocked sha256 submissions prior) {action : Action n}
    (submits : Submits submissions platform action)
    (moved : DatasetPlatform.step sha256 platform action = some next) :
    next.Stocked sha256 submissions prior := by
  have submitted {mover : Fin n} {registration : Registration} {datasetId : Nat}
      (located : platform.registry.runs mover = .uploading registration datasetId) :
      platform.submissions mover ≠ none := by
    have listed := held.registry.signed mover registration (by rw [located]; rfl)
    intro none
    simp [signs, none] at listed
  have begun {mover : Fin n} {action : DatasetRegistry.Action n} {registry : DatasetRegistry n}
      (uploads : action = .uploaded mover ∨ action = .uploadFailed mover)
      (stepped : platform.registry.step action = some registry) :
      platform.submissions mover ≠ none := by
    have located : ∃ registration datasetId,
        platform.registry.runs mover = .uploading registration datasetId := by
      rcases uploads with rfl | rfl <;> simp only [DatasetRegistry.step] at stepped <;>
        split at stepped
      case h_1 registration datasetId located => exact ⟨registration, datasetId, located⟩
      case h_2 => cases stepped
      case h_1 registration datasetId located => exact ⟨registration, datasetId, located⟩
      case h_2 => cases stepped
    obtain ⟨registration, datasetId, located⟩ := located
    exact submitted located
  cases action with
  | start mover submission => exact held.start submits moved
  | statement mover => exact held.register rfl (fun _ same => by cases same) moved
  | abort mover => exact held.register rfl (fun _ same => by cases same) moved
  | verify mover fault =>
      simp only [DatasetPlatform.step] at moved
      split at moved
      case h_2 => cases moved
      case h_1 empty =>
        split at moved
        case isTrue =>
          refine held.register rfl (fun other same => ?_) moved
          cases same
          obtain ⟨registry, stepped, _⟩ := Option.map_eq_some_iff.mp moved
          exact ⟨begun (.inl rfl) stepped, empty⟩
        case isFalse => exact held.register rfl (fun _ same => by cases same) moved
  | upload mover fault =>
      simp only [DatasetPlatform.step] at moved
      split at moved
      case h_1 => cases moved
      case h_2 object rest pending =>
        have first : object ∈ platform.pending mover := pending ▸ List.mem_cons_self
        cases fault with
        | none =>
            simp only at moved
            split at moved <;> cases moved
            case h_1 registration datasetId located =>
              exact (held.store first (submitted located)).advance pending
                ((AList.mem_insert _).mpr (.inl rfl))
        | before => exact held.register rfl (fun _ same => by cases same) moved
        | after =>
            obtain ⟨registry, stepped, _⟩ := Option.map_eq_some_iff.mp moved
            exact (held.store first (begun (.inr rfl) stepped)).register rfl
              (fun _ same => by cases same) moved

theorem Stocked.backed (held : platform.Stocked sha256 submissions prior) {id : Nat}
    {row : DatasetRow} (stored : platform.registry.rows.committed id = some row)
    (ready : row.status = .ready) : Backed sha256 submissions platform.bucket row := by
  rcases held.registry.ready id row stored ready with before | ⟨run, registration, listed, done, same⟩
  · exact held.prior row before
  · obtain ⟨submission, submitted, rfl⟩ := Option.map_eq_some_iff.mp listed
    obtain ⟨member, _, present⟩ := held.submitted run submission submitted
    refine ⟨submission, member, same, fun object all => ?_⟩
    refine (present object all).resolve_right fun left => ?_
    rw [done.2] at left
    cases left

end Invariant

/-! ## All runs -/

section Runs

variable {sha256 : Bytes → String} {submissions : Set Submission}
  {table : Nat → Option DatasetRow} {nextId : Nat} {bucket : Bucket}
  {platform : DatasetPlatform n}

/-- The table and the bucket in which a group of runs may be started. -/
structure Sound (sha256 : Bytes → String) (submissions : Set Submission)
    (table : Nat → Option DatasetRow) (nextId : Nat) (bucket : Bucket) : Prop where
  issued : ∀ id, nextId ≤ id → table id = none
  known : bucket.Known sha256 submissions
  backed : ∀ id row, table id = some row → row.status = .ready →
    Backed sha256 submissions bucket row

theorem stocked_initial (sound : Sound sha256 submissions table nextId bucket) :
    (initial table nextId bucket : DatasetPlatform n).Stocked sha256 submissions
      (Backed sha256 submissions bucket) where
  registry := {
    bounded := fun id late => ⟨sound.issued id late, rfl⟩
    issued := nofun
    sole := nofun
    signed := nofun
    owned := nofun
    drafted := nofun
    ready := fun id row stored ready => .inl (sound.backed id row stored ready)
    finishing := nofun }
  bucket := sound.known
  prior := fun _ backed => backed
  submitted := nofun
  started := fun _ submitted => absurd rfl submitted

/-- Row and bucket hold a dataset: the row is that of a submission, all of whose
objects are stored, and the worker can download it. -/
def Available (sha256 : Bytes → String) (bucket : Bucket) (row : DatasetRow)
    (submission : Submission) : Prop :=
  row = { (submission.registration sha256).row with status := .ready } ∧
    (∀ object ∈ submission.objects sha256, bucket.lookup object.1 = some object.2) ∧
    (submission.path.Downloadable → ∀ client : GarageClient,
      client.Reads bucket row.storagePath → ∀ (disk : LocalDisk) (localDir : List (List Char)),
        disk.EmptyDir localDir →
          submission.path.Restored localDir (client.download row.storagePath localDir disk))

theorem Backed.available (hex : HexDigest sha256)
    (distinguished : Submission.Distinguished sha256 submissions)
    (known : bucket.Known sha256 submissions) {row : DatasetRow}
    (backed : Backed sha256 submissions bucket row) :
    ∃ submission ∈ submissions, Available sha256 bucket row submission := by
  obtain ⟨submission, member, rfl, complete⟩ := backed
  refine ⟨submission, member, rfl, fun object all => ?_, fun downloadable client reads disk
    localDir empty => ?_⟩
  · exact known.lookup_eq hex distinguished member all (complete object all)
  · exact known.restored hex distinguished member complete downloadable reads empty

theorem stocked_of_run (sound : Sound sha256 submissions table nextId bucket)
    (run : Runs (step sha256) (Submits submissions) (initial table nextId bucket) platform) :
    platform.Stocked sha256 submissions (Backed sha256 submissions bucket) :=
  runs_invariant (Stocked sha256 submissions (Backed sha256 submissions bucket))
    (fun _ _ _ held submits moved => held.step submits moved) (stocked_initial sound) run

/-- In every state that concurrent runs can reach, whatever has failed, every
ready row is that of a submission whose objects are all stored with their
contents, so that the worker's download of its storage path returns it. -/
theorem ready_datasets_stored (hex : HexDigest sha256)
    (distinguished : Submission.Distinguished sha256 submissions)
    (sound : Sound sha256 submissions table nextId bucket)
    (run : Runs (step sha256) (Submits submissions) (initial table nextId bucket) platform)
    {id : Nat} {row : DatasetRow} (stored : platform.registry.rows.committed id = some row)
    (ready : row.status = .ready) :
    ∃ submission ∈ submissions, Available sha256 platform.bucket row submission := by
  have held := stocked_of_run sound run
  exact (held.backed stored ready).available hex distinguished held.bucket

def nestedSubmission : Submission :=
  ⟨"demo", .directory nestedTree, none⟩

def nestedSubmissions : Set Submission :=
  {nestedSubmission}

def checkpointBucket : Bucket :=
  AList.insert "checkpoints/7/adapter.bin" [] ∅

theorem nestedSubmissions_distinguished :
    Submission.Distinguished nestedDigest nestedSubmissions where
  flat := by
    rintro _ rfl
    decide
  contents := by
    rintro _ rfl _ rfl _
    exact rfl

theorem checkpointBucket_sound :
    Sound nestedDigest nestedSubmissions (fun _ => none) 0 checkpointBucket where
  issued := fun _ _ => rfl
  known := by
    intro key content found below
    rw [checkpointBucket, KeyedTable.lookup_insert] at found
    split at found
    case isTrue same =>
      rw [same] at below
      exact absurd below (by decide)
    case isFalse => cases found
  backed := nofun

instance (platform : DatasetPlatform n) (action : Action n) :
    Decidable (Submits nestedSubmissions platform action) := by
  unfold Submits
  split
  · exact decidable_of_iff (_ = _) Set.mem_singleton_iff.symm
  · infer_instance

/-- The second run takes the row of the first for a stale one while the first is
uploading; the first fails, the second finishes. -/
def uploadedTwice (first second : Fin n) : List (Action n) :=
  [.start first nestedSubmission, .statement first, .statement first, .statement first,
    .upload first .none, .start second nestedSubmission, .statement second, .statement second,
    .statement second, .statement second, .upload second .none, .upload first .after,
    .upload second .none, .statement first, .statement first, .verify second .none,
    .statement second, .statement second]

/-- The row that the second run has made ready is downloaded as `nestedTree`. -/
theorem ready_datasets_stored_uploadedTwice :
    ∃ bucket : Bucket, LocalPath.Restored ["data".toList]
      ((bucket.client nestedPath).download nestedPath ["data".toList] bareDisk)
        (.directory nestedTree) := by
  have replays : (replay (step nestedDigest) (Submits nestedSubmissions)
      (initial (fun _ => none) 0 checkpointBucket) (uploadedTwice (0 : Fin 2) 1)).any (fun last =>
        (last.registry.rows.committed 1).any fun row =>
          row.status = .ready ∧ row.storagePath = nestedPath) = true := by
    decide +kernel
  obtain ⟨last, reached, shown⟩ := exists_runs_of_replay replays
  obtain ⟨row, stored, shape⟩ := (Option.any_eq_true _ _).mp shown
  obtain ⟨ready, path⟩ := of_decide_eq_true shape
  obtain ⟨_, rfl, _, _, restored⟩ := ready_datasets_stored nestedDigest_hex
    nestedSubmissions_distinguished checkpointBucket_sound reached stored ready
  rw [path] at restored
  have nonempty : nestedTree.files ≠ [] := by decide
  exact ⟨last.bucket, restored nonempty _ (last.bucket.client_reads nestedPath) bareDisk _
    bareDisk_emptyDir⟩

/-- Runs that are started on some submissions, and take no row for stale that
another run still works on. -/
def Careful (submissions : Set Submission) (platform : DatasetPlatform n) (action : Action n) :
    Prop :=
  Submits submissions platform action ∧
    match action with
    | .statement run => SelectsStale platform.registry (.statement run)
    | _ => True

/-- A step of the platform is one of its registry, or none. -/
theorem step_registry {next : DatasetPlatform n} {action : Action n}
    (careful : Careful submissions platform action)
    (moved : step sha256 platform action = some next) :
    next.registry = platform.registry ∨ ∃ action', SelectsStale platform.registry action' ∧
      platform.registry.step action' = some next.registry := by
  have registered {start : DatasetPlatform n} {action' : DatasetRegistry.Action n}
      (moved : start.register action' = some next) (same : start.registry = platform.registry)
      (allowed : SelectsStale platform.registry action') :
      ∃ action', SelectsStale platform.registry action' ∧
        platform.registry.step action' = some next.registry := by
    obtain ⟨registry, stepped, rfl⟩ := Option.map_eq_some_iff.mp moved
    exact ⟨action', allowed, same ▸ stepped⟩
  cases action with
  | start run submission =>
      obtain ⟨registry, stepped, rfl⟩ := Option.map_eq_some_iff.mp moved
      exact .inr ⟨.start run (submission.registration sha256), trivial, stepped⟩
  | statement run => exact .inr (registered moved rfl careful.2)
  | abort run => exact .inr (registered moved rfl trivial)
  | verify run fault =>
      simp only [step] at moved
      split at moved
      case h_2 => cases moved
      case h_1 =>
        split at moved
        case isTrue => exact .inr (registered moved rfl trivial)
        case isFalse => exact .inr (registered moved rfl trivial)
  | upload run fault =>
      simp only [step] at moved
      split at moved
      case h_1 => cases moved
      case h_2 object rest pending =>
        cases fault with
        | none =>
            simp only at moved
            split at moved <;> cases moved
            exact .inl rfl
        | before => exact .inr (registered moved rfl trivial)
        | after =>
            have registers : (platform.store object).register (.uploadFailed run) = some next :=
              moved
            exact .inr (registered registers rfl trivial)

def Kept (sha256 : Bytes → String) (submissions : Set Submission) (prior : DatasetRow → Prop)
    (platform : DatasetPlatform n) : Prop :=
  platform.Stocked sha256 submissions prior ∧ platform.registry.Orderly

theorem kept_step {prior : DatasetRow → Prop} {next : DatasetPlatform n} {action : Action n}
    (held : Kept sha256 submissions prior platform)
    (careful : Careful submissions platform action)
    (moved : step sha256 platform action = some next) : Kept sha256 submissions prior next := by
  refine ⟨held.1.step careful.1 moved, ?_⟩
  rcases step_registry careful moved with same | ⟨action', allowed, stepped⟩
  · rw [same]
    exact held.2
  · exact held.2.step allowed stepped

/-- If no run takes the row of another for a stale one, a printed identifier is
that of a dataset with the content that the run was given, and the worker can
download it at any later time. -/
theorem printed_datasets_available (hex : HexDigest sha256)
    (distinguished : Submission.Distinguished sha256 submissions)
    (sound : Sound sha256 submissions table nextId bucket)
    (reached : Runs (step sha256) (Careful submissions) (initial table nextId bucket) platform)
    {run : Fin n} {registration : Registration} {id : Nat}
    (handedOut : platform.registry.runs run = .printed registration id)
    {later : DatasetPlatform n}
    (continued : Runs (step sha256) (Careful submissions) platform later) :
    ∃ row, later.registry.rows.committed id = some row ∧ row.status = .ready ∧
      ∃ own ∈ submissions, registration = own.registration sha256 ∧
        ∃ submission ∈ submissions, Available sha256 later.bucket row submission ∧
          submission.name = own.name ∧ submission.path.SameContent own.path := by
  have starts : Kept sha256 submissions (Backed sha256 submissions bucket)
      (initial table nextId bucket : DatasetPlatform n) :=
    ⟨stocked_initial sound, orderly_initial sound.issued⟩
  obtain ⟨stocked, orderly⟩ := runs_invariant
    (Kept sha256 submissions (Backed sha256 submissions bucket))
    (fun _ _ _ held careful moved => kept_step held careful moved) starts
    (reached.trans continued)
  have stays : later.registry.runs run = .printed registration id :=
    runs_invariant (fun state => state.registry.runs run = .printed registration id)
      (fun _ _ _ printed careful moved => by
        rcases step_registry careful moved with same | ⟨action', _, stepped⟩
        · rw [same]
          exact printed
        · exact step_printed printed stepped) handedOut continued
  have here := orderly.located run
  rw [stays] at here
  obtain ⟨row, stored, name, version, ready⟩ := here
  have listed := stocked.registry.signed run registration (by rw [stays]; rfl)
  obtain ⟨own, submitted, rfl⟩ := Option.map_eq_some_iff.mp listed
  have member := (stocked.submitted run own submitted).1
  obtain ⟨submission, member', available⟩ :=
    (stocked.backed stored ready).available hex distinguished stocked.bucket
  obtain rfl := available.1
  exact ⟨_, stored, rfl, own, member, rfl, submission, member', available, name,
    distinguished.contents submission member' own member version⟩

instance (platform : DatasetPlatform n) (action : Action n) :
    Decidable (Careful nestedSubmissions platform action) := by
  unfold Careful
  split <;> infer_instance

/-- The second run starts when the first has printed its identifier. -/
def uploadedOnce (first second : Fin n) : List (Action n) :=
  [.start first nestedSubmission, .statement first, .statement first, .statement first,
    .upload first .none, .upload first .none, .verify first .none, .statement first,
    .statement first, .statement first, .start second nestedSubmission, .statement second,
    .statement second]

/-- The second run prints the identifier of a row that is downloaded as the
directory it was given. -/
theorem printed_datasets_available_uploadedOnce :
    ∃ bucket : Bucket, LocalPath.Restored ["data".toList]
      ((bucket.client nestedPath).download nestedPath ["data".toList] bareDisk)
        (.directory nestedTree) := by
  have replays : (replay (step nestedDigest) (Careful nestedSubmissions)
      (initial (fun _ => none) 0 checkpointBucket) (uploadedOnce (0 : Fin 2) 1)).any (fun last =>
        match last.registry.runs 1 with
        | .printed registration id =>
            id = 0 && (last.registry.rows.committed 0).any (·.storagePath = nestedPath)
        | _ => false) = true := by
    decide +kernel
  obtain ⟨last, reached, shown⟩ := exists_runs_of_replay replays
  split at shown
  case h_2 => cases shown
  case h_1 registration id handedOut =>
    obtain ⟨same, path⟩ := Bool.and_eq_true_iff.mp shown
    obtain rfl := of_decide_eq_true same
    obtain ⟨row, stored, _, own, rfl, _, _, rfl, ⟨_, _, restored⟩, _⟩ :=
      printed_datasets_available nestedDigest_hex nestedSubmissions_distinguished
        checkpointBucket_sound reached handedOut .refl
    rw [stored] at path
    rw [show row.storagePath = nestedPath from of_decide_eq_true path] at restored
    have nonempty : nestedTree.files ≠ [] := by decide
    exact ⟨last.bucket, restored nonempty _ (last.bucket.client_reads nestedPath) bareDisk _
      bareDisk_emptyDir⟩

end Runs

end DatasetPlatform

end Crucible
