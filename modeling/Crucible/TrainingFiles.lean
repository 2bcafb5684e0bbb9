import Crucible.StoredDatasets
import Mathlib.Data.List.Sort

/-!
# What the trainer loads

A dataset that is registered comes to the trainer through a row, a bucket, a
download and a listing of the local directory.  The trainer loads its files in
the order in which they were hashed, if they all have one format.
-/

namespace Crucible

open PathWalks

/-! ## The load specification -/

theorem filterMap_dedup_singleton {Item Value : Type*} [DecidableEq Value]
    (find : Item → Option Value) (items : List Item) (value : Value) :
    items.filter (fun item => (find item).isNone) = [] ∧ (items.filterMap find).dedup = [value] ↔
      items ≠ [] ∧ ∀ item ∈ items, find item = some value := by
  constructor
  · rintro ⟨found, single⟩
    refine ⟨?_, fun item member => ?_⟩
    · rintro rfl
      cases single
    · have known := List.filter_eq_nil_iff.mp found item member
      cases own : find item with
      | none => simp [own] at known
      | some other =>
          have among : other ∈ (items.filterMap find).dedup :=
            List.mem_dedup.mpr (List.mem_filterMap.mpr ⟨item, member, own⟩)
          rw [single, List.mem_singleton] at among
          rw [among]
  · rintro ⟨nonempty, all⟩
    refine ⟨List.filter_eq_nil_iff.mpr fun item member => by simp [all item member], ?_⟩
    have values : items.filterMap find = List.replicate items.length value := by
      rw [← List.map_const', ← List.filterMap_eq_map]
      exact List.filterMap_congr all
    rw [values]
    exact List.replicate_dedup (List.length_pos_iff.mpr nonempty).ne'

/-- Files are loaded in the one format that all their extensions stand for. -/
theorem loaderFormat_ok_iff {path : List (List Char)} {files : List (List (List Char))}
    {format : String} :
    loaderFormat path files = .ok format ↔ files ≠ [] ∧ ∀ file ∈ files,
      formatBySuffix.lookup (fileExtension (file.getLast?.getD [])) = some format := by
  let suffixes := files.map fun file => fileExtension (file.getLast?.getD [])
  have one := filterMap_dedup_singleton (fun suffix => formatBySuffix.lookup suffix) suffixes
    format
  have listed : loaderFormat path files = .ok format ↔
      suffixes.filter (fun suffix => (formatBySuffix.lookup suffix).isNone) = [] ∧
        (suffixes.filterMap fun suffix => formatBySuffix.lookup suffix).dedup = [format] := by
    by_cases none : files = []
    · subst none
      exact iff_of_false (fun loaded => by cases loaded) fun both => by cases both.2
    · unfold loaderFormat
      rw [if_neg none]
      split
      case isTrue unknown => exact iff_of_false (by simp) fun both => unknown both.1
      case isFalse known =>
        split
        case h_1 found single =>
          constructor
          · rintro ⟨⟩
            exact ⟨not_not.mp known, single⟩
          · intro both
            cases single.symm.trans both.2
            rfl
        case h_2 several => exact iff_of_false (by simp) fun both => several format both.2
  rw [listed, one, List.forall_mem_map, ne_eq, List.map_eq_nil_iff]

/-- The files of a downloaded directory are looked at in the order of its tree. -/
theorem datasetFiles_tree {disk : LocalDisk} {below : List (List (List Char))}
    {localDir : List (List Char)} {tree : FileTree}
    (there : disk (resolve ['.', '.'] [] localDir) = some .directory)
    (lists : disk.Lists (resolve ['.', '.'] [] localDir) below)
    (holds : disk.Holds localDir tree) :
    datasetFiles disk below localDir = .ok (tree.files.map fun file => localDir ++ file.1.parts) := by
  have members : ∀ names, names ∈ below.filter (fun names =>
      disk.isFile (resolve ['.', '.'] [] localDir ++ names)) ↔
        names ∈ tree.files.map fun file => file.1.parts := by
    intro names
    rw [List.mem_filter, LocalDisk.isFile_iff, List.mem_map]
    constructor
    · rintro ⟨-, content, stored⟩
      have inside : names ≠ [] := by
        rintro rfl
        rw [List.append_nil, there] at stored
        simp at stored
      obtain ⟨file, listed, same, _⟩ := (holds names inside content).mp stored
      exact ⟨file, listed, same⟩
    · rintro ⟨file, listed, rfl⟩
      have stored := (holds file.1.parts file.1.nonempty file.2).mpr ⟨file, listed, rfl, rfl⟩
      exact ⟨lists.files _ file.1.nonempty _ stored, file.2, stored⟩
  have paths : (tree.files.map fun file => file.1.parts).Nodup := by
    have injective : Function.Injective RelativePath.parts := fun _ _ same => RelativePath.ext same
    have mapped := tree.nodup_paths.map injective
    rwa [List.map_map] at mapped
  have found := ((List.perm_ext_iff_of_nodup (lists.nodup.filter _) paths).mpr members).map
    (localDir ++ ·)
  have ordered : (tree.files.map fun file => localDir ++ file.1.parts).Pairwise (· ≤ ·) :=
    List.pairwise_map.mpr (tree.sorted.imp fun before =>
      (List.append_left_lt before).le)
  simp only [datasetFiles, there, Except.ok.injEq]
  refine List.Perm.eq_of_pairwise (fun _ _ _ _ => le_antisymm) ?_ ordered ?_
  · exact List.pairwise_mergeSort' _ _
  · refine (List.mergeSort_perm _ _).trans ?_
    rwa [List.map_map] at found

/-! ## From the bucket to the trainer -/

/-- What the checks of the worker accept, and the format in which the trainer
loads it. -/
def LocalPath.Loads (format : String) : LocalPath → Prop
  | .file fileName _ => format ∈ supportedFormats ∧ fileExtension fileName.text = format
  | .directory tree => tree.files ≠ [] ∧ ∀ file ∈ tree.files,
      formatBySuffix.lookup (fileExtension (file.1.parts.getLast?.getD [])) = some format

/-- The local files of a dataset, in the order in which they are hashed. -/
def LocalPath.trainingFiles (localDir : List (List Char)) (storagePath : String) :
    LocalPath → List (List (List Char))
  | .file _ _ => [localDir ++ [PurePosixPath.name storagePath]]
  | .directory tree => tree.files.map fun file => localDir ++ file.1.parts

theorem GarageClient.download_nothing {client : GarageClient} {datasetPath : String}
    (many : isSingleFile datasetPath = false) {bucket : Bucket}
    (reads : client.Reads bucket datasetPath)
    (nothing : bucket.under (datasetPrefix datasetPath) = []) {disk : LocalDisk}
    {localDir : List (List Char)} (empty : disk.EmptyDir localDir) :
    ∃ error, (client.download datasetPath localDir disk).result = .error error := by
  obtain ⟨pages, listed, perm⟩ := reads.lists
  rw [nothing, List.perm_nil] at perm
  have none : GarageClient.objectKeys pages = [] := by
    rw [GarageClient.objectKeys, perm]
    rfl
  have made := LocalDisk.mkdir_ok_iff.mpr ⟨empty.passable, rfl, rfl⟩
  exact ⟨_, by
    simp [GarageClient.download, made, many, GarageClient.downloadPrefix, GarageClient.listKeys,
      listed, none]
    rfl⟩

section Gate

variable {sha256 : Bytes → String} {format : String} {files : List String}

namespace Shipment.Delivered

theorem loads_of_gate (hex : HexDigest sha256) {shipment : Shipment}
    {fileName : FileName} {content : Bytes}
    (delivered : shipment.Delivered sha256 (.file fileName content))
    (gate : formatGate shipment.client shipment.localDir shipment.disk shipment.below
      (shipment.storagePath sha256 (.file fileName content)) = .ok (format, files)) :
    (LocalPath.file fileName content).Loads format ∧
      files = [pathText (shipment.localDir ++
        [PurePosixPath.name (shipment.storagePath sha256 (.file fileName content))])] := by
  have verdict : shipment.verdict sha256 (.file fileName content) = .ok format := by
    rw [verdict, gate]
    rfl
  obtain ⟨supported, extension⟩ := (delivered.object_verdict_iff hex).mp verdict
  have checked : validateDatasetFormat (shipment.storagePath sha256 (.file fileName content)) =
      .ok (some format) :=
    validateDatasetFormat_some_iff.mpr
      ⟨supported, (fileExtension_storagePath hex).trans extension⟩
  have single : isSingleFile (shipment.storagePath sha256 (.file fileName content)) = true := by
    by_contra many
    rw [validateDatasetFormat_none_iff.mpr (Bool.eq_false_iff.mpr many)] at checked
    cases checked
  obtain ⟨_, target, finished, spec⟩ := formatGate_ok_iff.mp gate
  rw [datasetLoadSpec_of_accepted checked finished] at spec
  cases spec
  exact ⟨⟨supported, extension⟩, by rw [(download_single single finished).1]⟩

theorem object_gate_iff (hex : HexDigest sha256) {shipment : Shipment}
    {fileName : FileName} {content : Bytes}
    (delivered : shipment.Delivered sha256 (.file fileName content)) :
    formatGate shipment.client shipment.localDir shipment.disk shipment.below
        (shipment.storagePath sha256 (.file fileName content)) = .ok (format, files) ↔
      (LocalPath.file fileName content).Loads format ∧
        files = [pathText (shipment.localDir ++
          [PurePosixPath.name (shipment.storagePath sha256 (.file fileName content))])] := by
  refine ⟨delivered.loads_of_gate hex, ?_⟩
  rintro ⟨loads, rfl⟩
  have verdict := (delivered.object_verdict_iff hex).mpr loads
  unfold Shipment.verdict at verdict
  cases gate : formatGate shipment.client shipment.localDir shipment.disk shipment.below
      (shipment.storagePath sha256 (.file fileName content)) with
  | error error =>
      rw [gate] at verdict
      cases verdict
  | ok spec =>
      obtain ⟨own, listed⟩ := spec
      rw [gate] at verdict
      cases verdict
      rw [(delivered.loads_of_gate hex gate).2]

end Shipment.Delivered

theorem LocalDisk.Extracted.gate_iff {client : GarageClient} {storagePath : String}
    {localDir : List (List Char)} {disk : LocalDisk} {below : List (List (List Char))}
    {tree : FileTree} {done : List (RelativePath × Bytes)}
    (many : isSingleFile storagePath = false)
    (returned : (client.download storagePath localDir disk).result = .ok localDir)
    (extracted : (client.download storagePath localDir disk).disk.Extracted localDir done)
    (all : done.Perm tree.files) (named : localDir ≠ [])
    (lists : (client.download storagePath localDir disk).disk.Lists
      (resolve ['.', '.'] [] localDir) below) :
    formatGate client localDir disk below storagePath = .ok (format, files) ↔
      (LocalPath.directory tree).Loads format ∧
        files = (tree.files.map fun file => localDir ++ file.1.parts).map pathText := by
  have there := extracted.made _ (mem_visited.mpr ⟨localDir, List.prefix_rfl, named, rfl⟩)
  have found := datasetFiles_tree there lists (extracted.holds all)
  have loads : loaderFormat localDir (tree.files.map fun file => localDir ++ file.1.parts) =
      .ok format ↔ (LocalPath.directory tree).Loads format := by
    rw [loaderFormat_ok_iff, List.forall_mem_map, ne_eq, List.map_eq_nil_iff]
    refine and_congr_right fun _ => forall₂_congr fun file _ => ?_
    rw [List.getLast?_append_of_ne_nil _ file.1.nonempty]
  rw [formatGate_ok_iff, and_iff_right ⟨none, validateDatasetFormat_none_iff.mpr many⟩, ← loads]
  constructor
  · rintro ⟨target, finished, spec⟩
    cases returned.symm.trans finished
    rw [datasetLoadSpec_of_files found] at spec
    cases read : loaderFormat localDir (tree.files.map fun file => localDir ++ file.1.parts) with
    | error message =>
        rw [read] at spec
        cases spec
    | ok own =>
        rw [read] at spec
        cases spec
        exact ⟨rfl, rfl⟩
  · rintro ⟨read, rfl⟩
    refine ⟨localDir, returned, ?_⟩
    rw [datasetLoadSpec_of_files found, read]
    rfl

/-! ## Datasets in a known bucket -/

/-- A dataset that is in a bucket, on its way to the trainer. -/
def Shipment.ofStored (sha256 : Bytes → String) (name : String) (path : LocalPath)
    (bucket : Bucket) (client : GarageClient) (localDir : List (List Char)) (disk : LocalDisk)
    (below : List (List (List Char))) : Shipment where
  name := name
  faults := []
  pages := [path.keys (path.storageShape name (path.checksum sha256)).1]
  bucket := bucket
  client := client
  localDir := localDir
  disk := disk
  below := below

namespace Bucket.Known

variable {submissions : Set Submission} {bucket : Bucket} {client : GarageClient}
  {disk : LocalDisk} {localDir : List (List Char)} {below : List (List (List Char))}
  {name : String} {fileName : FileName} {content : Bytes} {description : Option String}

theorem under_object (hex : HexDigest sha256) (known : bucket.Known sha256 submissions)
    (distinguished : Submission.Distinguished sha256 submissions)
    (member : ⟨name, .file fileName content, description⟩ ∈ submissions) :
    bucket.under (datasetPrefix
      ((LocalPath.file fileName content).storageShape name (checksumFile sha256 content)).1) =
        [] := by
  have slashless := slash_notMem_filePlace hex fileName content
  have path : ((LocalPath.file fileName content).storageShape name
      (checksumFile sha256 content)).1.toList = datasetKey name.toList
        ((checksumFile sha256 content).toList ++ PurePosixPath.nameSuffix fileName.text) := by
    have text := toList_datasetPath name (checksumFile sha256 content)
      (String.ofList (PurePosixPath.nameSuffix fileName.text))
    rwa [String.toList_ofList] at text
  have above : (datasetPrefix ((LocalPath.file fileName content).storageShape name
      (checksumFile sha256 content)).1).toList = datasetKey name.toList
        (((checksumFile sha256 content).toList ++ PurePosixPath.nameSuffix fileName.text) ++
          ['/']) := by
    have version : (checksumFile sha256 content).toList ≠ [] := hex.ne_nil _
    have kept := rdropWhile_slash ("datasets/".toList ++ (name.toList ++ ['/']))
      (List.append_ne_nil_of_left_ne_nil version (PurePosixPath.nameSuffix fileName.text))
        slashless
    have joined : "datasets/".toList ++ (name.toList ++ ['/']) ++
        ((checksumFile sha256 content).toList ++ PurePosixPath.nameSuffix fileName.text) =
          datasetKey name.toList
            ((checksumFile sha256 content).toList ++ PurePosixPath.nameSuffix fileName.text) := by
      unfold datasetKey
      generalize "datasets/".toList = root
      simp
    rw [joined] at kept
    rw [datasetPrefix, PythonText.rstrip, String.toList_append, String.toList_ofList, path, kept]
    exact datasetKey_append _ _ ['/']
  refine List.eq_nil_iff_forall_not_mem.mpr fun key under => ?_
  obtain ⟨stored, rest, text⟩ := mem_under.mp under
  obtain ⟨found, held⟩ := Option.isSome_iff_exists.mp (AList.lookup_isSome.mpr stored)
  rw [above, datasetKey_append, List.append_assoc, List.singleton_append] at text
  obtain ⟨other, _, placed, same⟩ := known.places distinguished member text.symm held
  obtain ⟨own, path, _⟩ := other
  cases path with
  | file own stored =>
      have flat := slash_notMem_filePlace hex own stored
      rw [← placed.1] at flat
      simp at flat
  | directory tree =>
      obtain ⟨file, _, joined, _⟩ := placed
      obtain ⟨versions, _⟩ := append_slash_inj slashless (hex.slash_notMem _) joined
      have whole : (checksumFile sha256 content).toList ++ PurePosixPath.nameSuffix fileName.text =
          (checksumDirectory sha256 tree).toList ++ [] := versions.trans (List.append_nil _).symm
      have sums := (List.append_inj whole ((hex.length _).trans (hex.length _).symm)).1
      exact same (String.toList_inj.mp sums.symm)

theorem delivered (hex : HexDigest sha256) (known : bucket.Known sha256 submissions)
    (distinguished : Submission.Distinguished sha256 submissions)
    (member : ⟨name, .file fileName content, description⟩ ∈ submissions)
    (complete : bucket.Complete sha256 ⟨name, .file fileName content, description⟩)
    (reads : client.Reads bucket
      ((LocalPath.file fileName content).storageShape name (checksumFile sha256 content)).1)
    (named : localDir ≠ []) (empty : disk.EmptyDir localDir) :
    (Shipment.ofStored sha256 name (.file fileName content) bucket client localDir disk
      below).Delivered sha256 (.file fileName content) := by
  have uploaded := uploadDataset_nil (.file fileName content) name (checksumFile sha256 content)
    bucket
  have put := (uploadDataset_ok (Prod.ext uploaded rfl)).2
  have stored := known.lookup_eq hex distinguished member List.mem_cons_self
    (complete (_, content) List.mem_cons_self)
  refine ⟨⟨_, uploaded⟩, fun key under => ?_, reads.congr fun key => ?_, named, empty⟩
  · have nothing : key ∈ ([] : List String) :=
      known.under_object hex distinguished member ▸ under
    cases nothing
  · have inserted : ((Shipment.ofStored sha256 name (.file fileName content) bucket client localDir
        disk below).upload sha256 (.file fileName content)).2 = AList.insert
          ((LocalPath.file fileName content).storageShape name (checksumFile sha256 content)).1
            content bucket := put
    rw [inserted, KeyedTable.lookup_insert]
    split
    case isTrue same => exact same ▸ stored.symm
    case isFalse => rfl

/-- What passes the checks of the worker in a known bucket, and what the trainer
is given. -/
theorem gate_iff (hex : HexDigest sha256) (known : bucket.Known sha256 submissions)
    (distinguished : Submission.Distinguished sha256 submissions) {submission : Submission}
    (member : submission ∈ submissions) (complete : bucket.Complete sha256 submission)
    (reads : client.Reads bucket (submission.registration sha256).storagePath)
    (named : localDir ≠ []) (empty : disk.EmptyDir localDir)
    (lists : (client.download (submission.registration sha256).storagePath localDir disk).disk.Lists
      (resolve ['.', '.'] [] localDir) below) :
    formatGate client localDir disk below (submission.registration sha256).storagePath =
        .ok (format, files) ↔
      submission.path.Loads format ∧ files = (submission.path.trainingFiles localDir
        (submission.registration sha256).storagePath).map pathText := by
  obtain ⟨name, path, description⟩ := submission
  cases path with
  | file fileName content =>
      have arrives : (Shipment.ofStored sha256 name (.file fileName content) bucket client localDir
          disk below).Delivered sha256 (.file fileName content) :=
        known.delivered hex distinguished member complete reads named empty
      exact arrives.object_gate_iff hex
  | directory tree =>
      have many := not_isSingleFile_directory name hex tree.fields.flatten
      rw [← checksumDirectory_eq sha256, Bool.not_eq_true] at many
      by_cases nonempty : tree.files = []
      · have nothing : bucket.under (datasetPrefix
            ("datasets/" ++ name ++ "/" ++ checksumDirectory sha256 tree ++ "/")) = [] := by
          have samePrefix := datasetPrefix_directory hex name tree.fields.flatten
          rw [← checksumDirectory_eq sha256] at samePrefix
          rw [samePrefix]
          refine List.eq_nil_iff_forall_not_mem.mpr fun key under => ?_
          obtain ⟨file, listed, _⟩ := known.alone hex distinguished member under
          rw [nonempty] at listed
          cases listed
        obtain ⟨error, failed⟩ := client.download_nothing many reads nothing empty
        refine iff_of_false (fun gate => ?_) fun both => both.1.1 nonempty
        obtain ⟨_, target, finished, _⟩ := formatGate_ok_iff.mp gate
        cases failed.symm.trans finished
      · obtain ⟨returned, done, all, extracted⟩ :=
          known.extracted hex distinguished member complete nonempty reads empty
        exact extracted.gate_iff many returned all named lists

end Bucket.Known

end Gate

/-! ## All runs -/

namespace DatasetPlatform

open LabelledRuns

variable {n : Nat} {sha256 : Bytes → String} {submissions : Set Submission}
  {table : Nat → Option DatasetRow} {nextId : Nat} {bucket : Bucket}
  {platform : DatasetPlatform n}

/-- In every state that concurrent runs can reach, every ready row is that of a
submission, and a job with its storage path gets past the checks of the worker
exactly if the files of the submission have one format; the trainer is then
given all of them in the order in which they were hashed. -/
theorem ready_datasets_trained (hex : HexDigest sha256)
    (distinguished : Submission.Distinguished sha256 submissions)
    (sound : Sound sha256 submissions table nextId bucket)
    (run : Runs (step sha256) (Submits submissions) (initial table nextId bucket) platform)
    {id : Nat} {row : DatasetRow} (stored : platform.registry.rows.committed id = some row)
    (ready : row.status = .ready) :
    ∃ submission ∈ submissions,
      row = { (submission.registration sha256).row with status := .ready } ∧
      ∀ (client : GarageClient) (localDir : List (List Char)) (disk : LocalDisk)
        (below : List (List (List Char))),
        client.Reads platform.bucket row.storagePath → localDir ≠ [] → disk.EmptyDir localDir →
        (client.download row.storagePath localDir disk).disk.Lists
          (resolve ['.', '.'] [] localDir) below →
        ∀ format files, formatGate client localDir disk below row.storagePath =
            .ok (format, files) ↔
          submission.path.Loads format ∧
            files = (submission.path.trainingFiles localDir row.storagePath).map pathText := by
  have held := stocked_of_run sound run
  obtain ⟨submission, member, rfl, complete⟩ := held.backed stored ready
  refine ⟨submission, member, rfl, ?_⟩
  intro client localDir disk below reads named empty lists format files
  exact held.bucket.gate_iff hex distinguished member complete reads named empty lists

/-- What `rglob("*")` finds of `nestedTree`. -/
def nestedListing : List (List (List Char)) :=
  [["c.csv".toList], ["a".toList], ["a".toList, "b.csv".toList]]

theorem ready_datasets_trained_uploadedTwice :
    ∃ bucket : Bucket, formatGate (bucket.client nestedPath) ["data".toList] bareDisk
      nestedListing nestedPath = .ok ("csv", ["/data/a/b.csv", "/data/c.csv"]) := by
  have replays : (replay (step nestedDigest) (Submits nestedSubmissions)
      (initial (fun _ => none) 0 checkpointBucket) (uploadedTwice (0 : Fin 2) 1)).any (fun last =>
        (last.registry.rows.committed 1).any fun row =>
          row.status = .ready ∧ row.storagePath = nestedPath) = true := by
    decide +kernel
  obtain ⟨last, reached, shown⟩ := exists_runs_of_replay replays
  obtain ⟨row, stored, shape⟩ := (Option.any_eq_true _ _).mp shown
  obtain ⟨ready, path⟩ := of_decide_eq_true shape
  have reads := last.bucket.client_reads nestedPath
  have held := stocked_of_run checkpointBucket_sound reached
  obtain ⟨_, rfl, same, complete⟩ := held.backed stored ready
  have own : (nestedSubmission.registration nestedDigest).storagePath = nestedPath := by
    rw [same] at path
    exact path
  have nonempty : nestedTree.files ≠ [] := by decide
  have restored := held.bucket.restored nestedDigest_hex nestedSubmissions_distinguished rfl
    complete nonempty (own.symm ▸ reads) bareDisk_emptyDir
  rw [own] at restored
  have listed : ∀ file ∈ nestedTree.files, file.1.parts ∈ nestedListing := by decide
  have lists : ((last.bucket.client nestedPath).download nestedPath ["data".toList]
      bareDisk).disk.Lists (resolve ['.', '.'] [] ["data".toList]) nestedListing := by
    refine ⟨by decide, fun names inside content there => ?_⟩
    obtain ⟨file, member, rfl, _⟩ := (restored.2 names inside content).mp there
    exact listed file member
  obtain ⟨_, rfl, _, gate⟩ := ready_datasets_trained nestedDigest_hex
    nestedSubmissions_distinguished checkpointBucket_sound reached stored ready
  rw [path] at gate
  refine ⟨last.bucket, (gate _ _ _ _ reads (List.cons_ne_nil _ _) bareDisk_emptyDir lists _ _).mpr
    ⟨⟨nonempty, by decide⟩, by decide⟩⟩

end DatasetPlatform

end Crucible
