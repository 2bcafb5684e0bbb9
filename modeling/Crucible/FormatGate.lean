import Crucible.DatasetLoading
import Crucible.DatasetRoundTrip

/-!
# One file as an object and as a directory

A file can be registered by itself or as the only file of a directory.  The
worker's checks use different tables of formats for the two, and they disagree
about one extension.
-/

namespace Crucible

open PathWalks

/-- The exceptions on the way from a storage path to a loader format. -/
inductive GateError where
  | unsupported (message : String)
  | download (error : DownloadError)
  | trainer (message : String)
  deriving DecidableEq, Repr

/-- The worker's checks one after another, where `below` is what `rglob("*")` finds
in the downloaded directory. -/
def formatGate (client : GarageClient) (localDir : List (List Char)) (disk : LocalDisk)
    (below : List (List (List Char))) (storagePath : String) :
    Except GateError (String × List String) := do
  let _ ← (validateDatasetFormat storagePath).mapError .unsupported
  let download := client.download storagePath localDir disk
  let target ← download.result.mapError .download
  (datasetLoadSpec download.disk below target).mapError .trainer

/-- What happens to a dataset from its registration to its training. -/
structure Shipment where
  name : String
  faults : List Fault
  pages : List (List String)
  bucket : Bucket
  client : GarageClient
  localDir : List (List Char)
  disk : LocalDisk
  below : List (List (List Char))

/-- A listing of what is below a place has every file there, once. -/
structure LocalDisk.Lists (disk : LocalDisk) (place : List (List Char))
    (below : List (List (List Char))) : Prop where
  nodup : below.Nodup
  files : ∀ names ≠ [], ∀ content,
    disk (place ++ names) = some (.file content) → names ∈ below

def LocalPath.keys (storagePath : String) : LocalPath → List String
  | .file _ _ => [storagePath]
  | .directory tree => tree.files.map (objectKey storagePath)

def FileTree.single (fileName : FileName) (content : Bytes) : FileTree where
  files := [(⟨[fileName.text], List.cons_ne_nil _ _,
    fun _ member => List.mem_singleton.mp member ▸ fileName.proper⟩, content)]
  sorted := List.pairwise_singleton _ _
  apart := fun first member second member' _ => by
    rw [List.mem_singleton.mp member, List.mem_singleton.mp member']

namespace Shipment

variable (shipment : Shipment) (sha256 : Bytes → String) (path : LocalPath)

/-- `job.dataset_path`. -/
def storagePath : String :=
  (path.storageShape shipment.name (path.checksum sha256)).1

def upload : Except UploadError (String × PathType) × Bucket :=
  uploadDataset shipment.faults shipment.pages path shipment.name (path.checksum sha256)
    shipment.bucket

def fetched : Download :=
  shipment.client.download (shipment.storagePath sha256 path) shipment.localDir shipment.disk

/-- The format in which the trainer loads the dataset. -/
def verdict : Except GateError String :=
  (formatGate shipment.client shipment.localDir shipment.disk shipment.below
    (shipment.storagePath sha256 path)).map Prod.fst

/-- The upload succeeds, nothing else is stored under the storage path, and the
worker reads the bucket into an empty directory. -/
structure Delivered : Prop where
  uploaded : ∃ shape, (shipment.upload sha256 path).1 = .ok shape
  alone : ∀ key ∈ shipment.bucket.under (datasetPrefix (shipment.storagePath sha256 path)),
    key ∈ path.keys (shipment.storagePath sha256 path)
  reads : shipment.client.Reads (shipment.upload sha256 path).2
    (shipment.storagePath sha256 path)
  named : shipment.localDir ≠ []
  empty : shipment.disk.EmptyDir shipment.localDir

/-- The trainer sees what has been downloaded. -/
structure Sound : Prop extends shipment.Delivered sha256 path where
  lists : ∀ target, (shipment.fetched sha256 path).result = .ok target →
    (shipment.fetched sha256 path).disk.Lists (resolve ['.', '.'] [] target) shipment.below

end Shipment

/-- A file gets the same verdict by itself and as the only file of a directory. -/
def SameVerdict (sha256 : Bytes → String) (fileName : FileName) (content : Bytes) : Prop :=
  ∀ object directory : Shipment,
    object.Sound sha256 (.file fileName content) →
      directory.Sound sha256 (.directory (.single fileName content)) →
        ∀ format, object.verdict sha256 (.file fileName content) = .ok format ↔
          directory.verdict sha256 (.directory (.single fileName content)) = .ok format

theorem formatGate_ok_iff {client : GarageClient} {localDir : List (List Char)} {disk : LocalDisk}
    {below : List (List (List Char))} {storagePath : String} {spec : String × List String} :
    formatGate client localDir disk below storagePath = .ok spec ↔
      (∃ declared, validateDatasetFormat storagePath = .ok declared) ∧
        ∃ target, (client.download storagePath localDir disk).result = .ok target ∧
          datasetLoadSpec (client.download storagePath localDir disk).disk below target =
            .ok spec := by
  unfold formatGate
  dsimp only
  generalize client.download storagePath localDir disk = download
  cases validateDatasetFormat storagePath with
  | error message => simp [Except.mapError, bind, Except.bind]
  | ok declared =>
      cases download.result with
      | error error => simp [Except.mapError, bind, Except.bind]
      | ok target =>
          cases loaded : datasetLoadSpec download.disk below target with
          | error message => simp [Except.mapError, bind, Except.bind, loaded]
          | ok found => simp [Except.mapError, bind, Except.bind, loaded]

namespace Shipment

variable {shipment : Shipment} {sha256 : Bytes → String} {path : LocalPath}

theorem Delivered.stored (delivered : shipment.Delivered sha256 path) :
    (shipment.upload sha256 path).2 =
      path.put (shipment.storagePath sha256 path) shipment.bucket := by
  obtain ⟨shape, returned⟩ := delivered.uploaded
  have uploaded : shipment.upload sha256 path = (.ok shape, (shipment.upload sha256 path).2) :=
    Prod.ext returned rfl
  obtain ⟨rfl, stored⟩ := uploadDataset_ok uploaded
  exact stored

theorem verdict_ok_iff {format : String} :
    shipment.verdict sha256 path = .ok format ↔
      (∃ declared, validateDatasetFormat (shipment.storagePath sha256 path) = .ok declared) ∧
        ∃ target files, (shipment.fetched sha256 path).result = .ok target ∧
          datasetLoadSpec (shipment.fetched sha256 path).disk shipment.below target =
            .ok (format, files) := by
  have loaded : shipment.verdict sha256 path = .ok format ↔ ∃ files,
      formatGate shipment.client shipment.localDir shipment.disk shipment.below
        (shipment.storagePath sha256 path) = .ok (format, files) := by
    rw [verdict]
    generalize formatGate shipment.client shipment.localDir shipment.disk shipment.below
      (shipment.storagePath sha256 path) = gate
    cases gate <;> simp [Except.map, Prod.ext_iff]
  simp only [loaded, formatGate_ok_iff]
  constructor
  · rintro ⟨files, checked, target, finished, spec⟩
    exact ⟨checked, target, files, finished, spec⟩
  · rintro ⟨checked, target, files, finished, spec⟩
    exact ⟨files, checked, target, finished, spec⟩

/-! ## A single object -/

variable {fileName : FileName} {content : Bytes}

theorem toList_storagePath_file :
    (shipment.storagePath sha256 (.file fileName content)).toList =
      ("datasets/" ++ shipment.name).toList ++ '/' ::
        ((checksumFile sha256 content).toList ++ PurePosixPath.nameSuffix fileName.text) := by
  simp [storagePath, LocalPath.storageShape, LocalPath.checksum, LocalPath.suffix,
    String.toList_append]

theorem name_storagePath_file (hex : HexDigest sha256) (shipment : Shipment)
    (fileName : FileName) (content : Bytes) :
    let name := (checksumFile sha256 content).toList ++ PurePosixPath.nameSuffix fileName.text
    name ≠ [] ∧ '/' ∉ name ∧
      PurePosixPath.name (shipment.storagePath sha256 (.file fileName content)) = name := by
  have suffixFlat : '/' ∉ PurePosixPath.nameSuffix fileName.text := fun member =>
    fileName.proper.2.2.2 ((nameSuffix_suffix fileName.text).subset member)
  have nonempty : (checksumFile sha256 content).toList ++
      PurePosixPath.nameSuffix fileName.text ≠ [] :=
    List.append_ne_nil_of_left_ne_nil (hex.ne_nil _) _
  have flat : '/' ∉ (checksumFile sha256 content).toList ++
      PurePosixPath.nameSuffix fileName.text := by
    rw [List.mem_append, not_or]
    exact ⟨hex.slash_notMem _, suffixFlat⟩
  refine ⟨nonempty, flat, ?_⟩
  rw [← String.ofList_toList (s := shipment.storagePath sha256 (.file fileName content)),
    toList_storagePath_file]
  exact PurePosixPath.name_joined nonempty (hex.append_ne_dot _ _) flat

theorem fileExtension_storagePath (hex : HexDigest sha256) :
    fileExtension (PurePosixPath.name (shipment.storagePath sha256 (.file fileName content))) =
      fileExtension fileName.text := by
  have version : (checksumFile sha256 content).toList ≠ [] := hex.ne_nil _
  have dotless : '.' ∉ (checksumFile sha256 content).toList := hex.dot_notMem _
  rw [(name_storagePath_file hex shipment fileName content).2.2, fileExtension, nameSuffix_append version dotless,
    fileExtension]

theorem download_object {client : GarageClient} {datasetPath : String}
    (single : isSingleFile datasetPath = true) {stored : Bytes}
    (object : client.object datasetPath = .ok stored) {disk : LocalDisk}
    {localDir : List (List Char)} (empty : disk.EmptyDir localDir) :
    (client.download datasetPath localDir disk).result =
      .ok (localDir ++ [PurePosixPath.name datasetPath]) := by
  have proper := name_ne_parent single
  have made := LocalDisk.mkdir_ok_iff.mpr ⟨empty.passable, rfl, rfl⟩
  have vacant : disk.withDirectories (visited ['.', '.'] [] localDir)
      (resolve ['.', '.'] [] localDir ++ [PurePosixPath.name datasetPath]) ≠
        some .directory := by
    rw [empty.empty _ (List.cons_ne_nil _ _)]
    simp
  simp only [GarageClient.download, made, single, if_true, GarageClient.downloadFile]
  rw [GarageClient.transfer_ok_iff.mpr ⟨stored, object,
    LocalDisk.writeFile_ok_iff.mpr ⟨proper, vacant, rfl, rfl⟩⟩]

theorem Delivered.under_eq_nil (hex : HexDigest sha256)
    (delivered : shipment.Delivered sha256 (.file fileName content)) :
    (shipment.upload sha256 (.file fileName content)).2.under
      (datasetPrefix (shipment.storagePath sha256 (.file fileName content))) = [] := by
  have alone := delivered.alone
  rw [delivered.stored]
  obtain ⟨nonempty, flat, -⟩ := name_storagePath_file hex shipment fileName content
  have prefixed : (datasetPrefix (shipment.storagePath sha256 (.file fileName content))).toList =
      (shipment.storagePath sha256 (.file fileName content)).toList ++ ['/'] := by
    have kept := rdropWhile_slash (("datasets/" ++ shipment.name).toList ++ ['/']) nonempty flat
    rw [List.append_assoc, List.singleton_append] at kept
    rw [datasetPrefix, PythonText.rstrip, String.toList_append, String.toList_ofList,
      toList_storagePath_file, kept]
    rfl
  have above : ¬ (datasetPrefix (shipment.storagePath sha256 (.file fileName content))).toList <+:
      (shipment.storagePath sha256 (.file fileName content)).toList := by
    intro below
    have shorter := below.length_le
    rw [prefixed, List.length_append, List.length_singleton] at shorter
    omega
  refine List.eq_nil_iff_forall_not_mem.mpr fun key member => ?_
  obtain ⟨stored, below⟩ := Bucket.mem_under.mp member
  obtain rfl | before := (AList.mem_insert _).mp stored
  · exact above below
  · obtain rfl := List.mem_singleton.mp (alone key (Bucket.mem_under.mpr ⟨before, below⟩))
    exact above below

/-- A file without a suffix is looked for below its key, where nothing is. -/
theorem Delivered.download_bare (hex : HexDigest sha256)
    (delivered : shipment.Delivered sha256 (.file fileName content))
    (bare : isSingleFile (shipment.storagePath sha256 (.file fileName content)) = false) :
    ∃ error, (shipment.fetched sha256 (.file fileName content)).result = .error error := by
  obtain ⟨pages, listed, perm⟩ := delivered.reads.lists
  rw [delivered.under_eq_nil hex, List.perm_nil] at perm
  have none : GarageClient.objectKeys pages = [] := by rw [GarageClient.objectKeys, perm]; rfl
  have made := LocalDisk.mkdir_ok_iff.mpr ⟨delivered.empty.passable, rfl, rfl⟩
  exact ⟨_, by simp [fetched, GarageClient.download, made, bare, GarageClient.downloadPrefix,
    GarageClient.listKeys, listed, none]; rfl⟩

/-- The verdict on an object is that of the preflight check. -/
theorem Delivered.object_verdict_iff (hex : HexDigest sha256)
    (delivered : shipment.Delivered sha256 (.file fileName content)) {format : String} :
    shipment.verdict sha256 (.file fileName content) = .ok format ↔
      format ∈ supportedFormats ∧ fileExtension fileName.text = format := by
  have extension : fileExtension (PurePosixPath.name
      (shipment.storagePath sha256 (.file fileName content))) = fileExtension fileName.text :=
    fileExtension_storagePath hex
  rw [verdict_ok_iff, ← extension, ← validateDatasetFormat_some_iff]
  constructor
  · rintro ⟨⟨declared, checked⟩, target, files, finished, loaded⟩
    cases declared with
    | none =>
        obtain ⟨error, failed⟩ := delivered.download_bare hex (validateDatasetFormat_none_iff.mp checked)
        simp [failed] at finished
    | some declared =>
        have spec := datasetLoadSpec_of_accepted checked finished shipment.below
        obtain ⟨⟩ := spec.symm.trans loaded
        exact checked
  · intro checked
    have single : isSingleFile (shipment.storagePath sha256 (.file fileName content)) = true := by
      by_contra many
      rw [validateDatasetFormat_none_iff.mpr (Bool.eq_false_iff.mpr many)] at checked
      simp at checked
    have object : shipment.client.object (shipment.storagePath sha256 (.file fileName content)) =
        .ok content := by
      refine delivered.reads.gets _ _ ?_
      rw [delivered.stored]
      exact AList.lookup_insert _
    have finished := download_object single object delivered.empty
    exact ⟨⟨_, checked⟩, _, _, finished, datasetLoadSpec_of_accepted checked finished _⟩

/-! ## A directory with one file -/

theorem datasetFiles_single {disk : LocalDisk} {below : List (List (List Char))}
    {localDir : List (List Char)} {name : List Char}
    (there : disk (resolve ['.', '.'] [] localDir) = some .directory)
    (lists : disk.Lists (resolve ['.', '.'] [] localDir) below)
    (only : ∀ names ≠ [], (∃ content, disk (resolve ['.', '.'] [] localDir ++ names) =
      some (.file content)) ↔ names = [name]) :
    datasetFiles disk below localDir = .ok [localDir ++ [name]] := by
  have members : ∀ names, names ∈ below.filter (fun names =>
      disk.isFile (resolve ['.', '.'] [] localDir ++ names)) ↔ names ∈ [[name]] := by
    intro names
    rw [List.mem_filter, LocalDisk.isFile_iff, List.mem_singleton]
    constructor
    · rintro ⟨-, content, stored⟩
      refine (only names ?_).mp ⟨content, stored⟩
      rintro rfl
      rw [List.append_nil, there] at stored
      simp at stored
    · rintro rfl
      obtain ⟨content, stored⟩ := (only [name] (List.cons_ne_nil _ _)).mpr rfl
      exact ⟨lists.files _ (List.cons_ne_nil _ _) content stored, content, stored⟩
  have found := List.perm_singleton.mp ((List.perm_ext_iff_of_nodup (lists.nodup.filter _)
    (List.nodup_singleton _)).mpr members)
  simp only [datasetFiles, there, found, List.map_singleton, List.mergeSort_singleton]

theorem Delivered.download_directory (hex : HexDigest sha256)
    (delivered : shipment.Delivered sha256 (.directory (.single fileName content))) :
    (shipment.fetched sha256 (.directory (.single fileName content))).result =
        .ok shipment.localDir ∧
      (shipment.fetched sha256 (.directory (.single fileName content))).disk.Extracted
        shipment.localDir (FileTree.single fileName content).files := by
  have many := not_isSingleFile_directory shipment.name hex
    (FileTree.single fileName content).fields.flatten
  have samePrefix := datasetPrefix_directory hex shipment.name
    (FileTree.single fileName content).fields.flatten
  rw [← checksumDirectory_eq sha256] at many samePrefix
  have reads := delivered.reads
  have alone := delivered.alone
  rw [delivered.stored] at reads
  rw [storagePath, LocalPath.storageShape, LocalPath.checksum, samePrefix] at alone
  obtain ⟨returned, done, all, extracted⟩ := download_putFiles many samePrefix
    (List.cons_ne_nil _ _ : (FileTree.single fileName content).files ≠ [])
    (fun key member => by
      obtain ⟨file, listed, same⟩ := List.mem_map.mp (alone key member)
      exact ⟨file, listed, same.symm⟩)
    reads delivered.empty
  obtain rfl := List.perm_singleton.mp all
  exact ⟨returned, extracted⟩

/-- The verdict on a directory with one file is that of the trainer. -/
theorem Sound.directory_verdict_iff (hex : HexDigest sha256)
    (sound : shipment.Sound sha256 (.directory (.single fileName content))) {format : String} :
    shipment.verdict sha256 (.directory (.single fileName content)) = .ok format ↔
      formatBySuffix.lookup (fileExtension fileName.text) = some format := by
  obtain ⟨finished, extracted⟩ := sound.download_directory hex
  have many := not_isSingleFile_directory shipment.name hex
    (FileTree.single fileName content).fields.flatten
  rw [← checksumDirectory_eq sha256] at many
  have there := extracted.made _
    (mem_visited.mpr ⟨shipment.localDir, List.prefix_rfl, sound.named, rfl⟩)
  have only : ∀ names ≠ [],
      (∃ stored, (shipment.fetched sha256 (.directory (.single fileName content))).disk
        (resolve ['.', '.'] [] shipment.localDir ++ names) = some (.file stored)) ↔
          names = [fileName.text] := by
    intro names nonempty
    simp only [extracted.files names nonempty]
    constructor
    · rintro ⟨_, file, member, rfl, rfl⟩
      rw [List.mem_singleton.mp member]
    · rintro rfl
      exact ⟨content, _, List.mem_singleton_self _, rfl, rfl⟩
  have files := datasetFiles_single there (sound.lists _ finished) only
  have deferred : ∃ declared, validateDatasetFormat
      (shipment.storagePath sha256 (.directory (.single fileName content))) = .ok declared :=
    ⟨none, validateDatasetFormat_none_iff.mpr (Bool.eq_false_iff.mpr many)⟩
  have name : (shipment.localDir ++ [fileName.text]).getLast?.getD [] = fileName.text := by
    rw [List.getLast?_concat]
    rfl
  rw [verdict_ok_iff, and_iff_right deferred, ← name, ← loaderFormat_single]
  constructor
  · rintro ⟨target, loaded, returned, spec⟩
    obtain rfl := Except.ok.inj (finished.symm.trans returned)
    rw [datasetLoadSpec_of_files files] at spec
    cases read : loaderFormat shipment.localDir [shipment.localDir ++ [fileName.text]] with
    | error message => simp [read, Except.map] at spec
    | ok found =>
        rw [read] at spec
        cases spec
        rfl
  · intro read
    refine ⟨_, [pathText (shipment.localDir ++ [fileName.text])], finished, ?_⟩
    rw [datasetLoadSpec_of_files files, read]
    rfl

end Shipment

/-! ## Shipments that are sound -/

/-- A client that lists a bucket in one page. -/
def Bucket.client (bucket : Bucket) (datasetPath : String) : GarageClient where
  bucketName := "datasets"
  pages := .ok [bucket.under (datasetPrefix datasetPath)]
  object := fun key =>
    match bucket.lookup key with
    | some content => .ok content
    | none => .error "Not Found"

theorem Bucket.client_reads (bucket : Bucket) (datasetPath : String) :
    (bucket.client datasetPath).Reads bucket datasetPath where
  lists := ⟨_, rfl, by rw [List.flatten_singleton]⟩
  gets := fun key content found => by simp only [client, found]

theorem uploadFiles_nil (keyPrefix : String) (files : List (RelativePath × Bytes))
    (bucket : Bucket) :
    uploadFiles keyPrefix [] files bucket =
      (.ok (files.map (objectKey keyPrefix)), bucket.putFiles keyPrefix files) := by
  induction files generalizing bucket with
  | nil => rfl
  | cons file files ih =>
      simp only [uploadFiles, List.headD_nil, uploadFile, List.tail_nil, ih]
      rfl

theorem verifyUpload_self (keys : List String) : verifyUpload keys [keys] = .ok () := by
  have none : keys.filter (fun key => key ∉ [keys].flatten) = [] :=
    List.filter_eq_nil_iff.mpr fun key member => by simpa using member
  rw [verifyUpload, none]
  rfl

theorem uploadDataset_nil (path : LocalPath) (name version : String) (bucket : Bucket) :
    (uploadDataset [] [path.keys (path.storageShape name version).1] path name version bucket).1 =
      .ok (path.storageShape name version) := by
  cases path with
  | file fileName content =>
      simp [uploadDataset, uploadFile, LocalPath.storageShape]
  | directory tree =>
      simp [uploadDataset, uploadFiles_nil, verifyUpload_self, LocalPath.storageShape,
        LocalPath.keys]

namespace Shipment

/-- A shipment through an empty bucket to a bare disk. -/
def plain (sha256 : Bytes → String) (path : LocalPath) (below : List (List (List Char))) :
    Shipment :=
  let storagePath := (path.storageShape "demo" (path.checksum sha256)).1
  { name := "demo"
    faults := []
    pages := [path.keys storagePath]
    bucket := ∅
    client := Bucket.client (path.put storagePath ∅) storagePath
    localDir := ["data".toList]
    disk := bareDisk
    below := below }

theorem plain_delivered (sha256 : Bytes → String) (path : LocalPath)
    (below : List (List (List Char))) : (plain sha256 path below).Delivered sha256 path := by
  have uploaded := uploadDataset_nil path "demo" (path.checksum sha256) ∅
  have stored : ((plain sha256 path below).upload sha256 path).2 =
      path.put ((plain sha256 path below).storagePath sha256 path) ∅ :=
    (uploadDataset_ok (Prod.ext uploaded rfl)).2
  refine ⟨⟨_, uploaded⟩, fun key member => ?_, ?_, List.cons_ne_nil _ _, bareDisk_emptyDir⟩
  · cases member
  · rw [stored]
    exact Bucket.client_reads _ _

theorem plain_object_sound (hex : HexDigest sha256)
    (suffixed : fileExtension fileName.text ≠ "") :
    (plain sha256 (.file fileName content) []).Sound sha256 (.file fileName content) := by
  have delivered := plain_delivered sha256 (.file fileName content) []
  have single : isSingleFile ((plain sha256 (.file fileName content) []).storagePath sha256
      (.file fileName content)) = true := by
    rw [isSingleFile_iff, Ne, ← fileExtension_eq_empty, fileExtension_storagePath hex]
    exact suffixed
  refine ⟨delivered, fun target finished => ⟨List.nodup_nil, ?_⟩⟩
  intro names nonempty stored there
  obtain ⟨rfl, written, disk⟩ := download_single single finished
  have vacant := delivered.empty.empty
    (PurePosixPath.name ((plain sha256 (.file fileName content) []).storagePath sha256
      (.file fileName content)) :: names) (List.cons_ne_nil _ _)
  rw [fetched, disk, resolve_concat (name_ne_parent single),
    Function.update_of_ne (by simpa using nonempty), List.append_assoc, List.singleton_append,
    vacant] at there
  cases there

theorem plain_directory_sound (hex : HexDigest sha256) :
    (plain sha256 (.directory (.single fileName content)) [[fileName.text]]).Sound sha256
      (.directory (.single fileName content)) := by
  have delivered := plain_delivered sha256 (.directory (.single fileName content))
    [[fileName.text]]
  obtain ⟨returned, extracted⟩ := delivered.download_directory hex
  refine ⟨delivered, fun target finished => ⟨List.nodup_singleton _, ?_⟩⟩
  obtain rfl := Except.ok.inj (returned.symm.trans finished)
  intro names nonempty stored there
  obtain ⟨file, member, same, _⟩ := (extracted.files names nonempty stored).mp there
  rw [List.mem_singleton.mp member] at same
  exact List.mem_singleton.mpr same.symm

end Shipment

/-! ## The verdicts -/

section Verdicts

variable {sha256 : Bytes → String} {fileName : FileName} {content : Bytes}

/-- The two tables of formats agree on all extensions but one. -/
theorem tables_agree {extension format : String} (other : extension ≠ "jsonl") :
    format ∈ supportedFormats ∧ extension = format ↔
      formatBySuffix.lookup extension = some format := by
  constructor
  · rintro ⟨supported, rfl⟩
    exact formatBySuffix_supported _ supported
  · intro found
    simp only [formatBySuffix, List.lookup_cons, List.lookup_nil] at found
    grind [supportedFormats]

theorem not_sameVerdict_jsonl (hex : HexDigest sha256)
    (lines : fileExtension fileName.text = "jsonl") : ¬ SameVerdict sha256 fileName content := by
  intro same
  have suffixed : fileExtension fileName.text ≠ "" := by
    rw [lines]
    decide
  have object : (Shipment.plain sha256 (.file fileName content) []).Sound sha256
      (.file fileName content) := Shipment.plain_object_sound hex suffixed
  have directory : (Shipment.plain sha256 (.directory (.single fileName content))
      [[fileName.text]]).Sound sha256 (.directory (.single fileName content)) :=
    Shipment.plain_directory_sound hex
  have accepted := (same _ _ object directory "json").mpr
    ((directory.directory_verdict_iff hex).mpr (by rw [lines]; decide))
  have declared := ((object.object_verdict_iff hex).mp accepted).2
  rw [lines] at declared
  exact absurd declared (by decide)

/-- The verdicts agree exactly for the other extensions. -/
theorem same_verdict_iff (hex : HexDigest sha256) :
    SameVerdict sha256 fileName content ↔ fileExtension fileName.text ≠ "jsonl" := by
  constructor
  · intro same lines
    exact not_sameVerdict_jsonl hex lines same
  · intro other object directory objectSound directorySound format
    rw [objectSound.object_verdict_iff hex, directorySound.directory_verdict_iff hex]
    exact tables_agree other

end Verdicts

/-! ## Two files -/

/-- A digest that is SHA-256 on the files `train.csv` and `b.jsonl` with the content
`{}`, by themselves and in a directory. -/
def formatDigest (bytes : Bytes) : String :=
  if bytes = encode "train.csv\x7b\x7d" then
    "7eb43f9c9b2f68f458fda1fb4973f2941fef14bddb110d769650cb5d708ad5d4"
  else if bytes = encode "b.jsonl\x7b\x7d" then
    "fd6a137c99f8f0ba44e0b41a3c726353b2037860f578448ae10290af8137f9ed"
  else
    "44136fa355b3678a1146ad16f7e8649e94fb4fc21fe77e8310c060f61caaff8a"

theorem formatDigest_hex : HexDigest formatDigest :=
  .of_isHexDigest fun bytes => by
    unfold formatDigest
    split_ifs <;> decide +kernel

def tableFile : FileName :=
  ⟨"train.csv".toList, by decide⟩

def linesFile : FileName :=
  ⟨"b.jsonl".toList, by decide⟩

theorem same_verdict_iff_tableFile :
    SameVerdict formatDigest tableFile (encode "\x7b\x7d") ↔
      fileExtension tableFile.text ≠ "jsonl" :=
  same_verdict_iff formatDigest_hex

/-- The file `b.jsonl` is rejected as an object. -/
theorem jsonl_object_rejected :
    ¬ ∀ sha256 : Bytes → String, HexDigest sha256 →
      ∀ (fileName : FileName) (content : Bytes), SameVerdict sha256 fileName content := by
  intro same
  have lines : fileExtension linesFile.text = "jsonl" := by decide
  exact not_sameVerdict_jsonl formatDigest_hex lines
    (same formatDigest formatDigest_hex linesFile (encode "\x7b\x7d"))

end Crucible
