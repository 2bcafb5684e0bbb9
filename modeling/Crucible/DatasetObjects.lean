import Crucible.FormatGate

/-!
# Objects of datasets in one bucket

All datasets share one bucket, and keys are joined from names and checksums.
If names have no slash and checksums tell contents apart, an object under the
storage path of a dataset is one of its own, whoever has written it, and a
bucket with all objects of a dataset is downloaded as that dataset.
-/

namespace Crucible

open PathWalks

/-- The objects that `upload_dataset` writes for a local path. -/
def LocalPath.objects (storagePath : String) : LocalPath → List (String × Bytes)
  | .file _ content => [(storagePath, content)]
  | .directory tree => tree.files.map fun file => (objectKey storagePath file, file.2)

theorem LocalPath.put_eq_foldl (storagePath : String) (bucket : Bucket) (path : LocalPath) :
    path.put storagePath bucket =
      (path.objects storagePath).foldl (fun bucket object => bucket.insert object.1 object.2)
        bucket := by
  cases path with
  | file fileName content => rfl
  | directory tree =>
      rw [LocalPath.objects, List.foldl_map]
      rfl

/-- Two local paths with the same content; the names of files do not count. -/
def LocalPath.SameContent : LocalPath → LocalPath → Prop
  | .file _ content, .file _ content' => content = content'
  | .directory tree, .directory tree' => tree = tree'
  | _, _ => False

/-- The arguments of a run of `main`. -/
structure Submission where
  name : String
  path : LocalPath
  sourceDescription : Option String
  deriving DecidableEq

namespace Submission

variable (sha256 : Bytes → String)

def registration (submission : Submission) : Registration :=
  submission.path.registration sha256 submission.name submission.sourceDescription

def objects (submission : Submission) : List (String × Bytes) :=
  submission.path.objects (submission.registration sha256).storagePath

/-- Submissions whose objects cannot be mistaken for each other's. -/
structure Distinguished (submissions : Set Submission) : Prop where
  flat : ∀ submission ∈ submissions, '/' ∉ submission.name.toList
  contents : ∀ first ∈ submissions, ∀ second ∈ submissions,
    first.path.checksum sha256 = second.path.checksum sha256 →
    first.path.SameContent second.path

/-- Where an object of a dataset is, below the name of the dataset. -/
def Places (submission : Submission) (place : List Char) (content : Bytes) : Prop :=
  match submission.path with
  | .file fileName stored =>
      place = (checksumFile sha256 stored).toList ++ PurePosixPath.nameSuffix fileName.text ∧
        content = stored
  | .directory tree => ∃ file ∈ tree.files,
      place = (checksumDirectory sha256 tree).toList ++ '/' :: file.1.asPosix.toList ∧
        content = file.2

end Submission

section Keys

variable {sha256 : Bytes → String} {submission other : Submission} {key : String}
  {content : Bytes}

/-- The common form of all keys of datasets. -/
def datasetKey (name place : List Char) : List Char :=
  "datasets/".toList ++ (name ++ '/' :: place)

/-- What is before the first slash, and what is behind it. -/
theorem append_slash_inj {first second rest rest' : List Char} (flat : '/' ∉ first)
    (flat' : '/' ∉ second) (same : first ++ '/' :: rest = second ++ '/' :: rest') :
    first = second ∧ rest = rest' := by
  have before {text rest : List Char} (flat : '/' ∉ text) :
      (text ++ '/' :: rest).takeWhile (· ≠ '/') = text := by
    have inside : ∀ char ∈ text, decide (char ≠ '/') = true := fun char member =>
      decide_eq_true fun slash => flat (slash ▸ member)
    rw [List.takeWhile_append_of_pos inside]
    simp
  have firsts : first = second := by rw [← before flat, same, before flat']
  subst firsts
  exact ⟨rfl, List.tail_eq_of_cons_eq (List.append_cancel_left same)⟩

theorem datasetKey_inj {name name' place place' : List Char} (flat : '/' ∉ name)
    (flat' : '/' ∉ name') (same : datasetKey name place = datasetKey name' place') :
    name = name' ∧ place = place' :=
  append_slash_inj flat flat' (List.append_cancel_left same)

theorem toList_datasetPath (name version tail : String) :
    ("datasets/" ++ name ++ "/" ++ version ++ tail).toList =
      datasetKey name.toList (version.toList ++ tail.toList) := by
  simp only [String.toList_append, List.append_assoc]
  rfl

theorem datasetKey_append (name place rest : List Char) :
    datasetKey name place ++ rest = datasetKey name (place ++ rest) := by
  unfold datasetKey
  rw [List.append_assoc, List.append_assoc, List.cons_append]

theorem toList_objectKey (name version : String) (file : RelativePath × Bytes) :
    (objectKey ("datasets/" ++ name ++ "/" ++ version ++ "/") file).toList =
      datasetKey name.toList (version.toList ++ '/' :: file.1.asPosix.toList) := by
  have slash : "/".toList = ['/'] := rfl
  have above := toList_datasetPath name version "/"
  unfold objectKey
  rw [String.toList_append, above, datasetKey_append, slash, List.append_assoc,
    List.singleton_append]

theorem Submission.mem_objects_iff : (key, content) ∈ submission.objects sha256 ↔
    ∃ place, key.toList = datasetKey submission.name.toList place ∧
      submission.Places sha256 place content := by
  obtain ⟨name, path, description⟩ := submission
  cases path with
  | file fileName stored =>
      have text := toList_datasetPath name (checksumFile sha256 stored)
        (String.ofList (PurePosixPath.nameSuffix fileName.text))
      rw [String.toList_ofList] at text
      change (key, content) ∈ [(_, stored)] ↔ ∃ place, _ ∧ place = _ ∧ content = stored
      rw [List.mem_singleton, Prod.mk.injEq, ← String.toList_inj]
      constructor
      · rintro ⟨same, rfl⟩
        exact ⟨_, same.trans text, rfl, rfl⟩
      · rintro ⟨place, same, rfl, rfl⟩
        exact ⟨same.trans text.symm, rfl⟩
  | directory tree =>
      have text := toList_objectKey name (checksumDirectory sha256 tree)
      change (key, content) ∈ tree.files.map _ ↔
        ∃ place, _ ∧ ∃ file ∈ tree.files, place = _ ∧ content = file.2
      rw [List.mem_map]
      constructor
      · rintro ⟨file, member, same⟩
        obtain ⟨rfl, rfl⟩ := Prod.mk.inj same
        exact ⟨_, text file, file, member, rfl, rfl⟩
      · rintro ⟨place, same, file, member, rfl, rfl⟩
        refine ⟨file, member, Prod.ext ?_ rfl⟩
        exact String.toList_inj.mp ((text file).trans same.symm)

theorem slash_notMem_filePlace (hex : HexDigest sha256) (fileName : FileName) (stored : Bytes) :
    '/' ∉ (checksumFile sha256 stored).toList ++ PurePosixPath.nameSuffix fileName.text := by
  rw [List.mem_append, not_or]
  exact ⟨hex.slash_notMem _, fun member =>
    fileName.proper.2.2.2 ((nameSuffix_suffix fileName.text).subset member)⟩

namespace Submission

variable {place : List Char} {tree : FileTree}

theorem Places.of_directory (hex : HexDigest sha256)
    (same : submission.path.checksum sha256 = checksumDirectory sha256 tree →
      submission.path.SameContent (.directory tree)) {rest : List Char}
    (placed : submission.Places sha256 ((checksumDirectory sha256 tree).toList ++ '/' :: rest)
      content) :
    ∃ file ∈ tree.files, rest = file.1.asPosix.toList ∧ content = file.2 := by
  obtain ⟨name, path, description⟩ := submission
  cases path with
  | file fileName stored =>
      refine absurd ?_ (slash_notMem_filePlace hex fileName stored)
      rw [← placed.1]
      simp
  | directory own =>
      obtain ⟨file, member, text, rfl⟩ := placed
      obtain ⟨versions, rfl⟩ := append_slash_inj (hex.slash_notMem _) (hex.slash_notMem _) text
      obtain rfl : own = tree := same (String.toList_inj.mp versions).symm
      exact ⟨file, member, rfl, rfl⟩

theorem Places.of_file (hex : HexDigest sha256) {fileName : FileName} {stored : Bytes}
    (same : submission.path.checksum sha256 = checksumFile sha256 stored →
      submission.path.SameContent (.file fileName stored))
    (placed : submission.Places sha256
      ((checksumFile sha256 stored).toList ++ PurePosixPath.nameSuffix fileName.text) content) :
    content = stored := by
  obtain ⟨name, path, description⟩ := submission
  cases path with
  | file own content' =>
      obtain ⟨text, rfl⟩ := placed
      have versions := (List.append_inj text ((hex.length _).trans (hex.length _).symm)).1
      exact same (String.toList_inj.mp versions).symm
  | directory own =>
      obtain ⟨file, _, text, _⟩ := placed
      refine absurd ?_ (slash_notMem_filePlace hex fileName stored)
      simp [text]

end Submission

end Keys

/-! ## Buckets -/

namespace Bucket

variable {sha256 : Bytes → String} {submissions : Set Submission} {submission : Submission}
  {bucket : Bucket} {key : String} {content : Bytes}

/-- All objects of datasets in a bucket belong to one of some submissions. -/
def Known (sha256 : Bytes → String) (submissions : Set Submission) (bucket : Bucket) : Prop :=
  ∀ key content, bucket.lookup key = some content → "datasets/".toList <+: key.toList →
    ∃ submission ∈ submissions, (key, content) ∈ submission.objects sha256

def Complete (sha256 : Bytes → String) (bucket : Bucket) (submission : Submission) : Prop :=
  ∀ object ∈ submission.objects sha256, object.1 ∈ bucket

theorem Known.insert (known : bucket.Known sha256 submissions) (member : submission ∈ submissions)
    (object : (key, content) ∈ submission.objects sha256) :
    Known sha256 submissions (AList.insert key content bucket) := by
  intro other stored found below
  rw [KeyedTable.lookup_insert] at found
  split at found
  case isTrue same =>
    cases found
    exact ⟨submission, member, same ▸ object⟩
  case isFalse => exact known other stored found below

/-- Where an object of a dataset in a bucket comes from. -/
theorem Known.places (known : bucket.Known sha256 submissions)
    (distinguished : Submission.Distinguished sha256 submissions)
    (member : submission ∈ submissions) {place : List Char}
    (text : key.toList = datasetKey submission.name.toList place)
    (found : bucket.lookup key = some content) :
    ∃ other ∈ submissions, other.Places sha256 place content ∧
      (other.path.checksum sha256 = submission.path.checksum sha256 →
        other.path.SameContent submission.path) := by
  obtain ⟨other, listed, object⟩ := known key content found (by
    rw [text]
    exact List.prefix_append _ _)
  obtain ⟨place', text', placed⟩ := Submission.mem_objects_iff.mp object
  obtain ⟨_, rfl⟩ := datasetKey_inj (distinguished.flat submission member)
    (distinguished.flat other listed) (text.symm.trans text')
  exact ⟨other, listed, placed, distinguished.contents other listed submission member⟩

/-- A known bucket holds under the key of an object that object. -/
theorem Known.lookup_eq (known : bucket.Known sha256 submissions) (hex : HexDigest sha256)
    (distinguished : Submission.Distinguished sha256 submissions)
    (member : submission ∈ submissions) (object : (key, content) ∈ submission.objects sha256)
    (stored : key ∈ bucket) : bucket.lookup key = some content := by
  obtain ⟨content', found⟩ := Option.isSome_iff_exists.mp (AList.lookup_isSome.mpr stored)
  obtain ⟨place, text, placed⟩ := Submission.mem_objects_iff.mp object
  obtain ⟨other, _, placed', same⟩ := known.places distinguished member text found
  rw [found]
  obtain ⟨name, path, description⟩ := submission
  cases path with
  | file fileName stored =>
      obtain ⟨rfl, rfl⟩ := placed
      rw [placed'.of_file hex same]
  | directory tree =>
      obtain ⟨file, listed, rfl, rfl⟩ := placed
      obtain ⟨file', listed', text', rfl⟩ := placed'.of_directory hex same
      have paths : file.1 = file'.1 := RelativePath.asPosix_injective (String.toList_inj.mp text')
      rw [List.inj_on_of_nodup_map tree.nodup_paths listed listed' paths]

/-- Under the storage path of a directory are the keys of its files only. -/
theorem Known.alone (known : bucket.Known sha256 submissions) (hex : HexDigest sha256)
    (distinguished : Submission.Distinguished sha256 submissions) {name : String}
    {tree : FileTree} {description : Option String}
    (member : ⟨name, .directory tree, description⟩ ∈ submissions)
    (under : key ∈ bucket.under
      ("datasets/" ++ name ++ "/" ++ checksumDirectory sha256 tree ++ "/")) :
    ∃ file ∈ tree.files, key =
      objectKey ("datasets/" ++ name ++ "/" ++ checksumDirectory sha256 tree ++ "/") file := by
  obtain ⟨stored, rest, text⟩ := mem_under.mp under
  obtain ⟨content, found⟩ := Option.isSome_iff_exists.mp (AList.lookup_isSome.mpr stored)
  have slash : "/".toList = ['/'] := rfl
  have above := toList_datasetPath name (checksumDirectory sha256 tree) "/"
  rw [above, datasetKey_append, slash, List.append_assoc, List.singleton_append] at text
  obtain ⟨other, _, placed, same⟩ := known.places distinguished member text.symm found
  obtain ⟨file, listed, rfl, _⟩ := placed.of_directory hex same
  refine ⟨file, listed, String.toList_inj.mp ?_⟩
  rw [← text, toList_objectKey]

end Bucket

/-! ## Downloads -/

theorem GarageClient.Reads.congr {client : GarageClient} {bucket bucket' : Bucket}
    {datasetPath : String} (reads : client.Reads bucket datasetPath)
    (same : ∀ key, bucket'.lookup key = bucket.lookup key) : client.Reads bucket' datasetPath where
  lists := by
    obtain ⟨pages, listed, perm⟩ := reads.lists
    refine ⟨pages, listed, perm.trans ?_⟩
    refine (List.perm_ext_iff_of_nodup (Bucket.nodup_under ..) (Bucket.nodup_under ..)).mpr ?_
    intro key
    rw [Bucket.mem_under, Bucket.mem_under, ← AList.lookup_isSome, ← AList.lookup_isSome, same]
  gets := fun key content found => reads.gets key content (same key ▸ found)

theorem downloaded_object {client : GarageClient} {datasetPath : String}
    (single : isSingleFile datasetPath = true) {stored : Bytes}
    (object : client.object datasetPath = .ok stored) {disk : LocalDisk}
    {localDir : List (List Char)} (empty : disk.EmptyDir localDir) :
    (client.download datasetPath localDir disk).disk
      (resolve ['.', '.'] [] localDir ++ [PurePosixPath.name datasetPath]) =
        some (.file stored) := by
  have made := LocalDisk.mkdir_ok_iff.mpr ⟨empty.passable, rfl, rfl⟩
  have vacant : disk.withDirectories (visited ['.', '.'] [] localDir)
      (resolve ['.', '.'] [] localDir ++ [PurePosixPath.name datasetPath]) ≠
        some .directory := by
    rw [empty.empty _ (List.cons_ne_nil _ _)]
    simp
  simp only [GarageClient.download, made, single, if_true, GarageClient.downloadFile]
  rw [GarageClient.transfer_ok_iff.mpr ⟨stored, object,
    LocalDisk.writeFile_ok_iff.mpr ⟨name_ne_parent single, vacant, rfl, rfl⟩⟩]
  exact Function.update_self ..

/-- A download that leaves what a local path names: a file of this content
where it says, or the directory. -/
def LocalPath.Restored (localDir : List (List Char)) (finished : Download) : LocalPath → Prop
  | .file _ content => ∃ name, finished.result = .ok (localDir ++ [name]) ∧
      finished.disk (resolve ['.', '.'] [] localDir ++ [name]) = some (.file content)
  | .directory tree => finished.result = .ok localDir ∧ finished.disk.Holds localDir tree

theorem LocalPath.Restored.congr {localDir : List (List Char)} {finished : Download}
    {path other : LocalPath} (restored : path.Restored localDir finished)
    (same : path.SameContent other) : other.Restored localDir finished := by
  cases path <;> cases other
  case file.file => exact same ▸ restored
  case directory.directory => exact same ▸ restored
  all_goals exact same.elim

/-- What the worker can download: a file with a suffix, or a directory with a file. -/
def LocalPath.Downloadable : LocalPath → Prop
  | .file fileName _ => PurePosixPath.nameSuffix fileName.text ≠ []
  | .directory tree => tree.files ≠ []

theorem Bucket.Known.extracted {sha256 : Bytes → String} (hex : HexDigest sha256)
    {submissions : Set Submission} {bucket : Bucket} (known : bucket.Known sha256 submissions)
    (distinguished : Submission.Distinguished sha256 submissions) {name : String}
    {tree : FileTree} {description : Option String}
    (member : ⟨name, .directory tree, description⟩ ∈ submissions)
    (complete : bucket.Complete sha256 ⟨name, .directory tree, description⟩)
    (nonempty : tree.files ≠ []) {client : GarageClient}
    (reads : client.Reads bucket
      ("datasets/" ++ name ++ "/" ++ checksumDirectory sha256 tree ++ "/"))
    {disk : LocalDisk} {localDir : List (List Char)} (empty : disk.EmptyDir localDir) :
    let finished := client.download
      ("datasets/" ++ name ++ "/" ++ checksumDirectory sha256 tree ++ "/") localDir disk
    finished.result = .ok localDir ∧ ∃ done : List (RelativePath × Bytes),
      done.Perm tree.files ∧ finished.disk.Extracted localDir done := by
  have many := not_isSingleFile_directory name hex tree.fields.flatten
  have samePrefix := datasetPrefix_directory hex name tree.fields.flatten
  rw [← checksumDirectory_eq sha256] at many samePrefix
  have kept : ∀ key, (bucket.putFiles
      ("datasets/" ++ name ++ "/" ++ checksumDirectory sha256 tree ++ "/")
        tree.files).lookup key = bucket.lookup key := by
    intro key
    by_cases own : ∃ file ∈ tree.files, key = objectKey
        ("datasets/" ++ name ++ "/" ++ checksumDirectory sha256 tree ++ "/") file
    · obtain ⟨file, listed, rfl⟩ := own
      have object : (objectKey
          ("datasets/" ++ name ++ "/" ++ checksumDirectory sha256 tree ++ "/") file, file.2) ∈
            Submission.objects sha256 ⟨name, .directory tree, description⟩ :=
        List.mem_map.mpr ⟨file, listed, rfl⟩
      rw [Bucket.lookup_putFiles tree.nodup_paths listed]
      exact (known.lookup_eq hex distinguished member object (complete (_, file.2) object)).symm
    · exact Bucket.lookup_putFiles_of_notMem fun file listed same => own ⟨file, listed, same⟩
  exact download_putFiles many samePrefix nonempty
    (fun key under => known.alone hex distinguished member under) (reads.congr kept) empty

/-- A complete dataset in a known bucket is downloaded as it was. -/
theorem Bucket.Known.restored {sha256 : Bytes → String} (hex : HexDigest sha256)
    {submissions : Set Submission} {bucket : Bucket} (known : bucket.Known sha256 submissions)
    (distinguished : Submission.Distinguished sha256 submissions) {submission : Submission}
    (member : submission ∈ submissions) (complete : bucket.Complete sha256 submission)
    (downloadable : submission.path.Downloadable) {client : GarageClient}
    (reads : client.Reads bucket (submission.registration sha256).storagePath)
    {disk : LocalDisk} {localDir : List (List Char)} (empty : disk.EmptyDir localDir) :
    submission.path.Restored localDir
      (client.download (submission.registration sha256).storagePath localDir disk) := by
  obtain ⟨name, path, description⟩ := submission
  cases path with
  | file fileName content =>
      have single := (isSingleFile_file name hex (hashFileInto [] content) fileName).mpr
        downloadable
      have stored := known.lookup_eq hex distinguished member List.mem_cons_self
        (complete (_, content) List.mem_cons_self)
      have object := reads.gets _ _ stored
      exact ⟨_, Shipment.download_object single object empty, downloaded_object single object empty⟩
  | directory tree =>
      obtain ⟨returned, done, all, extracted⟩ :=
        known.extracted hex distinguished member complete downloadable reads empty
      exact ⟨returned, extracted.holds all⟩

end Crucible
