import Crucible.StorageShape
import Mathlib.Data.List.Perm.Basic

/-!
# Directories on their way to the worker

What `upload_dataset` stores for a directory, `GarageDatasetStore.download`
puts below the local directory again, file by file.
-/

namespace Crucible

open PathWalks

namespace LocalDisk

/-- The files below a directory are those of a tree. -/
def Holds (disk : LocalDisk) (localDir : List (List Char)) (tree : FileTree) : Prop :=
  ∀ names ≠ [], ∀ content,
    disk (resolve ['.', '.'] [] localDir ++ names) = some (.file content) ↔
      ∃ file ∈ tree.files, file.1.parts = names ∧ file.2 = content

/-- Nothing is below a directory once it has been made, and it can be made. -/
structure EmptyDir (disk : LocalDisk) (localDir : List (List Char)) : Prop where
  passable : ∀ place ∈ visited ['.', '.'] [] localDir, disk.Passable place
  empty : ∀ names ≠ [], disk.withDirectories (visited ['.', '.'] [] localDir)
    (resolve ['.', '.'] [] localDir ++ names) = none

/-- Some files have been written below a directory, and nothing else is there
but the directories on the way to them. -/
structure Extracted (disk : LocalDisk) (localDir : List (List Char))
    (done : List (RelativePath × Bytes)) : Prop where
  made : ∀ place ∈ visited ['.', '.'] [] localDir, disk place = some .directory
  files : ∀ names ≠ [], ∀ content,
    disk (resolve ['.', '.'] [] localDir ++ names) = some (.file content) ↔
      ∃ file ∈ done, file.1.parts = names ∧ file.2 = content
  directories : ∀ names ≠ [],
    disk (resolve ['.', '.'] [] localDir ++ names) = some .directory →
      ∃ file ∈ done, names <+: file.1.parts

end LocalDisk

/-- Neither of two paths leads through the other. -/
def RelativePath.Apart (first second : RelativePath) : Prop :=
  ¬ first.parts <+: second.parts ∧ ¬ second.parts <+: first.parts

theorem RelativePath.Apart.symm {first second : RelativePath} (apart : first.Apart second) :
    second.Apart first :=
  ⟨apart.2, apart.1⟩

theorem FileTree.apart_of_ne (tree : FileTree) {first second : RelativePath × Bytes}
    (member : first ∈ tree.files) (member' : second ∈ tree.files) (distinct : first ≠ second) :
    first.1.Apart second.1 := by
  have samePath : first.1 ≠ second.1 := fun same =>
    distinct (List.inj_on_of_nodup_map tree.nodup_paths member member' same)
  exact ⟨fun through => samePath (tree.apart first member second member' through),
    fun through => samePath (tree.apart second member' first member through).symm⟩

/-! ## Keys and targets -/

theorem RelativePath.asPosix_ne_append (path : RelativePath) (before after : List Char)
    (ends : before = [] ∨ after = []) : path.asPosix.toList ≠ before ++ '/' :: after := by
  intro text
  have parts := path.splitOn_asPosix
  rw [text, List.splitOn_append_cons_self] at parts
  have empty : [] ∈ path.parts := by
    rw [← parts, List.mem_append]
    obtain rfl | rfl := ends
    · exact Or.inl (by simp)
    · exact Or.inr (by simp)
  exact (path.proper [] empty).1 rfl

theorem relativeKey_objectKey (keyPrefix : String) (file : RelativePath × Bytes) :
    relativeKey keyPrefix (objectKey keyPrefix file) = file.1.asPosix := by
  rw [relativeKey, objectKey, String.toList_append, ← String.length_toList, List.drop_left,
    String.ofList_toList]

/-- The target of a file's key is the file's path below the local directory. -/
theorem joinPath_asPosix (localDir : List (List Char)) (path : RelativePath) :
    joinPath localDir path.asPosix = localDir ++ path.parts := by
  have relative : path.asPosix.toList.head? ≠ some '/' := by
    intro head
    obtain ⟨after, text⟩ := List.head?_eq_some_iff.mp head
    exact path.asPosix_ne_append [] after (Or.inl rfl) text
  rw [joinPath, if_neg relative, path.parts_asPosix]

theorem objectKey_getLast (keyPrefix : String) (file : RelativePath × Bytes) :
    (objectKey keyPrefix file).toList.getLast? ≠ some '/' := by
  intro last
  have nonempty : file.1.asPosix.toList ≠ [] := fun empty =>
    file.1.asPosix_ne_empty (String.toList_eq_nil_iff.mp empty)
  rw [objectKey, String.toList_append, List.getLast?_append_of_ne_nil _ nonempty] at last
  obtain ⟨before, text⟩ := List.getLast?_eq_some_iff.mp last
  exact file.1.asPosix_ne_append before [] (Or.inr rfl) text

/-! ## One file after another -/

section Extraction

variable {client : GarageClient} {keyPrefix : String} {localDir : List (List Char)}
  {disk : LocalDisk} {done : List (RelativePath × Bytes)} {file : RelativePath × Bytes}

theorem RelativePath.exists_concat (path : RelativePath) :
    ∃ initial name, path.parts = initial ++ [name] ∧ name ≠ ['.', '.'] ∧
      ∀ part ∈ initial, part ≠ ['.', '.'] := by
  obtain ⟨initial, name, parts⟩ :=
    (List.eq_nil_or_concat' path.parts).resolve_left path.nonempty
  have proper : ∀ part ∈ path.parts, part ≠ ['.', '.'] :=
    fun part member => (path.proper part member).2.2.1
  rw [parts] at proper
  exact ⟨initial, name, parts, proper name (by simp),
    fun part member => proper part (List.mem_append_left _ member)⟩

theorem LocalDisk.Extracted.way (extracted : disk.Extracted localDir done)
    {initial : List (List Char)} {name : List Char}
    (proper : ∀ part ∈ initial, part ≠ ['.', '.'])
    (parts : file.1.parts = initial ++ [name])
    (apart : ∀ other ∈ done, file.1.Apart other.1) :
    ∀ place ∈ visited ['.', '.'] [] (localDir ++ initial),
      disk.Passable place ∧ place ≠ resolve ['.', '.'] [] localDir ++ file.1.parts := by
  intro place member
  obtain above | ⟨before, shorter, nonempty, rfl⟩ := (mem_visited_append_names proper).mp member
  · refine ⟨fun content there => ?_, fun same => ?_⟩
    · rw [extracted.made place above] at there
      cases there
    · obtain ⟨other, listed, through⟩ := extracted.directories _ file.1.nonempty
        (same ▸ extracted.made place above)
      exact (apart other listed).1 through
  · refine ⟨fun content there => ?_, fun same => ?_⟩
    · obtain ⟨other, listed, rfl, _⟩ := (extracted.files before nonempty content).mp there
      refine (apart other listed).2 ?_
      rw [parts]
      exact shorter.trans (List.prefix_append _ _)
    · have long := congrArg List.length (List.append_cancel_left same)
      have short := shorter.length_le
      rw [parts, List.length_append, List.length_singleton] at long
      omega

theorem LocalDisk.Extracted.withFile_eq {initial : List (List Char)} {name : List Char}
    (proper : ∀ part ∈ initial, part ≠ ['.', '.'])
    (parts : file.1.parts = initial ++ [name]) (names : List (List Char)) :
    disk.withFile (localDir ++ initial) name file.2 (resolve ['.', '.'] [] localDir ++ names) =
      if names = file.1.parts then some (.file file.2)
      else if resolve ['.', '.'] [] localDir ++ names ∈
          visited ['.', '.'] [] (localDir ++ initial) then some .directory
      else disk (resolve ['.', '.'] [] localDir ++ names) := by
  have target : resolve ['.', '.'] [] (localDir ++ initial) ++ [name] =
      resolve ['.', '.'] [] localDir ++ file.1.parts := by
    rw [resolve_append, resolve_of_names proper, parts, List.append_assoc]
  rw [withFile, target, Function.update_apply]
  simp only [List.append_cancel_left_eq, withDirectories]

theorem LocalDisk.Extracted.withFile (extracted : disk.Extracted localDir done)
    {initial : List (List Char)} {name : List Char}
    (proper : ∀ part ∈ initial, part ≠ ['.', '.'])
    (parts : file.1.parts = initial ++ [name])
    (accepted : disk.Accepts (localDir ++ initial) name)
    (apart : ∀ other ∈ done, file.1.Apart other.1) :
    (disk.withFile (localDir ++ initial) name file.2).Extracted localDir (file :: done) := by
  have through : ∀ names, resolve ['.', '.'] [] localDir ++ names ∈
      visited ['.', '.'] [] (localDir ++ initial) → names <+: file.1.parts ∨
        disk (resolve ['.', '.'] [] localDir ++ names) = some .directory := by
    intro names member
    obtain above | ⟨before, shorter, _, same⟩ := (mem_visited_append_names proper).mp member
    · exact Or.inr (extracted.made _ above)
    · rw [List.append_cancel_left same, parts]
      exact Or.inl (shorter.trans (List.prefix_append _ _))
  constructor
  · intro place member
    exact withFile_directory file.2 accepted (extracted.made place member)
  · intro names nonempty content
    rw [Extracted.withFile_eq proper parts, List.exists_mem_cons_iff]
    have others : names = file.1.parts → ∀ other ∈ done, other.1.parts ≠ names :=
      fun own other listed same => (apart other listed).1 (by rw [same, own])
    split_ifs with own passed
    · simp only [Option.some.injEq, DiskEntry.file.injEq, own.symm, true_and, iff_self_or]
      rintro ⟨other, listed, same, _⟩
      exact absurd same (others own other listed)
    · refine iff_of_false (by simp) ?_
      rintro (⟨same, _⟩ | ⟨other, listed, same, stored⟩)
      · exact own same.symm
      · obtain below | before := through names passed
        · exact (apart other listed).2 (same ▸ below)
        · have there := (extracted.files names nonempty content).mpr ⟨other, listed, same, stored⟩
          rw [before] at there
          cases there
    · rw [extracted.files names nonempty content]
      exact (or_iff_right fun first => own first.1.symm).symm
  · intro names nonempty there
    rw [Extracted.withFile_eq proper parts] at there
    split_ifs at there with own passed
    · exact ⟨file, List.mem_cons_self, own ▸ List.prefix_rfl⟩
    · obtain below | before := through names passed
      · exact ⟨file, List.mem_cons_self, below⟩
      · obtain ⟨other, listed, below⟩ := extracted.directories names nonempty before
        exact ⟨other, List.mem_cons_of_mem _ listed, below⟩
    · obtain ⟨other, listed, below⟩ := extracted.directories names nonempty there
      exact ⟨other, List.mem_cons_of_mem _ listed, below⟩

theorem downloadKey_extracted (object : client.object (objectKey keyPrefix file) = .ok file.2)
    (extracted : disk.Extracted localDir done) (apart : ∀ other ∈ done, file.1.Apart other.1) :
    ∃ place disk', client.downloadKey keyPrefix localDir (objectKey keyPrefix file) disk =
      (.ok place, disk') ∧ disk'.Extracted localDir (file :: done) := by
  obtain ⟨initial, name, parts, notParent, proper⟩ := file.1.exists_concat
  have target : resolve ['.', '.'] [] (localDir ++ initial) ++ [name] =
      resolve ['.', '.'] [] localDir ++ file.1.parts := by
    rw [resolve_append, resolve_of_names proper, parts, List.append_assoc]
  have way := extracted.way proper parts apart
  have accepted : disk.Accepts (localDir ++ initial) name := by
    refine ⟨notParent, fun place member => (way place member).1, ?_⟩
    rw [target, LocalDisk.withDirectories, if_neg fun member => (way _ member).2 rfl]
    intro there
    obtain ⟨other, listed, through⟩ := extracted.directories _ file.1.nonempty there
    exact (apart other listed).1 through
  refine ⟨_, _, GarageClient.downloadKey_ok_iff.mpr ⟨localDir ++ initial, name, file.2, ?_, object,
    accepted, rfl, rfl⟩, extracted.withFile proper parts accepted apart⟩
  rw [relativeKey_objectKey, joinPath_asPosix, parts, List.append_assoc]

/-- The loop over the keys of some files extracts all of them. -/
theorem downloadKeys_extracted {files : List (RelativePath × Bytes)}
    (objects : ∀ file ∈ files, client.object (objectKey keyPrefix file) = .ok file.2)
    (extracted : disk.Extracted localDir done)
    (apart : files.Pairwise fun first second => first.1.Apart second.1)
    (apartDone : ∀ file ∈ files, ∀ other ∈ done, file.1.Apart other.1) :
    ∃ written disk', client.downloadKeys keyPrefix localDir (files.map (objectKey keyPrefix)) disk =
      ⟨.ok localDir, written, disk'⟩ ∧ disk'.Extracted localDir (files.reverse ++ done) := by
  induction files generalizing disk done with
  | nil => exact ⟨[], disk, rfl, extracted⟩
  | cons file files ih =>
      obtain ⟨first, apart⟩ := List.pairwise_cons.mp apart
      obtain ⟨object, objects⟩ := List.forall_mem_cons.mp objects
      obtain ⟨apartFile, apartFiles⟩ := List.forall_mem_cons.mp apartDone
      obtain ⟨place, disk₁, stored, extracted⟩ := downloadKey_extracted object extracted apartFile
      have apartMore : ∀ other ∈ files, ∀ before ∈ file :: done, other.1.Apart before.1 :=
        fun other member => List.forall_mem_cons.mpr
          ⟨(first other member).symm, apartFiles other member⟩
      obtain ⟨written, disk', rest, extracted⟩ := ih objects extracted apart apartMore
      refine ⟨(objectKey keyPrefix file, place) :: written, disk', ?_, ?_⟩
      · rw [List.map_cons, GarageClient.downloadKeys_cons_ok _ stored, rest]
      · rwa [List.reverse_cons, List.append_assoc, List.singleton_append]

end Extraction

/-! ## The listing of an uploaded directory -/

theorem Bucket.mem_under {bucket : Bucket} {keyPrefix key : String} :
    key ∈ bucket.under keyPrefix ↔ key ∈ bucket ∧ keyPrefix.toList <+: key.toList := by
  rw [under, List.mem_filter, decide_eq_true_iff]
  rfl

theorem Bucket.nodup_under (bucket : Bucket) (keyPrefix : String) :
    (bucket.under keyPrefix).Nodup :=
  bucket.keys_nodup.filter _

/-- If nothing else is under its prefix, the listing of an uploaded directory
consists of the keys of its files. -/
theorem Bucket.under_putFiles {bucket : Bucket} {keyPrefix : String} {tree : FileTree}
    (alone : ∀ key ∈ bucket.under keyPrefix, ∃ file ∈ tree.files, key = objectKey keyPrefix file) :
    ((bucket.putFiles keyPrefix tree.files).under keyPrefix).Perm
      (tree.files.map (objectKey keyPrefix)) := by
  have distinct : (tree.files.map (objectKey keyPrefix)).Nodup := by
    refine List.Nodup.map_on (fun file member file' member' same => ?_)
      (List.Nodup.of_map Prod.fst tree.nodup_paths)
    exact List.inj_on_of_nodup_map tree.nodup_paths member member' (objectKey_injective_path same)
  refine (List.perm_ext_iff_of_nodup (nodup_under _ _) distinct).mpr fun key => ?_
  rw [mem_under, List.mem_map]
  constructor
  · rintro ⟨stored, below⟩
    by_contra other
    have kept : (bucket.putFiles keyPrefix tree.files).lookup key = bucket.lookup key :=
      lookup_putFiles_of_notMem fun file member same => other ⟨file, member, same.symm⟩
    have before : key ∈ bucket := by
      rw [← AList.lookup_isSome, ← kept, AList.lookup_isSome]
      exact stored
    obtain ⟨file, member, same⟩ := alone key (mem_under.mpr ⟨before, below⟩)
    exact other ⟨file, member, same.symm⟩
  · rintro ⟨file, member, rfl⟩
    refine ⟨?_, ?_⟩
    · rw [← AList.lookup_isSome, lookup_putFiles tree.nodup_paths member]
      rfl
    · rw [objectKey, String.toList_append]
      exact List.prefix_append _ _

/-- A listing in any order and in any pages is a listing of the files. -/
theorem exists_order {keyPrefix : String} {files : List (RelativePath × Bytes)}
    {keys : List String} (perm : keys.Perm (files.map (objectKey keyPrefix))) :
    ∃ order : List (RelativePath × Bytes), order.Perm files ∧
      keys = order.map (objectKey keyPrefix) := by
  have arranged := List.eq_map_comp_perm (objectKey keyPrefix)
  obtain ⟨order, keys, perm⟩ := (congrFun₂ arranged keys files).mpr perm
  exact ⟨order, perm, keys⟩

theorem objectKeys_map {keyPrefix : String} {pages : List (List String)}
    {order : List (RelativePath × Bytes)}
    (listed : pages.flatten = order.map (objectKey keyPrefix)) :
    GarageClient.objectKeys pages = order.map (objectKey keyPrefix) := by
  rw [GarageClient.objectKeys, listed, List.filter_eq_self]
  intro key member
  obtain ⟨file, _, rfl⟩ := List.mem_map.mp member
  exact decide_eq_true (objectKey_getLast keyPrefix file)

/-! ## The round trip -/

/-- A client whose calls of a download of a dataset path succeed on a bucket:
the listing gives the keys under the prefix in some order and in some pages. -/
structure GarageClient.Reads (client : GarageClient) (bucket : Bucket) (datasetPath : String) :
    Prop where
  lists : ∃ pages, client.pages = .ok pages ∧
    pages.flatten.Perm (bucket.under (datasetPrefix datasetPath))
  gets : ∀ key content, bucket.lookup key = some content → client.object key = .ok content

section RoundTrip

variable {sha256 : Bytes → String}

/-- The worker looks under the prefix that the script has written. -/
theorem datasetPrefix_directory (hex : HexDigest sha256) (name : String) (bytes : Bytes) :
    datasetPrefix ("datasets/" ++ name ++ "/" ++ sha256 bytes ++ "/") =
      "datasets/" ++ name ++ "/" ++ sha256 bytes ++ "/" := by
  have text : ("datasets/" ++ name ++ "/" ++ sha256 bytes ++ "/").toList =
      ("datasets/" ++ name ++ "/").toList ++ (sha256 bytes).toList ++ ['/'] := by
    simp [String.toList_append]
  rw [datasetPrefix, PythonText.rstrip, text, List.rdropWhile_concat_pos _ _ _ (by decide),
    rdropWhile_slash _ (hex.ne_nil bytes) (hex.slash_notMem bytes)]
  simp [← String.toList_inj, String.toList_append]

theorem LocalDisk.EmptyDir.extracted {disk : LocalDisk} {localDir : List (List Char)}
    (empty : disk.EmptyDir localDir) :
    (disk.withDirectories (visited ['.', '.'] [] localDir)).Extracted localDir [] where
  made := fun place member => if_pos member
  files := fun names nonempty content => by simp [empty.empty names nonempty]
  directories := fun names nonempty there => by simp [empty.empty names nonempty] at there

theorem LocalDisk.Extracted.holds {disk : LocalDisk} {localDir : List (List Char)}
    {done : List (RelativePath × Bytes)} {tree : FileTree}
    (extracted : disk.Extracted localDir done) (all : done.Perm tree.files) :
    disk.Holds localDir tree := by
  intro names below content
  rw [extracted.files names below content]
  simp only [all.mem_iff]

theorem download_putFiles {keyPrefix : String} (many : ¬ isSingleFile keyPrefix = true)
    (samePrefix : datasetPrefix keyPrefix = keyPrefix) {tree : FileTree}
    (nonempty : tree.files ≠ []) {bucket : Bucket}
    (alone : ∀ key ∈ bucket.under keyPrefix, ∃ file ∈ tree.files, key = objectKey keyPrefix file)
    {client : GarageClient} (reads : client.Reads (bucket.putFiles keyPrefix tree.files) keyPrefix)
    {disk : LocalDisk} {localDir : List (List Char)} (empty : disk.EmptyDir localDir) :
    (client.download keyPrefix localDir disk).result = .ok localDir ∧
      ∃ done : List (RelativePath × Bytes), done.Perm tree.files ∧
        (client.download keyPrefix localDir disk).disk.Extracted localDir done := by
  obtain ⟨pages, listed, perm⟩ := reads.lists
  rw [samePrefix] at perm
  obtain ⟨order, arranged, flattened⟩ := exists_order (perm.trans (Bucket.under_putFiles alone))
  have found := objectKeys_map flattened
  have some : GarageClient.objectKeys pages ≠ [] := by
    rw [found]
    exact fun none => nonempty (List.map_eq_nil_iff.mp none ▸ arranged).nil_eq.symm
  have objects : ∀ file ∈ order, client.object (objectKey keyPrefix file) = .ok file.2 :=
    fun file member => reads.gets _ _
      (Bucket.lookup_putFiles tree.nodup_paths (arranged.mem_iff.mp member))
  have apart : order.Pairwise fun first second => first.1.Apart second.1 :=
    (arranged.nodup_iff.mpr (List.Nodup.of_map Prod.fst tree.nodup_paths)).pairwise_of_forall_ne
      fun file member file' member' distinct =>
        tree.apart_of_ne (arranged.mem_iff.mp member) (arranged.mem_iff.mp member') distinct
  have made := LocalDisk.mkdir_ok_iff.mpr ⟨empty.passable, rfl, rfl⟩
  obtain ⟨written, disk', ran, extracted⟩ :=
    downloadKeys_extracted objects empty.extracted apart (by simp)
  rw [GarageClient.download_eq many made listed some, samePrefix, found, ran]
  rw [List.append_nil] at extracted
  exact ⟨rfl, order.reverse, (List.reverse_perm order).trans arranged, extracted⟩

/-- A directory that has been uploaded is downloaded as it was. -/
theorem directory_round_trip (hex : HexDigest sha256) {tree : FileTree}
    (nonempty : tree.files ≠ []) {name : String} {bucket bucket' : Bucket}
    (alone : ∀ key ∈ bucket.under
        ("datasets/" ++ name ++ "/" ++ checksumDirectory sha256 tree ++ "/"),
      ∃ file ∈ tree.files, key =
        objectKey ("datasets/" ++ name ++ "/" ++ checksumDirectory sha256 tree ++ "/") file)
    {faults : List Fault} {pages : List (List String)} {shape : String × PathType}
    (uploaded : uploadDataset faults pages (.directory tree) name
      (checksumDirectory sha256 tree) bucket = (.ok shape, bucket'))
    {client : GarageClient} (reads : client.Reads bucket' shape.1)
    {disk : LocalDisk} {localDir : List (List Char)} (empty : disk.EmptyDir localDir) :
    (client.download shape.1 localDir disk).result = .ok localDir ∧
      (client.download shape.1 localDir disk).disk.Holds localDir tree := by
  obtain ⟨rfl, rfl⟩ := uploadDataset_ok uploaded
  have many := not_isSingleFile_directory name hex tree.fields.flatten
  have samePrefix := datasetPrefix_directory hex name tree.fields.flatten
  rw [← checksumDirectory_eq sha256] at many samePrefix
  obtain ⟨returned, done, all, extracted⟩ :=
    download_putFiles many samePrefix nonempty alone reads empty
  exact ⟨returned, extracted.holds all⟩

end RoundTrip

/-! ## Two files in pages of one key -/

def nestedDigest (_ : Bytes) : String :=
  "a5c06387f76389eb24e8b97ddb702e8fb3205b84760866986cccac7768ac9c11"

theorem nestedDigest_hex : HexDigest nestedDigest :=
  .of_isHexDigest fun _ => by
    rw [nestedDigest]
    decide +kernel

def nestedTree : FileTree where
  files := [(⟨["a".toList, "b.csv".toList], by decide, by decide⟩, "1".toUTF8.toList),
    (⟨["c.csv".toList], by decide, by decide⟩, "2".toUTF8.toList)]
  sorted := by decide
  apart := by decide

/-- A bucket with another version, and with a dataset whose name is longer. -/
def neighbourBucket : Bucket :=
  AList.insert "datasets/demo/00/c.csv" [] (AList.insert "datasets/demo2/00/c.csv" [] ∅)

def nestedPath : String :=
  "datasets/demo/a5c06387f76389eb24e8b97ddb702e8fb3205b84760866986cccac7768ac9c11/"

def nestedUpload : Except UploadError (String × PathType) × Bucket :=
  uploadDataset [] [nestedTree.files.map (objectKey nestedPath)] (.directory nestedTree) "demo"
    (checksumDirectory nestedDigest nestedTree) neighbourBucket

/-- A client that reads that bucket, with a page for each key, last key first. -/
def nestedClient : GarageClient where
  bucketName := "datasets"
  pages := .ok ((nestedTree.files.map fun file => [objectKey nestedPath file]).reverse)
  object := fun key =>
    match nestedUpload.2.lookup key with
    | some content => .ok content
    | none => .error "Not Found"

theorem nestedPath_eq : nestedPath =
    "datasets/" ++ "demo" ++ "/" ++ checksumDirectory nestedDigest nestedTree ++ "/" := by
  decide +kernel

theorem nestedUpload_eq : nestedUpload = (.ok (nestedPath, .prefixed), nestedUpload.2) :=
  Prod.ext (by decide +kernel) rfl

theorem neighbourBucket_alone : ∀ key ∈ neighbourBucket.under nestedPath,
    ∃ file ∈ nestedTree.files, key = objectKey nestedPath file := by
  rw [show neighbourBucket.under nestedPath = [] by decide +kernel]
  exact fun _ member => absurd member List.not_mem_nil

theorem nestedClient_reads : nestedClient.Reads nestedUpload.2 nestedPath where
  lists := by
    have samePrefix : datasetPrefix nestedPath = nestedPath := by
      rw [nestedPath_eq]
      exact datasetPrefix_directory nestedDigest_hex "demo" _
    have stored := (uploadDataset_ok nestedUpload_eq).2
    refine ⟨_, rfl, ?_⟩
    rw [samePrefix, stored]
    exact (List.reverse_perm (nestedTree.files.map fun file => [objectKey nestedPath file])).flatten
      |>.trans (Bucket.under_putFiles neighbourBucket_alone).symm
  gets := fun key content found => by simp only [nestedClient, found]

theorem bareDisk_emptyDir : bareDisk.EmptyDir ["data".toList] where
  passable := fun place _ content => by
    unfold bareDisk
    split_ifs <;> simp
  empty := fun names nonempty => by
    simp [LocalDisk.withDirectories, visited, follow, resolve, bareDisk, nonempty]

theorem directory_round_trip_nestedTree :
    (nestedClient.download nestedPath ["data".toList] bareDisk).result = .ok ["data".toList] ∧
      (nestedClient.download nestedPath ["data".toList] bareDisk).disk.Holds ["data".toList]
        nestedTree :=
  directory_round_trip nestedDigest_hex (by decide)
    (by rw [← nestedPath_eq]; exact neighbourBucket_alone)
    nestedUpload_eq nestedClient_reads bareDisk_emptyDir

end Crucible
