import Crucible.DatasetRegistrar
import Crucible.PathWalks

/-!
# `GarageDatasetStore.download`

The download of a dataset to the local disk, one call after another.  The disk
is a map from resolved absolute paths to files and directories; there are no
links, so `..` leads to the parent.  Calls of the object store and of the
operating system may fail at any point.
-/

namespace Crucible

inductive DiskEntry where
  | directory
  | file (content : Bytes)
  deriving DecidableEq

/-- The local disk, by the parts of a resolved absolute path. -/
abbrev LocalDisk := List (List Char) → Option DiskEntry

def bareDisk : LocalDisk :=
  fun place => if place = [] then some .directory else none

namespace LocalDisk

/-- Where one part of a path leads. -/
abbrev follow (position : List (List Char)) (part : List Char) : List (List Char) :=
  PathWalks.follow ['.', '.'] position part

/-- `mkdir(parents=True, exist_ok=True)` from a directory on: each part is made
if it is not there, and a file on the way is an error. -/
def mkdir (disk : LocalDisk) (position : List (List Char)) :
    List (List Char) → Option (List (List Char)) × LocalDisk
  | [] => (some position, disk)
  | part :: parts =>
      let next := follow position part
      match disk next with
      | some (.file _) => (none, disk)
      | some .directory => mkdir disk next parts
      | none => mkdir (Function.update disk next (some .directory)) next parts

/-- Writing a file under its name; a directory there is an error. -/
def writeFile (disk : LocalDisk) (position : List (List Char)) (name : List Char)
    (content : Bytes) : Option (List (List Char)) × LocalDisk :=
  let target := position ++ [name]
  if name = ['.', '.'] ∨ disk target = some .directory then
    (none, disk)
  else
    (some target, Function.update disk target (some (.file content)))

end LocalDisk

def isSingleFile (datasetPath : String) : Bool :=
  PurePosixPath.suffix (PythonText.rstrip '/' datasetPath) ≠ ""

/-- `local_dir / relative`; an absolute right side replaces the left one. -/
def joinPath (localDir : List (List Char)) (relative : String) : List (List Char) :=
  if relative.toList.head? = some '/' then
    PurePosixPath.parts relative
  else
    localDir ++ PurePosixPath.parts relative

/-- `key[len(prefix):]`. -/
def relativeKey (keyPrefix key : String) : String :=
  String.ofList (key.toList.drop keyPrefix.length)

/-- The prefix under which `_download_prefix` looks. -/
def datasetPrefix (path : String) : String :=
  PythonText.rstrip '/' path ++ "/"

inductive DownloadError where
  | datasetDownload (message : String)
  | os
  deriving DecidableEq, Repr

/-- What the client does during one `download`: the pages of the listing or the
text of an exception, and for each key the text of an exception or its object. -/
structure GarageClient where
  bucketName : String
  pages : Except String (List (List String))
  object : String → Except String Bytes

/-- A finished `download`: what it returned or raised, the files it wrote with
their keys, and the disk. -/
structure Download where
  result : Except DownloadError (List (List Char))
  written : List (String × List (List Char))
  disk : LocalDisk

namespace GarageClient

variable (client : GarageClient)

/-- The keys of a listing that do not stand for directories. -/
def objectKeys (pages : List (List String)) : List String :=
  pages.flatten.filter fun key => key.toList.getLast? ≠ some '/'

def listKeys (keyPrefix : String) : Except DownloadError (List String) :=
  match client.pages with
  | .error exc => .error (.datasetDownload ("failed to list dataset prefix " ++ keyPrefix ++
      " in bucket " ++ client.bucketName ++ ": " ++ exc))
  | .ok pages => .ok (objectKeys pages)

/-- `client.download_file` into a directory, where `what` is part of the message
that `_download_file` and `_download_prefix` word differently.  An exception of
the operating system is not converted. -/
def transfer (what key : String) (position : List (List Char)) (name : List Char)
    (disk : LocalDisk) : Except DownloadError (List (List Char)) × LocalDisk :=
  match client.object key with
  | .error exc => (.error (.datasetDownload ("failed to download " ++ what ++ key ++
      " from bucket " ++ client.bucketName ++ ": " ++ exc)), disk)
  | .ok content =>
      match disk.writeFile position name content with
      | (none, disk) => (.error .os, disk)
      | (some target, disk) => (.ok target, disk)

/-- The body of the loop in `_download_prefix`. -/
def downloadKey (keyPrefix : String) (localDir : List (List Char)) (key : String)
    (disk : LocalDisk) : Except DownloadError (List (List Char)) × LocalDisk :=
  let target := joinPath localDir (relativeKey keyPrefix key)
  match target.getLast? with
  | none => (.error .os, disk)
  | some name =>
      match disk.mkdir [] target.dropLast with
      | (none, disk) => (.error .os, disk)
      | (some position, disk) => client.transfer "" key position name disk

/-- The loop of `_download_prefix`. -/
def downloadKeys (keyPrefix : String) (localDir : List (List Char)) :
    List String → LocalDisk → Download
  | [], disk => ⟨.ok localDir, [], disk⟩
  | key :: keys, disk =>
      match client.downloadKey keyPrefix localDir key disk with
      | (.error error, disk) => ⟨.error error, [], disk⟩
      | (.ok position, disk) =>
          let rest := downloadKeys keyPrefix localDir keys disk
          { rest with written := (key, position) :: rest.written }

/-- `_download_file`, where `position` is the place of `local_dir`. -/
def downloadFile (key : String) (localDir position : List (List Char)) (disk : LocalDisk) :
    Download :=
  match client.transfer "dataset " key position (PurePosixPath.name key) disk with
  | (.error error, disk) => ⟨.error error, [], disk⟩
  | (.ok target, disk) => ⟨.ok (localDir ++ [PurePosixPath.name key]), [(key, target)], disk⟩

def downloadPrefix (path : String) (localDir : List (List Char)) (disk : LocalDisk) :
    Download :=
  let keyPrefix := datasetPrefix path
  match client.listKeys keyPrefix with
  | .error error => ⟨.error error, [], disk⟩
  | .ok [] => ⟨.error (.datasetDownload ("no dataset objects found under " ++ keyPrefix ++
      " in bucket " ++ client.bucketName)), [], disk⟩
  | .ok (key :: keys) => client.downloadKeys keyPrefix localDir (key :: keys) disk

def download (datasetPath : String) (localDir : List (List Char)) (disk : LocalDisk) :
    Download :=
  match disk.mkdir [] localDir with
  | (none, disk) => ⟨.error .os, [], disk⟩
  | (some position, disk) =>
      if isSingleFile datasetPath then
        client.downloadFile datasetPath localDir position disk
      else
        client.downloadPrefix datasetPath localDir disk

end GarageClient

/-! ## When a target can be written -/

namespace LocalDisk

open PathWalks

def withDirectories (disk : LocalDisk) (places : List (List (List Char))) : LocalDisk :=
  fun place => if place ∈ places then some .directory else disk place

/-- A place where no file is. -/
def Passable (disk : LocalDisk) (place : List (List Char)) : Prop :=
  ∀ content, disk place ≠ some (.file content)

theorem withDirectories_nil (disk : LocalDisk) : disk.withDirectories [] = disk :=
  funext fun _ => if_neg (List.not_mem_nil)

theorem withDirectories_cons (disk : LocalDisk) (place : List (List Char))
    (places : List (List (List Char))) :
    disk.withDirectories (place :: places) =
      LocalDisk.withDirectories (Function.update disk place (some .directory)) places := by
  funext other
  by_cases same : other = place <;> simp [withDirectories, Function.update, same]

theorem update_directory {disk : LocalDisk} {place : List (List Char)}
    (there : disk place = some .directory) :
    Function.update disk place (some .directory) = disk := by
  rw [← there, Function.update_eq_self]

theorem passable_update_iff {disk : LocalDisk} {place passed : List (List Char)}
    (free : disk.Passable place) :
    Passable (Function.update disk place (some .directory)) passed ↔ disk.Passable passed := by
  by_cases same : passed = place
  · simp [Passable, same, free _]
  · simp [Passable, Function.update_of_ne same]

/-- `mkdir` makes directories of all places on the way, unless there is a file. -/
theorem mkdir_ok_iff {disk disk' : LocalDisk} {position place parts : List (List Char)} :
    disk.mkdir position parts = (some place, disk') ↔
      (∀ passed ∈ visited ['.', '.'] position parts, disk.Passable passed) ∧
        place = resolve ['.', '.'] position parts ∧
          disk' = disk.withDirectories (visited ['.', '.'] position parts) := by
  induction parts generalizing disk position with
  | nil =>
      simp [mkdir, visited, resolve, withDirectories_nil, eq_comm]
  | cons part parts ih =>
      have same : resolve ['.', '.'] position (part :: parts) =
          resolve ['.', '.'] (follow position part) parts := rfl
      rw [visited, List.forall_mem_cons, same, withDirectories_cons]
      simp only [mkdir]
      cases next : disk (follow position part) with
      | none =>
          have free : disk.Passable (follow position part) := by simp [Passable, next]
          simp only [ih, passable_update_iff free, free, true_and]
      | some entry =>
          cases entry with
          | file content => simp [Passable, next]
          | directory =>
              have free : disk.Passable (follow position part) := by simp [Passable, next]
              simp only [ih, update_directory next, free, true_and]

theorem writeFile_ok_iff {disk disk' : LocalDisk} {position target : List (List Char)}
    {name : List Char} {content : Bytes} :
    disk.writeFile position name content = (some target, disk') ↔
      name ≠ ['.', '.'] ∧ disk (position ++ [name]) ≠ some .directory ∧
        target = position ++ [name] ∧
          disk' = Function.update disk (position ++ [name]) (some (.file content)) := by
  unfold writeFile
  dsimp only
  split
  case isTrue blocked =>
    refine iff_of_false (by simp) fun ⟨proper, vacant, _⟩ => ?_
    exact blocked.elim proper vacant
  case isFalse free =>
    obtain ⟨proper, vacant⟩ := not_or.mp free
    simp [proper, vacant, eq_comm]

/-- The disk after the directories on a way have been made and a file has been
written at its end. -/
def withFile (disk : LocalDisk) (way : List (List Char)) (name : List Char) (content : Bytes) :
    LocalDisk :=
  Function.update (disk.withDirectories (visited ['.', '.'] [] way))
    (resolve ['.', '.'] [] way ++ [name]) (some (.file content))

/-- Whether a file can be written at the end of a way. -/
structure Accepts (disk : LocalDisk) (way : List (List Char)) (name : List Char) : Prop where
  proper : name ≠ ['.', '.']
  passable : ∀ passed ∈ visited ['.', '.'] [] way, disk.Passable passed
  vacant : disk.withDirectories (visited ['.', '.'] [] way) (resolve ['.', '.'] [] way ++ [name]) ≠
    some .directory

theorem withFile_directory {disk : LocalDisk} {way place : List (List Char)} {name : List Char}
    (content : Bytes) (accepted : disk.Accepts way name) (there : disk place = some .directory) :
    disk.withFile way name content place = some .directory := by
  have kept : disk.withDirectories (visited ['.', '.'] [] way) place = some .directory := by
    unfold withDirectories
    split
    case isTrue => rfl
    case isFalse => exact there
  have other : place ≠ resolve ['.', '.'] [] way ++ [name] := fun same =>
    accepted.vacant (same ▸ kept)
  rw [withFile, Function.update_of_ne other, kept]

end LocalDisk

namespace GarageClient

open PathWalks

theorem transfer_ok_iff {client : GarageClient} {what key : String} {name : List Char}
    {position place : List (List Char)} {disk disk' : LocalDisk} :
    client.transfer what key position name disk = (.ok place, disk') ↔
      ∃ content, client.object key = .ok content ∧
        disk.writeFile position name content = (some place, disk') := by
  unfold transfer
  cases client.object key with
  | error exc => simp
  | ok content =>
      cases written : disk.writeFile position name content with
      | mk target disk₁ => cases target <;> simp [written]

/-- The loop body writes the object at the key's target, if the disk accepts it. -/
theorem downloadKey_ok_iff {client : GarageClient} {keyPrefix key : String}
    {localDir place : List (List Char)} {disk disk' : LocalDisk} :
    client.downloadKey keyPrefix localDir key disk = (.ok place, disk') ↔
      ∃ way name content, joinPath localDir (relativeKey keyPrefix key) = way ++ [name] ∧
        client.object key = .ok content ∧ disk.Accepts way name ∧
          place = resolve ['.', '.'] [] way ++ [name] ∧
            disk' = disk.withFile way name content := by
  unfold downloadKey
  obtain empty | ⟨way, name, joined⟩ :=
    List.eq_nil_or_concat' (joinPath localDir (relativeKey keyPrefix key))
  · simp [empty]
  · simp only [joined, List.getLast?_concat, List.dropLast_concat]
    constructor
    · intro returned
      split at returned
      case h_1 => simp at returned
      case h_2 position disk₁ made =>
        obtain ⟨passable, rfl, rfl⟩ := LocalDisk.mkdir_ok_iff.mp made
        obtain ⟨content, object, written⟩ := transfer_ok_iff.mp returned
        obtain ⟨proper, vacant, rfl, rfl⟩ := LocalDisk.writeFile_ok_iff.mp written
        exact ⟨way, name, content, rfl, object, ⟨proper, passable, vacant⟩, rfl, rfl⟩
    · rintro ⟨way', name', content, same, object, accepted, rfl, rfl⟩
      obtain ⟨rfl, ⟨⟩⟩ := List.append_inj' same rfl
      rw [LocalDisk.mkdir_ok_iff.mpr ⟨accepted.passable, rfl, rfl⟩]
      exact transfer_ok_iff.mpr ⟨content, object,
        LocalDisk.writeFile_ok_iff.mpr ⟨accepted.proper, accepted.vacant, rfl, rfl⟩⟩

theorem downloadKeys_cons_ok {client : GarageClient} {keyPrefix key : String}
    {localDir place : List (List Char)} {disk disk' : LocalDisk} (keys : List String)
    (stored : client.downloadKey keyPrefix localDir key disk = (.ok place, disk')) :
    client.downloadKeys keyPrefix localDir (key :: keys) disk =
      { client.downloadKeys keyPrefix localDir keys disk' with
        written :=
          (key, place) :: (client.downloadKeys keyPrefix localDir keys disk').written } := by
  rw [downloadKeys, stored]

theorem download_eq {client : GarageClient} {datasetPath : String}
    {localDir position : List (List Char)} {disk disk' : LocalDisk} {pages : List (List String)}
    (many : ¬ isSingleFile datasetPath = true)
    (made : disk.mkdir [] localDir = (some position, disk')) (listed : client.pages = .ok pages)
    (some : objectKeys pages ≠ []) :
    client.download datasetPath localDir disk =
      client.downloadKeys (datasetPrefix datasetPath) localDir (objectKeys pages) disk' := by
  obtain ⟨key, keys, found⟩ := List.exists_cons_of_ne_nil some
  simp [download, made, many, downloadPrefix, listKeys, listed, found]

theorem written_of_download {client : GarageClient} {datasetPath key : String}
    {localDir place : List (List Char)} {disk : LocalDisk}
    (many : ¬ isSingleFile datasetPath = true)
    (written : (key, place) ∈ (client.download datasetPath localDir disk).written) :
    ∃ pages position disk', client.pages = .ok pages ∧
      disk.mkdir [] localDir = (some position, disk') ∧
        (key, place) ∈ (client.downloadKeys (datasetPrefix datasetPath) localDir
          (objectKeys pages) disk').written := by
  cases made : disk.mkdir [] localDir with
  | mk reached disk' =>
      cases reached with
      | none => simp [download, made] at written
      | some position =>
          cases listed : client.pages with
          | error exc => simp [download, made, many, downloadPrefix, listKeys, listed] at written
          | ok pages =>
              refine ⟨pages, position, disk', rfl, rfl, ?_⟩
              by_cases none : objectKeys pages = []
              · simp [download, made, many, downloadPrefix, listKeys, listed, none] at written
              · rwa [download_eq many made listed none] at written

end GarageClient

end Crucible
