import Crucible.DatasetChecksum
import Crucible.DatasetSchema

/-!
# `register_dataset`: checksum, layout and upload

What `main` computes before it reserves a row, and `upload_dataset` on a bucket
whose operations may fail at any call.
-/

namespace Crucible

abbrev Bucket := KeyedTable String Bytes

/-- The last part of the path of an existing file. -/
structure FileName where
  text : List Char
  proper : ProperPart text
  deriving DecidableEq

/-- What `--local-path` names. -/
inductive LocalPath where
  | file (name : FileName) (content : Bytes)
  | directory (tree : FileTree)
  deriving DecidableEq

namespace LocalPath

/-- `local_path.suffix` of a file. -/
def suffix : LocalPath → String
  | file name _ => String.ofList (PurePosixPath.nameSuffix name.text)
  | directory _ => ""

/-- The checksum, which is also the version. -/
def checksum (sha256 : Bytes → String) : LocalPath → String
  | file _ content => checksumFile sha256 content
  | directory tree => checksumDirectory sha256 tree

def totalSize : LocalPath → Nat
  | file _ content => content.length
  | directory tree => (tree.files.map fun file => file.2.length).sum

/-- The storage path and its type as `main` determines them. -/
def storageShape (name version : String) : LocalPath → String × PathType
  | path@(file _ _) => ("datasets/" ++ name ++ "/" ++ version ++ path.suffix, .object)
  | directory _ => ("datasets/" ++ name ++ "/" ++ version ++ "/", .prefixed)

/-- The arguments of `reserve_dataset_row`. -/
def registration (sha256 : Bytes → String) (name : String)
    (sourceDescription : Option String) (path : LocalPath) : Registration where
  name := name
  version := path.checksum sha256
  storagePath := (path.storageShape name (path.checksum sha256)).1
  pathType := (path.storageShape name (path.checksum sha256)).2
  sizeBytes := path.totalSize
  sha256Checksum := path.checksum sha256
  sourceDescription := sourceDescription

end LocalPath

/-! ## Uploading -/

inductive UploadError where
  | transfer
  | missingKeys (keys : List String)
  deriving DecidableEq, Repr

/-- `s3.upload_file`. -/
def uploadFile (fault : Fault) (key : String) (content : Bytes) (bucket : Bucket) :
    Except UploadError Unit × Bucket :=
  match fault with
  | .none => (.ok (), bucket.insert key content)
  | .before => (.error .transfer, bucket)
  | .after => (.error .transfer, bucket.insert key content)

/-- The keys that a listing with a prefix returns. -/
def Bucket.under (bucket : Bucket) (keyPrefix : String) : List String :=
  bucket.keys.filter fun key => keyPrefix.toList <+: key.toList

/-- The loop over the files of a directory, with the keys written. -/
def uploadFiles (keyPrefix : String) : List Fault → List (RelativePath × Bytes) → Bucket →
    Except UploadError (List String) × Bucket
  | _, [], bucket => (.ok [], bucket)
  | faults, file :: files, bucket =>
      let key := keyPrefix ++ file.1.asPosix
      match uploadFile (faults.headD .none) key file.2 bucket with
      | (.error error, bucket) => (.error error, bucket)
      | (.ok (), bucket) =>
          match uploadFiles keyPrefix faults.tail files bucket with
          | (.error error, bucket) => (.error error, bucket)
          | (.ok uploaded, bucket) => (.ok (key :: uploaded), bucket)

def verifyUpload (uploaded : List String) (pages : List (List String)) :
    Except UploadError Unit :=
  let missing := uploaded.filter fun key => key ∉ pages.flatten
  if missing = [] then .ok () else .error (.missingKeys missing)

/-- `upload_dataset`, with the faults of its uploads and the pages in which the
listing at the end arrives. -/
def uploadDataset (faults : List Fault) (pages : List (List String)) (path : LocalPath)
    (name version : String) (bucket : Bucket) :
    Except UploadError (String × PathType) × Bucket :=
  match path with
  | .file _ content =>
      let key := "datasets/" ++ name ++ "/" ++ version ++ path.suffix
      match uploadFile (faults.headD .none) key content bucket with
      | (.error error, bucket) => (.error error, bucket)
      | (.ok (), bucket) =>
          -- `head_object`
          if key ∈ bucket then
            (.ok (key, .object), bucket)
          else
            (.error .transfer, bucket)
  | .directory tree =>
      let keyPrefix := "datasets/" ++ name ++ "/" ++ version ++ "/"
      match uploadFiles keyPrefix faults tree.files bucket with
      | (.error error, bucket) => (.error error, bucket)
      | (.ok uploaded, bucket) =>
          match verifyUpload uploaded pages with
          | .error error => (.error error, bucket)
          | .ok () => (.ok (keyPrefix, .prefixed), bucket)

/-! ## What a finished upload has written -/

def objectKey (keyPrefix : String) (file : RelativePath × Bytes) : String :=
  keyPrefix ++ file.1.asPosix

theorem objectKey_injective_path {keyPrefix : String} {file file' : RelativePath × Bytes}
    (same : objectKey keyPrefix file = objectKey keyPrefix file') : file.1 = file'.1 := by
  have joined := congrArg String.toList same
  simp only [objectKey, String.toList_append, List.append_cancel_left_eq] at joined
  exact RelativePath.asPosix_injective (String.toList_inj.mp joined)

def Bucket.putFiles (keyPrefix : String) (files : List (RelativePath × Bytes))
    (bucket : Bucket) : Bucket :=
  files.foldl (fun bucket file => bucket.insert (objectKey keyPrefix file) file.2) bucket

theorem uploadFile_ok {fault : Fault} {key : String} {content : Bytes} {bucket bucket' : Bucket}
    (returned : uploadFile fault key content bucket = (.ok (), bucket')) :
    bucket' = bucket.insert key content := by
  cases fault <;> cases returned
  rfl

theorem uploadFiles_ok {keyPrefix : String} {faults : List Fault}
    {files : List (RelativePath × Bytes)} {bucket bucket' : Bucket} {uploaded : List String}
    (returned : uploadFiles keyPrefix faults files bucket = (.ok uploaded, bucket')) :
    uploaded = files.map (objectKey keyPrefix) ∧ bucket' = bucket.putFiles keyPrefix files := by
  induction files generalizing faults bucket uploaded with
  | nil =>
      cases returned
      exact ⟨rfl, rfl⟩
  | cons file files ih =>
      simp only [uploadFiles] at returned
      split at returned
      case h_1 => simp at returned
      case h_2 bucket₁ put =>
        split at returned
        case h_1 => simp at returned
        case h_2 uploaded₁ bucket₂ rest =>
          obtain ⟨rfl, rfl⟩ : objectKey keyPrefix file :: uploaded₁ = uploaded ∧
              bucket₂ = bucket' := by simpa [objectKey] using returned
          obtain ⟨rfl, rfl⟩ := ih rest
          rw [uploadFile_ok put]
          exact ⟨rfl, rfl⟩

namespace Bucket

variable {keyPrefix : String} {files : List (RelativePath × Bytes)} {bucket : Bucket}

theorem lookup_putFiles_of_notMem {key : String}
    (other : ∀ file ∈ files, key ≠ objectKey keyPrefix file) :
    (bucket.putFiles keyPrefix files).lookup key = bucket.lookup key := by
  induction files generalizing bucket with
  | nil => rfl
  | cons file files ih =>
      rw [putFiles, List.foldl_cons]
      refine (ih fun file' member => other file' (List.mem_cons_of_mem _ member)).trans ?_
      exact AList.lookup_insert_ne (other file List.mem_cons_self)

theorem lookup_putFiles (distinct : (files.map Prod.fst).Nodup)
    {file : RelativePath × Bytes} (member : file ∈ files) :
    (bucket.putFiles keyPrefix files).lookup (objectKey keyPrefix file) = some file.2 := by
  induction files generalizing bucket with
  | nil => cases member
  | cons first files ih =>
      obtain ⟨fresh, distinct⟩ := List.nodup_cons.mp distinct
      rw [putFiles, List.foldl_cons]
      cases member with
      | tail _ member => exact ih distinct member
      | head =>
          refine (lookup_putFiles_of_notMem fun file' member same => fresh ?_).trans
            (AList.lookup_insert _)
          rw [objectKey_injective_path same]
          exact List.mem_map_of_mem member

end Bucket

/-- The bucket with what a local path names under its storage path. -/
def LocalPath.put (storagePath : String) (bucket : Bucket) : LocalPath → Bucket
  | .file _ content => bucket.insert storagePath content
  | .directory tree => bucket.putFiles storagePath tree.files

/-- An upload that returns has stored everything, and returns the layout that
`main` has determined. -/
theorem uploadDataset_ok {faults : List Fault} {pages : List (List String)} {path : LocalPath}
    {name version : String} {bucket bucket' : Bucket} {shape : String × PathType}
    (returned : uploadDataset faults pages path name version bucket = (.ok shape, bucket')) :
    shape = path.storageShape name version ∧ bucket' = path.put shape.1 bucket := by
  cases path with
  | file fileName content =>
      simp only [uploadDataset] at returned
      split at returned
      case h_1 => simp at returned
      case h_2 bucket₁ written =>
        split at returned
        case isTrue =>
          cases returned
          exact ⟨rfl, uploadFile_ok written⟩
        case isFalse => simp at returned
  | directory tree =>
      simp only [uploadDataset] at returned
      split at returned
      case h_1 => simp at returned
      case h_2 uploaded bucket₁ written =>
        split at returned
        case h_1 => simp at returned
        case h_2 =>
          cases returned
          exact ⟨rfl, (uploadFiles_ok written).2⟩

end Crucible
