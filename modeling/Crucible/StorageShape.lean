import Crucible.DatasetDownload

/-!
# Storage paths

The layout of a dataset as `main` writes it into the row, as `upload_dataset`
returns it, and as the worker reads it off the path.
-/

namespace Crucible

/-- A digest in the form of SHA-256: 64 lower-case hexadecimal digits. -/
structure HexDigest (sha256 : Bytes → String) : Prop where
  length : ∀ bytes, (sha256 bytes).toList.length = 64
  digits : ∀ bytes, ∀ digit ∈ (sha256 bytes).toList, digit ∈ "0123456789abcdef".toList

def isHexDigest (text : List Char) : Bool :=
  text.length = 64 && text.all fun digit => digit ∈ "0123456789abcdef".toList

namespace HexDigest

variable {sha256 : Bytes → String}

theorem of_isHexDigest (checked : ∀ bytes, isHexDigest (sha256 bytes).toList = true) :
    HexDigest sha256 where
  length := fun bytes => of_decide_eq_true (Bool.and_elim_left (checked bytes))
  digits := fun bytes digit member =>
    of_decide_eq_true (List.all_eq_true.mp (Bool.and_elim_right (checked bytes)) digit member)

theorem ne_nil (hex : HexDigest sha256) (bytes : Bytes) : (sha256 bytes).toList ≠ [] := by
  intro empty
  have length := hex.length bytes
  simp [empty] at length

theorem dot_notMem (hex : HexDigest sha256) (bytes : Bytes) : '.' ∉ (sha256 bytes).toList :=
  fun member => absurd (hex.digits bytes _ member) (by decide)

theorem append_ne_dot (hex : HexDigest sha256) (bytes : Bytes) (rest : List Char) :
    (sha256 bytes).toList ++ rest ≠ ['.'] := by
  intro same
  have length := congrArg List.length same
  rw [List.length_append, hex.length bytes, List.length_singleton] at length
  omega

theorem slash_notMem (hex : HexDigest sha256) (bytes : Bytes) : '/' ∉ (sha256 bytes).toList :=
  fun member => absurd (hex.digits bytes _ member) (by decide)

end HexDigest

/-! ## Names and suffixes -/

section Suffix

variable {base last : List Char}

theorem rdropWhile_slash (base : List Char) (nonempty : last ≠ []) (flat : '/' ∉ last) :
    (base ++ last).rdropWhile (· = '/') = base ++ last := by
  refine List.rdropWhile_eq_self_iff.mpr fun _ => ?_
  rw [List.getLast_append_of_ne_nil _ nonempty]
  simpa using fun same : last.getLast nonempty = '/' => flat (same ▸ List.getLast_mem nonempty)

/-- The name of a path is what follows its last slash, if that is a name. -/
theorem PurePosixPath.name_joined (nonempty : last ≠ []) (notDot : last ≠ ['.'])
    (flat : '/' ∉ last) : PurePosixPath.name (String.ofList (base ++ '/' :: last)) = last := by
  have single : last.splitOn '/' = [last] := by
    have parts : ∀ part ∈ [last], '/' ∉ part := by simpa using flat
    simpa using List.splitOn_intercalate '/' parts (List.cons_ne_nil _ _)
  rw [PurePosixPath.name, PurePosixPath.parts, String.toList_ofList,
    List.splitOn_append_cons_self, single, List.filter_append]
  simp [nonempty, notDot]

theorem nameSuffix_of_dot_notMem (bare : '.' ∉ last) : PurePosixPath.nameSuffix last = [] := by
  have all : last.rdropWhile (· ≠ '.') = [] :=
    List.rdropWhile_eq_nil_iff.mpr fun char member => by
      simpa using fun same : char = '.' => bare (same ▸ member)
  rw [PurePosixPath.nameSuffix, all]
  simp

theorem nameSuffix_dotted (bare : '.' ∉ last) :
    PurePosixPath.nameSuffix (base ++ '.' :: last) =
      if last ≠ [] ∧ base ≠ [] then '.' :: last else [] := by
  have dotless : ∀ char ∈ last.reverse, decide (char ≠ '.') = true := fun char member => by
    simpa using fun same : char = '.' => bare (same ▸ List.mem_reverse.mp member)
  have back : (base ++ '.' :: last).reverse = last.reverse ++ '.' :: base.reverse := by simp
  have extension : (base ++ '.' :: last).rtakeWhile (· ≠ '.') = last := by
    rw [List.rtakeWhile, back, List.takeWhile_append_of_pos dotless]
    simp
  have stem : (base ++ '.' :: last).rdropWhile (· ≠ '.') = base ++ ['.'] := by
    rw [List.rdropWhile, back, List.dropWhile_append_of_pos dotless]
    simp
  rw [PurePosixPath.nameSuffix, extension, stem]
  have long : 2 ≤ (base ++ ['.']).length ↔ base ≠ [] := by
    rw [← List.length_pos_iff, List.length_append, List.length_singleton]
    omega
  simp only [long]

theorem dotted_or (name : List Char) :
    '.' ∉ name ∨ ∃ stem extension, name = stem ++ '.' :: extension ∧ '.' ∉ extension := by
  by_cases dotted : '.' ∈ name.reverse
  · obtain ⟨extension, stem, split, flat⟩ := List.eq_append_cons_of_mem dotted
    refine Or.inr ⟨stem.reverse, extension.reverse, ?_, by simpa using flat⟩
    simpa using congrArg List.reverse split
  · exact Or.inl (by simpa using dotted)

theorem nameSuffix_suffix (name : List Char) : PurePosixPath.nameSuffix name <:+ name := by
  obtain dotless | ⟨stem, extension, rfl, flat⟩ := dotted_or name
  · rw [nameSuffix_of_dot_notMem dotless]
    exact List.nil_suffix
  · rw [nameSuffix_dotted flat]
    split
    case isTrue => exact List.suffix_append stem _
    case isFalse => exact List.nil_suffix

/-- A version followed by the suffix of a file name has that suffix. -/
theorem nameSuffix_append (nonempty : base ≠ []) (bare : '.' ∉ base) (name : List Char) :
    PurePosixPath.nameSuffix (base ++ PurePosixPath.nameSuffix name) =
      PurePosixPath.nameSuffix name := by
  obtain dotless | ⟨stem, extension, rfl, flat⟩ := dotted_or name
  · rw [nameSuffix_of_dot_notMem dotless, List.append_nil, nameSuffix_of_dot_notMem bare]
  · rw [nameSuffix_dotted flat]
    split
    case isTrue long => rw [nameSuffix_dotted flat, if_pos ⟨long.1, nonempty⟩]
    case isFalse => rw [List.append_nil, nameSuffix_of_dot_notMem bare]

/-- The worker looks at the suffix of the last name. -/
theorem isSingleFile_joined (base last : List Char) (nonempty : last ≠ []) (notDot : last ≠ ['.'])
    (flat : '/' ∉ last) (path : String)
    (ends : path.toList = base ++ '/' :: last ∨
      path.toList = base ++ '/' :: last ++ ['/']) :
    isSingleFile path = true ↔ PurePosixPath.nameSuffix last ≠ [] := by
  have stripped : PythonText.rstrip '/' path = String.ofList (base ++ '/' :: last) := by
    have kept := rdropWhile_slash (base ++ ['/']) nonempty flat
    rw [List.append_assoc, List.singleton_append] at kept
    rw [PythonText.rstrip]
    obtain ends | ends := ends
    · rw [ends, kept]
    · rw [ends, List.rdropWhile_concat_pos _ _ _ (by decide), kept]
  rw [isSingleFile, stripped, PurePosixPath.suffix,
    PurePosixPath.name_joined nonempty notDot flat]
  simp

end Suffix

/-! ## The three layouts -/

/-- The keys that a storage path stands for. -/
def PathType.Stores (pathType : PathType) (storagePath key : String) : Prop :=
  match pathType with
  | .object => key = storagePath
  | .prefixed => storagePath.toList <+: key.toList

theorem LocalPath.stores_of_put {path : LocalPath} {name version key : String} {bucket : Bucket}
    (written : (path.put (path.storageShape name version).1 bucket).lookup key ≠
      bucket.lookup key) :
    (path.storageShape name version).2.Stores (path.storageShape name version).1 key := by
  cases path with
  | file fileName content =>
      by_contra other
      exact written (AList.lookup_insert_ne other)
  | directory tree =>
      by_contra other
      refine written (Bucket.lookup_putFiles_of_notMem fun file _ same => other ?_)
      rw [same]
      change _ <+: (_ ++ file.1.asPosix).toList
      rw [String.toList_append]
      exact List.prefix_append _ _

section Agreement

variable (sha256 : Bytes → String) (path : LocalPath) (name : String)
  (description : Option String)

/-- The row describes what `upload_dataset` writes and returns, and the worker
reads the type off the path. -/
def StorageShapeAgreed : Prop :=
  let row := (path.registration sha256 name description).row
  (∀ (faults : List Fault) (pages : List (List String)) (bucket bucket' : Bucket)
      (shape : String × PathType),
    uploadDataset faults pages path name row.version bucket = (.ok shape, bucket') →
      (row.storagePath, row.pathType) = shape ∧
        ∀ key, bucket'.lookup key ≠ bucket.lookup key →
          row.pathType.Stores row.storagePath key) ∧
  (isSingleFile row.storagePath = true ↔ row.pathType = .object)

variable {sha256}

/-- The worker takes a file for one exactly when it has a suffix. -/
theorem isSingleFile_file (hex : HexDigest sha256) (bytes : Bytes) (fileName : FileName) :
    isSingleFile ("datasets/" ++ name ++ "/" ++ sha256 bytes ++
      String.ofList (PurePosixPath.nameSuffix fileName.text)) = true ↔
        PurePosixPath.nameSuffix fileName.text ≠ [] := by
  have suffixFlat : '/' ∉ PurePosixPath.nameSuffix fileName.text := fun member =>
    fileName.proper.2.2.2 ((nameSuffix_suffix fileName.text).subset member)
  have joined := isSingleFile_joined ("datasets/" ++ name).toList
    ((sha256 bytes).toList ++ PurePosixPath.nameSuffix fileName.text)
    (by simp [hex.ne_nil bytes]) (hex.append_ne_dot bytes _)
    (by simp [hex.slash_notMem bytes, suffixFlat])
    ("datasets/" ++ name ++ "/" ++ sha256 bytes ++
      String.ofList (PurePosixPath.nameSuffix fileName.text))
    (Or.inl (by simp [String.toList_append]))
  rwa [nameSuffix_append (hex.ne_nil bytes) (hex.dot_notMem bytes)] at joined

theorem not_isSingleFile_directory (hex : HexDigest sha256) (bytes : Bytes) :
    ¬ isSingleFile ("datasets/" ++ name ++ "/" ++ sha256 bytes ++ "/") = true := by
  have joined := isSingleFile_joined ("datasets/" ++ name).toList
    (sha256 bytes).toList (hex.ne_nil bytes)
    (by simpa using hex.append_ne_dot bytes []) (hex.slash_notMem bytes)
    ("datasets/" ++ name ++ "/" ++ sha256 bytes ++ "/")
    (Or.inr (by simp [String.toList_append]))
  rw [joined, nameSuffix_of_dot_notMem (hex.dot_notMem bytes)]
  exact not_not_intro rfl

/-- The layouts agree for directories and for files with a suffix. -/
theorem storage_shape_agreed_iff (hex : HexDigest sha256) :
    StorageShapeAgreed sha256 path name description ↔
      ∀ fileName content, path = .file fileName content → path.suffix ≠ "" := by
  have uploaded : ∀ (faults : List Fault) (pages : List (List String)) (bucket bucket' : Bucket)
      (shape : String × PathType),
      uploadDataset faults pages path name (path.checksum sha256) bucket = (.ok shape, bucket') →
        path.storageShape name (path.checksum sha256) = shape ∧
          ∀ key, bucket'.lookup key ≠ bucket.lookup key →
            (path.storageShape name (path.checksum sha256)).2.Stores
              (path.storageShape name (path.checksum sha256)).1 key := by
    intro faults pages bucket bucket' shape returned
    obtain ⟨rfl, rfl⟩ := uploadDataset_ok returned
    exact ⟨rfl, fun key => LocalPath.stores_of_put⟩
  refine (and_iff_right uploaded).trans ?_
  cases path with
  | directory tree =>
      have prefixed := not_isSingleFile_directory name hex tree.fields.flatten
      rw [← checksumDirectory_eq sha256] at prefixed
      refine iff_of_true (iff_of_false prefixed ?_) ?_
      · exact PathType.noConfusion
      · exact fun fileName content other => LocalPath.noConfusion other
  | file fileName content =>
      refine (iff_true_right rfl).trans ((isSingleFile_file name hex _ fileName).trans ?_)
      constructor
      · rintro suffixed _ _ ⟨⟩ none
        exact suffixed (String.ofList_injective none)
      · intro suffixed none
        exact suffixed fileName content rfl (congrArg String.ofList none)

end Agreement

/-! ## A file without a suffix -/

/-- A digest that is SHA-256 on the empty file. -/
def emptyFileDigest (_ : Bytes) : String :=
  "e3b0c44298fc1c149afbf4c8996fb92427ae41e4649b934ca495991b7852b855"

theorem emptyFileDigest_hex : HexDigest emptyFileDigest :=
  .of_isHexDigest fun _ => by
    rw [emptyFileDigest]
    decide +kernel

def suffixedFile : LocalPath :=
  .file ⟨"t.csv".toList, by decide⟩ []

def bareFile : LocalPath :=
  .file ⟨"train".toList, by decide⟩ []

theorem storage_shape_agreed_iff_suffixedFile :
    StorageShapeAgreed emptyFileDigest suffixedFile "demo" none :=
  (storage_shape_agreed_iff suffixedFile "demo" none emptyFileDigest_hex).mpr
    fun fileName content same => same ▸ (by decide : suffixedFile.suffix ≠ "")

/-- A file without a suffix is stored as an object and looked for as a prefix. -/
theorem storage_shape_disagreed_bareFile :
    ¬ ∀ sha256 : Bytes → String, HexDigest sha256 →
      ∀ (path : LocalPath) (name : String) (description : Option String),
        StorageShapeAgreed sha256 path name description := by
  intro agreed
  have fetched := (agreed emptyFileDigest emptyFileDigest_hex bareFile "demo" none).2.mpr rfl
  exact absurd fetched (by decide +kernel)

end Crucible
