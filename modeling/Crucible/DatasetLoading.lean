import Mathlib.Data.List.Dedup
import Crucible.DatasetFormat
import Crucible.StorageShape

/-!
# What the trainer loads

`dataset_load_spec` looks at the files of a downloaded dataset and chooses the
loader format.  The preflight check, the download and this function each read
the format off a path in their own way; for single files they agree.
-/

namespace Crucible

open PathWalks

def formatBySuffix : List (String × String) :=
  [("csv", "csv"), ("json", "json"), ("jsonl", "json"), ("parquet", "parquet")]

/-- `p.suffix.lower().lstrip(".")` of a path whose name is given. -/
def fileExtension (name : List Char) : String :=
  PythonText.lstrip '.' (PythonText.lower (String.ofList (PurePosixPath.nameSuffix name)))

/-- `str(path)` of an absolute path. -/
def pathText (path : List (List Char)) : String :=
  String.ofList ('/' :: ['/'].intercalate path)

/-- `sorted` of a set of strings. -/
def sortedSet (texts : List String) : List String :=
  texts.dedup.mergeSort (· ≤ ·)

def listText (texts : List String) : String :=
  "[" ++ ", ".intercalate (texts.map PythonText.repr) ++ "]"

def LocalDisk.isFile (disk : LocalDisk) (place : List (List Char)) : Bool :=
  match disk place with
  | some (.file _) => true
  | _ => false

/-- The files that `dataset_load_spec` looks at, where `below` is what `rglob("*")`
finds in the directory. -/
def datasetFiles (disk : LocalDisk) (below : List (List (List Char)))
    (path : List (List Char)) : Except String (List (List (List Char))) :=
  let place := resolve ['.', '.'] [] path
  match disk place with
  | some .directory =>
      let files := below.filter fun names => disk.isFile (place ++ names)
      .ok ((files.map (path ++ ·)).mergeSort (· ≤ ·))
  | some (.file _) => .ok [path]
  | none => .error ("dataset path does not exist: " ++ pathText path)

def loaderFormat (path : List (List Char)) (files : List (List (List Char))) :
    Except String String :=
  let suffixes := files.map fun file => fileExtension (file.getLast?.getD [])
  let unknown := suffixes.filter fun suffix => (formatBySuffix.lookup suffix).isNone
  let formats := (suffixes.filterMap fun suffix => formatBySuffix.lookup suffix).dedup
  if files = [] then
    .error ("no dataset files found in " ++ pathText path)
  else if unknown ≠ [] then
    .error ("unsupported dataset file extension(s) " ++ listText (sortedSet unknown) ++ " in " ++
      pathText path ++ "; supported: " ++ listText (sortedSet (formatBySuffix.map Prod.fst)))
  else
    match formats with
    | [format] => .ok format
    | formats => .error ("dataset mixes multiple formats " ++ listText (sortedSet formats) ++
        " in " ++ pathText path ++ "; v1 expects a single format")

/-- `dataset_load_spec`, with the text of its `TrainerError`. -/
def datasetLoadSpec (disk : LocalDisk) (below : List (List (List Char)))
    (path : List (List Char)) : Except String (String × List String) := do
  let files ← datasetFiles disk below path
  let format ← loaderFormat path files
  return (format, files.map pathText)

theorem detectFormat_eq (datasetPath : String) :
    detectFormat datasetPath =
      if fileExtension (PurePosixPath.name datasetPath) = "" then none
      else some (fileExtension (PurePosixPath.name datasetPath)) :=
  rfl

theorem fileExtension_eq_empty {name : List Char} :
    fileExtension name = "" ↔ PurePosixPath.nameSuffix name = [] := by
  constructor
  · intro empty
    by_contra suffixed
    obtain dotless | ⟨stem, extension, rfl, flat⟩ := dotted_or name
    · exact suffixed (nameSuffix_of_dot_notMem dotless)
    · rw [nameSuffix_dotted flat] at suffixed
      split at suffixed
      case isFalse => exact suffixed rfl
      case isTrue long =>
        obtain ⟨char, rest, rfl⟩ := List.exists_cons_of_ne_nil long.1
        have other : char ≠ '.' := fun same => flat (by simp [same])
        obtain ⟨first, more, lowered, notDot⟩ := PythonText.lowerChar_of_ne_dot other
        have dot : PythonText.lowerChar '.' = ['.'] := by decide
        rw [fileExtension, nameSuffix_dotted flat, if_pos long] at empty
        simp [PythonText.lstrip, PythonText.lower, dot, lowered, notDot] at empty
  · intro none
    rw [fileExtension, none]
    decide

theorem loaderFormat_single {path file : List (List Char)} {format : String} :
    loaderFormat path [file] = .ok format ↔
      formatBySuffix.lookup (fileExtension (file.getLast?.getD [])) = some format := by
  cases known : formatBySuffix.lookup (fileExtension (file.getLast?.getD [])) with
  | none => simp [loaderFormat, known]
  | some found =>
      have single : [found].dedup = [found] :=
        List.dedup_eq_self.mpr (List.nodup_singleton found)
      simp [loaderFormat, known, single]

theorem LocalDisk.isFile_iff {disk : LocalDisk} {place : List (List Char)} :
    disk.isFile place = true ↔ ∃ content, disk place = some (.file content) := by
  unfold isFile
  split
  case h_1 content stored => exact iff_of_true rfl ⟨content, stored⟩
  case h_2 other =>
    refine iff_of_false Bool.false_ne_true ?_
    rintro ⟨content, stored⟩
    exact other content stored

theorem datasetLoadSpec_of_files {disk : LocalDisk} {below files : List (List (List Char))}
    {path : List (List Char)} (found : datasetFiles disk below path = .ok files) :
    datasetLoadSpec disk below path =
      (loaderFormat path files).map fun format => (format, files.map pathText) := by
  simp only [datasetLoadSpec, found, bind, Except.bind]
  generalize loaderFormat path files = loaded
  cases loaded <;> rfl

theorem datasetLoadSpec_file {disk : LocalDisk} {below : List (List (List Char))}
    {path : List (List Char)} {content : Bytes}
    (there : disk (resolve ['.', '.'] [] path) = some (.file content)) :
    datasetLoadSpec disk below path =
      (loaderFormat path [path]).map fun format => (format, [pathText path]) := by
  have files : datasetFiles disk below path = .ok [path] := by
    simp only [datasetFiles, there]
  rw [datasetLoadSpec_of_files files, List.map_singleton]

/-! ## The three classifications of a path -/

theorem PurePosixPath.parts_rstrip (path : String) :
    PurePosixPath.parts (PythonText.rstrip '/' path) = PurePosixPath.parts path := by
  rw [PurePosixPath.parts, PurePosixPath.parts, PythonText.rstrip, String.toList_ofList]
  generalize path.toList = text
  induction text using List.reverseRecOn with
  | nil => rfl
  | append_singleton text char ih =>
      by_cases slash : char = '/'
      · rw [List.rdropWhile_concat_pos _ _ _ (by simpa using slash), ih, slash]
        have split : (text ++ ['/']).splitOn '/' = text.splitOn '/' ++ [[]] := by
          rw [List.splitOn_append_cons_self]
          rfl
        rw [split, List.filter_append]
        simp
      · rw [List.rdropWhile_concat_neg _ _ _ (by simpa using slash)]

/-- `_is_single_file` looks at the same name as the preflight check. -/
theorem isSingleFile_iff (datasetPath : String) :
    isSingleFile datasetPath = true ↔
      PurePosixPath.nameSuffix (PurePosixPath.name datasetPath) ≠ [] := by
  have name : PurePosixPath.name (PythonText.rstrip '/' datasetPath) =
      PurePosixPath.name datasetPath := by
    rw [PurePosixPath.name, PurePosixPath.name, PurePosixPath.parts_rstrip]
  rw [isSingleFile, PurePosixPath.suffix, name]
  simp

theorem validateDatasetFormat_eq (datasetPath : String) :
    validateDatasetFormat datasetPath =
      let extension := fileExtension (PurePosixPath.name datasetPath)
      if extension = "" then .ok none
      else if extension ∈ supportedFormats then .ok (some extension)
      else .error (unsupportedDatasetFormat extension datasetPath) := by
  unfold validateDatasetFormat
  rw [detectFormat_eq]
  by_cases empty : fileExtension (PurePosixPath.name datasetPath) = "" <;> simp [empty]

theorem name_ne_parent {datasetPath : String} (single : isSingleFile datasetPath = true) :
    PurePosixPath.name datasetPath ≠ ['.', '.'] := by
  intro same
  have suffixed := (isSingleFile_iff datasetPath).mp single
  rw [same] at suffixed
  exact suffixed (by decide)

/-- A finished download of a single file has written it under its name, and
nothing else. -/
theorem download_single {client : GarageClient} {datasetPath : String}
    {localDir target : List (List Char)} {disk : LocalDisk}
    (single : isSingleFile datasetPath = true)
    (finished : (client.download datasetPath localDir disk).result = .ok target) :
    target = localDir ++ [PurePosixPath.name datasetPath] ∧ ∃ content,
      (client.download datasetPath localDir disk).disk =
        Function.update (disk.withDirectories (visited ['.', '.'] [] localDir))
          (resolve ['.', '.'] [] target) (some (.file content)) := by
  have proper := name_ne_parent single
  cases made : disk.mkdir [] localDir with
  | mk reached disk₁ =>
      cases reached with
      | none => simp [GarageClient.download, made] at finished
      | some position =>
          obtain ⟨_, rfl, rfl⟩ := LocalDisk.mkdir_ok_iff.mp made
          simp only [GarageClient.download, made, single, if_true,
            GarageClient.downloadFile] at finished ⊢
          split at finished
          case h_1 => simp at finished
          case h_2 written disk₂ transferred =>
            obtain ⟨content, _, stored⟩ := GarageClient.transfer_ok_iff.mp transferred
            obtain ⟨_, _, _, rfl⟩ := LocalDisk.writeFile_ok_iff.mp stored
            obtain rfl := Except.ok.inj finished
            rw [resolve_concat proper]
            exact ⟨rfl, content, rfl⟩

theorem validateDatasetFormat_some_iff {datasetPath format : String} :
    validateDatasetFormat datasetPath = .ok (some format) ↔
      format ∈ supportedFormats ∧ fileExtension (PurePosixPath.name datasetPath) = format := by
  have named : "" ∉ supportedFormats := by decide
  rw [validateDatasetFormat_eq]
  dsimp only
  split
  case isTrue empty =>
    refine iff_of_false (by simp) ?_
    rintro ⟨supported, rfl⟩
    exact named (empty ▸ supported)
  case isFalse present =>
    split
    case isTrue supported =>
      simp only [Except.ok.injEq, Option.some.injEq]
      exact ⟨fun same => ⟨same ▸ supported, same⟩, And.right⟩
    case isFalse unsupported =>
      refine iff_of_false (by simp) ?_
      rintro ⟨supported, rfl⟩
      exact unsupported supported

/-- It defers exactly the paths without a suffix. -/
theorem validateDatasetFormat_none_iff {datasetPath : String} :
    validateDatasetFormat datasetPath = .ok none ↔ isSingleFile datasetPath = false := by
  have shape := isSingleFile_iff datasetPath
  rw [Ne, ← fileExtension_eq_empty] at shape
  rw [validateDatasetFormat_eq, ← Bool.not_eq_true, shape, not_not]
  dsimp only
  split
  case isTrue empty => simp [empty]
  case isFalse present => split <;> simp [present]

theorem formatBySuffix_supported :
    ∀ format ∈ supportedFormats, formatBySuffix.lookup format = some format := by
  decide

theorem datasetLoadSpec_of_accepted {datasetPath format : String}
    (accepted : validateDatasetFormat datasetPath = .ok (some format)) {client : GarageClient}
    {localDir target : List (List Char)} {disk : LocalDisk}
    (finished : (client.download datasetPath localDir disk).result = .ok target)
    (below : List (List (List Char))) :
    datasetLoadSpec (client.download datasetPath localDir disk).disk below target =
      .ok (format, [pathText target]) := by
  have single : isSingleFile datasetPath = true := by
    by_contra many
    rw [validateDatasetFormat_none_iff.mpr (Bool.eq_false_iff.mpr many)] at accepted
    simp at accepted
  obtain ⟨supported, rfl⟩ := validateDatasetFormat_some_iff.mp accepted
  obtain ⟨rfl, content, written⟩ := download_single single finished
  have there : (client.download datasetPath localDir disk).disk
      (resolve ['.', '.'] [] (localDir ++ [PurePosixPath.name datasetPath])) =
        some (.file content) := by
    rw [written]
    exact Function.update_self ..
  have loaded : loaderFormat (localDir ++ [PurePosixPath.name datasetPath])
      [localDir ++ [PurePosixPath.name datasetPath]] =
        .ok (fileExtension (PurePosixPath.name datasetPath)) := by
    rw [loaderFormat_single, List.getLast?_concat]
    exact formatBySuffix_supported _ supported
  rw [datasetLoadSpec_file there, loaded]
  rfl

/-- The preflight check and the download take the same paths for single files,
and what the check accepts is loaded from the downloaded file in the same
format. -/
structure ClassifiedAlike (datasetPath : String) : Prop where
  preflight : validateDatasetFormat datasetPath = .ok none ↔ isSingleFile datasetPath = false
  loads : ∀ format, validateDatasetFormat datasetPath = .ok (some format) →
    ∀ (client : GarageClient) (localDir target : List (List Char)) (disk : LocalDisk)
      (below : List (List (List Char))),
      (client.download datasetPath localDir disk).result = .ok target →
        datasetLoadSpec (client.download datasetPath localDir disk).disk below target =
          .ok (format, [pathText target])

theorem paths_classified_alike (datasetPath : String) : ClassifiedAlike datasetPath where
  preflight := validateDatasetFormat_none_iff
  loads := fun _ accepted _ _ _ _ below finished =>
    datasetLoadSpec_of_accepted accepted finished below

/-- A client of a bucket in which every key has the same short table. -/
def ordersClient : GarageClient where
  bucketName := "datasets"
  pages := .ok []
  object := fun _ => .ok [97, 44, 98]

theorem paths_classified_alike_orders :
    (ordersClient.download "datasets/orders/9f86d081.CSV" [['j', 'o', 'b']] bareDisk).result =
        .ok [['j', 'o', 'b'], "9f86d081.CSV".toList] ∧
      datasetLoadSpec (ordersClient.download "datasets/orders/9f86d081.CSV" [['j', 'o', 'b']]
        bareDisk).disk [] [['j', 'o', 'b'], "9f86d081.CSV".toList] =
          .ok ("csv", ["/job/9f86d081.CSV"]) := by
  have accepted : validateDatasetFormat "datasets/orders/9f86d081.CSV" = .ok (some "csv") := by
    decide +kernel
  have finished : (ordersClient.download "datasets/orders/9f86d081.CSV" [['j', 'o', 'b']]
      bareDisk).result = .ok [['j', 'o', 'b'], "9f86d081.CSV".toList] := by
    rfl
  exact ⟨finished, (paths_classified_alike _).loads "csv" accepted ordersClient _ _ bareDisk []
    finished⟩

end Crucible
