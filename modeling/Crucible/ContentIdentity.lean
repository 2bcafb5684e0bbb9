import Crucible.DatasetRegistrar
import Crucible.DatasetRegistration

/-!
# What a dataset checksum says about the content

Equal checksums of directories mean equal streams of paths and contents.  These
do not determine the directory: bytes may move between a path and a content,
or between a content and the next path.  Whether they can is a matter of the
paths and the sizes of the files: of two directories that have these in common the
checksum tells the contents, and otherwise there are contents that it confuses,
unless the streams have different lengths or bytes of paths stand against each
other.
-/

namespace Crucible

open FieldStreams

/-- A reservation that answers with a registered identifier has found a ready
row of the same name and version. -/
theorem DatasetRegistry.ready_of_already_registered {n : Nat}
    {registry next : DatasetRegistry n} {run : Fin n} {registration : Registration} {id : Nat}
    (answered : registry.statement run (.selecting registration) = some next)
    (already : next.runs run = .printing registration id) :
    ∃ row, registry.rows.committed id = some row ∧ row.name = registration.name ∧
      row.version = registration.version ∧ row.status = .ready := by
  cases outcome_of_statement answered with
  | missing => simp [put] at already
  | @ready _ existingId row found finished =>
      obtain rfl : existingId = id := by simpa [put] using already
      obtain ⟨_, stored, name, version⟩ := existing_eq_some found
      exact ⟨row, stored, name, version, finished⟩
  | stale => simp [put] at already

/-! ## Paths and sizes -/

def sizes (files : List (RelativePath × Bytes)) : List (RelativePath × Nat) :=
  files.map fun file => (file.1, file.2.length)

/-- What the paths and sizes of files tell of the bytes that are hashed. -/
def filesMask (files : List (RelativePath × Nat)) : List (Option UInt8) :=
  files.flatMap fun file => (encode file.1.asPosix).map some ++ List.replicate file.2 none

/-- Everything about a local path but the contents of its files. -/
inductive Layout where
  | file (name : FileName) (size : Nat)
  | directory (files : List (RelativePath × Nat))
  deriving DecidableEq

namespace Layout

def mask : Layout → List (Option UInt8)
  | file _ size => List.replicate size none
  | directory files => filesMask files

/-- The layouts are the same, or no contents make the hashed bytes the same. -/
def Settled (first second : Layout) : Prop :=
  first = second ∨ Clash first.mask second.mask

end Layout

namespace LocalPath

def layout : LocalPath → Layout
  | file name content => .file name content.length
  | directory tree => .directory (sizes tree.files)

def hashed : LocalPath → Bytes
  | file _ content => content
  | directory tree => tree.fields.flatten

theorem checksum_eq (sha256 : Bytes → String) (path : LocalPath) :
    path.checksum sha256 = sha256 path.hashed := by
  cases path with
  | file name content => simp [checksum, checksumFile, hashFileInto_eq, hashed]
  | directory tree => exact checksumDirectory_eq sha256 tree

end LocalPath

theorem fits_filesMask_iff {files : List (RelativePath × Nat)} {stream : Bytes} :
    List.Forall₂ Fits (filesMask files) stream ↔
      ∃ filled, sizes filled = files ∧ (fileFields filled).flatten = stream := by
  induction files generalizing stream with
  | nil =>
      rw [filesMask, List.flatMap_nil, List.forall₂_nil_left_iff]
      constructor
      · rintro rfl
        exact ⟨[], rfl, rfl⟩
      · rintro ⟨filled, same, rfl⟩
        obtain rfl := List.map_eq_nil_iff.mp same
        rfl
  | cons file files ih =>
      have split : filesMask (file :: files) = (encode file.1.asPosix).map some ++
          (List.replicate file.2 none ++ filesMask files) := by
        rw [filesMask, List.flatMap_cons, List.append_assoc, filesMask]
      rw [split, fits_known_append]
      constructor
      · rintro ⟨_, rfl, fits⟩
        obtain ⟨content, _, rfl, sized, fits⟩ := fits_open_append.mp fits
        obtain ⟨filled, rfl, rfl⟩ := ih.mp fits
        exact ⟨(file.1, content) :: filled, by simp [sizes, sized], by simp [fileFields]⟩
      · rintro ⟨filled, same, rfl⟩
        cases filled with
        | nil => cases same
        | cons file' filled =>
            obtain ⟨rfl, rfl⟩ := List.cons.inj same
            exact ⟨file'.2 ++ (fileFields filled).flatten, by simp [fileFields],
              fits_open_append.mpr ⟨file'.2, _, rfl, rfl, ih.mpr ⟨filled, rfl, rfl⟩⟩⟩

/-- Other contents may stand under the same paths. -/
theorem FileTree.exists_of_paths {tree : FileTree} {files : List (RelativePath × Bytes)}
    (paths : files.map Prod.fst = tree.files.map Prod.fst) :
    ∃ other : FileTree, other.files = files := by
  have listed : ∀ file ∈ files, ∃ file' ∈ tree.files, file'.1 = file.1 := by
    intro file member
    have path : file.1 ∈ tree.files.map Prod.fst := paths ▸ List.mem_map_of_mem member
    exact List.mem_map.mp path
  refine ⟨⟨files, ?_, fun first member second member' starts => ?_⟩, rfl⟩
  · have sorted : (tree.files.map Prod.fst).Pairwise fun first second =>
        first.parts < second.parts := List.pairwise_map.mpr tree.sorted
    rw [← paths, List.pairwise_map] at sorted
    exact sorted
  · obtain ⟨first', listed₁, same₁⟩ := listed first member
    obtain ⟨second', listed₂, same₂⟩ := listed second member'
    rw [← same₁, ← same₂] at starts ⊢
    exact tree.apart first' listed₁ second' listed₂ starts

section Identity

variable {sha256 : Bytes → String}

/-- Of two given directories: the checksum confuses them if bytes have shifted. -/
theorem checksumDirectory_eq_iff (injective : Function.Injective sha256)
    (tree tree' : FileTree) :
    checksumDirectory sha256 tree = checksumDirectory sha256 tree' ↔
      tree = tree' ∨ Shifted tree.fields tree'.fields := by
  rw [checksumDirectory_eq, checksumDirectory_eq, injective.eq_iff, FileTree.stream_eq_iff]

namespace LocalPath

variable {path path' : LocalPath}

theorem fits_mask (path : LocalPath) : List.Forall₂ Fits path.layout.mask path.hashed := by
  cases path with
  | file name content =>
      have fits : List.Forall₂ Fits (List.replicate content.length none ++ []) content :=
        fits_open_append.mpr ⟨content, [], (List.append_nil content).symm, rfl, .nil⟩
      rwa [List.append_nil] at fits
  | directory tree => exact fits_filesMask_iff.mpr ⟨tree.files, rfl, rfl⟩

theorem exists_of_fits {stream : Bytes} (fits : List.Forall₂ Fits path.layout.mask stream) :
    ∃ filled : LocalPath, filled.layout = path.layout ∧ filled.hashed = stream := by
  cases path with
  | file name content =>
      have sized : content.length = stream.length := by
        simpa [layout, Layout.mask] using fits.length_eq
      exact ⟨.file name stream, by rw [layout, layout, sized], rfl⟩
  | directory tree =>
      obtain ⟨filled, same, rfl⟩ := fits_filesMask_iff.mp fits
      have paths : filled.map Prod.fst = tree.files.map Prod.fst := by
        simpa [sizes, Function.comp_def] using congrArg (List.map Prod.fst) same
      obtain ⟨other, rfl⟩ := FileTree.exists_of_paths paths
      exact ⟨.directory other, congrArg Layout.directory same, rfl⟩

/-- With the paths and sizes given, the hashed bytes tell the contents. -/
theorem eq_of_hashed (same : path.layout = path'.layout) (stream : path.hashed = path'.hashed) :
    path = path' := by
  cases path with
  | file name content =>
      cases path' with
      | file name' content' =>
          obtain ⟨rfl, _⟩ := Layout.file.inj same
          exact congrArg _ stream
      | directory tree' => cases same
  | directory tree =>
      cases path' with
      | file name' content' => cases same
      | directory tree' =>
          have sized : ∀ files, (fileFields files).map List.length =
              (sizes files).flatMap fun file => [(encode file.1.asPosix).length, file.2] := by
            intro files
            simp [fileFields, sizes, List.map_flatMap, List.flatMap_map]
          have lengths : tree.fields.map List.length = tree'.fields.map List.length := by
            rw [FileTree.fields, FileTree.fields, sized, sized, Layout.directory.inj same]
          obtain rfl := (FileTree.stream_eq_iff.mp stream).resolve_right
            fun shifted => shifted.lengths_ne lengths
          rfl

/-- Whether the checksum tells paths of two layouts apart. -/
theorem identified_iff (injective : Function.Injective sha256) (path path' : LocalPath) :
    (∀ first second : LocalPath, first.layout = path.layout → second.layout = path'.layout →
      first.checksum sha256 = second.checksum sha256 → first = second) ↔
      path.layout.Settled path'.layout := by
  constructor
  · intro identified
    by_contra unsettled
    obtain ⟨distinct, peaceful⟩ := not_or.mp unsettled
    obtain ⟨stream, fits, fits'⟩ := exists_fits_iff.mpr peaceful
    obtain ⟨first, sameFirst, rfl⟩ := exists_of_fits fits
    obtain ⟨second, sameSecond, equal⟩ := exists_of_fits fits'
    have checksums : first.checksum sha256 = second.checksum sha256 := by
      rw [checksum_eq, checksum_eq, equal]
    obtain rfl := identified first second sameFirst sameSecond checksums
    exact distinct (sameFirst.symm.trans sameSecond)
  · intro settled first second sameFirst sameSecond checksums
    rw [checksum_eq, checksum_eq, injective.eq_iff] at checksums
    obtain same | clash := settled
    · exact eq_of_hashed (sameFirst.trans (same.trans sameSecond.symm)) checksums
    · rw [← sameFirst, ← sameSecond] at clash
      have fits := second.fits_mask
      rw [← checksums] at fits
      exact absurd clash (exists_fits_iff.mp ⟨first.hashed, first.fits_mask, fits⟩)

/-- A reservation for a path is answered with the ready row of what was registered
before. -/
def AnsweredBy (sha256 : Bytes → String) (path before : LocalPath) : Prop :=
  ∃ (n : Nat) (registry next : DatasetRegistry n) (run : Fin n) (name : String)
    (description : Option String) (id : Nat) (row : DatasetRow),
    registry.statement run (.selecting (path.registration sha256 name description)) = some next ∧
    next.runs run = .printing (path.registration sha256 name description) id ∧
    registry.rows.committed id = some row ∧ row.version = before.checksum sha256

/-- Only the ready row of what was registered before. -/
def registeredRegistry (sha256 : Bytes → String) (before : LocalPath) : DatasetRegistry 1 where
  rows :=
    { committed := fun id =>
        if id = 0 then
          some { (before.registration sha256 "demo" none).row with status := .ready }
        else none
      draft := fun _ => none }
  nextId := 1
  runs := fun _ => .idle

/-- A reservation compares checksums. -/
theorem answeredBy_iff (path before : LocalPath) :
    AnsweredBy sha256 path before ↔ path.checksum sha256 = before.checksum sha256 := by
  constructor
  · rintro ⟨n, registry, next, run, name, description, id, row, answered, already, stored, version⟩
    obtain ⟨other, found, _, sameVersion, _⟩ :=
      DatasetRegistry.ready_of_already_registered answered already
    obtain rfl : row = other := Option.some.inj (stored.symm.trans found)
    exact sameVersion.symm.trans version
  · intro same
    have answered : (registeredRegistry sha256 before).statement 0
        (.selecting (path.registration sha256 "demo" none)) =
          some ((registeredRegistry sha256 before).put 0
            (.printing (path.registration sha256 "demo" none) 0)
            (registeredRegistry sha256 before).rows) := by
      simp [DatasetRegistry.statement, DatasetRegistry.existing, registeredRegistry,
        Option.filter_some, Registration.matches, registration, Registration.row, same]
    exact ⟨1, _, _, 0, "demo", none, 0, _, answered, by simp [DatasetRegistry.put], rfl, rfl⟩

end LocalPath

/-- For which paths and sizes the checksum of a directory identifies it, whatever
the contents are, and for which ones a reservation is only answered with what is
being registered. -/
theorem checksum_identifies_iff (injective : Function.Injective sha256) :
    (∀ tree tree' : FileTree,
      (∀ first second : FileTree, sizes first.files = sizes tree.files →
        sizes second.files = sizes tree'.files →
        checksumDirectory sha256 first = checksumDirectory sha256 second → first = second) ↔
      (LocalPath.directory tree).layout.Settled (LocalPath.directory tree').layout) ∧
    ∀ (tree : FileTree) (before : LocalPath),
      (∀ (first : FileTree) (second : LocalPath), sizes first.files = sizes tree.files →
        second.layout = before.layout →
        LocalPath.AnsweredBy sha256 (.directory first) second → second = .directory first) ↔
      (LocalPath.directory tree).layout.Settled before.layout := by
  have directories : ∀ {path : LocalPath} {tree : FileTree},
      path.layout = (LocalPath.directory tree).layout →
        ∃ tree' : FileTree, path = .directory tree' ∧ sizes tree'.files = sizes tree.files := by
    intro path tree same
    cases path with
    | file name content => cases same
    | directory tree' => exact ⟨tree', rfl, Layout.directory.inj same⟩
  constructor
  · intro tree tree'
    rw [← LocalPath.identified_iff injective]
    constructor
    · intro identified path path' same same' checksums
      obtain ⟨first, rfl, sized⟩ := directories same
      obtain ⟨second, rfl, sized'⟩ := directories same'
      exact congrArg _ (identified first second sized sized' checksums)
    · intro identified first second sized sized' checksums
      exact LocalPath.directory.inj (identified (.directory first) (.directory second)
        (congrArg Layout.directory sized) (congrArg Layout.directory sized') checksums)
  · intro tree before
    rw [← LocalPath.identified_iff injective]
    simp only [LocalPath.answeredBy_iff]
    constructor
    · intro identified path second same same' checksums
      obtain ⟨first, rfl, sized⟩ := directories same
      exact (identified first second sized same' checksums).symm
    · intro identified first second sized same' checksums
      exact (identified (.directory first) second (congrArg Layout.directory sized) same'
        checksums).symm

end Identity

/-! ## Two layouts of two empty files -/

/-- A digest that is SHA-256 on the strings of the examples, and injective. -/
def exampleDigest (bytes : Bytes) : String :=
  if bytes = [] then
    "e3b0c44298fc1c149afbf4c8996fb92427ae41e4649b934ca495991b7852b855"
  else if bytes = [97, 98, 99] then
    "ba7816bf8f01cfea414140de5dae2223b00361a396177a9cb410ff61f20015ad"
  else
    String.ofList ('x' :: bytes.map Char.ofUInt8)

def exampleBytes (digest : String) : Bytes :=
  match digest.toList with
  | 'e' :: _ => []
  | 'b' :: _ => [97, 98, 99]
  | 'x' :: text => text.map Char.toUInt8
  | _ => []

theorem exampleDigest_injective : Function.Injective exampleDigest := by
  refine Function.LeftInverse.injective (g := exampleBytes) fun bytes => ?_
  unfold exampleDigest
  split_ifs with empty abc
  · rw [empty]
    decide
  · rw [abc]
    decide
  · have back : Char.toUInt8 ∘ Char.ofUInt8 = id := by
      funext byte
      exact UInt8.toUInt8_toUInt32 byte
    simp [exampleBytes, back]

/-- The files `a` and `bc`, both empty. -/
def earlySplit : FileTree where
  files := [(⟨[['a']], by decide, by decide⟩, []), (⟨[['b', 'c']], by decide, by decide⟩, [])]
  sorted := by decide
  apart := by decide

/-- The files `ab` and `c`, both empty. -/
def lateSplit : FileTree where
  files := [(⟨[['a', 'b']], by decide, by decide⟩, []), (⟨[['c']], by decide, by decide⟩, [])]
  sorted := by decide
  apart := by decide

def noFiles : FileTree where
  files := []
  sorted := .nil
  apart := nofun

theorem splits_confused :
    checksumDirectory exampleDigest earlySplit = checksumDirectory exampleDigest lateSplit := by
  decide +kernel

theorem checksum_identifies_iff_splits :
    (∀ first second : FileTree, sizes first.files = sizes earlySplit.files →
      sizes second.files = sizes noFiles.files →
      checksumDirectory exampleDigest first = checksumDirectory exampleDigest second →
      first = second) ∧
    ¬ ∀ (first : FileTree) (second : LocalPath), sizes first.files = sizes earlySplit.files →
      second.layout = (LocalPath.directory lateSplit).layout →
      LocalPath.AnsweredBy exampleDigest (.directory first) second →
      second = .directory first := by
  refine ⟨((checksum_identifies_iff exampleDigest_injective).1 earlySplit noFiles).mpr
    (Or.inr (Or.inl (by decide))), fun identified => ?_⟩
  have settled := ((checksum_identifies_iff exampleDigest_injective).2 earlySplit
    (.directory lateSplit)).mp identified
  have distinct : (LocalPath.directory earlySplit).layout ≠
      (LocalPath.directory lateSplit).layout := by decide
  have same : (LocalPath.directory earlySplit).layout.mask =
      (LocalPath.directory lateSplit).layout.mask := by decide
  have clash := settled.resolve_left distinct
  rw [same] at clash
  exact not_clash_self clash

/-- Different layouts of identical contents have one checksum. -/
theorem checksum_confuses_layouts :
    ¬ ∀ sha256 : Bytes → String, Function.Injective sha256 → ∀ tree tree' : FileTree,
      checksumDirectory sha256 tree = checksumDirectory sha256 tree' → tree = tree' := by
  intro identifies
  have equal := identifies exampleDigest exampleDigest_injective earlySplit lateSplit
    splits_confused
  exact absurd equal (by decide +kernel)

end Crucible
