import Crucible.FieldStreams
import Crucible.FileTree

/-!
# Dataset checksums

`checksum_file` and `checksum_directory` for an arbitrary digest of byte
strings.  A hash object is the sequence of bytes that it was updated with.
-/

namespace Crucible

/-- `text.encode()`. -/
def encode (text : String) : Bytes :=
  text.toByteArray.data.toList

/-- What `f.read(size)` returns until the end of a file. -/
def chunks (size : Nat) : Nat → Bytes → List Bytes
  | 0, _ => []
  | fuel + 1, content =>
      if content = [] then
        []
      else
        content.take size :: chunks size fuel (content.drop size)

def chunkSize : Nat :=
  8 * 1024 * 1024

def hashFileInto (hashed content : Bytes) : Bytes :=
  (chunks chunkSize content.length content).foldl (· ++ ·) hashed

def checksumFile (sha256 : Bytes → String) (content : Bytes) : String :=
  sha256 (hashFileInto [] content)

def checksumDirectory (sha256 : Bytes → String) (tree : FileTree) : String :=
  sha256 (tree.files.foldl
    (fun hashed file => hashFileInto (hashed ++ encode file.1.asPosix) file.2) [])

theorem encode_injective : Function.Injective encode := by
  intro first second same
  exact String.toByteArray_inj.mp (ByteArray.ext (Array.toList_inj.mp same))

theorem encode_ne_nil {text : String} (nonempty : text ≠ "") : encode text ≠ [] :=
  fun empty => nonempty (encode_injective empty)

theorem flatten_chunks {size fuel : Nat} (positive : 0 < size) {content : Bytes}
    (enough : content.length ≤ fuel) : (chunks size fuel content).flatten = content := by
  induction fuel generalizing content with
  | zero =>
      obtain rfl := List.length_eq_zero_iff.mp (Nat.le_zero.mp enough)
      rfl
  | succ fuel ih =>
      rw [chunks]
      split
      case isTrue empty => rw [empty]; rfl
      case isFalse nonempty =>
        have shorter : (content.drop size).length ≤ fuel := by
          have some := List.length_pos_iff.mpr nonempty
          rw [List.length_drop]
          omega
        rw [List.flatten_cons, ih shorter, List.take_append_drop]

theorem foldl_append (hashed : Bytes) (parts : List Bytes) :
    parts.foldl (· ++ ·) hashed = hashed ++ parts.flatten := by
  induction parts generalizing hashed with
  | nil => simp
  | cons part parts ih => rw [List.foldl_cons, ih, List.flatten_cons, List.append_assoc]

theorem hashFileInto_eq (hashed content : Bytes) :
    hashFileInto hashed content = hashed ++ content := by
  rw [hashFileInto, foldl_append, flatten_chunks (by decide) (Nat.le_refl _)]

/-- What files feed to the hash: for each file its path and its content. -/
def fileFields (files : List (RelativePath × Bytes)) : List Bytes :=
  files.flatMap fun file => [encode file.1.asPosix, file.2]

def FileTree.fields (tree : FileTree) : List Bytes :=
  fileFields tree.files

/-- The hash sees the fields one after another. -/
theorem checksumDirectory_eq (sha256 : Bytes → String) (tree : FileTree) :
    checksumDirectory sha256 tree = sha256 tree.fields.flatten := by
  have stream : ∀ (files : List (RelativePath × Bytes)) (hashed : Bytes),
      files.foldl (fun hashed file => hashFileInto (hashed ++ encode file.1.asPosix) file.2)
          hashed =
        hashed ++ (fileFields files).flatten := by
    intro files
    induction files with
    | nil => simp [fileFields]
    | cons file files ih =>
        intro hashed
        rw [List.foldl_cons, ih, hashFileInto_eq]
        simp [fileFields]
  rw [checksumDirectory, stream]
  rfl

theorem exists_of_fileFields_append {files files' : List (RelativePath × Bytes)}
    {rest : List Bytes} (extended : fileFields files' = fileFields files ++ rest) :
    ∃ more, files' = files ++ more ∧ rest = fileFields more := by
  induction files generalizing files' with
  | nil => exact ⟨files', rfl, extended.symm⟩
  | cons file files ih =>
      cases files' with
      | nil => simp [fileFields] at extended
      | cons file' files' =>
          obtain ⟨path, content, extended⟩ : encode file'.1.asPosix = encode file.1.asPosix ∧
              file'.2 = file.2 ∧ fileFields files' = fileFields files ++ rest := by
            simpa [fileFields] using extended
          obtain ⟨more, rfl, listed⟩ := ih extended
          have samePath := RelativePath.asPosix_injective (encode_injective path)
          exact ⟨more, by rw [Prod.ext samePath content, List.cons_append], listed⟩

theorem FileTree.fields_injective : Function.Injective FileTree.fields := by
  intro first second same
  have extended : fileFields first.files = fileFields second.files ++ [] := by
    rw [List.append_nil]
    exact same
  obtain ⟨more, files, none⟩ := exists_of_fileFields_append extended
  cases more with
  | nil => exact FileTree.ext (by simpa using files)
  | cons file more => simp [fileFields] at none

/-- No directory continues another one by empty fields, since paths are not
empty. -/
theorem FileTree.not_padded (first second : FileTree) :
    ¬ FieldStreams.Padded first.fields second.fields := by
  have grown : ∀ {shorter longer : FileTree} {blanks : List Bytes}, blanks ≠ [] →
      blanks.flatten = [] → longer.fields ≠ shorter.fields ++ blanks := by
    intro shorter longer blanks nonempty blank extended
    obtain ⟨more, _, rfl⟩ := exists_of_fileFields_append extended
    cases more with
    | nil => exact nonempty rfl
    | cons file more =>
        have path : encode file.1.asPosix = [] := by
          simp only [fileFields, List.flatMap_cons, List.cons_append, List.nil_append,
            List.flatten_cons, List.append_eq_nil_iff] at blank
          exact blank.1
        exact encode_ne_nil file.1.asPosix_ne_empty path
  rintro ⟨blanks, nonempty, blank, extended | extended⟩
  · exact grown nonempty blank extended
  · exact grown nonempty blank extended

/-- The streams of two directories are equal exactly when the directories are,
or bytes have shifted from one field to the next. -/
theorem FileTree.stream_eq_iff {first second : FileTree} :
    first.fields.flatten = second.fields.flatten ↔
      first = second ∨ FieldStreams.Shifted first.fields second.fields := by
  rw [FieldStreams.flatten_eq_flatten_iff, FileTree.fields_injective.eq_iff]
  simp [FileTree.not_padded]

end Crucible
