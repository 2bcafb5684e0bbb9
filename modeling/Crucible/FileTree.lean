import Crucible.PythonText
import Crucible.SharedStores
import Mathlib.Data.Char
import Mathlib.Data.List.Lex

/-!
# Local directory trees

The files below a directory, as a finite map from relative paths to contents.
Files are kept in the order in which `sorted(directory.rglob("*"))` visits them:
paths are compared part by part, and parts by code points.
-/

namespace Crucible

/-- A part of a path that names an entry of a directory. -/
def ProperPart (part : List Char) : Prop :=
  part ≠ [] ∧ part ≠ ['.'] ∧ part ≠ ['.', '.'] ∧ '/' ∉ part

instance (part : List Char) : Decidable (ProperPart part) :=
  inferInstanceAs (Decidable (_ ∧ _ ∧ _ ∧ _))

structure RelativePath where
  parts : List (List Char)
  nonempty : parts ≠ []
  proper : ∀ part ∈ parts, ProperPart part
  deriving DecidableEq

namespace RelativePath

def asPosix (path : RelativePath) : String :=
  String.ofList (['/'].intercalate path.parts)

@[ext]
theorem ext {first second : RelativePath} (same : first.parts = second.parts) :
    first = second := by
  cases first
  cases second
  simpa using same

theorem splitOn_asPosix (path : RelativePath) :
    path.asPosix.toList.splitOn '/' = path.parts := by
  rw [asPosix, String.toList_ofList]
  exact List.splitOn_intercalate '/' (fun part member => (path.proper part member).2.2.2)
    path.nonempty

theorem asPosix_injective : Function.Injective asPosix := by
  intro first second same
  have split := congrArg (fun text => text.toList.splitOn '/') same
  simp only [splitOn_asPosix] at split
  exact ext split

theorem asPosix_ne_empty (path : RelativePath) : path.asPosix ≠ "" := by
  intro empty
  have parts := path.splitOn_asPosix
  rw [empty] at parts
  have proper := path.proper [] (parts ▸ by decide)
  exact proper.1 rfl

theorem parts_asPosix (path : RelativePath) :
    PurePosixPath.parts path.asPosix = path.parts := by
  rw [PurePosixPath.parts, splitOn_asPosix]
  refine List.filter_eq_self.mpr fun part member => decide_eq_true ?_
  exact ⟨(path.proper part member).1, (path.proper part member).2.1⟩

end RelativePath

/-- The regular files below a directory.  No file is inside another one. -/
structure FileTree where
  files : List (RelativePath × Bytes)
  sorted : files.Pairwise fun first second => first.1.parts < second.1.parts
  apart : ∀ first ∈ files, ∀ second ∈ files,
    first.1.parts <+: second.1.parts → first.1 = second.1
  deriving DecidableEq

namespace FileTree

@[ext]
theorem ext {first second : FileTree} (same : first.files = second.files) : first = second := by
  cases first
  cases second
  simpa using same

/-- Paths occur once, so a tree is a finite map. -/
theorem nodup_paths (tree : FileTree) : (tree.files.map Prod.fst).Nodup := by
  refine List.pairwise_map.mpr (tree.sorted.imp fun {first second} before same => ?_)
  rw [same] at before
  exact lt_irrefl _ before

end FileTree

end Crucible
