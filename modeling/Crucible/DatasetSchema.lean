import Mathlib.Logic.Function.Basic

/-!
# Datasets

The rows of the `datasets` table and what one run of `register_dataset` puts
there.
-/

namespace Crucible

inductive DatasetStatus where
  | pending
  | ready
  | archived
  deriving DecidableEq, Repr

/-- `path_type`: a single object or all objects under a prefix. -/
inductive PathType where
  | object
  | prefixed
  deriving DecidableEq, Repr

/-- A row of the `datasets` table, without its primary key. -/
structure DatasetRow where
  name : String
  version : String
  storagePath : String
  pathType : PathType
  sizeBytes : Nat
  sha256Checksum : String
  status : DatasetStatus
  sourceDescription : Option String
  deriving DecidableEq, Repr

/-- The arguments with which `main` calls `reserve_dataset_row`. -/
structure Registration where
  name : String
  version : String
  storagePath : String
  pathType : PathType
  sizeBytes : Nat
  sha256Checksum : String
  sourceDescription : Option String
  deriving DecidableEq, Repr

/-- The row that `reserve_dataset_row` inserts. -/
def Registration.row (registration : Registration) : DatasetRow where
  name := registration.name
  version := registration.version
  storagePath := registration.storagePath
  pathType := registration.pathType
  sizeBytes := registration.sizeBytes
  sha256Checksum := registration.sha256Checksum
  status := .pending
  sourceDescription := registration.sourceDescription

def Registration.matches (registration : Registration) (row : DatasetRow) : Bool :=
  row.name = registration.name ∧ row.version = registration.version

theorem Registration.matches_iff {registration : Registration} {row : DatasetRow} :
    registration.matches row = true ↔
      row.name = registration.name ∧ row.version = registration.version := by
  simp [Registration.matches]

end Crucible
