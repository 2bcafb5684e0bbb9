import Crucible.DatasetSchema
import Crucible.LabelledRuns
import Crucible.RowLocks
import Mathlib.Data.List.Basic

/-!
# Concurrent runs of `register_dataset`

Each run of `main` reserves a row, uploads, and activates the row, in three
transactions whose statements interleave with those of other runs.  Statements
follow Postgres at `READ COMMITTED`: plain reads see committed rows, and a
statement that meets a row locked by another transaction waits and then
continues from the version committed last.  Identifiers come from a sequence
that a rollback does not turn back.
-/

namespace Crucible

/-- Control points of `main`.  Those of a transaction stand before its next
statement; `reserved`, `activated` and `removed` stand before its `COMMIT`. -/
inductive RegistrationPc where
  | idle
  | selecting (registration : Registration)
  | deleting (registration : Registration) (existingId : Nat)
  | inserting (registration : Registration)
  | reserved (registration : Registration) (datasetId : Nat)
  | uploading (registration : Registration) (datasetId : Nat)
  | activating (registration : Registration) (datasetId : Nat)
  | activated (registration : Registration) (datasetId : Nat)
  | removing (registration : Registration) (datasetId : Nat)
  | removed
  | printing (registration : Registration) (datasetId : Nat)
  | printed (registration : Registration) (datasetId : Nat)
  | failed
  deriving DecidableEq, Repr

/-- The `datasets` table with its row locks and sequence, and `n` runs. -/
structure DatasetRegistry (n : Nat) where
  rows : LockedRows Nat (Option DatasetRow) (Fin n)
  nextId : Nat
  runs : Fin n → RegistrationPc

namespace DatasetRegistry

variable {n : Nat}

inductive Action (n : Nat) where
  | start (run : Fin n) (registration : Registration)
  | statement (run : Fin n)
  | uploaded (run : Fin n)
  | uploadFailed (run : Fin n)
  | abort (run : Fin n)

def put (registry : DatasetRegistry n) (run : Fin n) (pc : RegistrationPc)
    (rows : LockedRows Nat (Option DatasetRow) (Fin n)) : DatasetRegistry n :=
  { registry with rows := rows, runs := Function.update registry.runs run pc }

/-- The `SELECT` by name and version. -/
def existing (registry : DatasetRegistry n) (registration : Registration) :
    Option (Nat × DatasetRow) :=
  (List.range registry.nextId).findSome? fun id =>
    ((registry.rows.committed id).filter registration.matches).map fun row => (id, row)

/-- Whether the unique index makes an `INSERT` wait: another transaction has
written a row of this name and version and not ended yet. -/
def blocked (registry : DatasetRegistry n) (run : Fin n) (registration : Registration) :
    Bool :=
  (List.range registry.nextId).any fun id =>
    match registry.rows.draft id with
    | none => false
    | some (owner, version) => owner ≠ run ∧
        (version.any registration.matches ∨
          (registry.rows.committed id).any registration.matches)

def duplicate (registry : DatasetRegistry n) (run : Fin n) (registration : Registration) :
    Bool :=
  (List.range registry.nextId).any fun id =>
    (registry.rows.seen run id).any registration.matches

/-- One SQL statement of a run, or its `COMMIT`, or the final `print`.  An `INSERT`
that the unique constraint refuses takes no identifier from the sequence here; no
row depends on which ones are skipped. -/
def statement (registry : DatasetRegistry n) (run : Fin n) :
    RegistrationPc → Option (DatasetRegistry n)
  | .selecting registration =>
      match registry.existing registration with
      | none => some (registry.put run (.inserting registration) registry.rows)
      | some (existingId, row) =>
          if row.status = .ready then
            some (registry.put run (.printing registration existingId) registry.rows)
          else
            some (registry.put run (.deleting registration existingId) registry.rows)
  | .deleting registration existingId =>
      match registry.rows.committed existingId with
      | none => some (registry.put run (.inserting registration) registry.rows)
      | some _ => (registry.rows.acquire run existingId).map fun rows =>
          registry.put run (.inserting registration) (rows.write run existingId none)
  | .inserting registration =>
      if registry.blocked run registration then
        none
      else if registry.duplicate run registration then
        some (registry.put run .failed (registry.rows.rollback run))
      else
        some { registry.put run (.reserved registration registry.nextId)
            (registry.rows.write run registry.nextId (some registration.row)) with
          nextId := registry.nextId + 1 }
  | .reserved registration datasetId =>
      some (registry.put run (.uploading registration datasetId) (registry.rows.commit run))
  | .activating registration datasetId =>
      match registry.rows.committed datasetId with
      | none => some (registry.put run (.activated registration datasetId) registry.rows)
      | some row => (registry.rows.acquire run datasetId).map fun rows =>
          registry.put run (.activated registration datasetId)
            (rows.write run datasetId (some { row with status := .ready }))
  | .activated registration datasetId =>
      some (registry.put run (.printing registration datasetId) (registry.rows.commit run))
  | .removing _ datasetId =>
      match registry.rows.committed datasetId with
      | none => some (registry.put run .removed registry.rows)
      | some row =>
          if row.status = .pending then
            (registry.rows.acquire run datasetId).map fun rows =>
              registry.put run .removed (rows.write run datasetId none)
          else
            some (registry.put run .removed registry.rows)
  | .removed => some (registry.put run .failed (registry.rows.commit run))
  | .printing registration datasetId =>
      some (registry.put run (.printed registration datasetId) registry.rows)
  | .idle | .uploading _ _ | .printed _ _ | .failed => none

/-- One step of one run.  An abort is a crash, a lost connection or a deadlock
that Postgres resolves against this run. -/
def step (registry : DatasetRegistry n) : Action n → Option (DatasetRegistry n)
  | .start run registration =>
      match registry.runs run with
      | .idle => some (registry.put run (.selecting registration) registry.rows)
      | _ => none
  | .statement run => registry.statement run (registry.runs run)
  | .uploaded run =>
      match registry.runs run with
      | .uploading registration datasetId =>
          some (registry.put run (.activating registration datasetId) registry.rows)
      | _ => none
  | .uploadFailed run =>
      match registry.runs run with
      | .uploading registration datasetId =>
          some (registry.put run (.removing registration datasetId) registry.rows)
      | _ => none
  | .abort run =>
      match registry.runs run with
      | .idle | .printed _ _ => none
      | _ => some (registry.put run .failed (registry.rows.rollback run))

def initial (table : Nat → Option DatasetRow) (nextId : Nat) : DatasetRegistry n where
  rows := ⟨table, fun _ => none⟩
  nextId := nextId
  runs := fun _ => .idle

theorem existing_eq_some {registry : DatasetRegistry n} {registration : Registration}
    {id : Nat} {row : DatasetRow} (found : registry.existing registration = some (id, row)) :
    id < registry.nextId ∧ registry.rows.committed id = some row ∧
      row.name = registration.name ∧ row.version = registration.version := by
  obtain ⟨listed, member, hit⟩ := List.exists_of_findSome?_eq_some found
  obtain ⟨other, stored, same⟩ := Option.map_eq_some_iff.mp hit
  cases same
  obtain ⟨committed, fits⟩ := Option.filter_eq_some_iff.mp stored
  exact ⟨List.mem_range.mp member, committed, Registration.matches_iff.mp fits⟩

theorem not_matches_of_existing_eq_none {registry : DatasetRegistry n}
    {registration : Registration} {id : Nat} {row : DatasetRow}
    (missing : registry.existing registration = none) (issued : id < registry.nextId)
    (stored : registry.rows.committed id = some row) :
    registration.matches row = false := by
  have unmatched := List.findSome?_eq_none_iff.mp missing id (List.mem_range.mpr issued)
  simpa [stored, Option.filter_eq_none_iff] using unmatched

/-- What a statement of a run does, by the control point before it. -/
inductive Outcome (registry : DatasetRegistry n) (run : Fin n) :
    RegistrationPc → DatasetRegistry n → Prop where
  | missing {registration : Registration} (none : registry.existing registration = none) :
      Outcome registry run (.selecting registration)
        (registry.put run (.inserting registration) registry.rows)
  | ready {registration : Registration} {existingId : Nat} {row : DatasetRow}
      (found : registry.existing registration = some (existingId, row))
      (finished : row.status = .ready) :
      Outcome registry run (.selecting registration)
        (registry.put run (.printing registration existingId) registry.rows)
  | stale {registration : Registration} {existingId : Nat} {row : DatasetRow}
      (found : registry.existing registration = some (existingId, row))
      (unfinished : row.status ≠ .ready) :
      Outcome registry run (.selecting registration)
        (registry.put run (.deleting registration existingId) registry.rows)
  | vanished {registration : Registration} {existingId : Nat}
      (absent : registry.rows.committed existingId = none) :
      Outcome registry run (.deleting registration existingId)
        (registry.put run (.inserting registration) registry.rows)
  | deleted {registration : Registration} {existingId : Nat} {row : DatasetRow}
      {rows : LockedRows Nat (Option DatasetRow) (Fin n)}
      (stored : registry.rows.committed existingId = some row)
      (acquired : registry.rows.acquire run existingId = some rows) :
      Outcome registry run (.deleting registration existingId)
        (registry.put run (.inserting registration) (rows.write run existingId none))
  | violated {registration : Registration} :
      Outcome registry run (.inserting registration)
        (registry.put run .failed (registry.rows.rollback run))
  | inserted {registration : Registration} :
      Outcome registry run (.inserting registration)
        { registry.put run (.reserved registration registry.nextId)
            (registry.rows.write run registry.nextId (some registration.row)) with
          nextId := registry.nextId + 1 }
  | reserved {registration : Registration} {datasetId : Nat} :
      Outcome registry run (.reserved registration datasetId)
        (registry.put run (.uploading registration datasetId) (registry.rows.commit run))
  | lost {registration : Registration} {datasetId : Nat}
      (absent : registry.rows.committed datasetId = none) :
      Outcome registry run (.activating registration datasetId)
        (registry.put run (.activated registration datasetId) registry.rows)
  | updated {registration : Registration} {datasetId : Nat} {row : DatasetRow}
      {rows : LockedRows Nat (Option DatasetRow) (Fin n)}
      (stored : registry.rows.committed datasetId = some row)
      (acquired : registry.rows.acquire run datasetId = some rows) :
      Outcome registry run (.activating registration datasetId)
        (registry.put run (.activated registration datasetId)
          (rows.write run datasetId (some { row with status := .ready })))
  | activated {registration : Registration} {datasetId : Nat} :
      Outcome registry run (.activated registration datasetId)
        (registry.put run (.printing registration datasetId) (registry.rows.commit run))
  | spared {registration : Registration} {datasetId : Nat}
      (finished : ∀ row, registry.rows.committed datasetId = some row → row.status ≠ .pending) :
      Outcome registry run (.removing registration datasetId)
        (registry.put run .removed registry.rows)
  | cleared {registration : Registration} {datasetId : Nat} {row : DatasetRow}
      {rows : LockedRows Nat (Option DatasetRow) (Fin n)}
      (stored : registry.rows.committed datasetId = some row)
      (acquired : registry.rows.acquire run datasetId = some rows) :
      Outcome registry run (.removing registration datasetId)
        (registry.put run .removed (rows.write run datasetId none))
  | removed : Outcome registry run .removed
      (registry.put run .failed (registry.rows.commit run))
  | printed {registration : Registration} {datasetId : Nat} :
      Outcome registry run (.printing registration datasetId)
        (registry.put run (.printed registration datasetId) registry.rows)

/-- Every statement has one of these outcomes. -/
theorem outcome_of_statement {registry next : DatasetRegistry n} {run : Fin n}
    {pc : RegistrationPc} (moved : registry.statement run pc = some next) :
    Outcome registry run pc next := by
  cases pc with
  | idle => cases moved
  | uploading => cases moved
  | printed => cases moved
  | failed => cases moved
  | selecting registration =>
      simp only [statement] at moved
      split at moved
      case h_1 none => cases moved; exact .missing none
      case h_2 existingId row found =>
        split at moved
        case isTrue finished => cases moved; exact .ready found finished
        case isFalse unfinished => cases moved; exact .stale found unfinished
  | deleting registration existingId =>
      simp only [statement] at moved
      split at moved
      case h_1 absent => cases moved; exact .vanished absent
      case h_2 row stored =>
        obtain ⟨rows, acquired, rfl⟩ := Option.map_eq_some_iff.mp moved
        exact .deleted stored acquired
  | inserting registration =>
      simp only [statement] at moved
      split at moved
      case isTrue => cases moved
      case isFalse =>
        split at moved
        case isTrue => cases moved; exact .violated
        case isFalse => cases moved; exact .inserted
  | reserved registration datasetId => cases moved; exact .reserved
  | activating registration datasetId =>
      simp only [statement] at moved
      split at moved
      case h_1 absent => cases moved; exact .lost absent
      case h_2 row stored =>
        obtain ⟨rows, acquired, rfl⟩ := Option.map_eq_some_iff.mp moved
        exact .updated stored acquired
  | activated registration datasetId => cases moved; exact .activated
  | removing registration datasetId =>
      simp only [statement] at moved
      split at moved
      case h_1 absent =>
        cases moved
        exact .spared fun row stored => by simp [absent] at stored
      case h_2 row stored =>
        split at moved
        case isTrue =>
          obtain ⟨rows, acquired, rfl⟩ := Option.map_eq_some_iff.mp moved
          exact .cleared stored acquired
        case isFalse finished =>
          cases moved
          refine .spared fun other same => ?_
          obtain rfl : row = other := Option.some.inj (stored.symm.trans same)
          exact finished
  | removed => cases moved; exact .removed
  | printing registration datasetId => cases moved; exact .printed

theorem statement_elsewhere {registry next : DatasetRegistry n} {run other : Fin n}
    {pc : RegistrationPc} (distinct : other ≠ run)
    (moved : registry.statement run pc = some next) :
    next.runs other = registry.runs other := by
  have put_runs : ∀ pc rows, (registry.put run pc rows).runs other = registry.runs other :=
    fun _ _ => Function.update_of_ne distinct _ _
  cases outcome_of_statement moved with
  | inserted => exact put_runs (.reserved _ registry.nextId) registry.rows
  | _ => exact put_runs _ _

end DatasetRegistry

end Crucible
