import Crucible.Uuid
import Mathlib.Data.Rat.Defs

/-!
# Jobs

The job record that backend, worker and database share, and the row that the
`jobs` table stores under a job's identifier.  Times are microseconds, the
resolution of Postgres timestamps.
-/

namespace Crucible

/-- Microseconds since the epoch. -/
abbrev Time := Int

def seconds (count : Int) : Time :=
  count * 1000000

inductive JobStatus where
  | queued
  | running
  | completed
  | failed
  | cancelled
  deriving DecidableEq, Repr

/-- `_TERMINAL_STATUSES`. -/
def JobStatus.terminal : JobStatus → Bool
  | .completed | .failed | .cancelled => true
  | .queued | .running => false

/-- The text of a status, the same on both sides. -/
def JobStatus.value : JobStatus → String
  | .queued => "queued"
  | .running => "running"
  | .completed => "completed"
  | .failed => "failed"
  | .cancelled => "cancelled"

structure Hyperparameters where
  learningRate : Rat
  epochs : Int
  batchSize : Int
  loraRank : Int
  loraAlpha : Rat
  deriving DecidableEq, Repr

/-- A row of the `jobs` table, without its primary key. -/
structure JobRow where
  status : JobStatus
  baseModel : String
  datasetPath : String
  hyperparameters : Hyperparameters
  checkpointPath : Option String
  errorMessage : Option String
  createdAt : Time
  updatedAt : Time
  deriving DecidableEq, Repr

/-- A job as the programs handle it: a row together with its identifier. -/
structure Job extends JobRow where
  id : UUID
  deriving DecidableEq, Repr

/-- The body of `POST /jobs`. -/
structure CreateJobRequest where
  baseModel : String
  datasetPath : String
  hyperparameters : Hyperparameters
  deriving DecidableEq, Repr

end Crucible
