import Crucible.PythonText

/-!
# The model allow-list

Rows of the `models` table, the worker's lookup of a repository's revision, and
the model-size guardrail that runs on the result.
-/

namespace Crucible

/-- The values that the `vram_hint` check constraint allows. -/
inductive VramHint where
  | comfortable
  | tight
  | unsupported
  deriving DecidableEq, Repr

/-- The values that the `models.status` check constraint allows. -/
inductive ModelStatus where
  | ready
  | archived
  deriving DecidableEq, Repr

/-- A row of the `models` table. -/
structure ModelRow where
  hfRepoId : String
  revision : String
  paramCount : Option Nat
  vramHint : Option VramHint
  status : ModelStatus
  isDefault : Bool
  deriving DecidableEq, Repr

/-- What the worker learns about a base model. -/
structure ModelMeta where
  hfRepoId : String
  revision : String
  paramCount : Option Nat
  vramHint : Option VramHint
  deriving DecidableEq, Repr

def ModelRow.toMeta (row : ModelRow) : ModelMeta :=
  ⟨row.hfRepoId, row.revision, row.paramCount, row.vramHint⟩

/-- Rows that may come first under `WHERE hf_repo_id = .. AND status = 'ready'
ORDER BY is_default DESC`: the defaults if there are any, else every match. -/
def firstModelRows (models : List ModelRow) (hfRepoId : String) : List ModelRow :=
  let ready := models.filter fun row => row.hfRepoId = hfRepoId ∧ row.status = .ready
  let defaults := ready.filter (·.isDefault)
  if defaults = [] then ready else defaults

/-- `get_model_meta` when the database breaks ties in favour of the row at
position `pick`. -/
def getModelMeta (models : List ModelRow) (hfRepoId : String) (pick : Nat) :
    Option ModelMeta :=
  ((firstModelRows models hfRepoId)[pick]?).map ModelRow.toMeta

/-- Positions that the database can pick; without a match there is only the
answer `none`. -/
def PickAllowed (models : List ModelRow) (hfRepoId : String) (pick : Nat) : Prop :=
  firstModelRows models hfRepoId = [] ∨ pick < (firstModelRows models hfRepoId).length

instance (models : List ModelRow) (hfRepoId : String) (pick : Nat) :
    Decidable (PickAllowed models hfRepoId pick) :=
  inferInstanceAs (Decidable (_ ∨ _))

def tightMaxParams : Nat :=
  15000000000

/-- `check_model_fits`, with the message of `OversizedModelError`. -/
def checkModelFits (paramCount : Option Nat) (vramHint : Option VramHint) :
    Except String Unit :=
  if vramHint = some .unsupported then
    .error "model is flagged 'unsupported' for a single 16GB card"
  else
    match paramCount with
    | none => .ok ()
    | some count =>
        if tightMaxParams < count then
          .error ("model has ~" ++ PythonText.withThousands count ++
            " parameters, exceeding the " ++ PythonText.withThousands tightMaxParams ++
            " limit for a single 16GB card under QLoRA")
        else
          .ok ()

attribute [irreducible] getModelMeta checkModelFits

end Crucible
