import Crucible.PythonText

/-!
# Dataset format validation

The worker's preflight check of `validation.py`: a dataset path with an
extension is a single file and must have a supported format; a path without
one names a prefix whose format is looked at later.
-/

namespace Crucible

/-- `SUPPORTED_FORMATS`, in the sorted order in which messages list them. -/
def supportedFormats : List String :=
  ["csv", "json", "parquet"]

/-- `detect_format`: the lower-case extension, or `none` for a prefix. -/
def detectFormat (datasetPath : String) : Option String :=
  let format := PythonText.lstrip '.' (PythonText.lower (PurePosixPath.suffix datasetPath))
  if format = "" then none else some format

/-- The message of `UnsupportedDatasetFormatError`. -/
def unsupportedDatasetFormat (format datasetPath : String) : String :=
  "unsupported dataset format " ++ PythonText.repr format ++ " for " ++
    PythonText.repr datasetPath ++ "; supported formats: " ++
    ", ".intercalate supportedFormats

/-- `validate_dataset_format`: the format of a supported single file, `none`
for a prefix, and the message of the exception otherwise. -/
def validateDatasetFormat (datasetPath : String) : Except String (Option String) :=
  match detectFormat datasetPath with
  | none => .ok none
  | some format =>
      if format ∈ supportedFormats then
        .ok (some format)
      else
        .error (unsupportedDatasetFormat format datasetPath)

attribute [irreducible] validateDatasetFormat

end Crucible
