import Crucible.JobTable

/-!
# Answers of the job endpoints

Status codes, error codes and messages with which the backend answers the
requests on jobs, and the validation that precedes any work.
-/

namespace Crucible

/-- The `api.ErrorCode` values that the job endpoints use. -/
inductive ErrorCode where
  | jobNotFound
  | invalidRequest
  | internalServer
  deriving DecidableEq, Repr

inductive Body where
  | job (job : Job)
  | error (code : ErrorCode) (message : String)
  deriving DecidableEq, Repr

structure Response where
  code : Nat
  body : Body
  deriving DecidableEq, Repr

/-- `strings.TrimSpace(text) == ""`, for the white space of Latin-1 and the
separators of Unicode. -/
def blank (text : String) : Bool :=
  text.toList.all fun char =>
    char.toNat ∈ [9, 10, 11, 12, 13, 32, 0x85, 0xA0, 0x1680, 0x2028, 0x2029, 0x202F,
      0x205F, 0x3000] ∨ (0x2000 ≤ char.toNat ∧ char.toNat ≤ 0x200A)

def decimal (digits : List Char) : Option Nat :=
  if digits ≠ [] ∧ digits.all Char.isDigit then
    some (digits.foldl (fun value digit => 10 * value + (digit.toNat - 48)) 0)
  else
    none

/-- `strconv.Atoi` where `int` has 64 bits. -/
def atoi (text : String) : Option Int :=
  let value : Option Int :=
    match text.toList with
    | '-' :: digits => (decimal digits).map fun value => -(value : Int)
    | '+' :: digits => (decimal digits).map fun value => (value : Int)
    | digits => (decimal digits).map fun value => (value : Int)
  value.filter fun value => -2 ^ 63 ≤ value ∧ value < 2 ^ 63

/-- `validateCreateJob`: one error that lists every violation. -/
def validateCreateJob (request : CreateJobRequest) : Option Response :=
  let hp := request.hyperparameters
  let errs := (if blank request.baseModel then ["base_model is required"] else []) ++
    (if blank request.datasetPath then ["dataset_path is required"] else []) ++
    (if hp.learningRate ≤ 0 ∨ hp.learningRate > 1 then
      ["learning_rate must be in (0, 1]"] else []) ++
    (if hp.epochs ≤ 0 then ["epochs must be > 0"] else []) ++
    (if hp.batchSize ≤ 0 then ["batch_size must be > 0"] else []) ++
    (if hp.loraRank ≤ 0 then ["lora_rank must be > 0"] else []) ++
    (if hp.loraAlpha ≤ 0 then ["lora_alpha must be > 0"] else [])
  if errs = [] then
    none
  else
    some ⟨422, .error .invalidRequest ("; ".intercalate errs)⟩

/-- The escape that Go's `%q` writes for one character. -/
def goQuoteChar (char : Char) : List Char :=
  let backslash := Char.ofNat 0x5C
  let short : List (Nat × Char) :=
    [(7, 'a'), (8, 'b'), (9, 't'), (10, 'n'), (11, 'v'), (12, 'f'), (13, 'r'),
      (0x22, Char.ofNat 0x22), (0x5C, backslash)]
  match short.lookup char.toNat with
  | some letter => [backslash, letter]
  | none =>
      if char.toNat < 32 ∨ char.toNat = 127 then
        [backslash, 'x', Nat.digitChar (char.toNat / 16), Nat.digitChar (char.toNat % 16)]
      else
        [char]

/-- `fmt.Sprintf("%q", text)` for printable text and control characters. -/
def goQuote (text : String) : String :=
  let quote := Char.ofNat 0x22
  String.ofList (quote :: text.toList.flatMap goQuoteChar ++ [quote])

def validateJobUpdate (action : String) : Option Response :=
  if action = "cancel" then
    none
  else
    some ⟨422, .error .invalidRequest
      ("unknown action " ++ goQuote action ++ "; only " ++ goQuote "cancel" ++
        " is supported")⟩

/-- How `UpdateJob` answers an error of the store. -/
def cancelFailure : UpdateError → Response
  | .jobNotFound => ⟨404, .error .jobNotFound "job not found"⟩
  | .invalidTransition source target =>
      ⟨409, .error .invalidRequest (invalidTransitionMessage source target)⟩
  | .database => ⟨500, .error .internalServer "failed to cancel job"⟩

/-- The answer of `UpdateJob` once the store has replied; removing the job from
the queue afterwards does not change it. -/
def cancelAnswer : Except UpdateError Job → Response
  | .error error => cancelFailure error
  | .ok job => ⟨200, .job job⟩

theorem cancelAnswer_code_eq_200 {result : Except UpdateError Job} :
    (cancelAnswer result).code = 200 ↔ ∃ job, result = .ok job := by
  rcases result with (_ | _ | _) | job <;> simp [cancelAnswer, cancelFailure]

end Crucible
