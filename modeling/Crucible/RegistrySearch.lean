import Crucible.DatasetSchema
import Crucible.HttpAnswers
import Crucible.LikePatterns
import Crucible.ModelRegistration

/-!
# Searching the registries

`ModelStore.List` and `DatasetStore.List` put the search string between two
percent signs and compare with `ILIKE`.  Both are instances of one listing,
which differ in the columns that they search.
-/

namespace Crucible

open LikePatterns

def ModelStatus.value : ModelStatus → String
  | .ready => "ready"
  | .archived => "archived"

def DatasetStatus.value : DatasetStatus → String
  | .pending => "pending"
  | .ready => "ready"
  | .archived => "archived"

/-- `ListModelsParams`, and `ListDatasetsParams` with its `Name` as the search. -/
structure RegistryParams where
  status : Option String
  search : String
  limit : Int
  offset : Int
  deriving DecidableEq, Repr

/-- The query parameters of a listing, empty where the request has none. -/
structure RegistryQuery where
  status : String
  search : String
  limit : String
  offset : String

def parseBounded (test : Int → Bool) (absent : Int) (message text : String) :
    Except Response Int :=
  if text = "" then
    .ok absent
  else
    match (atoi text).filter test with
    | some value => .ok value
    | none => .error ⟨422, .error .invalidRequest message⟩

def parseRegistryParams (query : RegistryQuery) : Except Response RegistryParams := do
  let limit ← parseBounded (fun value => 1 ≤ value ∧ value ≤ 200) 50
    "limit must be an integer between 1 and 200" query.limit
  let offset ← parseBounded (0 ≤ ·) 0 "offset must be a non-negative integer" query.offset
  return { status := if query.status = "" then none else some query.status
           search := query.search
           limit := limit
           offset := offset }

def parseListModelsParams (query : RegistryQuery) : Except Response RegistryParams :=
  parseRegistryParams query

def parseListDatasetsParams (query : RegistryQuery) : Except Response RegistryParams :=
  parseRegistryParams query

def RegistryParams.requested (params : RegistryParams) : String :=
  params.status.getD "ready"

variable {Folded : Type*} [DecidableEq Folded] {Row : Type}

/-- The page and the count of a listing that selects the given rows. -/
def RegistryParams.answer (params : RegistryParams) (order : List Row → List Row)
    (selected : List Row) : Except String (List Row × Nat) :=
  let limit := if params.limit > 0 then params.limit.toNat else 50
  if params.offset < 0 then
    .error "OFFSET must not be negative"
  else
    .ok (((order selected).drop params.offset.toNat).take limit, selected.length)

/-- Both stores' `List`: `fold` is what `ILIKE` does to characters and `order` the
`ORDER BY`. -/
def listRegistry (status : Row → String) (columns : Row → List String)
    (fold : Char → Folded) (order : List Row → List Row) (table : List Row)
    (params : RegistryParams) : Except String (List Row × Nat) :=
  if params.search ≠ "" then
    match parse false ('%' :: (params.search.toList ++ ['%'])) with
    | .error message => .error message
    | .ok pattern =>
        params.answer order (table.filter fun row => status row = params.requested ∧
          (columns row).any fun column => accepts fold pattern column.toList)
  else
    params.answer order (table.filter fun row => status row = params.requested)

def ModelStore.list (fold : Char → Folded) (order : List Model → List Model)
    (table : List Model) (params : RegistryParams) : Except String (List Model × Nat) :=
  listRegistry (·.status.value) (fun row => [row.hfRepoId, row.displayName]) fold order table
    params

def DatasetStore.list (fold : Char → Folded) (order : List DatasetRow → List DatasetRow)
    (table : List DatasetRow) (params : RegistryParams) :
    Except String (List DatasetRow × Nat) :=
  listRegistry (·.status.value) (fun row => [row.name]) fold order table params

/-- Whether a column contains the search string up to folding. -/
def Mentions (fold : Char → Folded) (search column : String) : Prop :=
  ContainsFolded fold column.toList search.toList

instance (fold : Char → Folded) (search column : String) :
    Decidable (Mentions fold search column) :=
  inferInstanceAs (Decidable (ContainsFolded _ _ _))

/-- A listing selects exactly the rows of the requested status one of whose
columns contains the search string. -/
def SelectsSubstrings (status : Row → String) (columns : Row → List String)
    (list : (List Row → List Row) → List Row → RegistryParams → Except String (List Row × Nat))
    (fold : Char → Folded) (search : String) : Prop :=
  ∀ order table params, (∀ rows, (order rows).Perm rows) → params.search = search →
    list order table params = params.answer order (table.filter fun row =>
      status row = params.requested ∧ ∃ column ∈ columns row, Mentions fold search column)

theorem search_of_parse {query : RegistryQuery} {params : RegistryParams}
    (parsed : parseRegistryParams query = .ok params) : params.search = query.search := by
  unfold parseRegistryParams at parsed
  generalize parseBounded _ _ _ query.limit = limit at parsed
  generalize parseBounded _ _ _ query.offset = offset at parsed
  cases limit with
  | error refusal => cases parsed
  | ok limit =>
      cases offset with
      | error refusal => cases parsed
      | ok offset =>
          cases parsed
          rfl

/-- No character of a search string is special in a pattern. -/
def Plain (search : String) : Prop :=
  ∀ char ∈ search.toList, char ∉ special

instance (search : String) : Decidable (Plain search) :=
  List.decidableBAll (fun char => char ∉ special) search.toList

section Listing

variable {fold : Char → Folded} {status : Row → String} {columns : Row → List String}
  {search : String}

theorem listRegistry_of_plain (distinguishes : Distinguishes fold) (nonempty : search ≠ "")
    (plain : Plain search) :
    SelectsSubstrings status columns (listRegistry status columns fold) fold search := by
  rintro order table params _ rfl
  have finds := (finds_substrings_iff distinguishes params.search.toList).mpr plain
  simp only [listRegistry, if_pos nonempty]
  split
  case h_1 message read => simpa [read, Except.map] using finds []
  case h_2 pattern read =>
    congr 1
    apply List.filter_congr
    intro row _
    have columnwise : ((columns row).any fun column => accepts fold pattern column.toList) =
        decide (∃ column ∈ columns row, Mentions fold params.search column) := by
      rw [Bool.eq_iff_iff, List.any_eq_true, decide_eq_true_eq]
      refine exists_congr fun column => and_congr_right fun _ => ?_
      have finding : accepts fold pattern column.toList =
          decide (ContainsFolded fold column.toList params.search.toList) := by
        simpa [read, Except.map] using finds column.toList
      rw [finding, decide_eq_true_eq]
      rfl
    simp [columnwise]

/-- A listing that selects substrings reads its search literally, provided that
some ready row has any given text in all of its columns. -/
theorem plain_of_listRegistry (distinguishes : Distinguishes fold) (nonempty : search ≠ "")
    (rowOf : String → Row) (ready : ∀ text, status (rowOf text) = "ready")
    (filled : ∀ text, columns (rowOf text) ≠ [])
    (same : ∀ text, ∀ column ∈ columns (rowOf text), column = text)
    (selects : SelectsSubstrings status columns (listRegistry status columns fold) fold search) :
    Plain search := by
  refine (finds_substrings_iff distinguishes search.toList).mp fun text => ?_
  obtain ⟨tokens, read, _⟩ := accepts_found fold false search.toList
  have pattern : parse false ('%' :: (search.toList ++ ['%'])) = .ok (.any :: tokens) := by
    rw [parse, if_pos rfl, read]
    rfl
  let row := rowOf (String.ofList text)
  obtain ⟨first, member⟩ := List.exists_mem_of_ne_nil _ (filled (String.ofList text))
  have only : ∀ test : List Char → Prop,
      (∃ column ∈ columns row, test column.toList) ↔ test text := by
    intro test
    constructor
    · rintro ⟨column, listed, passes⟩
      rwa [same _ column listed, String.toList_ofList] at passes
    · intro passes
      exact ⟨first, member, by rwa [same _ first member, String.toList_ofList]⟩
  have answer := selects id [row] ⟨none, search, 1, 0⟩ (fun rows => .refl rows) rfl
  have requested : status row = RegistryParams.requested ⟨none, search, 1, 0⟩ :=
    ready (String.ofList text)
  have matched : ((columns row).any fun column =>
      accepts fold (.any :: tokens) column.toList) = accepts fold (.any :: tokens) text := by
    rw [Bool.eq_iff_iff, List.any_eq_true]
    exact only fun text => accepts fold (.any :: tokens) text = true
  have mentioned : (∃ column ∈ columns row, Mentions fold search column) ↔
      ContainsFolded fold text search.toList :=
    only fun text => ContainsFolded fold text search.toList
  -- the row is counted exactly if it is selected
  simp only [listRegistry, if_pos nonempty, pattern, List.filter_cons, List.filter_nil, requested,
    true_and, matched, mentioned] at answer
  rw [pattern, Except.map]
  cases accepted : accepts fold (.any :: tokens) text <;>
    by_cases contained : ContainsFolded fold text search.toList <;>
    simp [RegistryParams.answer, accepted, contained] at answer ⊢

end Listing

variable {fold : Char → Folded}

/-- Both registries are searched for substrings exactly if the search string has no
percent sign, underscore or backslash. -/
theorem search_finds_substrings_iff (distinguishes : Distinguishes fold) {search : String}
    (nonempty : search ≠ "") :
    (SelectsSubstrings (fun row : Model => row.status.value)
        (fun row => [row.hfRepoId, row.displayName]) (ModelStore.list fold) fold search ↔
      Plain search) ∧
    (SelectsSubstrings (fun row : DatasetRow => row.status.value) (fun row => [row.name])
        (DatasetStore.list fold) fold search ↔
      Plain search) := by
  constructor
  · refine ⟨plain_of_listRegistry distinguishes nonempty
      (fun text => ⟨⟨text, "", none, none, .ready, false⟩, text, none, 0⟩) (fun _ => rfl)
      (by simp) (by simp), listRegistry_of_plain distinguishes nonempty⟩
  · refine ⟨plain_of_listRegistry distinguishes nonempty
      (fun text => ⟨text, "", "", .object, 0, "", .ready, none⟩) (fun _ => rfl)
      (by simp) (by simp), listRegistry_of_plain distinguishes nonempty⟩

theorem distinguishes_toLower : Distinguishes Char.toLower := by
  intro char member other same
  have codes := congrArg Char.toNat same
  rw [PythonText.toNat_toLower, PythonText.toNat_toLower] at codes
  have code : char.toNat = 37 ∨ char.toNat = 95 ∨ char.toNat = 92 := by
    simp only [special, List.mem_cons, List.not_mem_nil, or_false] at member
    obtain rfl | rfl | rfl := member <;> decide
  apply Char.toNat_inj.mp
  split at codes <;> split at codes <;> omega

theorem search_finds_substrings_iff_mistral :
    SelectsSubstrings (fun row : Model => row.status.value)
      (fun row => [row.hfRepoId, row.displayName]) (ModelStore.list Char.toLower) Char.toLower
      "mistral-7b" :=
  (search_finds_substrings_iff distinguishes_toLower (by decide)).1.mpr (by decide)

/-- Searching for a name with an underscore also finds one with a hyphen. -/
theorem underscore_finds_hyphen :
    ¬ SelectsSubstrings (fun row : DatasetRow => row.status.value) (fun row => [row.name])
      (DatasetStore.list Char.toLower) Char.toLower "chat_v2" := by
  intro selects
  have answer := selects id [⟨"chat-v2", "9f86d081", "datasets/chat-v2/9f86d081.csv", .object, 4,
    "9f86d081", .ready, none⟩] ⟨none, "chat_v2", 50, 0⟩ (fun rows => .refl rows) rfl
  revert answer
  decide +kernel

end Crucible
