import Crucible.RegistrySearch
import Crucible.TiedPages
import Mathlib.Data.Prod.Lex
import Mathlib.Data.String.Basic
import Mathlib.Order.OrderDual

/-!
# Paging through the registries

`GET /datasets` orders by name and version, and a unique index keeps two rows
from having both in common.  Every query of a client that asks for page after
page therefore meets the same order, and the pages make up the sorted listing.
`GET /models` orders by display name and revision, which rows of two
repositories may share.
-/

namespace TiedPages

variable {Row Key : Type*} [LinearOrder Key] {key : Row → Key} {rows order order' : List Row}

theorem not_nodup_of_mem {pages : Nat → List Row} {count index : Nat} {row : Row}
    (late : 0 < index) (asked : index < count) (before : row ∈ pages (index - 1))
    (after : row ∈ pages index) : ¬ ((List.range count).flatMap pages).Nodup := by
  intro once
  have disjoint := (List.nodup_flatMap.mp once).2
  rw [List.pairwise_iff_getElem] at disjoint
  have apart := disjoint (index - 1) index (by simp; omega) (by simpa using asked) (by omega)
  simp only [List.getElem_range] at apart
  exact apart before after

end TiedPages

namespace Crucible

open LikePatterns

variable {Row : Type} {Folded : Type*} [DecidableEq Folded]

/-- `listModelsResponse` and `listDatasetsResponse`. -/
structure RegistryResponse (Row : Type) where
  data : List Row
  total : Nat
  limit : Int
  offset : Int

/-- A listing after its parameters were accepted; an error of the database is
answered with an internal error. -/
def listRows (message : String) (list : RegistryParams → Except String (List Row × Nat))
    (params : RegistryParams) : Except Response (RegistryResponse Row) :=
  match list params with
  | .error _ => .error ⟨500, .error .internalServer message⟩
  | .ok (rows, total) =>
      .ok { data := rows, total := total, limit := params.limit, offset := params.offset }

/-- `ListModels` after its parameters were accepted. -/
def listModels : (RegistryParams → Except String (List Model × Nat)) → RegistryParams →
    Except Response (RegistryResponse Model) :=
  listRows "failed to list models"

/-- `ListDatasets` after its parameters were accepted. -/
def listDatasets : (RegistryParams → Except String (List DatasetRow × Nat)) → RegistryParams →
    Except Response (RegistryResponse DatasetRow) :=
  listRows "failed to list datasets"

/-- `ListModels`. -/
def handleListModels (list : RegistryParams → Except String (List Model × Nat))
    (query : RegistryQuery) : Except Response (RegistryResponse Model) := do
  let params ← parseListModelsParams query
  listModels list params

/-- `ListDatasets`. -/
def handleListDatasets (list : RegistryParams → Except String (List DatasetRow × Nat))
    (query : RegistryQuery) : Except Response (RegistryResponse DatasetRow) := do
  let params ← parseListDatasetsParams query
  listDatasets list params

/-- A client that asks for the next page at the echoed offset plus the echoed
limit until that reaches the total, and stops at an error.  Query number `query`
is answered by `answers query`; `none` means that the fuel ran out. -/
def collectRows (answers : Nat → RegistryParams → Except Response (RegistryResponse Row))
    (params : RegistryParams) : Nat → Nat → Int → Option (Except Response (List Row))
  | 0, _, _ => none
  | fuel + 1, query, offset =>
      match answers query { params with offset := offset } with
      | .error refusal => some (.error refusal)
      | .ok response =>
          let next := response.offset + response.limit
          if (response.total : Int) ≤ next then
            some (.ok response.data)
          else
            (collectRows answers params fuel (query + 1) next).map fun rest =>
              rest.map (response.data ++ ·)

/-! ## Selecting -/

def registrySelection (status : Row → String) (columns : Row → List String)
    (fold : Char → Folded) (table : List Row) (params : RegistryParams) : List Row :=
  table.filter fun row => status row = params.requested ∧
    (params.search = "" ∨ (columns row).any fun column =>
      (parse false ('%' :: (params.search.toList ++ ['%']))).toOption.any fun pattern =>
        accepts fold pattern column.toList)

variable {status : Row → String} {columns : Row → List String} {fold : Char → Folded}
  {table : List Row} {params : RegistryParams}

/-- A pattern that ends with a percent sign can be read, so that a listing never
fails for its search. -/
theorem listRegistry_eq (order : List Row → List Row) :
    listRegistry status columns fold order table params =
      params.answer order (registrySelection status columns fold table params) := by
  obtain ⟨tokens, read, _⟩ := accepts_found fold false params.search.toList
  have pattern : parse false ('%' :: (params.search.toList ++ ['%'])) = .ok (.any :: tokens) := by
    rw [parse, if_pos rfl, read]
    rfl
  unfold listRegistry registrySelection
  split
  case isTrue searched => simp [pattern, searched, Except.toOption]
  case isFalse unsearched =>
    have empty : params.search = "" := not_not.mp unsearched
    simp [empty]

theorem registrySelection_sublist :
    (registrySelection status columns fold table params).Sublist table :=
  List.filter_sublist

theorem registrySelection_offset (offset : Int) :
    registrySelection status columns fold table { params with offset := offset } =
      registrySelection status columns fold table params :=
  rfl

theorem limit_pos_of_parse {query : RegistryQuery}
    (parsed : parseRegistryParams query = .ok params) : 0 < params.limit := by
  unfold parseRegistryParams at parsed
  cases limit : parseBounded (fun value => 1 ≤ value ∧ value ≤ 200) 50
      "limit must be an integer between 1 and 200" query.limit with
  | error refusal =>
      rw [limit] at parsed
      cases parsed
  | ok value =>
      rw [limit] at parsed
      generalize parseBounded _ _ _ query.offset = offset at parsed
      cases offset with
      | error refusal => cases parsed
      | ok offset =>
          cases parsed
          change 0 < value
          unfold parseBounded at limit
          split at limit
          · cases limit
            decide
          · split at limit
            case h_1 accepted found =>
              cases limit
              have inside := (Option.filter_eq_some_iff.mp found).2
              simp only [decide_eq_true_eq] at inside
              omega
            case h_2 => cases limit

/-! ## Pages -/

def RegistryParams.pageSize (params : RegistryParams) : Nat :=
  params.limit.toNat

theorem listRows_page (message : String) (order : List Row → List Row)
    (positive : 0 < params.limit) (index : Nat) :
    listRows message (listRegistry status columns fold order table)
        { params with offset := ((index * params.pageSize : Nat) : Int) } =
      .ok { data := TiedPages.page params.pageSize
              (order (registrySelection status columns fold table params)) index
            total := (registrySelection status columns fold table params).length
            limit := params.limit
            offset := ((index * params.pageSize : Nat) : Int) } := by
  have nonnegative : ¬ ((index * params.pageSize : Nat) : Int) < 0 := by omega
  simp only [listRows, listRegistry_eq, RegistryParams.answer, if_pos positive, if_neg nonnegative,
    registrySelection_offset, Int.toNat_natCast]
  rfl

section Collecting

variable (status columns fold table) (message : String) (orders : Nat → List Row → List Row)

/-- The answers to a client whose query number `query` meets the order
`orders query`. -/
def registryAnswers (query : Nat) (params : RegistryParams) :
    Except Response (RegistryResponse Row) :=
  listRows message (listRegistry status columns fold (orders query) table) params

/-- The client receives the pages one after the other and stops. -/
theorem collectRows_eq (positive : 0 < params.limit) (fuel query : Nat)
    (enough : (registrySelection status columns fold table params).length <
      fuel + query * params.pageSize)
    (inside : query * params.pageSize ≤
      (registrySelection status columns fold table params).length) :
    ∃ count, collectRows (registryAnswers status columns fold table message orders) params fuel
          query ((query * params.pageSize : Nat) : Int) =
        some (.ok ((List.range' query count).flatMap fun index =>
          TiedPages.page params.pageSize
            (orders index (registrySelection status columns fold table params)) index)) ∧
      (registrySelection status columns fold table params).length ≤
        (query + count) * params.pageSize := by
  have size : ((params.pageSize : Nat) : Int) = params.limit :=
    Int.toNat_of_nonneg (by omega)
  induction fuel generalizing query with
  | zero => omega
  | succ fuel ih =>
      have next : ((query * params.pageSize : Nat) : Int) + params.limit =
          (((query + 1) * params.pageSize : Nat) : Int) := by
        rw [← size, Nat.succ_mul]
        omega
      simp only [collectRows, registryAnswers, listRows_page message _ positive, next]
      split
      case isTrue last => exact ⟨1, by simp [List.range'], Int.ofNat_le.mp last⟩
      case isFalse more =>
        have inside' : (query + 1) * params.pageSize ≤
            (registrySelection status columns fold table params).length := by omega
        have enough' : (registrySelection status columns fold table params).length <
            fuel + (query + 1) * params.pageSize := by
          rw [Nat.succ_mul]
          omega
        obtain ⟨count, collected, covered⟩ := ih (query + 1) enough' inside'
        refine ⟨count + 1, ?_, ?_⟩
        · rw [collected, List.range'_succ, List.flatMap_cons]
          rfl
        · rwa [Nat.add_right_comm] at covered

theorem collectRows_first (positive : 0 < params.limit) :
    ∃ count, collectRows (registryAnswers status columns fold table message orders) params
          ((registrySelection status columns fold table params).length + 1) 0 0 =
        some (.ok ((List.range count).flatMap fun index =>
          TiedPages.page params.pageSize
            (orders index (registrySelection status columns fold table params)) index)) ∧
      (registrySelection status columns fold table params).length ≤ count * params.pageSize := by
  obtain ⟨count, pages, covered⟩ := collectRows_eq status columns fold table message orders
    positive ((registrySelection status columns fold table params).length + 1) 0 (by simp) (by simp)
  refine ⟨count, ?_, by simpa using covered⟩
  simpa [List.range_eq_range'] using pages

end Collecting


/-! ## Datasets -/

def DatasetStore.selection (fold : Char → Folded) (table : List DatasetRow)
    (params : RegistryParams) : List DatasetRow :=
  registrySelection (·.status.value) (fun row => [row.name]) fold table params

def onePerPageQuery (search : String) : RegistryQuery :=
  ⟨"", search, "1", ""⟩

def onePerPageParams (search : String) : RegistryParams :=
  ⟨none, search, 1, 0⟩

/-- The ascending `ORDER BY display_name, revision` of a collation. -/
def displayNameAndRevision {Collated : Type*} (collate : String → Collated) (row : Model) :
    (Collated ×ₗ Collated)ᵒᵈ :=
  OrderDual.toDual (toLex (collate row.displayName, collate row.revision))

def ModelStore.selection (fold : Char → Folded) (table : List Model) (params : RegistryParams) :
    List Model :=
  registrySelection (·.status.value) (fun row => [row.hfRepoId, row.displayName]) fold table params

/-- A client that pages through the models receives every one that it asked for
exactly once, in whatever way the queries order rows that tie. -/
def ModelsPagedExactly {Collated : Type*} [LinearOrder Collated] (collate : String → Collated)
    (fold : Char → Folded) (table : List Model) (params : RegistryParams) : Prop :=
  ∀ orders : Nat → List Model → List Model,
    (∀ query, TiedPages.Permitted (displayNameAndRevision collate)
      (ModelStore.selection fold table params)
      (orders query (ModelStore.selection fold table params))) →
    ∃ received,
      collectRows (fun query => listModels (ModelStore.list fold (orders query) table)) params
          ((ModelStore.selection fold table params).length + 1) 0 0 = some (.ok received) ∧
        received.Perm (ModelStore.selection fold table params)

/-- No models of one display name and revision lie on both sides of a page
boundary. -/
def NoModelsTiedAcrossPages {Collated : Type*} [LinearOrder Collated]
    (collate : String → Collated) (fold : Char → Folded) (table : List Model)
    (params : RegistryParams) : Prop :=
  ∀ index, TiedPages.Clean (displayNameAndRevision collate)
    (ModelStore.selection fold table params) (index * params.pageSize)

/-- Paging through the models is exact exactly if no models of one display name
and revision lie on both sides of a page boundary. -/
theorem models_paged_exactly_iff {Collated : Type*} [LinearOrder Collated]
    (collate : String → Collated) (fold : Char → Folded) {table : List Model}
    (unique : (table.map fun row => (row.hfRepoId, row.revision)).Nodup)
    {query : RegistryQuery} {params : RegistryParams}
    (accepted : parseListModelsParams query = .ok params) :
    ModelsPagedExactly collate fold table params ↔
      NoModelsTiedAcrossPages collate fold table params := by
  have listed := fun orders => collectRows_first (fun row : Model => row.status.value)
    (fun row => [row.hfRepoId, row.displayName]) fold table "failed to list models" orders
    (limit_pos_of_parse accepted)
  constructor
  · intro exactly index
    by_contra unclean
    obtain ⟨orders, allowed, late, bound, model, before, after⟩ := TiedPages.exists_twice unclean
    obtain ⟨received, collected, perm⟩ := exactly (fun query _ => orders query) allowed
    obtain ⟨count, pages, covered⟩ := listed fun query _ => orders query
    obtain rfl := Except.ok.inj (Option.some.inj (pages.symm.trans collected))
    have distinct : (ModelStore.selection fold table params).Nodup :=
      (List.Nodup.of_map _ unique).sublist registrySelection_sublist
    have asked : index < count :=
      Nat.lt_of_mul_lt_mul_right (Nat.lt_of_lt_of_le bound covered)
    exact TiedPages.not_nodup_of_mem late asked (by exact before) (by exact after)
      (perm.nodup_iff.mpr distinct)
  · intro clean orders sorts
    obtain ⟨count, pages, covered⟩ := listed orders
    exact ⟨_, pages, TiedPages.flatMap_page_perm sorts clean covered⟩

def twoForks : List Model :=
  ["org/base", "fork/base"].map fun repoId =>
    ⟨⟨repoId, "main", none, none, .ready, false⟩, "Base", none, 0⟩

/-- With one model per page a client may see one of them twice and the other never. -/
theorem models_paged_exactly_iff_twoForks :
    ¬ ModelsPagedExactly id Char.toLower twoForks (onePerPageParams "base") := by
  intro exactly
  have clean := (models_paged_exactly_iff id Char.toLower (by decide)
    (by decide +kernel :
      parseListModelsParams (onePerPageQuery "base") = .ok (onePerPageParams "base"))).mp exactly
  exact absurd (clean 1) (by decide +kernel)

end Crucible
