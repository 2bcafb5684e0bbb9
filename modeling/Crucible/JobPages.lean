import Crucible.HttpAnswers
import Crucible.TiedPages

/-!
# Paging through jobs

`GET /jobs` with its validation, the store's query and the limit and offset
that the handler echoes.  The query orders by `created_at` alone, so jobs
created at one instant may come in any order, and in another one for the next
page.
-/

namespace Crucible

/-- `api.ListJobsParams`; `none` is a nil pointer. -/
structure ListJobsParams where
  status : Option String
  limit : Option Int
  offset : Option Int
  deriving DecidableEq, Repr

/-- The query parameters of `GET /jobs`, empty where the request has none. -/
structure ListJobsQuery where
  status : String
  limit : String
  offset : String

structure ListJobsResponse where
  data : List Job
  total : Nat
  limit : Int
  offset : Int
  deriving DecidableEq, Repr

/-- The violations that `validateListJobsParams` collects. -/
def ListJobsParams.errs (params : ListJobsParams) : List String :=
  (if params.limit.any (· < 1) then ["limit must be >= 1"] else []) ++
    (if params.limit.any (· > 200) then ["limit must be <= 200"] else []) ++
    (if params.offset.any (· < 0) then ["offset must be >= 0"] else []) ++
    match params.status with
    | none => []
    | some status =>
        if status ∈ [JobStatus.queued, .running, .completed, .failed, .cancelled].map JobStatus.value
        then [] else ["unknown status " ++ goQuote status]

def validateListJobsParams (params : ListJobsParams) : Option Response :=
  if params.errs = [] then
    none
  else
    some ⟨422, .error .invalidRequest ("; ".intercalate params.errs)⟩

/-- Read an integer parameter; an empty one is absent. -/
def parseIntParam (name text : String) : Except Response (Option Int) :=
  if text = "" then
    .ok none
  else
    match atoi text with
    | none => .error ⟨422, .error .invalidRequest (name ++ " must be an integer")⟩
    | some value => .ok (some value)

def parseListJobsParams (query : ListJobsQuery) : Except Response ListJobsParams := do
  let limit ← parseIntParam "limit" query.limit
  let offset ← parseIntParam "offset" query.offset
  let params : ListJobsParams :=
    { status := if query.status = "" then none else some query.status, limit, offset }
  match validateListJobsParams params with
  | none => .ok params
  | some refusal => .error refusal

def JobTable.matching (table : JobTable) (status : Option String) : List Job :=
  (table.entries.map fun entry => ({ entry.2 with id := entry.1 } : Job)).filter fun job =>
    status.all (job.status.value = ·)

namespace JobStore

def listLimit (params : ListJobsParams) : Int :=
  match params.limit with
  | some limit => if limit > 0 then limit else 50
  | none => 50

def listOffset (params : ListJobsParams) : Int :=
  match params.offset with
  | some offset => if offset > 0 then offset else 0
  | none => 0

/-- `JobStore.List`, when the database puts the matching jobs in the given order. -/
def list (table : JobTable) (order : List Job) (params : ListJobsParams) : List Job × Nat :=
  ((order.drop (listOffset params).toNat).take (listLimit params).toNat,
    (table.matching params.status).length)

end JobStore

/-- `ListJobs` after its parameters were accepted. -/
def listJobs (table : JobTable) (order : List Job) (params : ListJobsParams) :
    ListJobsResponse :=
  let (jobs, total) := JobStore.list table order params
  { data := jobs
    total := total
    limit := params.limit.getD 50
    offset := params.offset.getD 0 }

def handleListJobs (table : JobTable) (order : List Job) (query : ListJobsQuery) :
    Except Response ListJobsResponse :=
  (parseListJobsParams query).map (listJobs table order)

/-- An order that `ORDER BY created_at DESC` allows. -/
def OrderAllowed (table : JobTable) (status : Option String) (order : List Job) : Prop :=
  TiedPages.Permitted (fun job => job.createdAt) (table.matching status) order

/-- A client that asks for the next page at the echoed offset plus the echoed
limit until that reaches the total.  Query number `query` meets the order
`orders query`; `none` means that the fuel ran out. -/
def collectJobs (table : JobTable) (orders : Nat → List Job) (status : Option String)
    (limit : Option Int) : Nat → Nat → Int → Option (List Job)
  | 0, _, _ => none
  | fuel + 1, query, offset =>
      let response := listJobs table (orders query) ⟨status, limit, some offset⟩
      let next := response.offset + response.limit
      if (response.total : Int) ≤ next then
        some response.data
      else
        (collectJobs table orders status limit fuel (query + 1) next).map (response.data ++ ·)

theorem validate_eq_none {params : ListJobsParams} :
    validateListJobsParams params = none ↔ params.errs = [] := by
  unfold validateListJobsParams
  split <;> simp_all

theorem accepted_bounds {params : ListJobsParams}
    (accepted : validateListJobsParams params = none) :
    (∀ limit, params.limit = some limit → 1 ≤ limit) ∧
      ∀ offset, params.offset = some offset → 0 ≤ offset := by
  simp only [validate_eq_none, ListJobsParams.errs, List.append_eq_nil_iff] at accepted
  obtain ⟨⟨⟨small, _⟩, negative⟩, _⟩ := accepted
  constructor
  · rintro limit given
    by_contra low
    simp [given, not_le.mp low] at small
  · rintro offset given
    by_contra low
    simp [given, not_le.mp low] at negative

theorem JobStore.listLimit_pos (params : ListJobsParams) : 0 < listLimit params := by
  unfold listLimit
  split
  · split <;> omega
  · decide

theorem echoed_limit {params : ListJobsParams}
    (accepted : validateListJobsParams params = none) :
    params.limit.getD 50 = JobStore.listLimit params := by
  cases given : params.limit with
  | none => simp [JobStore.listLimit, given]
  | some limit =>
      have positive := (accepted_bounds accepted).1 limit given
      simp [JobStore.listLimit, given, show limit > 0 by omega]

theorem echoed_offset {params : ListJobsParams}
    (accepted : validateListJobsParams params = none) :
    params.offset.getD 0 = JobStore.listOffset params := by
  cases given : params.offset with
  | none => simp [JobStore.listOffset, given]
  | some offset =>
      have nonnegative := (accepted_bounds accepted).2 offset given
      by_cases positive : offset > 0
      · simp [JobStore.listOffset, given, positive]
      · simp [JobStore.listOffset, given, show offset = 0 by omega]

theorem validate_of_parse {query : ListJobsQuery} {params : ListJobsParams}
    (parsed : parseListJobsParams query = .ok params) :
    validateListJobsParams params = none := by
  unfold parseListJobsParams at parsed
  cases limit : parseIntParam "limit" query.limit with
  | error refusal => simp [limit, bind, Except.bind] at parsed
  | ok limit' =>
      cases offset : parseIntParam "offset" query.offset with
      | error refusal => simp [limit, offset, bind, Except.bind] at parsed
      | ok offset' =>
          simp only [limit, offset, bind, Except.bind] at parsed
          split at parsed
          case h_1 accepted => cases parsed; exact accepted
          case h_2 => cases parsed

theorem validate_offset {params : ListJobsParams}
    (accepted : validateListJobsParams params = none) (offset : Nat) :
    validateListJobsParams { params with offset := some (offset : Int) } = none := by
  simp only [validate_eq_none, ListJobsParams.errs, List.append_eq_nil_iff] at accepted ⊢
  exact ⟨⟨accepted.1.1, by simp⟩, accepted.2⟩

def pageSize (params : ListJobsParams) : Nat :=
  (JobStore.listLimit params).toNat

theorem pageSize_pos (params : ListJobsParams) : 0 < pageSize params := by
  have := JobStore.listLimit_pos params
  unfold pageSize
  omega

theorem listJobs_page {params : ListJobsParams} (table : JobTable) (order : List Job)
    (accepted : validateListJobsParams params = none) (index : Nat) :
    listJobs table order
        { params with offset := some ((index * pageSize params : Nat) : Int) } =
      { data := TiedPages.page (pageSize params) order index
        total := (table.matching params.status).length
        limit := (pageSize params : Int)
        offset := ((index * pageSize params : Nat) : Int) } := by
  have allowed := validate_offset accepted (index * pageSize params)
  have limit : (JobStore.listLimit
      { params with offset := some ((index * pageSize params : Nat) : Int) }) =
        (pageSize params : Int) := by
    have := JobStore.listLimit_pos params
    change JobStore.listLimit params = _
    unfold pageSize
    omega
  have offset := echoed_offset allowed
  simp only [Option.getD_some] at offset
  simp only [listJobs, JobStore.list, echoed_limit allowed, limit, ← offset, Option.getD_some,
    TiedPages.page, Int.toNat_natCast]

/-- The client receives the pages one after the other and stops. -/
theorem collectJobs_eq {params : ListJobsParams} (table : JobTable) (orders : Nat → List Job)
    (accepted : validateListJobsParams params = none) (fuel query : Nat)
    (inside : query * pageSize params ≤ (table.matching params.status).length)
    (enough : (table.matching params.status).length < fuel + query * pageSize params) :
    ∃ count, collectJobs table orders params.status params.limit fuel query
          ((query * pageSize params : Nat) : Int) =
        some ((List.range' query count).flatMap fun index =>
          TiedPages.page (pageSize params) (orders index) index) ∧
      (table.matching params.status).length ≤ (query + count) * pageSize params := by
  have positive := pageSize_pos params
  induction fuel generalizing query with
  | zero => omega
  | succ fuel ih =>
      have answer := listJobs_page table (orders query) accepted query
      have next : ((query * pageSize params : Nat) : Int) + (pageSize params : Int) =
          (((query + 1) * pageSize params : Nat) : Int) := by
        rw [Nat.succ_mul]
        omega
      simp only [collectJobs, answer, next]
      split
      case isTrue last =>
        exact ⟨1, by simp [List.range'], Int.ofNat_le.mp last⟩
      case isFalse more =>
        have inside' : (query + 1) * pageSize params ≤ (table.matching params.status).length := by
          omega
        have enough' : (table.matching params.status).length <
            fuel + (query + 1) * pageSize params := by
          rw [Nat.succ_mul]
          omega
        obtain ⟨count, collected, covered⟩ := ih (query + 1) inside' enough'
        refine ⟨count + 1, ?_, ?_⟩
        · rw [collected, List.range'_succ, List.flatMap_cons]
          rfl
        · rwa [Nat.add_right_comm] at covered

theorem collectJobs_first {params : ListJobsParams} (table : JobTable) (orders : Nat → List Job)
    (accepted : validateListJobsParams params = none) :
    ∃ count, collectJobs table orders params.status params.limit
          ((table.matching params.status).length + 1) 0 0 =
        some ((List.range count).flatMap fun index =>
          TiedPages.page (pageSize params) (orders index) index) ∧
      (table.matching params.status).length ≤ count * pageSize params := by
  obtain ⟨count, pages, covered⟩ := collectJobs_eq table orders accepted
    ((table.matching params.status).length + 1) 0 (by simp) (by simp)
  refine ⟨count, ?_, by simpa using covered⟩
  simpa [List.range_eq_range'] using pages

theorem nodup_matching (table : JobTable) (status : Option String) :
    (table.matching status).Nodup := by
  apply List.Nodup.filter
  apply List.Nodup.of_map Job.id
  rw [List.map_map]
  exact table.nodupKeys

/-- A client that pages through the jobs receives every matching one exactly
once, whatever order each query meets, and is told the limit and offset that
were applied. -/
structure PagesExactly (table : JobTable) (params : ListJobsParams) : Prop where
  complete : ∀ orders : Nat → List Job, (∀ query, OrderAllowed table params.status (orders query)) →
    ∃ received, collectJobs table orders params.status params.limit
        ((table.matching params.status).length + 1) 0 0 = some received ∧
      received.Perm (table.matching params.status)
  echoes : ∀ order query response, handleListJobs table order query = .ok response →
    ∃ asked, parseListJobsParams query = .ok asked ∧
      response.data = (JobStore.list table order asked).1 ∧
      response.limit = JobStore.listLimit asked ∧ response.offset = JobStore.listOffset asked

/-- No group of matching jobs with one `created_at` straddles a page boundary. -/
def NoTieAcrossPages (table : JobTable) (params : ListJobsParams) : Prop :=
  ∀ index, TiedPages.Clean (fun job : Job => job.createdAt) (table.matching params.status)
    (index * pageSize params)

/-- Paging is exact exactly if no tie straddles a page boundary. -/
theorem pages_exactly_iff (table : JobTable) {params : ListJobsParams}
    (accepted : validateListJobsParams params = none) :
    PagesExactly table params ↔ NoTieAcrossPages table params := by
  constructor
  · intro exactly index
    by_contra unclean
    obtain ⟨orders, allowed, late, bound, job, before, after⟩ := TiedPages.exists_twice unclean
    obtain ⟨received, collected, perm⟩ := exactly.complete orders allowed
    obtain ⟨count, pages, covered⟩ := collectJobs_first table orders accepted
    obtain rfl := Option.some.inj (pages.symm.trans collected)
    have once := perm.nodup_iff.mpr (nodup_matching table params.status)
    have asked : index < count := by
      by_contra missed
      have short := Nat.mul_le_mul_right (pageSize params) (Nat.le_of_not_lt missed)
      omega
    have disjoint := (List.nodup_flatMap.mp once).2
    rw [List.pairwise_iff_getElem] at disjoint
    have apart := disjoint (index - 1) index (by simp; omega) (by simpa using asked) (by omega)
    simp only [List.getElem_range] at apart
    exact apart before after
  · intro clean
    refine ⟨fun orders allowed => ?_, fun order query response answered => ?_⟩
    · obtain ⟨count, pages, covered⟩ := collectJobs_first table orders accepted
      exact ⟨_, pages, TiedPages.flatMap_page_perm allowed clean covered⟩
    · cases parsed : parseListJobsParams query with
      | error refusal => simp [handleListJobs, parsed, Except.map] at answered
      | ok asked =>
          obtain rfl : listJobs table order asked = response := by
            simpa [handleListJobs, parsed, Except.map] using answered
          have accepted' := validate_of_parse parsed
          exact ⟨asked, rfl, rfl, echoed_limit accepted', echoed_offset accepted'⟩

def queuedJob (id : UUID) (createdAt : Time) : Job where
  id := id
  status := .queued
  baseModel := "org/base"
  datasetPath := "datasets/annotations/9f86d081.csv"
  hyperparameters := ⟨1, 1, 1, 1, 1⟩
  checkpointPath := none
  errorMessage := none
  createdAt := createdAt
  updatedAt := createdAt

def twoJobs (first second : Time) : JobTable :=
  ((∅ : JobTable).insert ⟨2⟩ (queuedJob ⟨2⟩ second).toJobRow).insert ⟨1⟩
    (queuedJob ⟨1⟩ first).toJobRow

def onePerPage : ListJobsParams :=
  ⟨none, some 1, none⟩

theorem matching_twoJobs (first second : Time) :
    (twoJobs first second).matching none = [queuedJob ⟨1⟩ first, queuedJob ⟨2⟩ second] :=
  rfl

theorem pages_exactly_iff_twoJobs : PagesExactly (twoJobs 3 5) onePerPage := by
  refine (pages_exactly_iff (twoJobs 3 5) (by decide)).mpr fun index => ?_
  apply TiedPages.clean_of_nodup
  rw [onePerPage, matching_twoJobs]
  decide

/-- Two jobs created at one instant: the first page may end with the job that
the second page starts with, and the other one is never seen. -/
theorem tied_jobs_paged_twice :
    validateListJobsParams onePerPage = none ∧ ¬ PagesExactly (twoJobs 5 5) onePerPage := by
  refine ⟨by decide, fun exactly => ?_⟩
  let jobs := [queuedJob ⟨1⟩ 5, queuedJob ⟨2⟩ 5]
  have allowed : ∀ query, OrderAllowed (twoJobs 5 5) none
      (if query = 0 then jobs else jobs.reverse) := by
    intro query
    rw [OrderAllowed, matching_twoJobs]
    split
    · exact ⟨.refl _, by decide⟩
    · exact ⟨List.reverse_perm _, by decide⟩
  obtain ⟨received, collected, perm⟩ := exactly.complete _ allowed
  have twice : received = [queuedJob ⟨1⟩ 5, queuedJob ⟨1⟩ 5] :=
    (Option.some.inj collected).symm
  rw [twice, onePerPage, matching_twoJobs] at perm
  have once := perm.mem_iff (a := queuedJob ⟨2⟩ 5)
  revert once
  decide

end Crucible
