import Crucible.VettedExecutions

/-!
# The front door of the backend

The mux with its patterns, the Cloudflare Access check in front of it, and what
the job handlers do with a request before they turn to the stores.  Whatever the
stores hold because of a request, an authenticated request asked for it.
-/

namespace Crucible

open LabelledRuns

/-! ## Routing -/

/-- A request as the server receives it: its path by decoded segments, and an
empty address if it has no `Cf-Access-Authenticated-User-Email` header. -/
structure HttpRequest where
  method : String
  segments : List String
  email : String
  body : Bytes
  deriving DecidableEq

/-- `r.URL.Path`. -/
def HttpRequest.path (request : HttpRequest) : String :=
  "/" ++ "/".intercalate request.segments

inductive Endpoint where
  | healthz
  | readyz
  | createJob
  | listJobs
  | getJob
  | updateJob
  | listModels
  | listDatasets
  deriving DecidableEq, Repr

/-- A pattern of the mux; `none` is the wildcard `{id}`. -/
structure Pattern where
  method : String
  segments : List (Option String)
  deriving DecidableEq, Repr

def patterns : List (Pattern × Endpoint) :=
  [(⟨"GET", [some "healthz"]⟩, .healthz),
    (⟨"GET", [some "readyz"]⟩, .readyz),
    (⟨"POST", [some "jobs"]⟩, .createJob),
    (⟨"GET", [some "jobs"]⟩, .listJobs),
    (⟨"GET", [some "jobs", none]⟩, .getJob),
    (⟨"PATCH", [some "jobs", none]⟩, .updateJob),
    (⟨"GET", [some "models"]⟩, .listModels),
    (⟨"GET", [some "datasets"]⟩, .listDatasets)]

namespace Pattern

/-- `GET` also matches `HEAD`. -/
def allows (pattern : Pattern) (method : String) : Bool :=
  method = pattern.method ∨ pattern.method = "GET" ∧ method = "HEAD"

/-- The segments that the wildcards of a pattern match. -/
def captures : List (Option String) → List String → Option (List String)
  | [], [] => some []
  | some literal :: pattern, segment :: segments =>
      if literal = segment then captures pattern segments else none
  | none :: pattern, segment :: segments =>
      if segment = "" then none else (captures pattern segments).map (segment :: ·)
  | _, _ => none

end Pattern

inductive Routed where
  | handler (endpoint : Endpoint) (values : List String)
  | methodNotAllowed
  | notFound
  deriving DecidableEq, Repr

/-- The handler whose pattern matches method and path; no two patterns match one
request. -/
def registered (request : HttpRequest) : Option (Endpoint × List String) :=
  patterns.findSome? fun (pattern, endpoint) =>
    if pattern.allows request.method then
      (Pattern.captures pattern.segments request.segments).map (endpoint, ·)
    else
      none

/-- `ServeMux`: a path that is registered with other methods only is told from
one that is not registered.  The redirect of a path with empty or dot segments is
left out; no handler gets to see such a path either way. -/
def serveMux (request : HttpRequest) : Routed :=
  match registered request with
  | some (endpoint, values) => .handler endpoint values
  | none =>
      if patterns.any fun (pattern, _) =>
          (Pattern.captures pattern.segments request.segments).isSome then
        .methodNotAllowed
      else
        .notFound

/-! ## Handling -/

/-- Who answers a request: `writeError`, the mux itself, a job handler that has
read its parameters, or a handler that writes to no store. -/
inductive Handling where
  | refused (status : Nat) (code message : String)
  | unrouted (status : Nat)
  | jobs (call : RequestCall)
  | reads (endpoint : Endpoint)
  deriving DecidableEq, Repr

/-- `CFAccessMiddleware`: the refusal of a request that did not come through
Cloudflare Access. -/
def cfAccess (request : HttpRequest) : Option Handling :=
  if request.path = "/healthz" ∨ request.path = "/readyz" then
    none
  else if request.email = "" then
    some (.refused 401 "UNAUTHORIZED" "Cloudflare Access authentication required")
  else
    none

def maxBodyBytes : Nat :=
  1 <<< 20

/-- A body behind `MaxBytesReader`: its first bytes, and whether the read after
them fails rather than finds the end. -/
structure LimitedBody where
  bytes : Bytes
  tooLarge : Bool
  deriving DecidableEq

/-- `MaxBytesReader`. -/
def limitBody (body : Bytes) : LimitedBody :=
  ⟨body.take maxBodyBytes, maxBodyBytes < body.length⟩

/-- The packages that read identifiers and bodies: `uuid.Parse`, and for each
kind of body `Decode` with `DisallowUnknownFields`, which returns what it has
not consumed. -/
structure Readers where
  parseUuid : String → Option UUID
  createRequest : LimitedBody → Except String (CreateJobRequest × Bytes)
  patchAction : LimitedBody → Except String (String × Bytes)

def jsonSpace (byte : UInt8) : Bool :=
  byte ∈ [0x09, 0x0A, 0x0D, 0x20]

/-- `readJSON`: the second `Decode` has to find the end of the body. -/
def readJSON {Value : Type} (decode : LimitedBody → Except String (Value × Bytes))
    (body : Bytes) : Except String Value :=
  match decode (limitBody body) with
  | .error message => .error message
  | .ok (value, rest) =>
      if (limitBody body).tooLarge = false ∧ rest.all jsonSpace then
        .ok value
      else
        .error "request body must contain a single JSON object"

def invalidBody (message : String) : Handling :=
  .refused 400 "INVALID_REQUEST" ("invalid request body: " ++ message)

/-- `parseUUID` and what follows it. -/
def withUuid (readers : Readers) (raw : String) (continue_ : UUID → Handling) : Handling :=
  match readers.parseUuid raw with
  | none => .refused 400 "INVALID_REQUEST" "invalid job ID"
  | some id => continue_ id

/-- A handler up to its first call of a store.  Those that only list rows are left
there: `ListJobs` answers with jobs whoever posted them. -/
def handleEndpoint (readers : Readers) (request : HttpRequest) (values : List String) :
    Endpoint → Handling
  | .createJob =>
      match readJSON readers.createRequest request.body with
      | .error message => invalidBody message
      | .ok body => .jobs (.createJob body)
  | .getJob => withUuid readers (values.headD "") fun id => .jobs (.getJob id)
  | .updateJob => withUuid readers (values.headD "") fun id =>
      match readJSON readers.patchAction request.body with
      | .error message => invalidBody message
      | .ok action => .jobs (.updateJob id action)
  | endpoint => .reads endpoint

def handle (readers : Readers) (request : HttpRequest) : Handling :=
  match cfAccess request with
  | some refusal => refusal
  | none =>
      match serveMux request with
      | .handler endpoint values => handleEndpoint readers request values endpoint
      | .methodNotAllowed => .unrouted 405
      | .notFound => .unrouted 404

/-! ## What reaches a job handler -/

/-- A request that asks a job handler for something and can be read. -/
inductive Asks (readers : Readers) (request : HttpRequest) : RequestCall → Prop where
  | createJob {body : CreateJobRequest} (method : request.method = "POST")
      (segments : request.segments = ["jobs"])
      (read : readJSON readers.createRequest request.body = .ok body) :
      Asks readers request (.createJob body)
  | getJob {raw : String} {id : UUID} (method : request.method = "GET" ∨ request.method = "HEAD")
      (segments : request.segments = ["jobs", raw]) (given : raw ≠ "")
      (parsed : readers.parseUuid raw = some id) : Asks readers request (.getJob id)
  | updateJob {raw action : String} {id : UUID} (method : request.method = "PATCH")
      (segments : request.segments = ["jobs", raw]) (given : raw ≠ "")
      (parsed : readers.parseUuid raw = some id)
      (read : readJSON readers.patchAction request.body = .ok action) :
      Asks readers request (.updateJob id action)

variable {readers : Readers} {request : HttpRequest}

theorem serveMux_handler {endpoint : Endpoint} {values : List String}
    (routed : serveMux request = .handler endpoint values) :
    ∃ pattern, (pattern, endpoint) ∈ patterns ∧ pattern.allows request.method = true ∧
      Pattern.captures pattern.segments request.segments = some values := by
  have chosen : registered request = some (endpoint, values) := by
    unfold serveMux at routed
    cases found : registered request with
    | some handler =>
        rw [found] at routed
        cases routed
        rfl
    | none =>
        rw [found] at routed
        dsimp only at routed
        split at routed <;> cases routed
  obtain ⟨⟨pattern, own⟩, member, matched⟩ := List.exists_of_findSome?_eq_some chosen
  simp only [Option.ite_none_right_eq_some, Option.map_eq_some_iff, Prod.mk.injEq] at matched
  obtain ⟨allowed, captured, matched, rfl, rfl⟩ := matched
  exact ⟨pattern, member, allowed, matched⟩

namespace Pattern

theorem captures_head {literal : String} {pattern : List (Option String)}
    {segments values : List String}
    (matched : captures (some literal :: pattern) segments = some values) :
    ∃ rest, segments = literal :: rest := by
  cases segments with
  | nil => cases matched
  | cons segment rest =>
      simp only [captures, Option.ite_none_right_eq_some] at matched
      exact ⟨rest, by rw [matched.1]⟩

theorem captures_literal {literal : String} {segments values : List String}
    (matched : captures [some literal] segments = some values) : segments = [literal] := by
  rcases segments with _ | ⟨segment, _ | ⟨next, rest⟩⟩
  · cases matched
  · have same : literal = segment := by
      by_contra other
      simp [captures, other] at matched
    rw [same]
  · simp [captures] at matched

theorem captures_wildcard {literal : String} {segments values : List String}
    (matched : captures [some literal, none] segments = some values) :
    ∃ raw, raw ≠ "" ∧ segments = [literal, raw] ∧ values = [raw] := by
  rcases segments with _ | ⟨segment, _ | ⟨raw, _ | ⟨next, rest⟩⟩⟩
  · cases matched
  · simp [captures] at matched
  · simp only [captures, Option.ite_none_right_eq_some, Option.ite_none_left_eq_some,
      Option.map_some, Option.some.injEq] at matched
    obtain ⟨rfl, given, rfl⟩ := matched
    exact ⟨raw, given, rfl, rfl⟩
  · simp [captures] at matched

end Pattern

/-- Only the paths of the probes are exempt from the check. -/
theorem cfAccess_checked {first : String} {rest : List String} {char : Char}
    {tail : List Char} (segments : request.segments = first :: rest)
    (start : first.toList = char :: tail) (health : char ≠ 'h') (ready : char ≠ 'r') :
    cfAccess request =
      if request.email = "" then
        some (.refused 401 "UNAUTHORIZED" "Cloudflare Access authentication required")
      else
        none := by
  have path : ∃ tail, request.path.toList = '/' :: char :: tail := by
    unfold HttpRequest.path
    rw [segments]
    cases rest with
    | nil => exact ⟨tail, by simp [String.toList_append, start]⟩
    | cons next rest =>
        rw [String.intercalate_cons_cons, String.toList_append, String.toList_append,
          String.toList_append, start]
        exact ⟨_, rfl⟩
  obtain ⟨tail, path⟩ := path
  have notHealth : request.path ≠ "/healthz" := by
    rintro same
    rw [same] at path
    cases path
    exact health rfl
  have notReady : request.path ≠ "/readyz" := by
    rintro same
    rw [same] at path
    cases path
    exact ready rfl
  simp [cfAccess, notHealth, notReady]

theorem cfAccess_jobs {rest : List String} (segments : request.segments = "jobs" :: rest) :
    cfAccess request =
      if request.email = "" then
        some (.refused 401 "UNAUTHORIZED" "Cloudflare Access authentication required")
      else
        none :=
  cfAccess_checked segments (show "jobs".toList = 'j' :: ['o', 'b', 's'] from rfl) (by decide)
    (by decide)

/-- Without the header, the check lets a request pass to the probes only. -/
theorem probes_of_unauthenticated {endpoint : Endpoint} {values : List String}
    (missing : request.email = "") (access : cfAccess request = none)
    (routed : serveMux request = .handler endpoint values) :
    endpoint = .healthz ∨ endpoint = .readyz := by
  obtain ⟨pattern, member, _, matched⟩ := serveMux_handler routed
  have checked : ∀ {first : String} {rest : List (Option String)} {char : Char}
      {tail : List Char}, Pattern.captures (some first :: rest) request.segments = some values →
        first.toList = char :: tail → char ≠ 'h' → char ≠ 'r' → False := by
    intro first rest char tail captured start health ready
    obtain ⟨_, segments⟩ := Pattern.captures_head captured
    rw [cfAccess_checked segments start health ready, if_pos missing] at access
    cases access
  have jobs : "jobs".toList = ['j', 'o', 'b', 's'] := rfl
  have models : "models".toList = ['m', 'o', 'd', 'e', 'l', 's'] := rfl
  have datasets : "datasets".toList = ['d', 'a', 't', 'a', 's', 'e', 't', 's'] := rfl
  simp only [patterns, List.mem_cons, Prod.mk.injEq, List.not_mem_nil, or_false] at member
  rcases member with ⟨rfl, rfl⟩ | ⟨rfl, rfl⟩ | ⟨rfl, rfl⟩ | ⟨rfl, rfl⟩ | ⟨rfl, rfl⟩ | ⟨rfl, rfl⟩ |
    ⟨rfl, rfl⟩ | ⟨rfl, rfl⟩
  · exact Or.inl rfl
  · exact Or.inr rfl
  · exact (checked matched jobs (by decide) (by decide)).elim
  · exact (checked matched jobs (by decide) (by decide)).elim
  · exact (checked matched jobs (by decide) (by decide)).elim
  · exact (checked matched jobs (by decide) (by decide)).elim
  · exact (checked matched models (by decide) (by decide)).elim
  · exact (checked matched datasets (by decide) (by decide)).elim

theorem cfAccess_ne_jobs (call : RequestCall) : cfAccess request ≠ some (.jobs call) := by
  unfold cfAccess
  split
  · simp
  · split <;> simp

theorem withUuid_eq_jobs {raw : String} {continue_ : UUID → Handling} {call : RequestCall}
    (handled : withUuid readers raw continue_ = .jobs call) :
    ∃ id, readers.parseUuid raw = some id ∧ continue_ id = .jobs call := by
  unfold withUuid at handled
  cases parsed : readers.parseUuid raw with
  | none =>
      rw [parsed] at handled
      cases handled
  | some id =>
      rw [parsed] at handled
      exact ⟨id, rfl, handled⟩

theorem asks_of_handled {call : RequestCall} {endpoint : Endpoint} {values : List String}
    (routed : serveMux request = .handler endpoint values)
    (handled : handleEndpoint readers request values endpoint = .jobs call) :
    Asks readers request call := by
  obtain ⟨pattern, member, allowed, matched⟩ := serveMux_handler routed
  simp only [patterns, List.mem_cons, Prod.mk.injEq, List.not_mem_nil, or_false] at member
  rcases member with ⟨rfl, rfl⟩ | ⟨rfl, rfl⟩ | ⟨rfl, rfl⟩ | ⟨rfl, rfl⟩ | ⟨rfl, rfl⟩ | ⟨rfl, rfl⟩ |
    ⟨rfl, rfl⟩ | ⟨rfl, rfl⟩
  case inr.inr.inl =>
    simp only [handleEndpoint] at handled
    cases read : readJSON readers.createRequest request.body with
    | error message =>
        rw [read] at handled
        cases handled
    | ok body =>
        rw [read] at handled
        cases handled
        exact .createJob (by simpa [Pattern.allows] using allowed)
          (Pattern.captures_literal matched) read
  case inr.inr.inr.inr.inl =>
    obtain ⟨raw, given, segments, rfl⟩ := Pattern.captures_wildcard matched
    obtain ⟨id, parsed, asked⟩ := withUuid_eq_jobs handled
    cases asked
    exact .getJob (by simpa [Pattern.allows] using allowed) segments given parsed
  case inr.inr.inr.inr.inr.inl =>
    obtain ⟨raw, given, segments, rfl⟩ := Pattern.captures_wildcard matched
    obtain ⟨id, parsed, asked⟩ := withUuid_eq_jobs handled
    cases read : readJSON readers.patchAction request.body with
    | error message =>
        rw [read] at asked
        cases asked
    | ok action =>
        rw [read] at asked
        cases asked
        exact .updateJob (by simpa [Pattern.allows] using allowed) segments given parsed read
  all_goals cases handled

theorem Asks.segments {call : RequestCall} (asks : Asks readers request call) :
    ∃ rest, request.segments = "jobs" :: rest := by
  cases asks with
  | createJob _ segments => exact ⟨_, segments⟩
  | getJob _ segments => exact ⟨_, segments⟩
  | updateJob _ segments => exact ⟨_, segments⟩

/-- A request gets to the stores of a job handler exactly if it is authenticated
and asks for that. -/
theorem handle_eq_jobs_iff {call : RequestCall} :
    handle readers request = .jobs call ↔ request.email ≠ "" ∧ Asks readers request call := by
  constructor
  · intro handled
    unfold handle at handled
    cases access : cfAccess request with
    | some refusal =>
        rw [access] at handled
        exact absurd (access.trans (congrArg some handled)) (cfAccess_ne_jobs call)
    | none =>
        rw [access] at handled
        cases routed : serveMux request with
        | methodNotAllowed | notFound =>
            rw [routed] at handled
            cases handled
        | handler endpoint values =>
            rw [routed] at handled
            have asks := asks_of_handled routed handled
            obtain ⟨rest, segments⟩ := asks.segments
            refine ⟨fun missing => ?_, asks⟩
            rw [cfAccess_jobs segments, if_pos missing] at access
            cases access
  · rintro ⟨email, asks⟩
    have access : cfAccess request = none := by
      obtain ⟨rest, segments⟩ := asks.segments
      rw [cfAccess_jobs segments, if_neg email]
    cases asks with
    | createJob method segments read =>
        simp [handle, access, serveMux, registered, patterns, Pattern.allows, Pattern.captures,
          method, segments, handleEndpoint, read]
    | getJob method segments given parsed =>
        rcases method with method | method <;>
          simp [handle, access, serveMux, registered, patterns, Pattern.allows, Pattern.captures,
            method, segments, handleEndpoint, given, withUuid, parsed]
    | updateJob method segments given parsed read =>
        simp [handle, access, serveMux, registered, patterns, Pattern.allows, Pattern.captures,
          method, segments, handleEndpoint, given, withUuid, parsed, read]

theorem endpoint_of_reads {endpoint listed : Endpoint} {values : List String}
    (handled : handleEndpoint readers request values endpoint = .reads listed) :
    endpoint = listed := by
  cases endpoint with
  | createJob =>
      simp only [handleEndpoint] at handled
      split at handled <;> cases handled
  | getJob =>
      simp only [handleEndpoint, withUuid] at handled
      split at handled <;> cases handled
  | updateJob =>
      simp only [handleEndpoint, withUuid] at handled
      split at handled
      case h_1 => cases handled
      case h_2 => split at handled <;> cases handled
  | _ =>
      cases handled
      rfl

/-- `ListJobs` is reached exactly by the authenticated requests for `/jobs`. -/
theorem handle_eq_listJobs_iff :
    handle readers request = .reads .listJobs ↔
      request.email ≠ "" ∧ (request.method = "GET" ∨ request.method = "HEAD") ∧
        request.segments = ["jobs"] := by
  constructor
  · intro handled
    unfold handle at handled
    cases access : cfAccess request with
    | some refusal =>
        rw [access] at handled
        unfold cfAccess at access
        split at access
        case isTrue => cases access
        case isFalse =>
          split at access
          case isTrue =>
            cases access
            cases handled
          case isFalse => cases access
    | none =>
        rw [access] at handled
        cases routed : serveMux request with
        | methodNotAllowed | notFound =>
            rw [routed] at handled
            cases handled
        | handler endpoint values =>
            rw [routed] at handled
            obtain rfl := endpoint_of_reads handled
            obtain ⟨pattern, member, allowed, matched⟩ := serveMux_handler routed
            obtain rfl : pattern = ⟨"GET", [some "jobs"]⟩ := by
              simpa [patterns] using member
            refine ⟨fun missing => ?_, by simpa [Pattern.allows] using allowed,
              Pattern.captures_literal matched⟩
            rcases probes_of_unauthenticated missing access routed with same | same <;> cases same
  · rintro ⟨email, method, segments⟩
    have access : cfAccess request = none := by
      rw [cfAccess_jobs segments, if_neg email]
    rcases method with method | method <;>
      simp [handle, access, serveMux, registered, patterns, Pattern.allows, Pattern.captures,
        method, segments, handleEndpoint]

/-! ## What was asked for -/

/-- A job that a client may be shown: it was posted, asked for or cancelled. -/
def Job.Entitled (asked : RequestCall → Prop) (job : Job) : Prop :=
  asked (.createJob job.posted.1) ∨ asked (.getJob job.id) ∨ asked (.updateJob job.id "cancel")

namespace RequestPc

variable {asked : RequestCall → Prop} {stores : SharedStores} {choice : Choice}
  {pc pc' : RequestPc} {write : Write}

/-- A handler does what was asked for. -/
def Backed (asked : RequestCall → Prop) : RequestPc → Prop
  | .create body => asked (.createJob body)
  | .getByID id => asked (.getJob id)
  | .update id => asked (.updateJob id "cancel")
  | pc => ∀ job, pc.snapshot = some job → job.Entitled asked

theorem Backed.of_silent (silent : pc.snapshot = none)
    (create : ∀ body, pc ≠ .create body) (reads : ∀ id, pc ≠ .getByID id)
    (update : ∀ id, pc ≠ .update id) : pc.Backed asked := by
  cases pc with
  | create body => exact absurd rfl (create body)
  | getByID id => exact absurd rfl (reads id)
  | update id => exact absurd rfl (update id)
  | _ => exact fun job shown => by simp [silent] at shown

theorem backed_error (status : Nat) (code : ErrorCode) (message : String) :
    (answered ⟨status, .error code message⟩).Backed asked :=
  fun _ shown => by cases shown

theorem backed_start {call : RequestCall} (asks : asked call) : (start call).Backed asked := by
  have silent := snapshot_start call
  cases call with
  | getJob id => exact asks
  | createJob body =>
      simp only [start] at silent ⊢
      split
      case h_1 response refused =>
        rw [refused] at silent
        exact .of_silent silent (by simp) (by simp) (by simp)
      case h_2 => exact asks
  | updateJob id action =>
      by_cases cancels : action = "cancel"
      · rw [cancels] at asks ⊢
        exact asks
      · simp only [start, validateJobUpdate, if_neg cancels]
        exact backed_error _ _ _

theorem Backed.step (held : pc.Backed asked)
    (stepped : pc.step stores choice = some (write, pc')) : pc'.Backed asked := by
  cases pc with
  | create body =>
      obtain ⟨_, called⟩ := Option.ite_none_right_eq_some.mp stepped
      rcases attempt_eq (Option.some.inj called) with
        ⟨_, _, rfl⟩ | ⟨_, _, rfl⟩ | ⟨_, _, rfl⟩
      · intro job shown
        cases shown
        exact .inl held
      · exact backed_error _ _ _
      · exact backed_error _ _ _
  | enqueue job =>
      rcases attempt_eq (Option.some.inj stepped) with
        ⟨_, _, rfl⟩ | ⟨_, _, rfl⟩ | ⟨_, _, rfl⟩
      · exact held
      · exact fun _ shown => by cases shown
      · exact fun _ shown => by cases shown
  | getByID id =>
      rcases attempt_eq (Option.some.inj stepped) with
        ⟨_, _, rfl⟩ | ⟨_, _, rfl⟩ | ⟨_, _, rfl⟩
      · cases found : stores.jobs.lookup id with
        | none =>
            rw [JobTable.getJob, found]
            exact backed_error _ _ _
        | some row =>
            rw [JobTable.getJob, found, Option.map_some, afterGetByID]
            split <;>
              · intro job shown
                cases shown
                exact .inr (.inl held)
      · exact backed_error _ _ _
      · exact backed_error _ _ _
  | getJobStatus job =>
      rcases attempt_eq (Option.some.inj stepped) with
        ⟨_, _, rfl⟩ | ⟨_, _, rfl⟩ | ⟨_, _, rfl⟩
      · intro shown same
        cases same
        have entitled : job.Entitled asked := held job rfl
        unfold overlay
        split
        · exact entitled
        · split <;> exact entitled
      · exact held
      · exact held
  | update id =>
      rcases attempt_eq (Option.some.inj stepped) with
        ⟨_, _, rfl⟩ | ⟨_, _, rfl⟩ | ⟨_, _, rfl⟩
      · cases result : (JobStore.update stores.jobs choice.now id cancelFields).1 with
        | error error => cases error <;> exact backed_error _ _ _
        | ok job =>
            obtain ⟨row, rfl, _⟩ := JobStore.lookup_of_update_ok result
            intro shown same
            cases same
            exact .inr (.inr held)
      · exact backed_error _ _ _
      · exact backed_error _ _ _
  | dequeue job =>
      rcases attempt_eq (Option.some.inj stepped) with
        ⟨_, _, rfl⟩ | ⟨_, _, rfl⟩ | ⟨_, _, rfl⟩ <;> exact held
  | markEnqueueFailed id errMsg =>
      rcases attempt_eq (Option.some.inj stepped) with
        ⟨_, _, rfl⟩ | ⟨_, _, rfl⟩ | ⟨_, _, rfl⟩ <;> exact backed_error _ _ _
  | idle | answered response => cases stepped

end RequestPc

namespace Cluster

variable {n m : Nat} {config : Config} {cluster next : Cluster n m}
  {asked : RequestCall → Prop} {own : Fin m → RequestCall → Prop}

/-- Every row was posted, every cancelled one was cancelled by a request, and
each handler does what its own request asked for. -/
structure Authorised (asked : RequestCall → Prop) (own : Fin m → RequestCall → Prop)
    (cluster : Cluster n m) : Prop where
  posted : ∀ id row, cluster.stores.jobs.lookup id = some row →
    asked (.createJob row.posted.1)
  cancelled : ∀ id row, cluster.stores.jobs.lookup id = some row → row.status = .cancelled →
    asked (.updateJob id "cancel")
  requests : ∀ slot, (cluster.requests slot).pc.Backed (own slot)
  covered : ∀ slot call, own slot call → asked call

/-- Where a row's posted body and its cancellation come from. -/
theorem Authorised.row_write (held : Authorised asked own cluster) {write : Write} {id : UUID}
    {row : JobRow} (found : (cluster.stores.write write).jobs.lookup id = some row)
    (creates : ∀ now body, write = .createJob now id body → asked (.createJob body))
    (updates : ∀ now fields, write = .updateJob now id fields →
      fields.status = some .cancelled → asked (.updateJob id "cancel")) :
    asked (.createJob row.posted.1) ∧
      (row.status = .cancelled → asked (.updateJob id "cancel")) := by
  cases SharedStores.rowSource_write found with
  | kept before => exact ⟨held.posted id row before, held.cancelled id row before⟩
  | created now body written =>
      subst written
      exact ⟨creates now body rfl, fun cancelled => by cases cancelled⟩
  | updated now fields old before valid written =>
      subst written
      refine ⟨held.posted id old before, fun cancelled => ?_⟩
      cases asks : fields.status with
      | none =>
          refine held.cancelled id old before ?_
          simpa [UpdateJobFields.onRow, asks] using cancelled
      | some target =>
          have same : target = .cancelled := by
            simpa [UpdateJobFields.onRow, asks] using cancelled
          exact updates now fields rfl (by rw [asks, same])
  | executed now update old before matched written =>
      subst written
      refine ⟨?_, fun cancelled => ?_⟩
      · have posted : (update.set now old).posted = old.posted := by cases update <;> rfl
        rw [posted]
        exact held.posted id old before
      · cases update with
        | heartbeat =>
            have runs : old.status = .running := matched
            have status : (RepositoryUpdate.heartbeat.set now old).status = old.status := rfl
            rw [status, runs] at cancelled
            cases cancelled
        | _ => cases cancelled

theorem Authorised.row_serve (held : Authorised asked own cluster) {slot : Fin m}
    {choice : Choice} {write : Write} {pc : RequestPc}
    (stepped : (cluster.requests slot).pc.step cluster.stores choice = some (write, pc))
    {id : UUID} {row : JobRow} (found : (cluster.stores.write write).jobs.lookup id = some row) :
    asked (.createJob row.posted.1) ∧
      (row.status = .cancelled → asked (.updateJob id "cancel")) := by
  have backed := held.requests slot
  refine held.row_write found (fun now body made => ?_) fun now fields made cancels => ?_
  · subst made
    rcases RequestPc.step_write stepped with made | made
    · cases made
    · cases at_ : (cluster.requests slot).pc <;> rw [at_] at made backed <;> cases made
      exact held.covered slot _ backed
  · subst made
    rcases RequestPc.step_write stepped with made | made
    · cases made
    · cases at_ : (cluster.requests slot).pc <;> rw [at_] at made backed <;> cases made
      · cases cancels
      · exact held.covered slot _ backed

theorem Authorised.row_work (held : Authorised asked own cluster) {worker : Fin n}
    {choice : Choice} {write : Write} {pc : WorkerPc}
    (stepped : (cluster.workers worker).pc.step config cluster.stores choice = some (write, pc))
    {id : UUID} {row : JobRow} (found : (cluster.stores.write write).jobs.lookup id = some row) :
    asked (.createJob row.posted.1) ∧
      (row.status = .cancelled → asked (.updateJob id "cancel")) := by
  have made := WorkerPc.step_write stepped
  refine held.row_write found (fun now body created => ?_) fun now fields updated _ => ?_
  · subst created
    exact absurd (made.resolve_left (by simp)).symm WorkerPc.call_ne_createJob
  · subst updated
    exact absurd (made.resolve_left (by simp)).symm WorkerPc.call_ne_updateJob

theorem authorised_step {action : Action n m} (held : Authorised asked own cluster)
    (moved : step config cluster action = some next)
    (inside : ∀ slot call, action ≠ .arrive slot call) : Authorised asked own next := by
  have put {mover : Fin m} {write : Write} {pc : RequestPc} (new : pc.Backed (own mover)) :
      ∀ slot, ((cluster.putRequest mover write pc).requests slot).pc.Backed (own slot) := by
    intro slot
    by_cases moves : slot = mover
    · subst moves
      rw [putRequest_self]
      exact new
    · rw [putRequest_of_ne moves]
      exact held.requests slot
  cases action with
  | serve mover choice =>
      obtain ⟨_, write, pc, stepped, rfl⟩ := step_serve moved
      exact ⟨fun id row found => (held.row_serve stepped found).1,
        fun id row found => (held.row_serve stepped found).2,
        put ((held.requests mover).step stepped), held.covered⟩
  | work worker choice =>
      obtain ⟨_, write, pc, stepped, rfl⟩ := step_work moved
      exact ⟨fun id row found => (held.row_work stepped found).1,
        fun id row found => (held.row_work stepped found).2, held.requests, held.covered⟩
  | drop mover =>
      cases moved
      have silent : RequestPc.idle.Backed (own mover) := fun _ shown => by cases shown
      exact ⟨held.posted, held.cancelled, put silent, held.covered⟩
  | start worker =>
      obtain ⟨_, rfl⟩ := step_start moved
      exact ⟨held.posted, held.cancelled, held.requests, held.covered⟩
  | arrive slot call => exact absurd rfl (inside slot call)
  | tick duration | setModels models | crash worker =>
      cases moved
      exact ⟨held.posted, held.cancelled, held.requests, held.covered⟩

theorem Authorised.mono {asked' : RequestCall → Prop} (held : Authorised asked own cluster)
    (grows : ∀ call, asked call → asked' call) : Authorised asked' own cluster where
  posted id row found := grows _ (held.posted id row found)
  cancelled id row found cancelled := grows _ (held.cancelled id row found cancelled)
  requests := held.requests
  covered slot call owned := grows call (held.covered slot call owned)

theorem authorised_arrive {asked' : RequestCall → Prop} {new : RequestCall → Prop}
    {slot : Fin m} {call : RequestCall} (held : Authorised asked own cluster)
    (moved : step config cluster (.arrive slot call) = some next)
    (grows : ∀ call, asked call → asked' call) (asks : new call)
    (covers : ∀ call, new call → asked' call) :
    Authorised asked' (Function.update own slot new) next := by
  obtain rfl := step_arrive moved
  have before := held.mono grows
  refine ⟨before.posted, before.cancelled, fun other => ?_, fun other called owned => ?_⟩
  · by_cases moves : other = slot
    · subst moves
      rw [putRequest_self, Function.update_self]
      exact RequestPc.backed_start asks
    · rw [putRequest_of_ne moves, Function.update_of_ne moves]
      exact held.requests other
  · by_cases moves : other = slot
    · subst moves
      rw [Function.update_self] at owned
      exact covers called owned
    · rw [Function.update_of_ne moves] at owned
      exact before.covered other called owned

end Cluster

/-! ## The platform behind its front door -/

/-- The platform, the requests that the server has received, and the one that
each slot serves. -/
structure Site (n m : Nat) where
  cluster : Cluster n m
  received : List HttpRequest
  serving : Fin m → Option HttpRequest

namespace Site

variable {n m : Nat} {config : Config} {site next : Site n m}

inductive Action (n m : Nat) where
  | inside (action : Cluster.Action n m)
  | receive (slot : Fin m) (request : HttpRequest)

/-- One step: calls get to the handlers of jobs only through the server. -/
def step (readers : Readers) (config : Config) (site : Site n m) :
    Action n m → Option (Site n m)
  | .inside (.arrive _ _) => none
  | .inside action => (Cluster.step config site.cluster action).map fun cluster =>
      { site with cluster := cluster }
  | .receive slot request =>
      match handle readers request with
      | .jobs call => (Cluster.step config site.cluster (.arrive slot call)).map fun cluster =>
          { cluster := cluster
            received := request :: site.received
            serving := Function.update site.serving slot (some request) }
      | _ => some { site with received := request :: site.received }

def initial (clock : Time) (models : List ModelRow) : Site n m where
  cluster := Cluster.initial clock models
  received := []
  serving := fun _ => none

/-- An authenticated request that was received asked for a call. -/
def Asked (readers : Readers) (site : Site n m) (call : RequestCall) : Prop :=
  ∃ request ∈ site.received, request.email ≠ "" ∧ Asks readers request call

/-- The request that a slot serves is authenticated and asked for a call. -/
def Serves (readers : Readers) (site : Site n m) (slot : Fin m) (call : RequestCall) : Prop :=
  ∃ request, site.serving slot = some request ∧ request.email ≠ "" ∧
    Asks readers request call

theorem authorised_step {action : Action n m}
    (held : Cluster.Authorised (Asked readers site) (Serves readers site) site.cluster)
    (moved : step readers config site action = some next) :
    Cluster.Authorised (Asked readers next) (Serves readers next) next.cluster := by
  cases action with
  | inside action =>
      have called (slot : Fin m) (call : RequestCall) : action ≠ .arrive slot call := by
        rintro rfl
        cases moved
      have inner : (Cluster.step config site.cluster action).map (fun cluster =>
          ({ site with cluster := cluster } : Site n m)) = some next := by
        cases action <;> first | exact moved | cases moved
      obtain ⟨cluster, stepped, rfl⟩ := Option.map_eq_some_iff.mp inner
      exact Cluster.authorised_step held stepped called
  | receive slot request =>
      have grows (next : Site n m) (received : next.received = request :: site.received)
          (call : RequestCall) (asked : Asked readers site call) : Asked readers next call := by
        obtain ⟨earlier, member, asks⟩ := asked
        exact ⟨earlier, by rw [received]; exact List.mem_cons_of_mem request member, asks⟩
      cases handled : handle readers request with
      | jobs call =>
          simp only [step, handled] at moved
          obtain ⟨cluster, stepped, rfl⟩ := Option.map_eq_some_iff.mp moved
          have same : (Serves readers
              (⟨cluster, request :: site.received,
                Function.update site.serving slot (some request)⟩ : Site n m)) =
              Function.update (Serves readers site) slot fun called =>
                request.email ≠ "" ∧ Asks readers request called := by
            funext other
            by_cases moves : other = slot
            · subst moves
              rw [Function.update_self]
              funext called
              simp [Serves]
            · rw [Function.update_of_ne moves]
              funext called
              simp [Serves, Function.update_of_ne moves]
          rw [same]
          exact Cluster.authorised_arrive held stepped (grows _ rfl)
            (handle_eq_jobs_iff.mp handled) fun called asks =>
              ⟨request, List.mem_cons_self, asks⟩
      | refused status code message | unrouted status | reads endpoint =>
          simp only [step, handled] at moved
          cases moved
          exact held.mono (grows _ rfl)

/-- In every run of the platform behind the front door: whatever body a row
holds was posted by an authenticated request, a row is cancelled only if an
authenticated request asked for that, and a slot answers with a single job only if
the request that it serves is authenticated and posted it, asked for it or cancelled
it.  All jobs are listed to authenticated requests only, and without the header the
mux gives a request to no handler but the probes. -/
theorem changes_authenticated {readers : Readers} {clock : Time} {models : List ModelRow}
    (run : Runs (step readers config) Any (initial clock models) site) :
    (∀ id row, site.cluster.stores.jobs.lookup id = some row →
      Asked readers site (.createJob row.posted.1) ∧
        (row.status = .cancelled → Asked readers site (.updateJob id "cancel"))) ∧
    (∀ slot code job, (site.cluster.requests slot).pc = .answered ⟨code, .job job⟩ →
      job.Entitled (Serves readers site slot)) ∧
    ∀ request : HttpRequest,
      (handle readers request = .reads .listJobs ↔
        request.email ≠ "" ∧ (request.method = "GET" ∨ request.method = "HEAD") ∧
          request.segments = ["jobs"]) ∧
      ∀ endpoint values, cfAccess request = none → serveMux request = .handler endpoint values →
        request.email ≠ "" ∨ endpoint = .healthz ∨ endpoint = .readyz := by
  have starts : Cluster.Authorised (Asked readers (initial clock models : Site n m))
      (Serves readers (initial clock models : Site n m))
      (initial clock models : Site n m).cluster := by
    refine ⟨fun _ _ found => ?_, fun _ _ found => ?_, fun _ _ shown => ?_, ?_⟩
    · cases found
    · cases found
    · cases shown
    · rintro _ _ ⟨_, missing, _⟩
      cases missing
  have held := runs_invariant (fun site : Site n m =>
    Cluster.Authorised (Asked readers site) (Serves readers site) site.cluster)
    (fun _ _ _ held _ moved => authorised_step held moved) starts run
  refine ⟨fun id row found => ⟨held.posted id row found, held.cancelled id row found⟩, ?_,
    fun request => ⟨handle_eq_listJobs_iff, ?_⟩⟩
  · intro slot code job answered
    have backed := held.requests slot
    rw [answered] at backed
    exact backed job rfl
  · intro endpoint values access routed
    by_cases missing : request.email = ""
    · exact Or.inr (probes_of_unauthenticated missing access routed)
    · exact Or.inl missing

/-! ## A request that creates a job, and one that cancels it -/

open Cluster (jobSeven sevenRequest callAt shortConfig sevenModels)

def asciiBytes (text : String) : Bytes :=
  text.toList.map fun char => UInt8.ofNat char.toNat

def postSeven : HttpRequest where
  method := "POST"
  segments := ["jobs"]
  email := "user@krmed.cloud"
  body := asciiBytes ("\x7b\"base_model\": \"org/model\", \"dataset_path\": " ++
    "\"datasets/chat/v1/data.json\", \"hyperparameters\": \x7b\"learning_rate\": 0.5, " ++
    "\"epochs\": 1, \"batch_size\": 1, \"lora_rank\": 1, \"lora_alpha\": 1\x7d\x7d\n")

def cancelSeven : HttpRequest where
  method := "PATCH"
  segments := ["jobs", jobSeven.str]
  email := "user@krmed.cloud"
  body := asciiBytes "\x7b\"action\": \"cancel\"\x7d"

/-- Readers of these two bodies, without the line feed that ends the first. -/
def sevenReaders : Readers where
  parseUuid := UUID.parse
  createRequest body :=
    if body = limitBody postSeven.body then .ok (sevenRequest, [0x0A]) else .error "unexpected EOF"
  patchAction body :=
    if body = limitBody cancelSeven.body then .ok ("cancel", []) else .error "unexpected EOF"

def cancelledRun (slot : Fin m) : List (Action n m) :=
  [.receive slot postSeven, .inside (.serve slot { callAt 0 with uuid := jobSeven }),
    .inside (.serve slot (callAt 0)), .receive slot cancelSeven,
    .inside (.serve slot (callAt 0)), .inside (.serve slot (callAt 0))]

theorem changes_authenticated_cancelledRun :
    ∃ site : Site 1 1, site.cluster.stores.HasStatus jobSeven .cancelled ∧
      Asked sevenReaders site (.updateJob jobSeven "cancel") := by
  have replays : (replay (step sevenReaders shortConfig) Any (initial 0 sevenModels)
      (cancelledRun (0 : Fin 1) : List (Action 1 1))).any (fun site =>
        decide (site.cluster.stores.HasStatus jobSeven .cancelled)) = true := by
    decide +kernel
  obtain ⟨site, run, reached⟩ := exists_runs_of_replay replays
  have cancelled := of_decide_eq_true reached
  obtain ⟨row, found, status⟩ := cancelled
  exact ⟨site, ⟨row, found, status⟩,
    ((changes_authenticated run).1 jobSeven row found).2 status⟩

end Site

end Crucible
