import Crucible.Rfc3339
import Crucible.RunSimulations
import Crucible.StoreReferences

/-!
# Status hashes as texts

Workers write the fields of `jobs:status:{id}` as texts with `HSET` and
`EXPIRE`, the time in the format of RFC 3339, and the backend parses what
`HGETALL` returns.  In every run within the years 1 to 9999 it reads back the
status and the time that the worker published, for as long as Redis keeps them.
-/

namespace Crucible

open LabelledRuns

/-! ## Hashes in Redis -/

/-- The fields of a hash, with the time at which it expires. -/
structure HashEntry where
  fields : KeyedTable String String
  expiresAt : Option Time

structure RedisHashes where
  clock : Time
  entries : String → Option HashEntry

inductive HashCommand where
  | hset (key : String) (mapping : List (String × String))
  | expire (key : String) (seconds : Int)
  deriving DecidableEq

/-- Time passes, or a pipeline is executed. -/
inductive HashEvent where
  | wait (duration : Nat)
  | pipeline (commands : List HashCommand)

namespace RedisHashes

/-- The hash under a key that has not expired. -/
def get (redis : RedisHashes) (key : String) : Option HashEntry :=
  (redis.entries key).filter fun entry =>
    match entry.expiresAt with
    | none => true
    | some expiry => redis.clock < expiry

def put (redis : RedisHashes) (key : String) (entry : HashEntry) : RedisHashes :=
  { redis with entries := Function.update redis.entries key (some entry) }

/-- Fields are written one by one, those of other names are kept. -/
def setFields (fields : KeyedTable String String) (mapping : List (String × String)) :
    KeyedTable String String :=
  mapping.foldl (fun fields pair => fields.insert pair.1 pair.2) fields

/-- `HSET` keeps the expiry of a hash that exists, `EXPIRE` needs one. -/
def command (redis : RedisHashes) : HashCommand → RedisHashes
  | .hset key mapping =>
      match redis.get key with
      | none => redis.put key ⟨setFields ∅ mapping, none⟩
      | some entry => redis.put key { entry with fields := setFields entry.fields mapping }
  | .expire key count =>
      match redis.get key with
      | none => redis
      | some entry => redis.put key { entry with expiresAt := some (redis.clock + seconds count) }

def step (redis : RedisHashes) : HashEvent → Option RedisHashes
  | .wait duration => some { redis with clock := redis.clock + duration }
  | .pipeline commands => some (commands.foldl command redis)

def initial (clock : Time) : RedisHashes :=
  ⟨clock, fun _ => none⟩

end RedisHashes

/-! ## The two ends -/

/-- `STATUS_KEY_FMT`, and `jobStatusKeyFmt` of the backend. -/
def statusKey (id : UUID) : String :=
  "jobs:status:" ++ id.str

/-- The text of `_now_rfc3339`. -/
def rfc3339Text (now : Time) : String :=
  String.ofList (Rfc3339.isoformat (now / seconds 1))

/-- The pipeline of `StatusPublisher.publish`. -/
def publishPipeline (now : Time) (id : UUID) (status : JobStatus) (terminal : Bool) :
    List HashCommand :=
  .hset (statusKey id) [("status", status.value), ("updated_at", rfc3339Text now)] ::
    if terminal then [.expire (statusKey id) terminalTtlSeconds] else []

/-- `JobStatus` of the backend's queue: the status is any text. -/
structure QueueStatus where
  status : String
  updatedAt : Time
  deriving DecidableEq, Repr

/-- The zero `time.Time`, the beginning of the year 1. -/
def zeroTime : Time :=
  seconds (-62135596800)

/-- `time.Parse(time.RFC3339, raw)`; `general` is the parser for all texts that
the one for plain RFC 3339 texts leaves to it. -/
def parseTime (general : String → Option Time) (raw : String) : Option Time :=
  match Rfc3339.parseRFC3339 raw.toList with
  | some moment => some (seconds moment)
  | none => general raw

/-- `Queue.GetJobStatus`, when Redis answers. -/
def getJobStatus (general : String → Option Time) (redis : RedisHashes) (id : UUID) :
    Option QueueStatus :=
  match redis.get (statusKey id) with
  | none => none
  | some entry =>
      let status := (entry.fields.lookup "status").getD ""
      match entry.fields.lookup "updated_at" with
      | none => some ⟨status, zeroTime⟩
      | some raw =>
          match parseTime general raw with
          | none => some ⟨status, zeroTime⟩
          | some updatedAt => some ⟨status, updatedAt⟩

/-- What `GetJob` shows of an active job: its status as a text, and its time. -/
def overlayTexts (job : Job) : Option QueueStatus → QueueStatus
  | none => ⟨job.status.value, job.updatedAt⟩
  | some live =>
      if job.updatedAt < live.updatedAt then
        live
      else
        ⟨job.status.value, job.updatedAt⟩

theorem overlayTexts_malformed {general : String → Option Time} {redis : RedisHashes}
    {job : Job} (dated : zeroTime ≤ job.updatedAt)
    (malformed : ∀ entry raw, redis.get (statusKey job.id) = some entry →
      entry.fields.lookup "updated_at" = some raw → parseTime general raw = none) :
    overlayTexts job (getJobStatus general redis job.id) =
      ⟨job.status.value, job.updatedAt⟩ := by
  have old (status : String) : overlayTexts job (some ⟨status, zeroTime⟩) =
      ⟨job.status.value, job.updatedAt⟩ := if_neg (not_lt.mpr dated)
  unfold getJobStatus
  split
  case h_1 => rfl
  case h_2 entry found =>
    simp only
    split
    case h_1 => exact old _
    case h_2 raw time =>
      rw [malformed entry raw found time]
      exact old _

/-! ## What was published is read -/

/-- Times that both ends can write and read. -/
def InCalendar (time : Time) : Prop :=
  zeroTime ≤ time ∧ time < seconds 253402300800

structure Written (hash : StatusHash) (entry : HashEntry) : Prop where
  expires : entry.expiresAt = hash.expiresAt
  status : entry.fields.lookup "status" = some hash.status.value
  updatedAt : ∃ now, InCalendar now ∧ hash.updatedAt = nowRfc3339 now ∧
    entry.fields.lookup "updated_at" = some (rfc3339Text now)

/-- The hashes of the model are those that Redis holds as texts. -/
structure HeldAsTexts (stores : SharedStores) (redis : RedisHashes) : Prop where
  clock : redis.clock = stores.clock
  entries : ∀ id, Option.Rel Written (stores.statuses id) (redis.entries (statusKey id))

theorem statusKey_inj {first second : UUID} :
    statusKey first = statusKey second ↔ first = second := by
  refine ⟨fun same => ?_, congrArg statusKey⟩
  exact UUID.str_inj.mp (String.append_right_inj "jobs:status:" |>.mp same)

theorem parseTime_rfc3339Text {now : Time} (inCalendar : InCalendar now)
    (general : String → Option Time) :
    parseTime general (rfc3339Text now) = some (nowRfc3339 now) := by
  have representable : Rfc3339.Representable (now / seconds 1) :=
    ⟨Int.le_ediv_of_mul_le (by decide) inCalendar.1, Int.ediv_lt_of_lt_mul (by decide) inCalendar.2⟩
  rw [parseTime, rfc3339Text, String.toList_ofList, Rfc3339.parseRFC3339_isoformat representable]
  rfl

theorem HeldAsTexts.get {stores : SharedStores} {redis : RedisHashes}
    (held : HeldAsTexts stores redis) (id : UUID) :
    Option.Rel Written (stores.getStatus id) (redis.get (statusKey id)) := by
  have same := held.entries id
  unfold SharedStores.getStatus RedisHashes.get
  cases stored : stores.statuses id <;> cases raw : redis.entries (statusKey id) <;>
    rw [stored, raw] at same <;> cases same
  case none.none.none => exact .none
  case some.some.some hash entry written =>
    have live : (match entry.expiresAt with
        | none => true
        | some expiry => decide (redis.clock < expiry)) = hash.live stores.clock := by
      rw [written.expires, held.clock]
      rfl
    rw [Option.filter_some, Option.filter_some, live]
    split
    · exact .some written
    · exact .none

theorem HeldAsTexts.getJobStatus {stores : SharedStores} {redis : RedisHashes}
    (held : HeldAsTexts stores redis) (general : String → Option Time) (id : UUID) :
    getJobStatus general redis id = (stores.getStatus id).map fun hash =>
      ⟨hash.status.value, hash.updatedAt⟩ := by
  have same := held.get id
  unfold Crucible.getJobStatus
  cases stored : stores.getStatus id <;> cases raw : redis.get (statusKey id) <;>
    rw [stored, raw] at same <;> cases same
  case none.none.none => rfl
  case some.some.some hash entry written =>
    obtain ⟨now, inCalendar, published, time⟩ := written.updatedAt
    simp only [time, written.status, parseTime_rfc3339Text inCalendar, published,
      Option.map_some, Option.getD_some]

theorem overlayTexts_map (job : Job) (hash : Option StatusHash) :
    overlayTexts job (hash.map fun hash => ⟨hash.status.value, hash.updatedAt⟩) =
      ⟨(RequestPc.overlay job hash).status.value, (RequestPc.overlay job hash).updatedAt⟩ := by
  cases hash with
  | none => rfl
  | some hash =>
      simp only [Option.map_some, overlayTexts, RequestPc.overlay]
      split <;> rfl

namespace RedisHashes

variable {redis : RedisHashes} {key : String}

theorem command_hset (redis : RedisHashes) (key : String) (mapping : List (String × String)) :
    ∃ fields, let entry := ⟨setFields fields mapping, (redis.get key).bind (·.expiresAt)⟩
      redis.command (.hset key mapping) = redis.put key entry ∧
        (redis.put key entry).get key = some entry := by
  cases found : redis.get key with
  | none => exact ⟨∅, by simp [command, found], by simp [get, put]⟩
  | some entry =>
      have live := (Option.filter_eq_some_iff.mp found).2
      refine ⟨entry.fields, by simp [command, found], ?_⟩
      simp only [get, put, Function.update_self]
      exact Option.filter_eq_some_iff.mpr ⟨rfl, live⟩

/-- What `publish` writes is a hash with two fields. -/
theorem publishPipeline_eq (redis : RedisHashes) (now : Time) (id : UUID) (status : JobStatus)
    (terminal : Bool) :
    ∃ fields, (publishPipeline now id status terminal).foldl command redis =
      redis.put (statusKey id)
        ⟨setFields fields [("status", status.value), ("updated_at", rfc3339Text now)],
          if terminal then some (redis.clock + seconds terminalTtlSeconds)
          else (redis.get (statusKey id)).bind (·.expiresAt)⟩ := by
  obtain ⟨fields, written, live⟩ := command_hset redis (statusKey id)
    [("status", status.value), ("updated_at", rfc3339Text now)]
  refine ⟨fields, ?_⟩
  cases terminal with
  | false => simpa [publishPipeline] using written
  | true =>
      simp only [publishPipeline, if_true, List.foldl_cons, List.foldl_nil]
      rw [written, command, live]
      simp [put]

end RedisHashes

theorem HeldAsTexts.publish {stores : SharedStores} {redis : RedisHashes}
    (held : HeldAsTexts stores redis) {now : Time} (inCalendar : InCalendar now) (id : UUID)
    (status : JobStatus) (terminal : Bool) :
    HeldAsTexts (stores.publish now id status terminal)
      ((publishPipeline now id status terminal).foldl RedisHashes.command redis) := by
  obtain ⟨fields, written⟩ := RedisHashes.publishPipeline_eq redis now id status terminal
  rw [written]
  refine ⟨held.clock, fun other => ?_⟩
  simp only [SharedStores.publish, RedisHashes.put, Function.update_apply, statusKey_inj]
  split
  case isFalse => exact held.entries other
  case isTrue =>
    have expires : ((stores.getStatus id).bind (·.expiresAt)) =
        (redis.get (statusKey id)).bind (·.expiresAt) := by
      have same := held.get id
      cases stored : stores.getStatus id <;> cases raw : redis.get (statusKey id) <;>
        rw [stored, raw] at same <;> cases same
      case none.none.none => rfl
      case some.some.some hash entry written => exact written.expires.symm
    refine .some ⟨?_, ?_, now, inCalendar, rfl, ?_⟩
    · rw [held.clock, expires]
    · simp [RedisHashes.setFields]
    · simp [RedisHashes.setFields]

/-! ## Runs of the platform -/

def Write.hashEvents : Write → List HashEvent
  | .publish now id status terminal => [.pipeline (publishPipeline now id status terminal)]
  | _ => []

theorem RedisHashes.exists_replay (redis : RedisHashes) (events : List HashEvent) :
    ∃ redis', replay RedisHashes.step Any redis events = some redis' := by
  induction events generalizing redis with
  | nil => exact ⟨redis, rfl⟩
  | cons event events ih => cases event <;> exact ih _

/-- Writes that publish a time of the calendar, or nothing. -/
def Write.InCalendar : Write → Prop
  | .publish now _ _ _ => Crucible.InCalendar now
  | _ => True

theorem HeldAsTexts.write {stores : SharedStores} {redis redis' : RedisHashes} {write : Write}
    (held : HeldAsTexts stores redis) (inCalendar : write.InCalendar)
    (followed : replay RedisHashes.step Any redis write.hashEvents = some redis') :
    HeldAsTexts (stores.write write) redis' := by
  cases write with
  | publish now id status terminal =>
      cases followed
      exact held.publish inCalendar id status terminal
  | claim =>
      cases followed
      simp only [SharedStores.write]
      split <;> exact ⟨held.clock, held.entries⟩
  | _ =>
      cases followed
      exact ⟨held.clock, held.entries⟩

namespace Cluster

variable {n m : Nat} {config : Config} {cluster next : Cluster n m} {action : Action n m}

/-- What a step of the platform is for the hashes in Redis. -/
def hashEvents (config : Config) (cluster : Cluster n m) : Action n m → List HashEvent
  | .tick duration => [.wait duration]
  | .work worker choice =>
      match (cluster.workers worker).pc.step config cluster.stores choice with
      | some (write, _) => write.hashEvents
      | none => []
  | _ => []

/-- Processes have reached their control points in the calendar. -/
structure Since (cluster : Cluster n m) : Prop where
  named : Named cluster
  clock : zeroTime ≤ cluster.stores.clock
  workers : ∀ worker, zeroTime ≤ (cluster.workers worker).since

theorem since_step (held : Since cluster) (moved : step config cluster action = some next) :
    Since next := by
  have later := clock_le_step moved
  refine ⟨step_named held.named moved, held.clock.trans later, fun worker => ?_⟩
  have put (mover : Fin n) (write : Write) (pc : WorkerPc) :
      zeroTime ≤ ((cluster.putWorker mover write pc).workers worker).since := by
    simp only [putWorker, Function.update_apply]
    split
    case isTrue => exact held.clock
    case isFalse => exact held.workers worker
  cases action with
  | work mover choice =>
      obtain ⟨_, write, pc, _, rfl⟩ := step_work moved
      exact put mover write pc
  | start mover =>
      obtain ⟨_, rfl⟩ := step_start moved
      exact put mover _ _
  | crash mover =>
      cases moved
      exact put mover _ _
  | serve request choice =>
      obtain ⟨_, write, pc, _, rfl⟩ := step_serve moved
      exact held.workers worker
  | arrive request call =>
      obtain rfl := step_arrive moved
      exact held.workers worker
  | tick duration | setModels models | drop request =>
      cases moved
      exact held.workers worker

theorem heldAsTexts_step {redis redis' : RedisHashes} (since : Since cluster)
    (held : HeldAsTexts cluster.stores redis)
    (moved : step config cluster action = some next)
    (early : next.stores.clock < seconds 253402300800)
    (followed : replay RedisHashes.step Any redis (hashEvents config cluster action) =
      some redis') :
    HeldAsTexts next.stores redis' := by
  cases action with
  | tick duration =>
      cases moved
      cases followed
      exact ⟨congrArg (· + (duration : Time)) held.clock, held.entries⟩
  | work worker choice =>
      obtain ⟨current, write, pc, stepped, rfl⟩ := step_work moved
      simp only [hashEvents, stepped] at followed
      refine held.write ?_ followed
      rcases WorkerPc.step_write stepped with made | made
      · rw [made]
        trivial
      · cases write with
        | publish now id status terminal =>
            obtain ⟨_, rfl, _⟩ :=
              WorkerPc.names_of_call_publish (since.named.held worker) made.symm
            rw [putWorker, SharedStores.write_clock] at early
            exact ⟨(since.workers worker).trans current.1, current.2.trans_lt early⟩
        | _ => trivial
  | serve request choice =>
      cases followed
      obtain ⟨_, write, pc, stepped, rfl⟩ := step_serve moved
      have silent : write.hashEvents = [] ∧ write.InCalendar := by
        rcases RequestPc.step_write stepped with made | made
        · rw [made]
          exact ⟨rfl, trivial⟩
        · rw [made]
          cases (cluster.requests request).pc <;> exact ⟨rfl, trivial⟩
      refine held.write silent.2 ?_
      rw [silent.1]
      rfl
  | arrive request call =>
      cases followed
      obtain rfl := step_arrive moved
      exact held
  | start worker =>
      cases followed
      obtain ⟨_, rfl⟩ := step_start moved
      exact held
  | setModels models | crash worker | drop request =>
      cases followed
      cases moved
      exact ⟨held.clock, held.entries⟩

theorem heldAsTexts_initial (clock : Time) (models : List ModelRow) :
    HeldAsTexts (initial clock models : Cluster n m).stores (.initial clock) :=
  ⟨rfl, fun _ => Option.Rel.none⟩

/-- In every run within the years 1 to 9999, what the backend parses from the
texts that the workers have written is the live status of the model, so that
`GetJob` shows what the overlay shows, however other texts are parsed. -/
theorem status_texts_read {clock : Time} {models : List ModelRow} {last : Cluster n m}
    {actions : List (Action n m)}
    (followed : replay (step config) Any (initial clock models) actions = some last)
    (first : zeroTime ≤ clock) (early : last.stores.clock < seconds 253402300800) :
    ∃ redis, replay RedisHashes.step Any (.initial clock)
        (translate (step config) (hashEvents config) (initial clock models) actions) =
          some redis ∧
      ∀ general id,
        getJobStatus general redis id = (last.stores.getStatus id).map (fun hash =>
          ⟨hash.status.value, hash.updatedAt⟩) ∧
        ∀ job : Job, overlayTexts job (getJobStatus general redis id) =
          let shown := RequestPc.overlay job (last.stores.getStatus id)
          ⟨shown.status.value, shown.updatedAt⟩ := by
  obtain ⟨redis, matched, since, held⟩ := replay_translate
    (fun (cluster : Cluster n m) redis => Since cluster ∧
      (cluster.stores.clock < seconds 253402300800 → HeldAsTexts cluster.stores redis))
    (fun current action next redis held moved => by
      obtain ⟨redis', matched⟩ := redis.exists_replay (hashEvents config current action)
      refine ⟨redis', matched, since_step held.1 moved, fun early => ?_⟩
      have before := (clock_le_step moved).trans_lt early
      exact heldAsTexts_step held.1 (held.2 before) moved early matched)
    ⟨⟨named_initial clock models, first, fun _ => first⟩,
      fun _ => heldAsTexts_initial clock models⟩ followed
  refine ⟨redis, matched, fun general id => ?_⟩
  have read := (held early).getJobStatus general id
  exact ⟨read, fun job => by rw [read, overlayTexts_map]⟩

/-- The backend parses the completion of `completedRun`. -/
theorem status_texts_read_completedRun :
    ∃ redis, getJobStatus (fun _ => none) redis jobSeven = some ⟨"completed", seconds 5⟩ := by
  have replays : (replay (step shortConfig) Any (initial 0 sevenModels)
      (completedRun (0 : Fin 1) (0 : Fin 2) 1)).any (fun last =>
        decide (last.stores.clock < seconds 253402300800) &&
          decide (last.stores.getStatus jobSeven =
            some ⟨.completed, seconds 5, some (seconds 86405)⟩)) = true := by
    decide +kernel
  obtain ⟨last, followed, reached⟩ := (Option.any_eq_true _ _).mp replays
  obtain ⟨early, shown⟩ := Bool.and_eq_true_iff.mp reached
  obtain ⟨redis, _, read⟩ :=
    status_texts_read followed (by decide) (of_decide_eq_true early)
  have parsed := (read (fun _ => none) jobSeven).1
  rw [of_decide_eq_true shown] at parsed
  exact ⟨redis, parsed⟩

end Cluster

end Crucible
