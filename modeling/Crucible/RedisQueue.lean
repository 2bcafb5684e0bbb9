import Crucible.Cluster
import Crucible.ReliableFifo

/-!
# The two Redis lists as a reliable FIFO

The backend pushes at the left of `jobs:queue`, workers claim at its right, and
both sides remove identifiers wherever they occur.  The lists are a reliable
FIFO whose tickets were forgotten.
-/

namespace Crucible

open ReliableFifo

/-- `jobs:queue` and `jobs:processing`, left end first. -/
structure JobLists where
  queue : List String
  processing : List String
  deriving DecidableEq, Repr

/-- The calls of `Queue` and `RedisQueue` that change the lists. -/
inductive ListCall where
  | enqueue (jobID : UUID)
  | dequeue (jobID : UUID)
  | claim (consumer : Nat)
  | ack (jobId : String)
  | requeue (jobId : String)
  deriving DecidableEq, Repr

namespace ListCall

/-- What a call means for the abstract queue. -/
def operation : ListCall → Operation String
  | .enqueue jobID => .push jobID.str
  | .dequeue jobID => .drop jobID.str
  | .claim _ => .claim
  | .ack jobId => .finish jobId
  | .requeue jobId => .requeue jobId

def pushes : ListCall → Option String
  | .enqueue jobID => some jobID.str
  | .requeue jobId => some jobId
  | .dequeue _ | .claim _ | .ack _ => none

def ends : ListCall → Option String
  | .dequeue jobID => some jobID.str
  | .ack jobId | .requeue jobId => some jobId
  | .enqueue _ | .claim _ => none

theorem pushes_operation (call : ListCall) : call.operation.pushes = call.pushes := by
  cases call <;> rfl

theorem ends_operation (call : ListCall) : call.operation.ends = call.ends := by
  cases call <;> rfl

end ListCall

namespace JobLists

/-- `Queue.Enqueue`. -/
def enqueue (lists : JobLists) (jobID : UUID) : JobLists :=
  { lists with queue := RedisLists.lpush lists.queue jobID.str }

/-- `Queue.Dequeue`. -/
def dequeue (lists : JobLists) (jobID : UUID) : JobLists :=
  { lists with queue := RedisLists.lrem lists.queue jobID.str }

/-- `RedisQueue.claim`; nothing is returned when the queue stays empty. -/
def claim (lists : JobLists) : Option String × JobLists :=
  match RedisLists.brpoplpush lists.queue lists.processing with
  | some (jobId, queue, processing) => (some jobId, ⟨queue, processing⟩)
  | none => (none, lists)

/-- `RedisQueue.ack`. -/
def ack (lists : JobLists) (jobId : String) : JobLists :=
  { lists with processing := RedisLists.lrem lists.processing jobId }

/-- `RedisQueue.requeue`. -/
def requeue (lists : JobLists) (jobId : String) : JobLists where
  queue := RedisLists.lpush lists.queue jobId
  processing := RedisLists.lrem lists.processing jobId

/-- One call, with what it claims. -/
def apply (lists : JobLists) : ListCall → Option String × JobLists
  | .enqueue jobID => (none, lists.enqueue jobID)
  | .dequeue jobID => (none, lists.dequeue jobID)
  | .claim _ => lists.claim
  | .ack jobId => (none, lists.ack jobId)
  | .requeue jobId => (none, lists.requeue jobId)

def run (lists : JobLists) : List ListCall → List String × JobLists
  | [] => ([], lists)
  | call :: calls =>
      let (claimed, next) := lists.apply call
      let (rest, last) := next.run calls
      (claimed.toList ++ rest, last)

/-- The abstraction relation: each list shows the entries of the abstract queue
without their tickets. -/
structure Represents (lists : JobLists) (fifo : Fifo String) : Prop where
  queue : lists.queue = (fifo.waiting.map Prod.snd).reverse
  processing : lists.processing = fifo.inFlight.map Prod.snd

variable {lists : JobLists} {fifo : Fifo String}

/-- The abstract queue that the lists represent before the first call. -/
def toFifo (lists : JobLists) : Fifo String :=
  .start lists.processing.reverse lists.queue.reverse

theorem represents_toFifo (lists : JobLists) : lists.Represents lists.toFifo where
  queue := by simp [toFifo, Fifo.start, Fifo.number_snd]
  processing := by simp [toFifo, Fifo.start, Fifo.number_snd]

theorem lrem_map (entries : List (Ticket String)) (id : String) :
    RedisLists.lrem (entries.map Prod.snd) id =
      (entries.filter fun entry => entry.2 ≠ id).map Prod.snd := by
  rw [RedisLists.lrem, List.filter_map]
  rfl

theorem lrem_reverse (entries : List String) (id : String) :
    RedisLists.lrem entries.reverse id = (RedisLists.lrem entries id).reverse :=
  List.filter_reverse

namespace Represents

theorem enqueue (held : lists.Represents fifo) (jobID : UUID) :
    (lists.enqueue jobID).Represents (fifo.push jobID.str) where
  queue := by simp [JobLists.enqueue, Fifo.push, RedisLists.lpush, held.queue]
  processing := held.processing

theorem dequeue (held : lists.Represents fifo) (jobID : UUID) :
    (lists.dequeue jobID).Represents (fifo.drop jobID.str) where
  queue := by
    rw [JobLists.dequeue, held.queue, lrem_reverse, lrem_map]
    rfl
  processing := held.processing

theorem ack (held : lists.Represents fifo) (jobId : String) :
    (lists.ack jobId).Represents (fifo.finish jobId) where
  queue := held.queue
  processing := by
    rw [JobLists.ack, held.processing, lrem_map]
    rfl

theorem requeue (held : lists.Represents fifo) (jobId : String) :
    (lists.requeue jobId).Represents ((fifo.finish jobId).push jobId) where
  queue := by
    simp [JobLists.requeue, Fifo.push, Fifo.finish, RedisLists.lpush, held.queue]
  processing := (held.ack jobId).processing

theorem claim (held : lists.Represents fifo) :
    lists.claim.2.Represents fifo.claim ∧
      fifo.claim.claimed.map Prod.snd =
        fifo.claimed.map Prod.snd ++ lists.claim.1.toList := by
  unfold JobLists.claim Fifo.claim
  cases listed : fifo.waiting with
  | nil =>
      have empty : lists.queue = [] := by rw [held.queue, listed]; rfl
      simp [empty, RedisLists.brpoplpush, held]
  | cons entry waiting =>
      have ends : lists.queue = (waiting.map Prod.snd).reverse ++ [entry.2] := by
        rw [held.queue, listed, List.map_cons, List.reverse_cons]
      have moved : RedisLists.brpoplpush lists.queue lists.processing =
          some (entry.2, (waiting.map Prod.snd).reverse, entry.2 :: lists.processing) := by
        simp [RedisLists.brpoplpush, ends, RedisLists.lpush]
      rw [moved]
      exact ⟨⟨rfl, by simp [held.processing]⟩, by simp⟩

/-- Every call keeps the relation, and claims what the abstract queue claims. -/
theorem apply (held : lists.Represents fifo) (call : ListCall) :
    (lists.apply call).2.Represents (fifo.apply call.operation) ∧
      (fifo.apply call.operation).claimed.map Prod.snd =
        fifo.claimed.map Prod.snd ++ (lists.apply call).1.toList := by
  cases call with
  | enqueue jobID => exact ⟨held.enqueue jobID, (List.append_nil _).symm⟩
  | dequeue jobID => exact ⟨held.dequeue jobID, (List.append_nil _).symm⟩
  | claim consumer => exact held.claim
  | ack jobId => exact ⟨held.ack jobId, (List.append_nil _).symm⟩
  | requeue jobId => exact ⟨held.requeue jobId, (List.append_nil _).symm⟩

theorem run (held : lists.Represents fifo) (calls : List ListCall) :
    (lists.run calls).2.Represents (fifo.run (calls.map ListCall.operation)) ∧
      (fifo.run (calls.map ListCall.operation)).claimed.map Prod.snd =
        fifo.claimed.map Prod.snd ++ (lists.run calls).1 := by
  induction calls generalizing lists fifo with
  | nil => exact ⟨held, (List.append_nil _).symm⟩
  | cons call calls ih =>
      obtain ⟨held, claimed⟩ := held.apply call
      obtain ⟨held, rest⟩ := ih held
      refine ⟨held, rest.trans ?_⟩
      rw [claimed, List.append_assoc]
      rfl

end Represents

/-- A call leaves the entries of other identifiers where they are, apart from
new ones at the left end. -/
theorem apply_others {call : ListCall} {id : String} (lists : JobLists)
    (ends : call.ends = some id) :
    RedisLists.lrem (lists.apply call).2.queue id = RedisLists.lrem lists.queue id ∧
      RedisLists.lrem (lists.apply call).2.processing id =
        RedisLists.lrem lists.processing id := by
  cases call with
  | enqueue jobID | claim consumer => cases ends
  | dequeue jobID =>
      cases ends
      simp [apply, dequeue, RedisLists.lrem]
  | ack jobId =>
      cases ends
      simp [apply, ack, RedisLists.lrem]
  | requeue jobId =>
      cases ends
      simp [apply, requeue, RedisLists.lrem, RedisLists.lpush]

/-- What holds after any sequence of calls, and of any further call. -/
structure RefinesFifo (first : JobLists) (calls : List ListCall) (fifo : Fifo String) :
    Prop where
  represents : (first.run calls).2.Represents fifo
  pushed : fifo.pushed.map Prod.snd =
    first.processing.reverse ++ first.queue.reverse ++ calls.filterMap ListCall.pushes
  claimed : fifo.claimed.map Prod.snd = first.processing.reverse ++ (first.run calls).1
  distinct : fifo.pushed.Nodup
  order : fifo.claimed ++ fifo.waiting = fifo.pushed.filter fun entry => entry ∉ fifo.dropped
  dropped : ∀ entry ∈ fifo.dropped, ∃ jobID : UUID, entry.2 = jobID.str ∧
    .dequeue jobID ∈ calls
  moves : ∀ consumer id next, (first.run calls).2.apply (.claim consumer) = (some id, next) →
    (first.run calls).2.queue = next.queue ++ [id] ∧
      next.processing = id :: (first.run calls).2.processing
  waits : ∀ consumer next, (first.run calls).2.apply (.claim consumer) = (none, next) →
    next = (first.run calls).2 ∧ next.queue = []
  next : ∀ call, ((first.run calls).2.apply call).2.Represents (fifo.apply call.operation)
  stays : ∀ (call : ListCall) (entry : Ticket String), call.ends ≠ some entry.2 →
    entry ∈ fifo.waiting ∨ entry ∈ fifo.inFlight →
      entry ∈ (fifo.apply call.operation).waiting ∨ entry ∈ (fifo.apply call.operation).inFlight
  others : ∀ (call : ListCall) (id : String), call.ends = some id →
    RedisLists.lrem ((first.run calls).2.apply call).2.queue id =
        RedisLists.lrem (first.run calls).2.queue id ∧
      RedisLists.lrem ((first.run calls).2.apply call).2.processing id =
        RedisLists.lrem (first.run calls).2.processing id

theorem claim_eq_some {lists next : JobLists} {id : String}
    (claimed : lists.claim = (some id, next)) :
    lists.queue = next.queue ++ [id] ∧ next.processing = id :: lists.processing := by
  unfold claim at claimed
  split at claimed
  case h_1 moved =>
    cases claimed
    exact RedisLists.brpoplpush_eq_some moved
  case h_2 => cases claimed

theorem claim_eq_none {lists next : JobLists} (claimed : lists.claim = (none, next)) :
    next = lists ∧ next.queue = [] := by
  unfold claim at claimed
  split at claimed
  case h_1 => cases claimed
  case h_2 empty =>
    cases claimed
    refine ⟨rfl, ?_⟩
    simpa [RedisLists.brpoplpush] using empty

/-- The two lists are a reliable FIFO, whatever they hold at first and whatever
the sequence of calls. -/
theorem lists_refine_fifo (first : JobLists) (calls : List ListCall) :
    ∃ fifo, RefinesFifo first calls fifo := by
  obtain ⟨represents, claimed⟩ := (represents_toFifo first).run calls
  have held : (first.toFifo.run (calls.map ListCall.operation)).InOrder :=
    (Fifo.InOrder.start _ _).run _
  refine ⟨first.toFifo.run (calls.map ListCall.operation), represents, ?_, ?_,
    held.nodup_pushed, held.order, fun entry gone => ?_, fun _ _ _ => claim_eq_some,
    fun _ _ => claim_eq_none, fun call => (represents.apply call).1,
    fun call entry other present => Fifo.mem_apply _ present ?_,
    fun call id => apply_others _⟩
  · have pushes : calls.filterMap (Operation.pushes ∘ ListCall.operation) =
        calls.filterMap ListCall.pushes :=
      List.filterMap_congr fun call _ => call.pushes_operation
    rw [Fifo.pushed_run, List.filterMap_map, pushes, toFifo, Fifo.start, Fifo.number_snd]
  · rw [claimed]
    simp [toFifo, Fifo.start, Fifo.number_snd]
  · obtain before | dropped := Fifo.dropped_run _ gone
    · cases before
    · obtain ⟨call, member, same⟩ := List.mem_map.mp dropped
      cases call with
      | dequeue jobID => exact ⟨jobID, (Operation.drop.inj same).symm, member⟩
      | enqueue | claim | ack | requeue => cases same
  · rw [ListCall.ends_operation]
    exact other

theorem run_concat (lists : JobLists) (calls : List ListCall) (call : ListCall) :
    (lists.run (calls ++ [call])).2 = ((lists.run calls).2.apply call).2 := by
  induction calls generalizing lists with
  | nil => rfl
  | cons first calls ih => exact ih (lists.apply first).2

end JobLists

/-! ## Repeated recovery -/

namespace JobLists

def OnlyQueued (lists : JobLists) (jobId : String) : Prop :=
  lists.queue.count jobId = 1 ∧ lists.processing.count jobId = 0

theorem count_requeue (lists : JobLists) (jobId : String) (repetitions : Nat) :
    (((fun lists => lists.requeue jobId)^[repetitions]) lists).queue.count jobId =
      lists.queue.count jobId + repetitions := by
  induction repetitions with
  | zero => rfl
  | succ repetitions ih =>
      rw [Function.iterate_succ_apply', requeue, RedisLists.count_lpush, ih, if_pos rfl]
      omega

theorem onlyQueued_requeue_iff (lists : JobLists) (jobId : String) :
    (lists.requeue jobId).OnlyQueued jobId ↔ jobId ∉ lists.queue := by
  simp [OnlyQueued, requeue, RedisLists.count_lpush, List.count_eq_zero]

/-- A call and any number of repetitions leave an identifier queued once exactly
when it was not queued before and the call is not repeated. -/
theorem requeue_idempotent_iff (lists : JobLists) (jobId : String) (repetitions : Nat) :
    (∀ count ≤ repetitions,
        (((fun lists => lists.requeue jobId)^[count + 1]) lists).OnlyQueued jobId) ↔
      jobId ∉ lists.queue ∧ repetitions = 0 := by
  constructor
  · intro once
    have first := once 0 (Nat.zero_le _)
    have absent := (onlyQueued_requeue_iff lists jobId).mp first
    have last := (once repetitions le_rfl).1
    rw [count_requeue, List.count_eq_zero.mpr absent] at last
    exact ⟨absent, by omega⟩
  · rintro ⟨absent, rfl⟩ count none
    obtain rfl : count = 0 := Nat.le_zero.mp none
    exact (onlyQueued_requeue_iff lists jobId).mpr absent

/-- Two recoveries of one job leave two entries. -/
theorem requeue_duplicates :
    ¬ ∀ (lists : JobLists) (jobId : String), lists.queue.count jobId ≤ 1 →
      (lists.requeue jobId).OnlyQueued jobId ∧
        ((lists.requeue jobId).requeue jobId).queue.length =
          (lists.requeue jobId).queue.length := by
  intro idempotent
  have once := (idempotent ⟨["job-1"], []⟩ "job-1" (by decide)).1
  exact (onlyQueued_requeue_iff _ _).mp once (by decide)

end JobLists

/-! ## The lists of the platform -/

/-- The call by which a process makes a write to the lists. -/
def Write.listCall (consumer : Nat) : Write → Option ListCall
  | .enqueue id => some (.enqueue id)
  | .dequeue id => some (.dequeue id)
  | .claim => some (.claim consumer)
  | .ack rawJobId => some (.ack rawJobId)
  | .requeue jobId => some (.requeue jobId)
  | _ => none

namespace SharedStores

def lists (stores : SharedStores) : JobLists :=
  ⟨stores.queue, stores.processing⟩

theorem lists_write (stores : SharedStores) (write : Write) (consumer : Nat) :
    (stores.write write).lists =
      (write.listCall consumer).elim stores.lists fun call => (stores.lists.apply call).2 := by
  cases write with
  | claim =>
      simp only [SharedStores.write, Write.listCall, Option.elim, JobLists.apply, JobLists.claim,
        lists]
      cases RedisLists.brpoplpush stores.queue stores.processing <;> rfl
  | _ => rfl

end SharedStores

namespace Cluster

open LabelledRuns

variable {n m : Nat} {config : Config} {cluster next : Cluster n m}

theorem lists_step {action : Action n m} (moved : cluster.step config action = some next) :
    next.stores.lists = cluster.stores.lists ∨
      ∃ call, next.stores.lists = (cluster.stores.lists.apply call).2 := by
  have of_write : ∀ (write : Write) (consumer : Nat),
      (cluster.stores.write write).lists = cluster.stores.lists ∨
        ∃ call, (cluster.stores.write write).lists = (cluster.stores.lists.apply call).2 := by
    intro write consumer
    rw [cluster.stores.lists_write write consumer]
    cases write.listCall consumer with
    | none => exact Or.inl rfl
    | some call => exact Or.inr ⟨call, rfl⟩
  cases action with
  | work worker choice =>
      obtain ⟨_, write, pc, _, rfl⟩ := step_work moved
      exact of_write write worker
  | serve request choice =>
      obtain ⟨_, write, pc, _, rfl⟩ := step_serve moved
      exact of_write write 0
  | arrive request call => obtain rfl := step_arrive moved; exact Or.inl rfl
  | start worker => obtain ⟨_, rfl⟩ := step_start moved; exact Or.inl rfl
  | tick duration | setModels models | crash worker | drop request =>
      cases moved
      exact Or.inl rfl

/-- The lists of every reachable state are those of a sequence of calls, and so
a reliable FIFO. -/
theorem runs_lists {clock : Time} {models : List ModelRow}
    (run : Runs (step config) Any (initial clock models) cluster) :
    ∃ calls, cluster.stores.lists = (JobLists.run ⟨[], []⟩ calls).2 := by
  refine runs_invariant (fun state : Cluster n m =>
    ∃ calls, state.stores.lists = (JobLists.run ⟨[], []⟩ calls).2) ?_ ⟨[], rfl⟩ run
  rintro current action next ⟨calls, held⟩ _ moved
  obtain same | ⟨call, made⟩ := lists_step moved
  · exact ⟨calls, same.trans held⟩
  · exact ⟨calls ++ [call], by rw [made, held, JobLists.run_concat]⟩

end Cluster

end Crucible
