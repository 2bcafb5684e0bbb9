import Mathlib.Data.List.Basic
import Mathlib.Data.List.Nodup

/-!
# Reliable first-in first-out queues

The specification of a queue whose consumers move what they claim to a list of
entries in flight.  Every push gets a ticket of its own, so repeated
identifiers remain distinct entries, and claims are recorded in their order.
-/

namespace ReliableFifo

/-- A push: its number among all pushes, and what was pushed. -/
abbrev Ticket (Id : Type*) := Nat × Id

/-- The entries of a queue with its history.  All lists but `inFlight` are
ordered by time, oldest first. -/
structure Fifo (Id : Type*) where
  pushed : List (Ticket Id)
  waiting : List (Ticket Id)
  claimed : List (Ticket Id)
  dropped : List (Ticket Id)
  inFlight : List (Ticket Id)

/-- What producers, consumers and recoverers do. -/
inductive Operation (Id : Type*) where
  | push (id : Id)
  | drop (id : Id)
  | claim
  | finish (id : Id)
  | requeue (id : Id)

def Operation.pushes {Id : Type*} : Operation Id → Option Id
  | .push id | .requeue id => some id
  | .drop _ | .claim | .finish _ => none

def Operation.ends {Id : Type*} : Operation Id → Option Id
  | .drop id | .finish id | .requeue id => some id
  | .push _ | .claim => none

namespace Fifo

variable {Id : Type*}

/-- Number pushes from a given number on. -/
def number (first : Nat) (ids : List Id) : List (Ticket Id) :=
  (ids.zipIdx first).map Prod.swap

theorem number_fst (first : Nat) (ids : List Id) :
    (number first ids).map Prod.fst = List.range' first ids.length := by
  rw [number, List.map_map, ← List.zipIdx_map_snd first ids]
  rfl

theorem number_snd (first : Nat) (ids : List Id) : (number first ids).map Prod.snd = ids := by
  rw [number, List.map_map]
  exact List.zipIdx_map_fst first ids

/-- A queue with entries that wait, and entries claimed before, oldest first. -/
def start (claimed waiting : List Id) : Fifo Id where
  pushed := number 0 (claimed ++ waiting)
  waiting := number claimed.length waiting
  claimed := number 0 claimed
  dropped := []
  inFlight := (number 0 claimed).reverse

def push (fifo : Fifo Id) (id : Id) : Fifo Id :=
  { fifo with
    pushed := fifo.pushed ++ [(fifo.pushed.length, id)]
    waiting := fifo.waiting ++ [(fifo.pushed.length, id)] }

/-- The oldest waiting entry is in flight afterwards. -/
def claim (fifo : Fifo Id) : Fifo Id :=
  match fifo.waiting with
  | [] => fifo
  | entry :: waiting =>
      { fifo with
        waiting := waiting
        claimed := fifo.claimed ++ [entry]
        inFlight := entry :: fifo.inFlight }

variable [DecidableEq Id]

/-- All waiting entries of an identifier are withdrawn. -/
def drop (fifo : Fifo Id) (id : Id) : Fifo Id :=
  { fifo with
    waiting := fifo.waiting.filter fun entry => entry.2 ≠ id
    dropped := fifo.dropped ++ fifo.waiting.filter fun entry => entry.2 = id }

/-- All entries of an identifier in flight are done. -/
def finish (fifo : Fifo Id) (id : Id) : Fifo Id :=
  { fifo with inFlight := fifo.inFlight.filter fun entry => entry.2 ≠ id }

def apply (fifo : Fifo Id) : Operation Id → Fifo Id
  | .push id => fifo.push id
  | .drop id => fifo.drop id
  | .claim => fifo.claim
  | .finish id => fifo.finish id
  | .requeue id => (fifo.finish id).push id

def run (fifo : Fifo Id) (operations : List (Operation Id)) : Fifo Id :=
  operations.foldl apply fifo

/-- Claims and waiting entries together are the pushes in their order, without
the dropped ones, and every entry in flight was claimed once. -/
structure InOrder (fifo : Fifo Id) : Prop where
  numbered : fifo.pushed.map Prod.fst = List.range fifo.pushed.length
  order : fifo.claimed ++ fifo.waiting = fifo.pushed.filter fun entry => entry ∉ fifo.dropped
  withdrawn : fifo.dropped ⊆ fifo.pushed
  flying : fifo.inFlight.reverse.Sublist fifo.claimed

namespace InOrder

variable {fifo : Fifo Id}

theorem nodup_pushed (held : fifo.InOrder) : fifo.pushed.Nodup := by
  refine List.Nodup.of_map Prod.fst ?_
  rw [held.numbered]
  exact List.nodup_range

/-- No entry is claimed twice, or claimed and still waiting. -/
theorem nodup (held : fifo.InOrder) : (fifo.claimed ++ fifo.waiting).Nodup := by
  rw [held.order]
  exact held.nodup_pushed.filter _

theorem push (held : fifo.InOrder) (id : Id) : (fifo.push id).InOrder where
  numbered := by
    simp [Fifo.push, held.numbered, List.range_succ]
  order := by
    have new : (fifo.pushed.length, id) ∉ fifo.dropped := by
      intro dropped
      have numbers : fifo.pushed.length ∈ fifo.pushed.map Prod.fst :=
        List.mem_map.mpr ⟨_, held.withdrawn dropped, rfl⟩
      simp [held.numbered] at numbers
    calc
      fifo.claimed ++ (fifo.waiting ++ [(fifo.pushed.length, id)]) =
          fifo.pushed.filter (fun entry => entry ∉ fifo.dropped) ++
            [(fifo.pushed.length, id)] := by
        rw [← List.append_assoc, held.order]
      _ = (fifo.pushed ++ [(fifo.pushed.length, id)]).filter
            (fun entry => entry ∉ fifo.dropped) := by
        simp [List.filter_append, new]
  withdrawn := List.subset_append_of_subset_left _ held.withdrawn
  flying := held.flying

theorem claim (held : fifo.InOrder) : fifo.claim.InOrder := by
  unfold Fifo.claim
  split
  case h_1 => exact held
  case h_2 entry waiting first =>
    refine ⟨held.numbered, ?_, held.withdrawn, ?_⟩
    · simpa [first] using held.order
    · simpa using held.flying.append (List.Sublist.refl [entry])

theorem finish (held : fifo.InOrder) (id : Id) : (fifo.finish id).InOrder where
  numbered := held.numbered
  order := held.order
  withdrawn := held.withdrawn
  flying := (List.reverse_sublist.mpr List.filter_sublist).trans held.flying

theorem drop (held : fifo.InOrder) (id : Id) : (fifo.drop id).InOrder where
  numbered := held.numbered
  order := by
    have apart := List.disjoint_of_nodup_append held.nodup
    have claimed : fifo.claimed.filter
        (fun entry => entry ∉ fifo.waiting.filter fun entry => entry.2 = id) = fifo.claimed := by
      refine List.filter_eq_self.mpr fun entry member => ?_
      have elsewhere : entry ∉ fifo.waiting := fun waits => apart member waits
      simp [elsewhere]
    have waiting : fifo.waiting.filter
        (fun entry => entry ∉ fifo.waiting.filter fun entry => entry.2 = id) =
        fifo.waiting.filter fun entry => entry.2 ≠ id := by
      refine List.filter_congr fun entry member => ?_
      simp [member]
    calc
      fifo.claimed ++ fifo.waiting.filter (fun entry => entry.2 ≠ id) =
          (fifo.claimed ++ fifo.waiting).filter
            (fun entry => entry ∉ fifo.waiting.filter fun entry => entry.2 = id) := by
        rw [List.filter_append, claimed, waiting]
      _ = fifo.pushed.filter (fun entry =>
            entry ∉ fifo.dropped ++ fifo.waiting.filter fun entry => entry.2 = id) := by
        rw [held.order, List.filter_filter]
        refine List.filter_congr fun entry _ => ?_
        simp [Bool.and_comm]
  withdrawn := by
    have waiting : fifo.waiting ⊆ fifo.pushed := by
      intro entry member
      have kept : entry ∈ fifo.claimed ++ fifo.waiting := List.mem_append_right _ member
      rw [held.order] at kept
      exact (List.mem_filter.mp kept).1
    exact List.append_subset.mpr
      ⟨held.withdrawn, List.Subset.trans (List.filter_subset_self _) waiting⟩
  flying := held.flying

theorem apply (held : fifo.InOrder) (operation : Operation Id) :
    (fifo.apply operation).InOrder := by
  cases operation with
  | push id => exact held.push id
  | drop id => exact held.drop id
  | claim => exact held.claim
  | finish id => exact held.finish id
  | requeue id => exact (held.finish id).push id

theorem run (held : fifo.InOrder) (operations : List (Operation Id)) :
    (fifo.run operations).InOrder := by
  induction operations generalizing fifo with
  | nil => exact held
  | cons operation operations ih => exact ih (held.apply operation)

theorem start (claimed waiting : List Id) : (Fifo.start claimed waiting).InOrder where
  numbered := by
    rw [Fifo.start, number_fst, List.range_eq_range', number, List.length_map,
      List.length_zipIdx]
  order := by
    simp [Fifo.start, number, List.zipIdx_append]
  withdrawn := List.nil_subset _
  flying := by simp [Fifo.start]

end InOrder

variable (fifo : Fifo Id)

/-- The pushes on record are those that operations made, in their order. -/
theorem pushed_run (operations : List (Operation Id)) :
    (fifo.run operations).pushed.map Prod.snd =
      fifo.pushed.map Prod.snd ++ operations.filterMap Operation.pushes := by
  induction operations generalizing fifo with
  | nil => exact (List.append_nil _).symm
  | cons operation operations ih =>
      refine (ih (fifo.apply operation)).trans ?_
      cases operation with
      | push id => simp [apply, push, Operation.pushes]
      | requeue id => simp [apply, push, finish, Operation.pushes]
      | drop id | finish id => rfl
      | claim =>
          have kept : (fifo.apply .claim).pushed = fifo.pushed := by
            simp only [apply, claim]
            split <;> rfl
          rw [kept]
          rfl

/-- Every dropped entry belongs to some operation that dropped its identifier. -/
theorem dropped_run {operations : List (Operation Id)} {entry : Ticket Id}
    (gone : entry ∈ (fifo.run operations).dropped) :
    entry ∈ fifo.dropped ∨ .drop entry.2 ∈ operations := by
  induction operations generalizing fifo with
  | nil => exact Or.inl gone
  | cons operation operations ih =>
      obtain before | later := ih (fifo.apply operation) gone
      · cases operation with
        | push id => exact Or.inl before
        | drop id =>
            obtain before | now := List.mem_append.mp before
            · exact Or.inl before
            · obtain rfl : entry.2 = id := of_decide_eq_true (List.mem_filter.mp now).2
              exact Or.inr List.mem_cons_self
        | claim =>
            simp only [apply, claim] at before
            split at before <;> exact Or.inl before
        | finish id => exact Or.inl before
        | requeue id => exact Or.inl before
      · exact Or.inr (List.mem_cons_of_mem _ later)

/-- An entry that waits or is in flight remains there, unless the operation
ends its identifier. -/
theorem mem_apply {operation : Operation Id} {entry : Ticket Id}
    (present : entry ∈ fifo.waiting ∨ entry ∈ fifo.inFlight)
    (other : operation.ends ≠ some entry.2) :
    entry ∈ (fifo.apply operation).waiting ∨ entry ∈ (fifo.apply operation).inFlight := by
  cases operation with
  | push id => exact present.imp_left (List.mem_append_left _)
  | drop id =>
      have distinct : entry.2 ≠ id := fun same => other (congrArg some same.symm)
      exact present.imp_left fun waits => List.mem_filter.mpr ⟨waits, decide_eq_true distinct⟩
  | claim =>
      simp only [apply, claim]
      split
      case h_1 => exact present
      case h_2 first waiting listed =>
        obtain waits | flies := present
        · rw [listed] at waits
          obtain rfl | waits := List.mem_cons.mp waits
          · exact Or.inr List.mem_cons_self
          · exact Or.inl waits
        · exact Or.inr (List.mem_cons_of_mem _ flies)
  | finish id =>
      have distinct : entry.2 ≠ id := fun same => other (congrArg some same.symm)
      exact present.imp_right fun flies => List.mem_filter.mpr ⟨flies, decide_eq_true distinct⟩
  | requeue id =>
      have distinct : entry.2 ≠ id := fun same => other (congrArg some same.symm)
      exact present.imp (List.mem_append_left _) fun flies =>
        List.mem_filter.mpr ⟨flies, decide_eq_true distinct⟩

end Fifo

end ReliableFifo
