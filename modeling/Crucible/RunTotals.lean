import Crucible.LabelledRuns
import Mathlib.Algebra.BigOperators.Group.Finset.Piecewise

/-!
# Totals along a run

A weight gives every step of a system a number, and its total along a list of
actions is the sum over the steps.  When a potential of the state pays for what
one weight exceeds another at every step, it pays for it over the whole run.
-/

namespace LabelledRuns

variable {State Action : Type*}

/-- The sum of a weight over the steps that a list of actions makes. -/
def total (step : State → Action → Option State) (weight : State → Action → State → Nat) :
    State → List Action → Nat
  | _, [] => 0
  | current, action :: actions =>
      match step current action with
      | none => 0
      | some next => weight current action next + total step weight next actions

variable {step : State → Action → Option State}

theorem total_add (first second : State → Action → State → Nat) (current : State)
    (actions : List Action) :
    total step (fun before action after => first before action after + second before action after)
        current actions =
      total step first current actions + total step second current actions := by
  induction actions generalizing current with
  | nil => rfl
  | cons action actions ih =>
      simp only [total]
      split
      case h_1 => rfl
      case h_2 next moved =>
        rw [ih next]
        omega

theorem total_zero (current : State) (actions : List Action) :
    total step (fun _ _ _ => 0) current actions = 0 := by
  induction actions generalizing current with
  | nil => rfl
  | cons action actions ih =>
      simp only [total]
      split
      case h_1 => rfl
      case h_2 next moved => rw [ih next]

/-- The potential method: if at every step the potential pays for the cost that
the income does not cover, the totals of a run differ by the potentials of its
ends. -/
theorem total_le (step : State → Action → Option State) {ok : State → Action → Prop}
    [∀ current action, Decidable (ok current action)]
    (cost income : State → Action → State → Nat) (potential : State → Nat)
    (property : State → Prop)
    (preserved : ∀ current action next, property current → ok current action →
      step current action = some next → property next)
    (paid : ∀ current action next, property current → ok current action →
      step current action = some next →
      cost current action next + potential next ≤ potential current + income current action next)
    {first last : State} {actions : List Action} (starts : property first)
    (followed : replay step ok first actions = some last) :
    total step cost first actions + potential last ≤
      potential first + total step income first actions := by
  induction actions generalizing first with
  | nil =>
      obtain rfl : first = last := by simpa [replay] using followed
      simp [total]
  | cons action actions ih =>
      simp only [replay, Option.ite_none_right_eq_some] at followed
      obtain ⟨allowed, followed⟩ := followed
      obtain ⟨next, moved, rest⟩ := Option.bind_eq_some_iff.mp followed
      have now := paid first action next starts allowed moved
      have later := ih (preserved first action next starts allowed moved) rest
      simp only [total, moved]
      omega

theorem sum_update {Index Local : Type*} [Fintype Index] [DecidableEq Index]
    (measure : Local → Nat) (locals : Index → Local) (index : Index) (moved : Local) :
    ∑ other, measure (Function.update locals index moved other) + measure (locals index) =
      ∑ other, measure (locals other) + measure moved := by
  have after : ∑ other, measure (Function.update locals index moved other) =
      measure moved + ∑ other ∈ Finset.univ \ {index}, measure (locals other) := by
    have changed := Function.comp_update measure locals index moved
    have sum := Finset.sum_update_of_mem (Finset.mem_univ index) (measure ∘ locals) (measure moved)
    rw [← changed] at sum
    exact sum
  have before := Finset.sum_eq_add_sum_sdiff_singleton_of_mem (Finset.mem_univ index)
    fun other => measure (locals other)
  omega

end LabelledRuns
