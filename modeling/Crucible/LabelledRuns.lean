import Mathlib.Logic.Relation

/-!
# Runs of partial step functions

A system is a partial function taking a state and an action to the next state.
Actions carry every choice that the environment makes, so the function is
deterministic and can be evaluated.  A *guarded run* is a run all of whose
steps meet a condition on the state and the action.  This file collects the
rules by which facts about one step become facts about whole runs.
-/

namespace LabelledRuns

variable {State Action : Type*}

/-- One step that meets the condition `ok`. -/
def Moves (step : State → Action → Option State) (ok : State → Action → Prop)
    (current next : State) : Prop :=
  ∃ action, ok current action ∧ step current action = some next

/-- States joined by a run all of whose steps meet the condition `ok`. -/
abbrev Runs (step : State → Action → Option State) (ok : State → Action → Prop) :
    State → State → Prop :=
  Relation.ReflTransGen (Moves step ok)

/-- The condition that allows every step. -/
def Any (_ : State) (_ : Action) : Prop :=
  True

instance (current : State) (action : Action) : Decidable (Any current action) :=
  isTrue trivial

variable {step : State → Action → Option State} {ok : State → Action → Prop}

theorem runs_tail {first current next : State} {action : Action}
    (run : Runs step ok first current) (allowed : ok current action)
    (moved : step current action = some next) :
    Runs step ok first next :=
  run.tail ⟨action, allowed, moved⟩

/-- A property that holds at the start and survives every allowed step holds
at the end of every run. -/
theorem runs_invariant (property : State → Prop) {first last : State}
    (preserved : ∀ current action next, property current → ok current action →
      step current action = some next → property next)
    (starts : property first) (run : Runs step ok first last) :
    property last := by
  induction run with
  | refl => exact starts
  | @tail current next _ move held =>
      obtain ⟨action, allowed, moved⟩ := move
      exact preserved current action next held allowed moved

/-- Allowing more steps keeps every run. -/
theorem runs_mono {weaker : State → Action → Prop} {first last : State}
    (weaken : ∀ current action, ok current action → weaker current action)
    (run : Runs step ok first last) :
    Runs step weaker first last := by
  induction run with
  | refl => exact Relation.ReflTransGen.refl
  | tail _ move ih =>
      obtain ⟨action, allowed, moved⟩ := move
      exact runs_tail ih (weaken _ _ allowed) moved

section Checked

variable [∀ current action, Decidable (ok current action)]

/-- Replay a list of actions, checking the condition before each step. -/
def replay (step : State → Action → Option State) (ok : State → Action → Prop)
    [∀ current action, Decidable (ok current action)] :
    State → List Action → Option State
  | current, [] => some current
  | current, action :: actions =>
      if ok current action then
        (step current action).bind fun next => replay step ok next actions
      else
        none

/-- A list of actions that replays to the end is a run. -/
theorem runs_of_replay {first last : State} {actions : List Action}
    (replayed : replay step ok first actions = some last) :
    Runs step ok first last := by
  induction actions generalizing first with
  | nil =>
      obtain rfl : first = last := by simpa [replay] using replayed
      exact Relation.ReflTransGen.refl
  | cons action actions ih =>
      simp only [replay] at replayed
      split at replayed
      case isTrue allowed =>
        obtain ⟨next, moved, rest⟩ := Option.bind_eq_some_iff.mp replayed
        exact Relation.ReflTransGen.head ⟨action, allowed, moved⟩ (ih rest)
      case isFalse => cases replayed

theorem exists_runs_of_replay {first : State} {actions : List Action}
    {test : State → Bool}
    (passes : (replay step ok first actions).any test = true) :
    ∃ last, Runs step ok first last ∧ test last = true := by
  cases replayed : replay step ok first actions with
  | none => simp [replayed] at passes
  | some last =>
      exact ⟨last, runs_of_replay replayed, by simpa [replayed] using passes⟩

end Checked

end LabelledRuns
