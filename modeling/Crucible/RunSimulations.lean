import Crucible.LabelledRuns

/-!
# Simulation of runs

A system simulates another when every step of the other is matched by a list of
its own actions, which may be empty.  The lists for the steps of a run, put one
after the other, then make a run of the simulating system.
-/

namespace LabelledRuns

variable {Concrete ConcreteAction Abstract AbstractAction : Type*}

/-- The actions that match a list of actions, step by step. -/
def translate (step : Concrete → ConcreteAction → Option Concrete)
    (points : Concrete → ConcreteAction → List AbstractAction) :
    Concrete → List ConcreteAction → List AbstractAction
  | _, [] => []
  | current, action :: actions =>
      match step current action with
      | none => []
      | some next => points current action ++ translate step points next actions

theorem replay_append {State Action : Type*} {step : State → Action → Option State}
    (first : State) (actions later : List Action) :
    replay step Any first (actions ++ later) =
      (replay step Any first actions).bind fun middle => replay step Any middle later := by
  induction actions generalizing first with
  | nil => rfl
  | cons action actions ih =>
      simp only [List.cons_append, replay, Any]
      cases step first action with
      | none => rfl
      | some next => exact ih next

/-- Related states stay related when every step is matched by its points. -/
theorem replay_translate {step : Concrete → ConcreteAction → Option Concrete}
    {step' : Abstract → AbstractAction → Option Abstract}
    {points : Concrete → ConcreteAction → List AbstractAction}
    (related : Concrete → Abstract → Prop)
    (simulated : ∀ current action next abstract, related current abstract →
      step current action = some next →
      ∃ abstract', replay step' Any abstract (points current action) = some abstract' ∧
        related next abstract')
    {first last : Concrete} {start : Abstract} {actions : List ConcreteAction}
    (starts : related first start) (followed : replay step Any first actions = some last) :
    ∃ finish, replay step' Any start (translate step points first actions) = some finish ∧
      related last finish := by
  induction actions generalizing first start with
  | nil =>
      obtain rfl : first = last := by simpa [replay] using followed
      exact ⟨start, rfl, starts⟩
  | cons action actions ih =>
      simp only [replay, Any] at followed
      obtain ⟨next, moved, rest⟩ := Option.bind_eq_some_iff.mp followed
      obtain ⟨middle, matched, relates⟩ := simulated first action next start starts moved
      obtain ⟨finish, finished, ends⟩ := ih relates rest
      refine ⟨finish, ?_, ends⟩
      simp only [translate, moved]
      rw [replay_append, matched]
      exact finished

end LabelledRuns
