import Mathlib.Logic.Basic

/-!
# Scripts that may raise

A script runs from a state and leaves a state, and it returns a value or raises
an error.  What it has done before it raises stays done.  A triple gives a
precondition, a postcondition for returning and one for raising.
-/

namespace RaisingScripts

def Script (State Error Value : Type*) :=
  State → Except Error Value × State

namespace Script

section Combinators

variable {State Error Value Value' Item : Type*}

def done (value : Value) : Script State Error Value :=
  fun state => (.ok value, state)

def raise (error : Error) : Script State Error Value :=
  fun state => (.error error, state)

/-- Run a script and then another one, unless the first one raises. -/
def andThen (script : Script State Error Value) (next : Value → Script State Error Value') :
    Script State Error Value' :=
  fun state =>
    match script state with
    | (.ok value, state) => next value state
    | (.error error, state) => (.error error, state)

/-- Run a script and go on with what it returns or raises. -/
def caught (script : Script State Error Value)
    (next : Except Error Value → Script State Error Value') : Script State Error Value' :=
  fun state => next (script state).1 (script state).2

/-- Run a script for each item, one after another. -/
def forEach : List Item → (Item → Script State Error Unit) → Script State Error Unit
  | [], _ => done ()
  | item :: items, body => andThen (body item) fun _ => forEach items body

theorem andThen_assoc {Value'' : Type*} (script : Script State Error Value)
    (next : Value → Script State Error Value') (last : Value' → Script State Error Value'') :
    andThen (andThen script next) last =
      andThen script fun value => andThen (next value) last := by
  funext state
  unfold andThen
  rcases script state with ⟨_ | value, state'⟩ <;> rfl

def Ends (after : Value → State → Prop) (raised : Error → State → Prop) :
    Except Error Value × State → Prop
  | (.ok value, state) => after value state
  | (.error error, state) => raised error state

/-- From every state in `before` the script returns into `after` or raises into
`raised`. -/
def Meets (script : Script State Error Value) (before : State → Prop)
    (after : Value → State → Prop) (raised : Error → State → Prop) : Prop :=
  ∀ state, before state → Ends after raised (script state)

theorem Ends.of_ok {after : Value → State → Prop} {raised : Error → State → Prop}
    {ended : Except Error Value × State} {value : Value} (ends : Ends after raised ended)
    (returned : ended.1 = .ok value) : after value ended.2 := by
  obtain ⟨_, state⟩ := ended
  subst returned
  exact ends

theorem Ends.of_error {after : Value → State → Prop} {raised : Error → State → Prop}
    {ended : Except Error Value × State} {error : Error} (ends : Ends after raised ended)
    (failed : ended.1 = .error error) : raised error ended.2 := by
  obtain ⟨_, state⟩ := ended
  subst failed
  exact ends

end Combinators

namespace Meets

section Rules

variable {State Error Value Value' Item : Type*} {before before' : State → Prop}
  {raised raised' : Error → State → Prop}

theorem done {after : Value → State → Prop} {value : Value}
    (holds : ∀ state, before state → after value state) :
    Meets (Script.done value) before after raised :=
  holds

theorem raise {after : Value → State → Prop} {error : Error}
    (holds : ∀ state, before state → raised error state) :
    Meets (Script.raise error) before after raised :=
  holds

/-- Weakening the postconditions and strengthening the precondition. -/
theorem consequence {script : Script State Error Value} {after after' : Value → State → Prop}
    (meets : Meets script before after raised) (pre : ∀ state, before' state → before state)
    (post : ∀ value state, after value state → after' value state)
    (postRaised : ∀ error state, raised error state → raised' error state) :
    Meets script before' after' raised' := by
  intro state holds
  have result := meets state (pre state holds)
  generalize script state = ended at result ⊢
  obtain ⟨outcome, state'⟩ := ended
  cases outcome with
  | ok value => exact post value state' result
  | error error => exact postRaised error state' result

theorem pure {script : Script State Error Value} {after : Value → State → Prop} {fact : Prop}
    (meets : fact → Meets script before after raised) :
    Meets script (fun state => fact ∧ before state) after raised :=
  fun state holds => meets holds.1 state holds.2

theorem andThen {script : Script State Error Value} {next : Value → Script State Error Value'}
    {middle : Value → State → Prop} {after : Value' → State → Prop}
    (first : Meets script before middle raised)
    (second : ∀ value, Meets (next value) (middle value) after raised) :
    Meets (Script.andThen script next) before after raised := by
  intro state holds
  have result := first state holds
  unfold Script.andThen
  generalize script state = ended at result ⊢
  obtain ⟨outcome, state'⟩ := ended
  cases outcome with
  | ok value => exact second value state' result
  | error error => exact result

theorem caught {script : Script State Error Value}
    {next : Except Error Value → Script State Error Value'} {middle : Value → State → Prop}
    {middleRaised : Error → State → Prop} {after : Value' → State → Prop}
    (first : Meets script before middle middleRaised)
    (returned : ∀ value, Meets (next (.ok value)) (middle value) after raised)
    (recovered : ∀ error, Meets (next (.error error)) (middleRaised error) after raised) :
    Meets (Script.caught script next) before after raised := by
  intro state holds
  have result := first state holds
  unfold Script.caught
  generalize script state = ended at result ⊢
  obtain ⟨outcome, state'⟩ := ended
  cases outcome with
  | ok value => exact returned value state' result
  | error error => exact recovered error state' result

theorem forEach {items : List Item} {body : Item → Script State Error Unit}
    {invariant : State → Prop}
    (iteration : ∀ item ∈ items, Meets (body item) invariant (fun _ => invariant) raised) :
    Meets (Script.forEach items body) invariant (fun _ => invariant) raised := by
  induction items with
  | nil => exact done fun _ holds => holds
  | cons item items ih =>
      refine andThen (iteration item List.mem_cons_self) fun _ => ih fun other member => ?_
      exact iteration other (List.mem_cons_of_mem item member)

end Rules

end Meets

end Script

end RaisingScripts
