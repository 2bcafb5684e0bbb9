import Mathlib.Data.List.Basic
import Mathlib.Data.List.Nodup
import Mathlib.Logic.Relation

/-!
# Reliable queues with recovery

Agents move identifiers from a pending list to an in-flight list, work on them
while their record says `running`, and acknowledge them.  Agents stop at any
time, and other agents then recover what they left: an identifier whose record
is running although nobody works on it goes back to the pending list, and so
does an identifier that is in neither list.  Both recoveries read the records
and the two lists at different moments.

Lists appear here only through the number of occurrences of an identifier.  The
steps are those of a disciplined system: producers push before an identifier
expires, nobody scans for abandoned work that an agent still does, and no two
agents recover the same identifier at once.  Under this discipline no
identifier ever occurs twice, and no two agents hold the same one.
-/

namespace ReliableQueue

/-- How far an agent has come with the identifier it holds: it has not touched
the record yet, it may have set it running, or the record is no longer
running. -/
inductive Phase where
  | claimed
  | active
  | settled
  deriving DecidableEq

/-- What an agent is doing.  A recovery first works through abandoned
identifiers, and `reset` says that the record of the first one has been reset.
Then it compares candidates with the pending list, filters them by the in-flight
list and restores what was in neither. -/
inductive Role (Id : Type*) where
  | idle
  | holding (id : Id) (phase : Phase)
  | recovering (reset : Bool) (ids : List Id)
  | comparing (candidates : List Id)
  | filtering (missing : List Id)
  | restoring (missing : List Id)
  deriving DecidableEq

/-- The identifier that an agent works on. -/
def Role.held {Id : Type*} : Role Id → Option Id
  | .holding id _ => some id
  | _ => none

/-- Identifiers that an agent has found abandoned and not yet recovered. -/
def Role.abandoned {Id : Type*} : Role Id → List Id
  | .recovering _ ids => ids
  | _ => []

/-- Identifiers that an agent has missed in at least one list. -/
def Role.missing {Id : Type*} : Role Id → List Id
  | .filtering ids | .restoring ids => ids
  | _ => []

structure State (Id Agent Producer : Type*) where
  queued : Id → Nat
  inFlight : Id → Nat
  known : Id → Prop
  running : Id → Prop
  expired : Id → Prop
  owed : Producer → Option Id
  role : Agent → Role Id

variable {Id Agent Producer : Type*}

/-- What no step undoes. -/
structure Ages (before after : State Id Agent Producer) : Prop where
  known : ∀ id, before.known id → after.known id
  expired : ∀ id, before.expired id → after.expired id
  aged : ∀ id, after.expired id → after.known id

/-- Steps that give no producer anything new to push. -/
structure Forward (before after : State Id Agent Producer) : Prop extends Ages before after where
  owed : ∀ producer id, after.owed producer = some id → before.owed producer = some id

/-- No record starts to run. -/
def Calm (before after : State Id Agent Producer) : Prop :=
  ∀ id, after.running id → before.running id

structure SameLists (before after : State Id Agent Producer) : Prop where
  queued : ∀ id, after.queued id = before.queued id
  inFlight : ∀ id, after.inFlight id = before.inFlight id

/-- One agent changes its role. -/
structure Turns (before after : State Id Agent Producer) (agent : Agent)
    (role role' : Role Id) : Prop where
  was : before.role agent = role
  now : after.role agent = role' ∨ after.role agent = .idle
  others : ∀ other, other ≠ agent → after.role other = before.role other

/-- An identifier goes back to the pending list. -/
structure Requeued (before after : State Id Agent Producer) (id : Id) : Prop where
  self : after.queued id = before.queued id + 1
  cleared : after.inFlight id = 0
  queued : ∀ other, other ≠ id → after.queued other = before.queued other
  inFlight : ∀ other, other ≠ id → after.inFlight other = before.inFlight other

/-- No other agent is recovering this identifier. -/
def Alone (state : State Id Agent Producer) (agent : Agent) (id : Id) : Prop :=
  ∀ other, other ≠ agent → id ∉ (state.role other).abandoned ∧ id ∉ (state.role other).missing

/-- The steps of a disciplined system.  In every step that gives an agent a new
role the agent may also stop instead. -/
inductive Step (before after : State Id Agent Producer) : Prop where
  | quiet (forward : Forward before after) (calm : Calm before after)
      (queued : ∀ id, after.queued id ≤ before.queued id)
      (inFlight : ∀ id, after.inFlight id = before.inFlight id)
      (roles : ∀ agent, after.role agent = before.role agent ∨ after.role agent = .idle)
  | create {producer : Producer} {id : Id} (ages : Ages before after)
      (calm : Calm before after) (lists : SameLists before after)
      (roles : after.role = before.role)
      (fresh : ¬ before.known id) (created : after.known id)
      (owed : ∀ other owing, after.owed other = some owing →
        before.owed other = some owing ∨ other = producer ∧ owing = id)
  | push {producer : Producer} {id : Id} (forward : Forward before after)
      (calm : Calm before after) (roles : after.role = before.role)
      (owing : before.owed producer = some id) (paid : after.owed producer = none)
      (inTime : ¬ before.expired id)
      (self : after.queued id = before.queued id + 1)
      (queued : ∀ other, other ≠ id → after.queued other = before.queued other)
      (inFlight : ∀ other, after.inFlight other = before.inFlight other)
  | claim {agent : Agent} {id : Id} (forward : Forward before after)
      (calm : Calm before after) (turns : Turns before after agent .idle (.holding id .claimed))
      (taken : after.queued id + 1 = before.queued id)
      (moved : after.inFlight id = before.inFlight id + 1)
      (queued : ∀ other, other ≠ id → after.queued other = before.queued other)
      (inFlight : ∀ other, other ≠ id → after.inFlight other = before.inFlight other)
  | advance {agent : Agent} {id : Id} {phase phase' : Phase}
      (forward : Forward before after) (lists : SameLists before after)
      (turns : Turns before after agent (.holding id phase) (.holding id phase'))
      (calm : ∀ other, after.running other → before.running other ∨ other = id)
      (settles : phase' = .active ∨ ¬ after.running id)
  | ack {agent : Agent} {id : Id} (forward : Forward before after)
      (calm : Calm before after)
      (turns : Turns before after agent (.holding id .settled) .idle)
      (queued : ∀ other, after.queued other = before.queued other)
      (cleared : after.inFlight id = 0)
      (inFlight : ∀ other, other ≠ id → after.inFlight other = before.inFlight other)
  | scan {agent : Agent} {ids : List Id} (forward : Forward before after)
      (calm : Calm before after) (lists : SameLists before after)
      (turns : Turns before after agent .idle (.recovering false ids))
      (distinct : ids.Nodup) (running : ∀ id ∈ ids, before.running id)
      (unattended : ∀ id ∈ ids, ∀ other, before.role other ≠ .holding id .active)
  | reset {agent : Agent} {id : Id} {rest : List Id} (forward : Forward before after)
      (calm : Calm before after) (lists : SameLists before after)
      (turns : Turns before after agent (.recovering false (id :: rest))
        (.recovering true (id :: rest)))
      (stopped : ¬ after.running id)
  | requeue {agent : Agent} {id : Id} {rest : List Id} (forward : Forward before after)
      (calm : Calm before after)
      (turns : Turns before after agent (.recovering true (id :: rest)) (.recovering false rest))
      (requeued : Requeued before after id) (alone : Alone before agent id)
  | select {agent : Agent} {candidates : List Id} (forward : Forward before after)
      (calm : Calm before after) (lists : SameLists before after)
      (turns : Turns before after agent .idle (.comparing candidates))
      (distinct : candidates.Nodup) (expired : ∀ id ∈ candidates, after.expired id)
  | compare {agent : Agent} {candidates missing : List Id} (forward : Forward before after)
      (calm : Calm before after) (lists : SameLists before after)
      (turns : Turns before after agent (.comparing candidates) (.filtering missing))
      (sublist : missing.Sublist candidates) (absent : ∀ id ∈ missing, before.queued id = 0)
  | filter {agent : Agent} {missing absent : List Id} (forward : Forward before after)
      (calm : Calm before after) (lists : SameLists before after)
      (turns : Turns before after agent (.filtering missing) (.restoring absent))
      (sublist : absent.Sublist missing) (free : ∀ id ∈ absent, before.inFlight id = 0)
  | restore {agent : Agent} {id : Id} {rest : List Id} (forward : Forward before after)
      (calm : Calm before after)
      (turns : Turns before after agent (.restoring (id :: rest)) (.restoring rest))
      (requeued : Requeued before after id) (alone : Alone before agent id)

/-- What a role promises about the lists and the records. -/
def Sound (state : State Id Agent Producer) : Role Id → Prop
  | .idle => True
  | .holding id phase => 0 < state.inFlight id ∧ (phase = .active ∨ ¬ state.running id)
  | .recovering reset ids =>
      ids.Nodup ∧
        (∀ id ∈ ids, 0 < state.inFlight id ∧ ∀ other, (state.role other).held ≠ some id) ∧
        (reset = true → ∀ id ∈ ids.head?, ¬ state.running id)
  | .comparing candidates => candidates.Nodup ∧ ∀ id ∈ candidates, state.expired id
  | .filtering missing =>
      missing.Nodup ∧ ∀ id ∈ missing, state.expired id ∧ state.queued id = 0
  | .restoring missing =>
      missing.Nodup ∧
        ∀ id ∈ missing, state.expired id ∧ state.queued id = 0 ∧ state.inFlight id = 0

structure Exclusive (state : State Id Agent Producer) : Prop where
  once : ∀ id, state.queued id + state.inFlight id ≤ 1
  listed : ∀ id, 0 < state.queued id + state.inFlight id → state.known id
  aged : ∀ id, state.expired id → state.known id
  running : ∀ id, state.running id → 0 < state.inFlight id
  owed : ∀ producer id, state.owed producer = some id → state.known id ∧
    (¬ state.expired id → state.queued id = 0 ∧ state.inFlight id = 0)
  owedOnce : ∀ producer other id, state.owed producer = some id →
    state.owed other = some id → producer = other
  heldOnce : ∀ agent other id, (state.role agent).held = some id →
    (state.role other).held = some id → agent = other
  sound : ∀ agent, Sound state (state.role agent)

section Preservation

variable {before after : State Id Agent Producer} {agent : Agent} {role role' : Role Id}

/-- A role stays sound while nothing happens to the identifiers it is about. -/
theorem Sound.keep (sound : Sound before role) (ages : Ages before after)
    (calm : ∀ id, role.held = some id ∨ id ∈ role.abandoned →
      after.running id → before.running id)
    (carried : ∀ id, role.held = some id ∨ id ∈ role.abandoned →
      0 < before.inFlight id → 0 < after.inFlight id)
    (unheld : ∀ id ∈ role.abandoned, ∀ other,
      (after.role other).held = some id → (before.role other).held = some id)
    (missing : ∀ id ∈ role.missing, before.queued id = 0 →
      after.queued id = 0 ∧ (before.inFlight id = 0 → after.inFlight id = 0)) :
    Sound after role := by
  cases role with
  | idle => trivial
  | holding id phase =>
      exact ⟨carried id (.inl rfl) sound.1,
        sound.2.imp_right fun stopped runs => stopped (calm id (.inl rfl) runs)⟩
  | recovering reset ids =>
      obtain ⟨distinct, unattended, stopped⟩ := sound
      refine ⟨distinct, fun id member => ⟨carried id (.inr member) (unattended id member).1,
        fun other holds => (unattended id member).2 other (unheld id member other holds)⟩,
        fun done id first runs => stopped done id first ?_⟩
      exact calm id (.inr (List.mem_of_mem_head? first)) runs
  | comparing candidates =>
      exact ⟨sound.1, fun id member => ages.expired id (sound.2 id member)⟩
  | filtering ids =>
      refine ⟨sound.1, fun id member => ?_⟩
      obtain ⟨expired, absent⟩ := sound.2 id member
      exact ⟨ages.expired id expired, (missing id member absent).1⟩
  | restoring ids =>
      refine ⟨sound.1, fun id member => ?_⟩
      obtain ⟨expired, absent, free⟩ := sound.2 id member
      exact ⟨ages.expired id expired, (missing id member absent).1,
        (missing id member absent).2 free⟩

theorem Sound.expired_of_missing (sound : Sound before role) {id : Id}
    (member : id ∈ role.missing) : before.expired id := by
  cases role with
  | filtering ids => exact (sound.2 id member).1
  | restoring ids => exact (sound.2 id member).1
  | _ => cases member

theorem Sound.inFlight_pos (sound : Sound before role) {id : Id}
    (carried : role.held = some id ∨ id ∈ role.abandoned) : 0 < before.inFlight id := by
  cases role with
  | holding other phase =>
      rcases carried with same | member
      · cases same
        exact sound.1
      · cases member
  | recovering reset ids =>
      rcases carried with same | member
      · cases same
      · exact (sound.2.1 id member).1
  | _ =>
      rcases carried with same | member
      · cases same
      · cases member

theorem Sound.unheld_of_abandoned (sound : Sound before role) {id : Id}
    (member : id ∈ role.abandoned) (other : Agent) : (before.role other).held ≠ some id := by
  cases role with
  | recovering reset ids => exact (sound.2.1 id member).2 other
  | _ => cases member

theorem Turns.sound (turns : Turns before after agent role role') (new : Sound after role')
    (others : ∀ other, other ≠ agent → Sound after (before.role other)) (other : Agent) :
    Sound after (after.role other) := by
  by_cases own : other = agent
  · subst own
    rcases turns.now with same | idle
    · rw [same]
      exact new
    · rw [idle]
      trivial
  · rw [turns.others other own]
    exact others other own

/-- An agent that turns to something else than a claim holds nothing new. -/
theorem Turns.held (turns : Turns before after agent role role')
    (keeps : ∀ id, role'.held = some id → role.held = some id) {other : Agent} {id : Id}
    (holds : (after.role other).held = some id) : (before.role other).held = some id := by
  by_cases own : other = agent
  · subst own
    rcases turns.now with same | idle
    · rw [turns.was]
      exact keeps id (by rwa [same] at holds)
    · simp [idle, Role.held] at holds
  · rwa [turns.others other own] at holds

theorem Exclusive.turn (held : Exclusive before) (forward : Forward before after)
    (calm : Calm before after) (lists : SameLists before after)
    (turns : Turns before after agent role role')
    (keeps : ∀ id, role'.held = some id → role.held = some id) (new : Sound after role') :
    Exclusive after where
  once id := by
    rw [lists.queued, lists.inFlight]
    exact held.once id
  listed id present := by
    rw [lists.queued, lists.inFlight] at present
    exact forward.known id (held.listed id present)
  aged := forward.aged
  running id runs := by
    rw [lists.inFlight]
    exact held.running id (calm id runs)
  owed producer id owing := by
    obtain ⟨known, fresh⟩ := held.owed producer id (forward.owed producer id owing)
    refine ⟨forward.known id known, fun inTime => ?_⟩
    rw [lists.queued, lists.inFlight]
    exact fresh fun expired => inTime (forward.expired id expired)
  owedOnce producer other id owing owing' :=
    held.owedOnce producer other id (forward.owed producer id owing)
      (forward.owed other id owing')
  heldOnce first other id holds holds' :=
    held.heldOnce first other id (turns.held keeps holds) (turns.held keeps holds')
  sound := turns.sound new fun other _ =>
    (held.sound other).keep forward.toAges (fun id _ => calm id)
      (fun id _ present => by rwa [lists.inFlight])
      (fun id _ other => turns.held keeps)
      (fun id _ absent => ⟨by rw [lists.queued, absent], fun free => by rw [lists.inFlight, free]⟩)

/-- Taking an identifier back to the pending list when nobody holds it, no
other agent is about to, and it is not pending already. -/
theorem Exclusive.requeue (held : Exclusive before) (forward : Forward before after)
    (calm : Calm before after) (turns : Turns before after agent role role')
    (keeps : ∀ id, role'.held = some id → role.held = some id) {id : Id}
    (requeued : Requeued before after id) (alone : Alone before agent id)
    (absent : before.queued id = 0) (known : before.known id) (stopped : ¬ before.running id)
    (noPush : before.expired id ∨ 0 < before.inFlight id)
    (unheld : ∀ other, (before.role other).held ≠ some id) (new : Sound after role') :
    Exclusive after := by
  obtain ⟨self, cleared, queued, inFlight⟩ := requeued
  have elsewhere : ∀ other, (0 < before.inFlight other ∨ before.running other) →
      other ≠ id → 0 < after.inFlight other := by
    intro other present distinct
    rw [inFlight other distinct]
    exact present.elim (fun h => h) (held.running other)
  constructor
  case once =>
    intro other
    by_cases own : other = id
    · subst own
      omega
    · rw [queued other own, inFlight other own]
      exact held.once other
  case listed =>
    intro other present
    by_cases own : other = id
    · subst own
      exact forward.known other known
    · rw [queued other own, inFlight other own] at present
      exact forward.known other (held.listed other present)
  case aged => exact forward.aged
  case running =>
    intro other runs
    have before_runs := calm other runs
    refine elsewhere other (.inr before_runs) ?_
    rintro rfl
    exact stopped before_runs
  case owed =>
    intro producer other owing
    obtain ⟨known, fresh⟩ := held.owed producer other (forward.owed producer other owing)
    refine ⟨forward.known other known, fun inTime => ?_⟩
    have free := fresh fun expired => inTime (forward.expired other expired)
    by_cases own : other = id
    · subst own
      rcases noPush with expired | present
      · exact absurd (forward.expired other expired) inTime
      · omega
    · rwa [queued other own, inFlight other own]
  case owedOnce =>
    intro producer other owing first second
    exact held.owedOnce producer other owing (forward.owed producer owing first)
      (forward.owed other owing second)
  case heldOnce =>
    intro first other owned holds holds'
    exact held.heldOnce first other owned (turns.held keeps holds) (turns.held keeps holds')
  case sound =>
    refine turns.sound new fun other distinct => ?_
    have free := alone other distinct
    have carried : ∀ owned, (before.role other).held = some owned ∨
        owned ∈ (before.role other).abandoned → owned ≠ id := by
      rintro owned (holds | member) rfl
      · exact unheld other holds
      · exact free.1 member
    refine (held.sound other).keep forward.toAges (fun owned _ => calm owned) ?_
      (fun owned _ holder => turns.held keeps) ?_
    · intro owned mine present
      exact elsewhere owned (.inl present) (carried owned mine)
    · intro owned member before_absent
      have other_id : owned ≠ id := by
        rintro rfl
        exact free.2 member
      exact ⟨by rw [queued owned other_id, before_absent],
        fun before_free => by rw [inFlight owned other_id, before_free]⟩

/-- Steps without a turn: lists may shrink and agents may stop. -/
theorem Exclusive.quiet (held : Exclusive before) (forward : Forward before after)
    (calm : Calm before after) (queued : ∀ id, after.queued id ≤ before.queued id)
    (inFlight : ∀ id, after.inFlight id = before.inFlight id)
    (roles : ∀ agent, after.role agent = before.role agent ∨ after.role agent = .idle) :
    Exclusive after := by
  have stillHeld : ∀ other id, (after.role other).held = some id →
      (before.role other).held = some id := by
    intro other id holds
    rcases roles other with same | idle
    · rwa [same] at holds
    · simp [idle, Role.held] at holds
  constructor
  case once =>
    intro id
    have := held.once id
    have := queued id
    rw [inFlight]
    omega
  case listed =>
    intro id present
    have := queued id
    rw [inFlight] at present
    exact forward.known id (held.listed id (by omega))
  case aged => exact forward.aged
  case running =>
    intro id runs
    rw [inFlight]
    exact held.running id (calm id runs)
  case owed =>
    intro producer id owing
    obtain ⟨known, fresh⟩ := held.owed producer id (forward.owed producer id owing)
    refine ⟨forward.known id known, fun inTime => ?_⟩
    have free := fresh fun expired => inTime (forward.expired id expired)
    have := queued id
    rw [inFlight]
    omega
  case owedOnce =>
    intro producer other id first second
    exact held.owedOnce producer other id (forward.owed producer id first)
      (forward.owed other id second)
  case heldOnce =>
    intro first other id holds holds'
    exact held.heldOnce first other id (stillHeld first id holds) (stillHeld other id holds')
  case sound =>
    intro other
    rcases roles other with same | idle
    · rw [same]
      refine (held.sound other).keep forward.toAges (fun id _ => calm id)
        (fun id _ present => by rwa [inFlight]) (fun id _ agent => stillHeld agent id) ?_
      intro id _ absent
      have := queued id
      exact ⟨by omega, fun free => by rw [inFlight, free]⟩
    · rw [idle]
      trivial

theorem Exclusive.create (held : Exclusive before) (ages : Ages before after)
    (calm : Calm before after) (lists : SameLists before after)
    (roles : after.role = before.role) {producer : Producer} {id : Id}
    (fresh : ¬ before.known id) (created : after.known id)
    (owed : ∀ other owing, after.owed other = some owing →
      before.owed other = some owing ∨ other = producer ∧ owing = id) :
    Exclusive after := by
  have absent : before.queued id = 0 ∧ before.inFlight id = 0 := by
    by_contra present
    exact fresh (held.listed id (by omega))
  have notOwed : ∀ other, before.owed other ≠ some id := fun other owing =>
    fresh (held.owed other id owing).1
  constructor
  case once =>
    intro other
    rw [lists.queued, lists.inFlight]
    exact held.once other
  case listed =>
    intro other present
    rw [lists.queued, lists.inFlight] at present
    exact ages.known other (held.listed other present)
  case aged => exact ages.aged
  case running =>
    intro other runs
    rw [lists.inFlight]
    exact held.running other (calm other runs)
  case owed =>
    intro other owing owes
    rw [lists.queued, lists.inFlight]
    rcases owed other owing owes with before_owes | ⟨_, rfl⟩
    · obtain ⟨known, free⟩ := held.owed other owing before_owes
      exact ⟨ages.known owing known, fun inTime =>
        free fun expired => inTime (ages.expired owing expired)⟩
    · exact ⟨created, fun _ => absent⟩
  case owedOnce =>
    intro first second owing owes owes'
    rcases owed first owing owes with old | ⟨rfl, rfl⟩
    · rcases owed second owing owes' with old' | ⟨rfl, rfl⟩
      · exact held.owedOnce first second owing old old'
      · exact absurd old (notOwed first)
    · rcases owed second owing owes' with old' | ⟨rfl, _⟩
      · exact absurd old' (notOwed second)
      · rfl
  case heldOnce =>
    rw [roles]
    exact held.heldOnce
  case sound =>
    intro other
    rw [roles]
    exact (held.sound other).keep ages (fun id _ => calm id)
      (fun id _ present => by rwa [lists.inFlight])
      (fun _ _ other => by rw [roles]; exact fun h => h)
      (fun id _ absent => ⟨by rw [lists.queued, absent], fun free => by rw [lists.inFlight, free]⟩)

theorem Exclusive.push (held : Exclusive before) (forward : Forward before after)
    (calm : Calm before after) (roles : after.role = before.role) {producer : Producer}
    {id : Id} (owing : before.owed producer = some id) (paid : after.owed producer = none)
    (inTime : ¬ before.expired id) (self : after.queued id = before.queued id + 1)
    (queued : ∀ other, other ≠ id → after.queued other = before.queued other)
    (inFlight : ∀ other, after.inFlight other = before.inFlight other) :
    Exclusive after := by
  obtain ⟨known, fresh⟩ := held.owed producer id owing
  obtain ⟨absent, free⟩ := fresh inTime
  constructor
  case once =>
    intro other
    have := held.once other
    rw [inFlight]
    by_cases own : other = id
    · subst own
      omega
    · rwa [queued other own]
  case listed =>
    intro other present
    rw [inFlight] at present
    by_cases own : other = id
    · subst own
      exact forward.known other known
    · rw [queued other own] at present
      exact forward.known other (held.listed other present)
  case aged => exact forward.aged
  case running =>
    intro other runs
    rw [inFlight]
    exact held.running other (calm other runs)
  case owed =>
    intro other owed owes
    have owed_before := forward.owed other owed owes
    obtain ⟨known', fresh'⟩ := held.owed other owed owed_before
    have distinct : owed ≠ id := by
      rintro rfl
      obtain rfl := held.owedOnce producer other owed owing owed_before
      simp [paid] at owes
    refine ⟨forward.known owed known', fun still => ?_⟩
    rw [queued owed distinct, inFlight]
    exact fresh' fun expired => still (forward.expired owed expired)
  case owedOnce =>
    intro first second owed owes owes'
    exact held.owedOnce first second owed (forward.owed first owed owes)
      (forward.owed second owed owes')
  case heldOnce =>
    rw [roles]
    exact held.heldOnce
  case sound =>
    intro other
    rw [roles]
    have old := held.sound other
    refine old.keep forward.toAges (fun id _ => calm id)
      (fun id _ present => by rwa [inFlight]) (fun _ _ other => by rw [roles]; exact fun h => h) ?_
    intro missed member before_absent
    have distinct : missed ≠ id := by
      rintro rfl
      exact inTime (old.expired_of_missing member)
    exact ⟨by rw [queued missed distinct, before_absent], fun before_free => by
      rw [inFlight, before_free]⟩

theorem Exclusive.claim (held : Exclusive before) (forward : Forward before after)
    (calm : Calm before after) {id : Id}
    (turns : Turns before after agent .idle (.holding id .claimed))
    (taken : after.queued id + 1 = before.queued id)
    (moved : after.inFlight id = before.inFlight id + 1)
    (queued : ∀ other, other ≠ id → after.queued other = before.queued other)
    (inFlight : ∀ other, other ≠ id → after.inFlight other = before.inFlight other) :
    Exclusive after := by
  have once := held.once id
  have unheld : ∀ other, (before.role other).held ≠ some id := fun other holds => by
    have := (held.sound other).inFlight_pos (.inl holds)
    omega
  have stopped : ¬ before.running id := fun runs => by
    have := held.running id runs
    omega
  have present : ∀ other, 0 < before.inFlight other → 0 < after.inFlight other := by
    intro other inFlight_before
    by_cases own : other = id
    · subst own
      omega
    · rwa [inFlight other own]
  have holder : ∀ other owned, (after.role other).held = some owned →
      (before.role other).held = some owned ∨ other = agent ∧ owned = id := by
    intro other owned holds
    by_cases own : other = agent
    · subst own
      rcases turns.now with same | idle
      · rw [same] at holds
        exact .inr ⟨rfl, by simpa [Role.held, eq_comm] using holds⟩
      · simp [idle, Role.held] at holds
    · exact .inl (by rwa [turns.others other own] at holds)
  constructor
  case once =>
    intro other
    by_cases own : other = id
    · subst own
      omega
    · rw [queued other own, inFlight other own]
      exact held.once other
  case listed =>
    intro other listed
    by_cases own : other = id
    · subst own
      exact forward.known other (held.listed other (by omega))
    · rw [queued other own, inFlight other own] at listed
      exact forward.known other (held.listed other listed)
  case aged => exact forward.aged
  case running => exact fun other runs => present other (held.running other (calm other runs))
  case owed =>
    intro producer other owing
    obtain ⟨known, fresh⟩ := held.owed producer other (forward.owed producer other owing)
    refine ⟨forward.known other known, fun inTime => ?_⟩
    have free := fresh fun expired => inTime (forward.expired other expired)
    have distinct : other ≠ id := by
      rintro rfl
      omega
    rwa [queued other distinct, inFlight other distinct]
  case owedOnce =>
    intro producer other owed first second
    exact held.owedOnce producer other owed (forward.owed producer owed first)
      (forward.owed other owed second)
  case heldOnce =>
    intro first second owned holds holds'
    rcases holder first owned holds with old | ⟨rfl, rfl⟩
    · rcases holder second owned holds' with old' | ⟨_, rfl⟩
      · exact held.heldOnce first second owned old old'
      · exact absurd old (unheld first)
    · rcases holder second owned holds' with old' | ⟨rfl, _⟩
      · exact absurd old' (unheld second)
      · rfl
  case sound =>
    refine turns.sound ⟨by omega, .inr fun runs => stopped (calm id runs)⟩ fun other _ => ?_
    have old := held.sound other
    refine old.keep forward.toAges (fun owned _ => calm owned) (fun owned _ => present owned)
      ?_ ?_
    · intro owned member someone holds
      rcases holder someone owned holds with before_holds | ⟨_, rfl⟩
      · exact before_holds
      · have := old.inFlight_pos (.inr member)
        omega
    · intro owned member absent
      have distinct : owned ≠ id := by
        rintro rfl
        omega
      exact ⟨by rw [queued owned distinct, absent], fun free => by
        rw [inFlight owned distinct, free]⟩

theorem Exclusive.advance (held : Exclusive before) (forward : Forward before after)
    (lists : SameLists before after) {id : Id} {phase phase' : Phase}
    (turns : Turns before after agent (.holding id phase) (.holding id phase'))
    (calm : ∀ other, after.running other → before.running other ∨ other = id)
    (settles : phase' = .active ∨ ¬ after.running id) : Exclusive after := by
  have mine : (before.role agent).held = some id := by rw [turns.was]; rfl
  have present := (held.sound agent).inFlight_pos (.inl mine)
  have keeps : ∀ owned, (Role.holding id phase').held = some owned →
      (Role.holding id phase).held = some owned := fun _ holds => holds
  constructor
  case once =>
    intro other
    rw [lists.queued, lists.inFlight]
    exact held.once other
  case listed =>
    intro other listed
    rw [lists.queued, lists.inFlight] at listed
    exact forward.known other (held.listed other listed)
  case aged => exact forward.aged
  case running =>
    intro other runs
    rw [lists.inFlight]
    rcases calm other runs with old | rfl
    · exact held.running other old
    · exact present
  case owed =>
    intro producer other owing
    obtain ⟨known, fresh⟩ := held.owed producer other (forward.owed producer other owing)
    refine ⟨forward.known other known, fun inTime => ?_⟩
    rw [lists.queued, lists.inFlight]
    exact fresh fun expired => inTime (forward.expired other expired)
  case owedOnce =>
    intro producer other owed first second
    exact held.owedOnce producer other owed (forward.owed producer owed first)
      (forward.owed other owed second)
  case heldOnce =>
    intro first second owned holds holds'
    exact held.heldOnce first second owned (turns.held keeps holds) (turns.held keeps holds')
  case sound =>
    refine turns.sound ⟨by rwa [lists.inFlight], settles⟩ fun other distinct => ?_
    have old := held.sound other
    refine old.keep forward.toAges ?_ (fun owned _ there => by rwa [lists.inFlight])
      (fun owned _ someone => turns.held keeps)
      (fun owned _ absent => ⟨by rw [lists.queued, absent], fun free => by
        rw [lists.inFlight, free]⟩)
    intro owned carried runs
    refine (calm owned runs).resolve_right ?_
    rintro rfl
    rcases carried with holds | member
    · exact distinct (held.heldOnce other agent owned holds mine)
    · exact old.unheld_of_abandoned member agent mine

theorem Exclusive.ack (held : Exclusive before) (forward : Forward before after)
    (calm : Calm before after) {id : Id}
    (turns : Turns before after agent (.holding id .settled) .idle)
    (queued : ∀ other, after.queued other = before.queued other)
    (cleared : after.inFlight id = 0)
    (inFlight : ∀ other, other ≠ id → after.inFlight other = before.inFlight other) :
    Exclusive after := by
  have mine : (before.role agent).held = some id := by rw [turns.was]; rfl
  have keeps : ∀ owned, (Role.idle : Role Id).held = some owned →
      (Role.holding id .settled).held = some owned := fun _ holds => by cases holds
  have stopped : ¬ before.running id := by
    have sound := held.sound agent
    rw [turns.was] at sound
    exact sound.2.resolve_left (by decide)
  have fewer : ∀ other, after.inFlight other ≤ before.inFlight other := by
    intro other
    by_cases own : other = id
    · subst own
      omega
    · exact Nat.le_of_eq (inFlight other own)
  constructor
  case once =>
    intro other
    have := held.once other
    have := fewer other
    rw [queued]
    omega
  case listed =>
    intro other listed
    have := fewer other
    rw [queued] at listed
    exact forward.known other (held.listed other (by omega))
  case aged => exact forward.aged
  case running =>
    intro other runs
    have old := calm other runs
    have distinct : other ≠ id := by
      rintro rfl
      exact stopped old
    rw [inFlight other distinct]
    exact held.running other old
  case owed =>
    intro producer other owing
    obtain ⟨known, fresh⟩ := held.owed producer other (forward.owed producer other owing)
    refine ⟨forward.known other known, fun inTime => ?_⟩
    have free := fresh fun expired => inTime (forward.expired other expired)
    have := fewer other
    rw [queued]
    omega
  case owedOnce =>
    intro producer other owed first second
    exact held.owedOnce producer other owed (forward.owed producer owed first)
      (forward.owed other owed second)
  case heldOnce =>
    intro first second owned holds holds'
    exact held.heldOnce first second owned (turns.held keeps holds) (turns.held keeps holds')
  case sound =>
    refine turns.sound trivial fun other distinct => ?_
    have old := held.sound other
    refine old.keep forward.toAges (fun owned _ => calm owned) ?_
      (fun owned _ someone => turns.held keeps) ?_
    · intro owned carried there
      have other_id : owned ≠ id := by
        rintro rfl
        rcases carried with holds | member
        · exact distinct (held.heldOnce other agent owned holds mine)
        · exact old.unheld_of_abandoned member agent mine
      rwa [inFlight owned other_id]
    · intro owned _ absent
      have := fewer owned
      exact ⟨by rw [queued, absent], fun free => by omega⟩

end Preservation

/-- Every step of a disciplined system keeps the invariant. -/
theorem Exclusive.step {before after : State Id Agent Producer} (held : Exclusive before)
    (step : Step before after) : Exclusive after := by
  cases step with
  | quiet forward calm queued inFlight roles =>
      exact held.quiet forward calm queued inFlight roles
  | create ages calm lists roles fresh created owed =>
      exact held.create ages calm lists roles fresh created owed
  | push forward calm roles owing paid inTime self queued inFlight =>
      exact held.push forward calm roles owing paid inTime self queued inFlight
  | claim forward calm turns taken moved queued inFlight =>
      exact held.claim forward calm turns taken moved queued inFlight
  | advance forward lists turns calm settles =>
      exact held.advance forward lists turns calm settles
  | ack forward calm turns queued cleared inFlight =>
      exact held.ack forward calm turns queued cleared inFlight
  | scan forward calm lists turns distinct running unattended =>
      refine held.turn forward calm lists turns (fun _ holds => by cases holds)
        ⟨distinct, fun id member => ?_, fun done => by cases done⟩
      have runs := running id member
      refine ⟨by rw [lists.inFlight]; exact held.running id runs, fun other holds => ?_⟩
      -- Whoever holds a running identifier is active with it.
      have holder := turns.held (fun _ holds => by cases holds) holds
      have sound := held.sound other
      cases role : before.role other with
      | holding owned phase =>
          rw [role] at holder sound
          cases holder
          rcases sound.2 with rfl | stopped
          · exact unattended id member other role
          · exact stopped runs
      | _ => simp [role, Role.held] at holder
  | @reset agent id rest forward calm lists turns stopped =>
      have sound := held.sound agent
      rw [turns.was] at sound
      refine held.turn forward calm lists turns (fun _ holds => by cases holds)
        ⟨sound.1, fun owned member => ?_, fun _ owned first => ?_⟩
      · refine ⟨by rw [lists.inFlight]; exact (sound.2.1 owned member).1, fun other holds => ?_⟩
        exact (sound.2.1 owned member).2 other (turns.held (fun _ holds => by cases holds) holds)
      · obtain rfl : id = owned := by simpa using first
        exact stopped
  | @requeue agent id rest forward calm turns requeued alone =>
      have sound := held.sound agent
      rw [turns.was] at sound
      obtain ⟨distinct, unattended, stopped⟩ := sound
      obtain ⟨fresh, restDistinct⟩ := List.nodup_cons.mp distinct
      have present := (unattended id (by simp)).1
      have once := held.once id
      refine held.requeue forward calm turns (fun _ holds => by cases holds) requeued alone
        (by omega) (held.listed id (by omega)) (stopped rfl id (by simp)) (.inr present)
        (unattended id (by simp)).2
        ⟨restDistinct, fun owned member => ?_, fun done => by cases done⟩
      have other_id : owned ≠ id := by
        rintro rfl
        exact fresh member
      refine ⟨?_, fun other holds => ?_⟩
      · rw [requeued.inFlight owned other_id]
        exact (unattended owned (by simp [member])).1
      · exact (unattended owned (by simp [member])).2 other
          (turns.held (fun _ holds => by cases holds) holds)
  | select forward calm lists turns distinct expired =>
      exact held.turn forward calm lists turns (fun _ holds => by cases holds)
        ⟨distinct, expired⟩
  | @compare agent candidates missing forward calm lists turns sublist absent =>
      have sound := held.sound agent
      rw [turns.was] at sound
      refine held.turn forward calm lists turns (fun _ holds => by cases holds)
        ⟨sound.1.sublist sublist, fun id member => ⟨?_, ?_⟩⟩
      · exact forward.expired id (sound.2 id (sublist.subset member))
      · rw [lists.queued]
        exact absent id member
  | @filter agent missing absent forward calm lists turns sublist free =>
      have sound := held.sound agent
      rw [turns.was] at sound
      refine held.turn forward calm lists turns (fun _ holds => by cases holds)
        ⟨sound.1.sublist sublist, fun id member => ?_⟩
      obtain ⟨expired, notQueued⟩ := sound.2 id (sublist.subset member)
      refine ⟨forward.expired id expired, ?_, ?_⟩
      · rw [lists.queued, notQueued]
      · rw [lists.inFlight]
        exact free id member
  | @restore agent id rest forward calm turns requeued alone =>
      have sound := held.sound agent
      rw [turns.was] at sound
      obtain ⟨distinct, missing⟩ := sound
      obtain ⟨fresh, restDistinct⟩ := List.nodup_cons.mp distinct
      obtain ⟨expired, absent, free⟩ := missing id (by simp)
      have notRunning : ¬ before.running id := fun runs => by
        have := held.running id runs
        omega
      have unheld : ∀ other, (before.role other).held ≠ some id := fun other holds => by
        have := (held.sound other).inFlight_pos (.inl holds)
        omega
      refine held.requeue forward calm turns (fun _ holds => by cases holds) requeued alone
        absent (held.aged id expired) notRunning (.inl expired) unheld
        ⟨restDistinct, fun owned member => ?_⟩
      have other_id : owned ≠ id := by
        rintro rfl
        exact fresh member
      obtain ⟨expired', absent', free'⟩ := missing owned (by simp [member])
      exact ⟨forward.expired owned expired', by rw [requeued.queued owned other_id, absent'],
        by rw [requeued.inFlight owned other_id, free']⟩

/-- Two agents never hold the same identifier. -/
theorem Exclusive.holder_unique {state : State Id Agent Producer} (held : Exclusive state)
    {agent other : Agent} {id : Id} {phase phase' : Phase}
    (first : state.role agent = .holding id phase)
    (second : state.role other = .holding id phase') : agent = other :=
  held.heldOnce agent other id (by rw [first]; rfl) (by rw [second]; rfl)

end ReliableQueue
