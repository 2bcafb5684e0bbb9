import Crucible.DatasetRegistration

/-!
# Dataset identifiers that were handed out

A run prints its identifier after the row was activated, or when it finds a
ready row of the same name and version.  The row of a printed identifier stays
ready as long as no run takes the row of another run for a stale one.
-/

namespace Crucible

/-- The row that a run has reserved and has neither activated nor given up. -/
def RegistrationPc.owns : RegistrationPc → Option Nat
  | .reserved _ datasetId | .uploading _ datasetId | .activating _ datasetId
  | .activated _ datasetId => some datasetId
  | _ => none

/-- The owned row that a run has an uncommitted version of. -/
def RegistrationPc.writes : RegistrationPc → Option Nat
  | .reserved _ datasetId | .activated _ datasetId => some datasetId
  | _ => none

namespace DatasetRegistry

open LabelledRuns

variable {n : Nat}

/-- The step condition: a non-ready row found by the `SELECT` of a reservation
belongs to no run that is still uploading or activating it. -/
def SelectsStale (registry : DatasetRegistry n) : Action n → Prop
  | .statement run =>
      match registry.runs run with
      | .selecting registration =>
          match registry.existing registration with
          | some (existingId, row) =>
              row.status = .ready ∨ ∀ other, (registry.runs other).owns ≠ some existingId
          | none => True
      | _ => True
  | _ => True

instance (registry : DatasetRegistry n) (action : Action n) :
    Decidable (SelectsStale registry action) := by
  unfold SelectsStale
  split
  · split
    · split <;> infer_instance
    · infer_instance
  · infer_instance

/-- Whether a committed row has the name and version of a registration, and a
given status. -/
def HasRow (registry : DatasetRegistry n) (registration : Registration) (id : Nat)
    (status : DatasetStatus) : Prop :=
  ∃ row, registry.rows.committed id = some row ∧ row.name = registration.name ∧
    row.version = registration.version ∧ row.status = status

/-- A row that will never be ready: it is not, and no run will activate it. -/
structure Doomed (registry : DatasetRegistry n) (id : Nat) : Prop where
  issued : id < registry.nextId
  unowned : ∀ run, (registry.runs run).owns ≠ some id
  unready : ∀ row, registry.rows.committed id = some row → row.status ≠ .ready

/-- What holds of the rows while a run is at a control point. -/
def At (registry : DatasetRegistry n) (run : Fin n) : RegistrationPc → Prop
  | .deleting _ id | .removing _ id => registry.Doomed id
  | .reserved registration id =>
      id < registry.nextId ∧ registry.rows.committed id = none ∧
        registry.rows.draft id = some (run, some registration.row)
  | .uploading registration id | .activating registration id =>
      registry.HasRow registration id .pending
  | .activated registration id =>
      registry.HasRow registration id .pending ∧ ∃ row,
        registry.rows.draft id = some (run, some row) ∧ row.name = registration.name ∧
          row.version = registration.version ∧ row.status = .ready
  | .printing registration id | .printed registration id =>
      registry.HasRow registration id .ready
  | .idle | .selecting _ | .inserting _ | .removed | .failed => True

structure Orderly (registry : DatasetRegistry n) : Prop where
  bounded : ∀ id, registry.nextId ≤ id →
    registry.rows.committed id = none ∧ registry.rows.draft id = none
  sole : ∀ run other id, (registry.runs run).owns = some id →
    (registry.runs other).owns = some id → run = other
  drafted : ∀ id owner version, registry.rows.draft id = some (owner, version) →
    (version = none ∧ registry.Doomed id) ∨ (registry.runs owner).writes = some id
  located : ∀ run, registry.At run (registry.runs run)

theorem RegistrationPc.owns_of_writes {pc : RegistrationPc} {id : Nat}
    (writing : pc.writes = some id) : pc.owns = some id := by
  cases pc <;> first | exact writing | cases writing

namespace Orderly

variable {registry next : DatasetRegistry n} {run : Fin n}

theorem owned (orderly : registry.Orderly) {id : Nat}
    (owns : (registry.runs run).owns = some id) :
    id < registry.nextId ∧
      ∀ row, registry.rows.committed id = some row → row.status = .pending := by
  have here := orderly.located run
  have issued_of_row : ∀ registration, registry.HasRow registration id .pending →
      id < registry.nextId ∧
        ∀ row, registry.rows.committed id = some row → row.status = .pending := by
    rintro registration ⟨row, stored, _, _, pending⟩
    refine ⟨?_, fun other same => ?_⟩
    · by_contra late
      have absent := (orderly.bounded id (Nat.le_of_not_lt late)).1
      simp [stored] at absent
    · obtain rfl : row = other := Option.some.inj (stored.symm.trans same)
      exact pending
  cases located : registry.runs run <;> rw [located] at owns here <;> cases owns
  case reserved registration =>
    exact ⟨here.1, fun row stored => by simp [here.2.1] at stored⟩
  case uploading registration => exact issued_of_row registration here
  case activating registration => exact issued_of_row registration here
  case activated registration => exact issued_of_row registration here.1

/-- A step of one run that keeps to its own rows and to doomed ones. -/
structure Frame (registry next : DatasetRegistry n) (run : Fin n) : Prop where
  others : ∀ other, other ≠ run → next.runs other = registry.runs other
  issues : registry.nextId ≤ next.nextId
  committed : ∀ id, next.rows.committed id = registry.rows.committed id ∨
    (next.rows.committed id = none ∧ registry.Doomed id) ∨
    (registry.runs run).owns = some id
  drafts : ∀ id owner version, owner ≠ run →
    (next.rows.draft id = some (owner, version) ↔
      registry.rows.draft id = some (owner, version))
  mine : ∀ id version, next.rows.draft id = some (run, version) →
    (version = none ∧ registry.Doomed id) ∨ (next.runs run).writes = some id
  owned : ∀ id, (next.runs run).owns = some id →
    (registry.runs run).owns = some id ∨ (registry.nextId ≤ id ∧ id < next.nextId)

theorem Frame.doomed (frame : Frame registry next run) {id : Nat} (doomed : registry.Doomed id) :
    next.Doomed id where
  issued := Nat.lt_of_lt_of_le doomed.issued frame.issues
  unowned := by
    intro other owns
    by_cases own : other = run
    · subst own
      obtain before | fresh := frame.owned id owns
      · exact doomed.unowned other before
      · exact absurd doomed.issued (Nat.not_lt.mpr fresh.1)
    · rw [frame.others other own] at owns
      exact doomed.unowned other owns
  unready := by
    intro row stored
    obtain same | ⟨absent, _⟩ | owns := frame.committed id
    · exact doomed.unready row (same ▸ stored)
    · simp [absent] at stored
    · exact absurd owns (doomed.unowned run)

/-- What another run relies on survives a framed step. -/
theorem Frame.located (frame : Frame registry next run) (orderly : registry.Orderly)
    {other : Fin n} (distinct : other ≠ run) : next.At other (next.runs other) := by
  have here := orderly.located other
  have untouched : ∀ id, (registry.runs other).owns = some id →
      next.rows.committed id = registry.rows.committed id := by
    intro id owns
    obtain same | ⟨_, doomed⟩ | mine := frame.committed id
    · exact same
    · exact absurd owns (doomed.unowned other)
    · exact absurd (orderly.sole other run id owns mine) distinct
  have ready_stays : ∀ registration id, registry.HasRow registration id .ready →
      next.HasRow registration id .ready := by
    rintro registration id ⟨row, stored, name, version, ready⟩
    obtain same | ⟨_, doomed⟩ | mine := frame.committed id
    · exact ⟨row, same.trans stored, name, version, ready⟩
    · exact absurd ready (doomed.unready row stored)
    · have pending := (orderly.owned mine).2 row stored
      simp [ready] at pending
  rw [frame.others other distinct]
  cases located : registry.runs other <;> rw [located] at here untouched <;>
    try exact here
  case deleting => exact frame.doomed here
  case removing => exact frame.doomed here
  case reserved registration id =>
    obtain ⟨issued, absent, drafted⟩ := here
    exact ⟨Nat.lt_of_lt_of_le issued frame.issues, (untouched id rfl).trans absent,
      (frame.drafts id other _ distinct).mpr drafted⟩
  case uploading registration id =>
    obtain ⟨row, stored, named⟩ := here
    exact ⟨row, (untouched id rfl).trans stored, named⟩
  case activating registration id =>
    obtain ⟨row, stored, named⟩ := here
    exact ⟨row, (untouched id rfl).trans stored, named⟩
  case activated registration id =>
    obtain ⟨⟨row, stored, named⟩, written, drafted, fits⟩ := here
    exact ⟨⟨row, (untouched id rfl).trans stored, named⟩, written,
      (frame.drafts id other _ distinct).mpr drafted, fits⟩
  case printing registration id => exact ready_stays registration id here
  case printed registration id => exact ready_stays registration id here

theorem frame (orderly : registry.Orderly) (frame : Frame registry next run)
    (here : next.At run (next.runs run)) : next.Orderly := by
  have absent : ∀ id, next.nextId ≤ id → next.rows.committed id = none := by
    intro id late
    obtain same | ⟨none, _⟩ | owns := frame.committed id
    · exact same.trans (orderly.bounded id (Nat.le_trans frame.issues late)).1
    · exact none
    · exact absurd (orderly.owned owns).1 (Nat.not_lt.mpr (Nat.le_trans frame.issues late))
  have issued : ∀ id, (next.runs run).owns = some id → id < next.nextId := by
    intro id owns
    obtain before | fresh := frame.owned id owns
    · exact Nat.lt_of_lt_of_le (orderly.owned before).1 frame.issues
    · exact fresh.2
  refine ⟨fun id late => ⟨absent id late, ?_⟩, ?_, ?_, ?_⟩
  · cases locked : next.rows.draft id with
    | none => rfl
    | some entry =>
        obtain ⟨owner, version⟩ := entry
        by_cases own : owner = run
        · subst own
          obtain ⟨_, doomed⟩ | writing := frame.mine id version locked
          · exact absurd doomed.issued (Nat.not_lt.mpr (Nat.le_trans frame.issues late))
          · exact absurd (issued id (RegistrationPc.owns_of_writes writing))
              (Nat.not_lt.mpr late)
        · have before := (frame.drafts id owner version own).mp locked
          rw [(orderly.bounded id (Nat.le_trans frame.issues late)).2] at before
          cases before
  · have sole_run : ∀ other id, other ≠ run → (next.runs run).owns = some id →
        (next.runs other).owns ≠ some id := by
      intro other id distinct owns same
      rw [frame.others other distinct] at same
      obtain before | fresh := frame.owned id owns
      · exact distinct (orderly.sole other run id same before)
      · exact absurd (orderly.owned same).1 (Nat.not_lt.mpr fresh.1)
    intro first second id owns same
    by_cases firstOwn : first = run
    · subst firstOwn
      by_contra distinct
      exact sole_run second id (Ne.symm distinct) owns same
    by_cases secondOwn : second = run
    · subst secondOwn
      exact absurd owns (sole_run first id firstOwn same)
    rw [frame.others first firstOwn] at owns
    rw [frame.others second secondOwn] at same
    exact orderly.sole first second id owns same
  · intro id owner version locked
    by_cases own : owner = run
    · subst own
      exact (frame.mine id version locked).imp
        (fun ⟨gone, doomed⟩ => ⟨gone, frame.doomed doomed⟩) (fun writing => writing)
    · rw [frame.others owner own]
      exact (orderly.drafted id owner version
        ((frame.drafts id owner version own).mp locked)).imp
        (fun ⟨gone, doomed⟩ => ⟨gone, frame.doomed doomed⟩) (fun writing => writing)
  · intro other
    by_cases own : other = run
    · subst own
      exact here
    · exact frame.located orderly own

variable {pc : RegistrationPc}

theorem owned_of_none (unowned : pc.owns = none) :
    ∀ id, pc.owns = some id → (registry.runs run).owns = some id := by
  intro id owns
  rw [unowned] at owns
  cases owns

theorem frame_put (orderly : registry.Orderly)
    (owned : ∀ id, pc.owns = some id → (registry.runs run).owns = some id)
    (writing : (registry.runs run).writes = none) :
    Frame registry (registry.put run pc registry.rows) run where
  others other distinct := Function.update_of_ne distinct _ _
  issues := Nat.le_refl _
  committed _ := Or.inl rfl
  drafts _ _ _ _ := Iff.rfl
  mine id version locked :=
    (orderly.drafted id run version locked).imp_right fun written => by
      simp [writing] at written
  owned id owns := Or.inl (owned id (by simpa [put] using owns))

theorem frame_write (orderly : registry.Orderly) {key : Nat} {version : Option DatasetRow}
    {rows : LockedRows Nat (Option DatasetRow) (Fin n)}
    (acquired : registry.rows.acquire run key = some rows)
    (owned : ∀ id, pc.owns = some id → (registry.runs run).owns = some id)
    (writing : (registry.runs run).writes = none)
    (entitled : (version = none ∧ registry.Doomed key) ∨ pc.writes = some key) :
    Frame registry (registry.put run pc (rows.write run key version)) run := by
  obtain ⟨same, elsewhere, held⟩ := LockedRows.acquire_eq_some acquired
  have drafts : ∀ id, id ≠ key →
      (rows.write run key version).draft id = registry.rows.draft id := by
    intro id distinct
    rw [← elsewhere id distinct, rows.write_draft_of_ne run version distinct]
  have written : (rows.write run key version).draft key = some (run, version) :=
    Function.update_self ..
  have mine_before : ∀ owner before, registry.rows.draft key = some (owner, before) →
      owner = run := by
    intro owner before locked
    obtain ⟨free, _⟩ | ⟨_, _, own⟩ := held
    · simp [free] at locked
    · exact congrArg Prod.fst (Option.some.inj (locked.symm.trans own))
  refine ⟨fun other distinct => Function.update_of_ne distinct _ _, Nat.le_refl _,
    fun id => Or.inl (by simp [put, same]), ?_, ?_,
    fun id owns => Or.inl (owned id (by simpa [put] using owns))⟩
  · intro id owner before distinct
    by_cases atKey : id = key
    · subst atKey
      change (rows.write run id version).draft id = _ ↔ _
      rw [written]
      constructor
      · intro locked
        exact absurd (congrArg Prod.fst (Option.some.inj locked)).symm distinct
      · intro locked
        exact absurd (mine_before owner before locked) distinct
    · change (rows.write run key version).draft id = _ ↔ _
      rw [drafts id atKey]
  · intro id after locked
    change (rows.write run key version).draft id = _ at locked
    by_cases atKey : id = key
    · subst atKey
      rw [written] at locked
      obtain rfl : version = after := congrArg Prod.snd (Option.some.inj locked)
      simpa [put] using entitled
    · rw [drafts id atKey] at locked
      exact (orderly.drafted id run after locked).imp_right fun writes => by
        simp [writing] at writes

theorem frame_commit (orderly : registry.Orderly)
    (owned : ∀ id, pc.owns = some id → (registry.runs run).owns = some id) :
    Frame registry (registry.put run pc (registry.rows.commit run)) run where
  others other distinct := Function.update_of_ne distinct _ _
  issues := Nat.le_refl _
  committed id := by
    obtain same | drafted := registry.rows.seen_eq_or run id
    · exact Or.inl same
    · obtain ⟨gone, doomed⟩ | writing := orderly.drafted id run _ drafted
      · exact Or.inr (Or.inl ⟨gone, doomed⟩)
      · exact Or.inr (Or.inr (RegistrationPc.owns_of_writes writing))
  drafts id owner version distinct := by
    change (registry.rows.rollback run).draft id = _ ↔ _
    refine ⟨fun kept => (LockedRows.rollback_draft kept).1, fun locked => ?_⟩
    simp [LockedRows.rollback, locked, distinct]
  mine id version locked := absurd rfl (LockedRows.rollback_draft locked).2
  owned id owns := Or.inl (owned id (by simpa [put] using owns))

theorem frame_rollback :
    Frame registry (registry.put run .failed (registry.rows.rollback run)) run where
  others other distinct := Function.update_of_ne distinct _ _
  issues := Nat.le_refl _
  committed _ := Or.inl rfl
  drafts id owner version distinct := by
    change (registry.rows.rollback run).draft id = _ ↔ _
    refine ⟨fun kept => (LockedRows.rollback_draft kept).1, fun locked => ?_⟩
    simp [LockedRows.rollback, locked, distinct]
  mine id version locked := absurd rfl (LockedRows.rollback_draft locked).2
  owned id owns := by simp [put, RegistrationPc.owns] at owns

theorem frame_insert (orderly : registry.Orderly) {registration : Registration}
    (writing : (registry.runs run).writes = none) :
    Frame registry
      { registry.put run (.reserved registration registry.nextId)
          (registry.rows.write run registry.nextId (some registration.row)) with
        nextId := registry.nextId + 1 } run where
  others other distinct := Function.update_of_ne distinct _ _
  issues := Nat.le_succ _
  committed _ := Or.inl rfl
  drafts id owner version distinct := by
    change (registry.rows.write run registry.nextId _).draft id = _ ↔ _
    by_cases fresh : id = registry.nextId
    · subst fresh
      have free := (orderly.bounded _ (Nat.le_refl registry.nextId)).2
      simp [LockedRows.write, free, Ne.symm distinct]
    · rw [LockedRows.write_draft_of_ne _ _ _ fresh]
  mine id version locked := by
    change (registry.rows.write run registry.nextId _).draft id = _ at locked
    by_cases fresh : id = registry.nextId
    · exact Or.inr (by simp [put, RegistrationPc.writes, fresh])
    · rw [LockedRows.write_draft_of_ne _ _ _ fresh] at locked
      exact (orderly.drafted id run version locked).imp_right fun written => by
        simp [writing] at written
  owned id owns := by
    obtain rfl : registry.nextId = id := by simpa [put, RegistrationPc.owns] using owns
    exact Or.inr ⟨Nat.le_refl _, Nat.lt_succ_self _⟩

theorem at_put {rows : LockedRows Nat (Option DatasetRow) (Fin n)}
    (here : (registry.put run pc rows).At run pc) :
    (registry.put run pc rows).At run ((registry.put run pc rows).runs run) := by
  simpa [put] using here

theorem statement (orderly : registry.Orderly) (allowed : SelectsStale registry (.statement run))
    (moved : registry.statement run (registry.runs run) = some next) : next.Orderly := by
  have here := orderly.located run
  simp only [SelectsStale] at allowed
  generalize located : registry.runs run = pc at moved here allowed
  have outside : pc.writes = none → (registry.runs run).writes = none := fun none => located ▸ none
  have keeps : ∀ pc' : RegistrationPc, pc'.owns = pc.owns →
      ∀ id, pc'.owns = some id → (registry.runs run).owns = some id :=
    fun pc' same id owns => located ▸ same ▸ owns
  cases outcome_of_statement moved with
  | missing =>
      exact orderly.frame (orderly.frame_put (owned_of_none rfl) (outside rfl)) (at_put trivial)
  | ready found finished =>
      obtain ⟨_, stored, name, version⟩ := existing_eq_some found
      exact orderly.frame (orderly.frame_put (owned_of_none rfl) (outside rfl))
        (at_put ⟨_, stored, name, version, finished⟩)
  | @stale registration existingId row found unfinished =>
      obtain ⟨issued, stored, _⟩ := existing_eq_some found
      simp only [found] at allowed
      have doomed : registry.Doomed existingId :=
        ⟨issued, allowed.resolve_left unfinished, fun other same =>
          Option.some.inj (stored.symm.trans same) ▸ unfinished⟩
      have frame : Frame registry
          (registry.put run (.deleting registration existingId) registry.rows) run :=
        orderly.frame_put (owned_of_none rfl) (outside rfl)
      exact orderly.frame frame (at_put (frame.doomed doomed))
  | vanished =>
      exact orderly.frame (orderly.frame_put (owned_of_none rfl) (outside rfl)) (at_put trivial)
  | deleted _ acquired =>
      exact orderly.frame
        (orderly.frame_write acquired (owned_of_none rfl) (outside rfl) (Or.inl ⟨rfl, here⟩))
        (at_put trivial)
  | violated => exact orderly.frame frame_rollback (at_put trivial)
  | inserted =>
      refine orderly.frame (orderly.frame_insert (outside rfl)) ?_
      have absent := (orderly.bounded registry.nextId (Nat.le_refl _)).1
      simp [At, put, absent, LockedRows.write]
  | reserved =>
      exact orderly.frame (orderly.frame_commit (keeps _ rfl))
        (at_put ⟨_, LockedRows.seen_of_draft here.2.2, rfl, rfl, rfl⟩)
  | lost absent =>
      obtain ⟨row, stored, _⟩ := here
      simp [absent] at stored
  | @updated registration datasetId row rows stored acquired =>
      obtain ⟨row', stored', name, version, pending⟩ := here
      obtain rfl : row' = row := Option.some.inj (stored'.symm.trans stored)
      refine orderly.frame (orderly.frame_write acquired (keeps _ rfl) (outside rfl) (Or.inr rfl))
        (at_put ⟨⟨row', ?_, name, version, pending⟩, ?_⟩)
      · change rows.committed datasetId = some row'
        rw [(LockedRows.acquire_eq_some acquired).1, stored]
      · exact ⟨{ row' with status := .ready }, Function.update_self .., name, version, rfl⟩
  | activated =>
      obtain ⟨_, row, drafted, name, version, ready⟩ := here
      exact orderly.frame (orderly.frame_commit (owned_of_none rfl))
        (at_put ⟨row, LockedRows.seen_of_draft drafted, name, version, ready⟩)
  | spared =>
      exact orderly.frame (orderly.frame_put (owned_of_none rfl) (outside rfl)) (at_put trivial)
  | cleared _ acquired =>
      exact orderly.frame
        (orderly.frame_write acquired (owned_of_none rfl) (outside rfl) (Or.inl ⟨rfl, here⟩))
        (at_put trivial)
  | removed => exact orderly.frame (orderly.frame_commit (owned_of_none rfl)) (at_put trivial)
  | printed =>
      exact orderly.frame (orderly.frame_put (owned_of_none rfl) (outside rfl)) (at_put here)

theorem step (orderly : registry.Orderly) {action : Action n}
    (allowed : SelectsStale registry action) (moved : registry.step action = some next) :
    next.Orderly := by
  cases action with
  | start run registration =>
      simp only [DatasetRegistry.step] at moved
      split at moved
      case h_1 located =>
        cases moved
        exact orderly.frame (orderly.frame_put (owned_of_none rfl) (by rw [located]; rfl))
          (at_put trivial)
      case h_2 => cases moved
  | statement run => exact orderly.statement allowed moved
  | uploaded run =>
      have here := orderly.located run
      simp only [DatasetRegistry.step] at moved
      split at moved
      case h_1 registration datasetId located =>
        cases moved
        rw [located] at here
        exact orderly.frame (orderly.frame_put (fun id owns => by rw [located]; exact owns)
          (by rw [located]; rfl)) (at_put here)
      case h_2 => cases moved
  | uploadFailed run =>
      have here := orderly.located run
      simp only [DatasetRegistry.step] at moved
      split at moved
      case h_1 registration datasetId located =>
        cases moved
        rw [located] at here
        have owns : (registry.runs run).owns = some datasetId := by rw [located]; rfl
        obtain ⟨issued, _⟩ := orderly.owned owns
        obtain ⟨row, stored, name, version, pending⟩ := here
        refine orderly.frame (orderly.frame_put (owned_of_none rfl) (by rw [located]; rfl))
          (at_put ⟨issued, fun other same => ?_, fun other same => ?_⟩)
        · by_cases own : other = run
          · subst own
            simp [put, RegistrationPc.owns] at same
          · simp only [put, Function.update_of_ne own] at same
            exact own (orderly.sole other run datasetId same owns)
        · obtain rfl : row = other := Option.some.inj (stored.symm.trans same)
          simp [pending]
      case h_2 => cases moved
  | abort run =>
      simp only [DatasetRegistry.step] at moved
      split at moved
      case h_1 => cases moved
      case h_2 => cases moved
      case h_3 =>
        cases moved
        exact orderly.frame frame_rollback (at_put trivial)

end Orderly

theorem orderly_initial {table : Nat → Option DatasetRow} {nextId : Nat}
    (issued : ∀ id, nextId ≤ id → table id = none) :
    (initial table nextId : DatasetRegistry n).Orderly where
  bounded id late := ⟨issued id late, rfl⟩
  sole _ _ _ owns := by cases owns
  drafted _ _ _ locked := by cases locked
  located _ := trivial

theorem step_printed {registry next : DatasetRegistry n} {run : Fin n}
    {registration : Registration} {id : Nat} {action : Action n}
    (handedOut : registry.runs run = .printed registration id)
    (moved : registry.step action = some next) :
    next.runs run = .printed registration id := by
  have apart : ∀ other pc rows, registry.runs other ≠ .printed registration id →
      (registry.put other pc rows).runs run = .printed registration id := by
    intro other pc rows elsewhere
    have distinct : run ≠ other := by
      rintro rfl
      exact elsewhere handedOut
    simpa [put, Function.update_of_ne distinct] using handedOut
  cases action with
  | start other _ =>
      simp only [step] at moved
      split at moved <;> cases moved
      case h_1 located => exact apart other _ _ (by simp [located])
  | statement other =>
      have distinct : run ≠ other := by
        rintro rfl
        simp [step, handedOut, statement] at moved
      rw [statement_elsewhere distinct moved, handedOut]
  | uploaded other =>
      simp only [step] at moved
      split at moved <;> cases moved
      case h_1 located => exact apart other _ _ (by simp [located])
  | uploadFailed other =>
      simp only [step] at moved
      split at moved <;> cases moved
      case h_1 located => exact apart other _ _ (by simp [located])
  | abort other =>
      simp only [step] at moved
      split at moved <;> cases moved
      case h_3 idle printed => exact apart other _ _ (printed registration id)

/-- Every printed identifier belongs to a ready row of the run's name and
version, in the state in which it was printed and in every later one. -/
theorem printed_ids_stay_ready {table : Nat → Option DatasetRow} {nextId : Nat}
    {registry later : DatasetRegistry n} {run : Fin n} {registration : Registration} {id : Nat}
    (issued : ∀ id, nextId ≤ id → table id = none)
    (reached : Runs step SelectsStale (initial table nextId) registry)
    (handedOut : registry.runs run = .printed registration id)
    (continued : Runs step SelectsStale registry later) :
    later.HasRow registration id .ready := by
  have orderly : later.Orderly :=
    runs_invariant Orderly (fun _ _ _ held allowed moved => held.step allowed moved)
      (orderly_initial issued) (reached.trans continued)
  have stays : later.runs run = .printed registration id :=
    runs_invariant (fun state => state.runs run = .printed registration id)
      (fun _ _ _ printed _ moved => step_printed printed moved) handedOut continued
  have here := orderly.located run
  rwa [stays] at here

def annotations : Registration where
  name := "annotations"
  version := "9f86d081"
  storagePath := "datasets/annotations/9f86d081.csv"
  pathType := .object
  sizeBytes := 4
  sha256Checksum := "9f86d081"
  sourceDescription := none

/-- The second run starts after the first has finished. -/
def registerTwice : List (Action 2) :=
  [.start 0 annotations, .statement 0, .statement 0, .statement 0, .uploaded 0, .statement 0,
    .statement 0, .statement 0, .start 1 annotations, .statement 1, .statement 1]

theorem printed_ids_stay_ready_registerTwice :
    ∃ later : DatasetRegistry 2, later.runs 1 = .printed annotations 0 ∧
      later.HasRow annotations 0 .ready := by
  have passes : (replay step SelectsStale (initial (fun _ => none) 0) registerTwice).any
      (fun last => last.runs 1 = .printed annotations 0) = true := by
    decide +kernel
  obtain ⟨last, reached, handedOut⟩ := exists_runs_of_replay passes
  have printed : last.runs 1 = .printed annotations 0 := of_decide_eq_true handedOut
  exact ⟨last, printed, printed_ids_stay_ready (fun _ _ => rfl) reached printed .refl⟩

/-- The second run reserves while the first is uploading. -/
def registerTogether : List (Action 2) :=
  [.start 0 annotations, .statement 0, .statement 0, .statement 0, .start 1 annotations,
    .statement 1, .statement 1, .statement 1, .statement 1, .uploaded 0, .statement 0,
    .statement 0, .statement 0]

/-- Two runs with the same name and content: the second deletes the row that the
first is uploading, and the first prints an identifier without a row. -/
theorem printed_id_deleted :
    ∃ later : DatasetRegistry 2, Runs step Any (initial (fun _ => none) 0) later ∧
      later.runs 0 = .printed annotations 0 ∧ ¬ later.HasRow annotations 0 .ready := by
  have passes : (replay step Any (initial (fun _ => none) 0) registerTogether).any
      (fun last => last.runs 0 = .printed annotations 0 ∧ last.rows.committed 0 = none) =
        true := by
    decide +kernel
  obtain ⟨last, reached, handedOut⟩ := exists_runs_of_replay passes
  obtain ⟨printed, gone⟩ := of_decide_eq_true handedOut
  refine ⟨last, reached, printed, ?_⟩
  rintro ⟨row, stored, _⟩
  simp [gone] at stored

end DatasetRegistry

end Crucible
