import Crucible.DatasetRegistration

/-!
# Finished rows under a single run

A run of `register_dataset` with no concurrent writer.  Its reservation
deletes any row of its name and version that is not ready, whatever else the
status is, so an archived row survives only if the run does not match it or a
job refers to it.  Once an upload has raised, the pending row is gone exactly if
the compensating `DELETE` commits.
-/

namespace Crucible.DatasetRegistry

open LabelledRuns

variable {n : Nat}

def Action.actor : Action n → Fin n
  | .start run _ | .statement run | .uploaded run | .uploadFailed run | .abort run => run

def deletes (registry : DatasetRegistry n) : RegistrationPc → Option Nat
  | .deleting _ id => if (registry.rows.committed id).isSome then some id else none
  | .removing _ id =>
      if (registry.rows.committed id).any (·.status = .pending) then some id else none
  | _ => none

/-- A step while jobs refer to the datasets that `referenced` marks.  The foreign
key is `ON DELETE RESTRICT`: the `DELETE` of such a row raises and its
transaction rolls back. -/
def restrictedStep (referenced : Nat → Bool) (registry : DatasetRegistry n) :
    Action n → Option (DatasetRegistry n)
  | .statement run =>
      if (registry.deletes (registry.runs run)).any referenced then
        registry.step (.abort run)
      else
        registry.step (.statement run)
  | action => registry.step action

def Alone (run : Fin n) (_ : DatasetRegistry n) (action : Action n) : Prop :=
  action.actor = run

instance (run : Fin n) (registry : DatasetRegistry n) (action : Action n) :
    Decidable (Alone run registry action) :=
  inferInstanceAs (Decidable (_ = _))

def started (table : Nat → Option DatasetRow) (nextId : Nat) (run : Fin n)
    (registration : Registration) : DatasetRegistry n :=
  (initial table nextId).put run (.selecting registration) ⟨table, fun _ => none⟩

theorem step_start (table : Nat → Option DatasetRow) (nextId : Nat) (run : Fin n)
    (registration : Registration) :
    step (initial table nextId) (.start run registration) =
      some (started table nextId run registration) :=
  rfl

/-- The constraints that a `datasets` table and its references meet. -/
structure Consistent (table : Nat → Option DatasetRow) (nextId : Nat)
    (referenced : Nat → Bool) : Prop where
  issued : ∀ id, nextId ≤ id → table id = none
  unique : ∀ id other row row', table id = some row → table other = some row' →
    row.name = row'.name → row.version = row'.version → id = other
  refers : ∀ id, referenced id = true → table id ≠ none

/-- No committed row of the registration's name and version is pending. -/
def Cleared (registry : DatasetRegistry n) (registration : Registration) : Prop :=
  ∀ id row, registry.rows.committed id = some row → registration.matches row = true →
    row.status ≠ .pending

/-- Steps of a run whose process goes on, and whose statements reach the database. -/
def Unaborted (run : Fin n) (_ : DatasetRegistry n) : Action n → Prop
  | .abort _ => False
  | action => action.actor = run

instance (run : Fin n) (registry : DatasetRegistry n) :
    (action : Action n) → Decidable (Unaborted run registry action)
  | .abort _ => isFalse id
  | .start _ _ | .statement _ | .uploaded _ | .uploadFailed _ =>
      inferInstanceAs (Decidable (_ = _))

def Raised (table : Nat → Option DatasetRow) (nextId : Nat) (referenced : Nat → Bool)
    (run : Fin n) (registration : Registration) (raised : DatasetRegistry n) : Prop :=
  ∃ uploading datasetId,
    Runs (restrictedStep referenced) (Alone run) (started table nextId run registration)
      uploading ∧
    uploading.runs run = .uploading registration datasetId ∧
    restrictedStep referenced uploading (.uploadFailed run) = some raised

/-- A run leaves every row that was ready or archived as it was, and if its
upload has raised it comes to an end and has then left no pending row. -/
structure Harmless (table : Nat → Option DatasetRow) (nextId : Nat) (referenced : Nat → Bool)
    (run : Fin n) (registration : Registration) : Prop where
  keeps : ∀ registry,
    Runs (restrictedStep referenced) (Alone run) (started table nextId run registration)
      registry →
    ∀ id row, table id = some row → row.status ≠ .pending →
      registry.rows.committed id = some row
  clears : ∀ raised last, Raised table nextId referenced run registration raised →
    Runs (restrictedStep referenced) (Unaborted run) raised last → last.runs run = .failed →
    last.Cleared registration
  ends : ∀ raised, Raised table nextId referenced run registration raised →
    ∃ last, Runs (restrictedStep referenced) (Unaborted run) raised last ∧
      last.runs run = .failed

/-- Whether a run deletes no archived row: every one of its name and version is
protected by a reference. -/
def SparesArchived (table : Nat → Option DatasetRow) (referenced : Nat → Bool)
    (registration : Registration) : Prop :=
  ∀ id row, table id = some row → registration.matches row = true →
    row.status = .archived → referenced id = true

/-! ## What holds during the run -/

section Solo

variable (table : Nat → Option DatasetRow) (first : Nat) (referenced : Nat → Bool)
  (run : Fin n) (registration : Registration)

/-- Every matching row that the run sees, other than `own`, is not pending. -/
def ClearedBut (rows : LockedRows Nat (Option DatasetRow) (Fin n)) (own : Option Nat) : Prop :=
  ∀ id row, own ≠ some id → rows.seen run id = some row → registration.matches row = true →
    row.status ≠ .pending

/-- What a control point tells about the rows. -/
def SoloAt (registry : DatasetRegistry n) : RegistrationPc → Prop
  | .idle => False
  | .selecting asked =>
      asked = registration ∧ registry.rows = ⟨table, fun _ => none⟩ ∧ registry.nextId = first
  | .deleting asked id =>
      asked = registration ∧ registry.rows = ⟨table, fun _ => none⟩ ∧
        ∃ row, table id = some row ∧ registration.matches row = true ∧ row.status ≠ .ready
  | .inserting asked => asked = registration ∧ ClearedBut run registration registry.rows none
  | .reserved asked id =>
      asked = registration ∧ first ≤ id ∧
        registry.rows.seen run id = some registration.row ∧
        ClearedBut run registration registry.rows (some id)
  | .uploading asked id | .activating asked id | .removing asked id =>
      asked = registration ∧ first ≤ id ∧ (∀ key, registry.rows.draft key = none) ∧
        registry.rows.committed id = some registration.row ∧
        ClearedBut run registration registry.rows (some id)
  | .activated _ id => first ≤ id
  | .removed =>
      ClearedBut run registration registry.rows none ∧
        ∃ id, registry.rows.committed id = some registration.row
  | .printing _ _ | .printed _ _ | .failed => True

structure Solo (registry : DatasetRegistry n) : Prop where
  issues : first ≤ registry.nextId
  sole : registry.rows.Sole run
  located : SoloAt table first run registration registry (registry.runs run)
  kept : SparesArchived table referenced registration →
    ∀ id row, table id = some row → row.status ≠ .pending →
      registry.rows.committed id = some row ∧ registry.rows.seen run id = some row

end Solo

namespace Solo

variable {table : Nat → Option DatasetRow} {first : Nat} {referenced : Nat → Bool}
  {run : Fin n} {registration : Registration} {registry next : DatasetRegistry n}
  {pc : RegistrationPc}

theorem at_put {rows : LockedRows Nat (Option DatasetRow) (Fin n)}
    (here : SoloAt table first run registration (registry.put run pc rows) pc) :
    SoloAt table first run registration (registry.put run pc rows)
      ((registry.put run pc rows).runs run) := by
  simpa [put] using here

theorem put (solo : Solo table first referenced run registration registry)
    (here : SoloAt table first run registration (registry.put run pc registry.rows) pc) :
    Solo table first referenced run registration (registry.put run pc registry.rows) where
  issues := solo.issues
  sole := solo.sole
  located := at_put here
  kept := solo.kept

theorem write (solo : Solo table first referenced run registration registry) {key : Nat}
    {version : Option DatasetRow} {rows : LockedRows Nat (Option DatasetRow) (Fin n)}
    (acquired : registry.rows.acquire run key = some rows)
    (unfinished : SparesArchived table referenced registration →
      ∀ row, table key = some row → row.status = .pending)
    (here : SoloAt table first run registration
      (registry.put run pc (rows.write run key version)) pc) :
    Solo table first referenced run registration
      (registry.put run pc (rows.write run key version)) where
  issues := solo.issues
  sole := (solo.sole.acquire acquired).write key version
  located := at_put here
  kept spares id row stored finished := by
    have distinct : id ≠ key := by
      rintro rfl
      exact finished (unfinished spares row stored)
    obtain ⟨committed, seen⟩ := solo.kept spares id row stored finished
    constructor
    · change rows.committed id = some row
      rw [(LockedRows.acquire_eq_some acquired).1, committed]
    · change (rows.write run key version).seen run id = some row
      rw [LockedRows.seen_write, if_neg distinct, LockedRows.seen_acquire acquired, seen]

theorem insert (solo : Solo table first referenced run registration registry)
    (issued : ∀ id, first ≤ id → table id = none) {asked : Registration}
    (here : asked = registration)
    (cleared : ClearedBut run registration registry.rows none) :
    Solo table first referenced run registration
      { registry.put run (.reserved asked registry.nextId)
          (registry.rows.write run registry.nextId (some asked.row)) with
        nextId := registry.nextId + 1 } where
  issues := Nat.le_succ_of_le solo.issues
  sole := solo.sole.write _ _
  located := by
    have reserved : SoloAt table first run registration
        { registry.put run (.reserved asked registry.nextId)
            (registry.rows.write run registry.nextId (some asked.row)) with
          nextId := registry.nextId + 1 } (.reserved asked registry.nextId) := by
      refine ⟨here, solo.issues, ?_, fun id row other seen fits => ?_⟩
      · change (registry.rows.write run registry.nextId _).seen run registry.nextId = _
        rw [LockedRows.seen_write, if_pos rfl, here]
      have distinct : id ≠ registry.nextId := fun same => other (same ▸ rfl)
      change (registry.rows.write run registry.nextId _).seen run id = some row at seen
      rw [LockedRows.seen_write, if_neg distinct] at seen
      exact cleared id row (by simp) seen fits
    simpa [DatasetRegistry.put] using reserved
  kept spares id row stored finished := by
    have distinct : id ≠ registry.nextId := by
      rintro rfl
      simp [issued _ solo.issues] at stored
    obtain ⟨committed, seen⟩ := solo.kept spares id row stored finished
    refine ⟨committed, ?_⟩
    change (registry.rows.write run registry.nextId _).seen run id = some row
    rw [LockedRows.seen_write, if_neg distinct, seen]

theorem commit (solo : Solo table first referenced run registration registry)
    (here : SoloAt table first run registration
      (registry.put run pc (registry.rows.commit run)) pc) :
    Solo table first referenced run registration
      (registry.put run pc (registry.rows.commit run)) where
  issues := solo.issues
  sole key owner version locked := absurd locked (by
    change (registry.rows.rollback run).draft key ≠ _
    simp [solo.sole.rollback_draft key])
  located := at_put here
  kept spares id row stored finished := by
    obtain ⟨_, seen⟩ := solo.kept spares id row stored finished
    refine ⟨seen, ?_⟩
    change (registry.rows.commit run).seen run id = some row
    rw [LockedRows.seen_commit, seen]

theorem rollback (solo : Solo table first referenced run registration registry) :
    Solo table first referenced run registration
      (registry.put run .failed (registry.rows.rollback run)) where
  issues := solo.issues
  sole key owner version locked := absurd locked (by
    change (registry.rows.rollback run).draft key ≠ _
    simp [solo.sole.rollback_draft key])
  located := at_put trivial
  kept spares id row stored finished := by
    obtain ⟨committed, _⟩ := solo.kept spares id row stored finished
    refine ⟨committed, ?_⟩
    change (registry.rows.rollback run).seen run id = some row
    rw [LockedRows.seen_rollback, committed]

/-- Deleting the one row that is exempt leaves no exempt row. -/
theorem clearedBut_delete {key : Nat} {rows : LockedRows Nat (Option DatasetRow) (Fin n)}
    (acquired : registry.rows.acquire run key = some rows)
    (cleared : ClearedBut run registration registry.rows (some key)) :
    ClearedBut run registration (rows.write run key none) none := by
  intro id row _ seen fits
  rw [LockedRows.seen_write] at seen
  split at seen
  case isTrue => cases seen
  case isFalse distinct =>
    rw [LockedRows.seen_acquire acquired] at seen
    exact cleared id row (fun same => distinct (Option.some.inj same).symm) seen fits

theorem clearedBut_commit {own : Option Nat}
    (cleared : ClearedBut run registration registry.rows own) :
    ClearedBut run registration (registry.rows.commit run) own := by
  intro id row exempt seen fits
  rw [LockedRows.seen_commit] at seen
  exact cleared id row exempt seen fits

theorem statement (solo : Solo table first referenced run registration registry)
    (consistent : Consistent table first referenced)
    (allowed : (registry.deletes (registry.runs run)).any referenced = false)
    (moved : registry.statement run (registry.runs run) = some next) :
    Solo table first referenced run registration next := by
  have here := solo.located
  generalize registry.runs run = pc at moved here allowed
  cases outcome_of_statement moved with
  | @missing asked none =>
      obtain ⟨rfl, rows, nextId⟩ := here
      refine solo.put ⟨rfl, fun id row _ seen fits => ?_⟩
      change registry.rows.seen run id = some row at seen
      have stored : registry.rows.committed id = some row := by
        simpa [rows, LockedRows.seen] using seen
      have issued : id < registry.nextId := by
        by_contra late
        rw [nextId] at late
        simp [rows, consistent.issued id (Nat.le_of_not_lt late)] at stored
      simp [not_matches_of_existing_eq_none none issued stored] at fits
  | ready => exact solo.put trivial
  | @stale asked existingId row found unready =>
      obtain ⟨rfl, rows, _⟩ := here
      obtain ⟨_, stored, name, version⟩ := existing_eq_some found
      exact solo.put ⟨rfl, rows, row, by simpa [rows] using stored,
        Registration.matches_iff.mpr ⟨name, version⟩, unready⟩
  | @vanished asked key absent =>
      obtain ⟨rfl, rows, row, stored, _⟩ := here
      simp [rows, stored] at absent
  | @deleted asked key row' locked committed acquired =>
      obtain ⟨rfl, rows, row, stored, fits, unready⟩ := here
      have unreferenced : referenced key = false := by
        simpa [deletes, committed] using allowed
      refine solo.write acquired (fun spares row' stored' => ?_)
        ⟨rfl, clearedBut_delete acquired fun id other exempt seen fits' => ?_⟩
      · obtain rfl : row = row' := Option.some.inj (stored.symm.trans stored')
        cases status : row.status with
        | pending => rfl
        | ready => exact absurd status unready
        | archived => simp [spares key row stored fits status] at unreferenced
      · -- no other row has the name and version of the deleted one
        have stored' : table id = some other := by simpa [rows, LockedRows.seen] using seen
        obtain ⟨name, version⟩ := Registration.matches_iff.mp fits
        obtain ⟨name', version'⟩ := Registration.matches_iff.mp fits'
        exact absurd (consistent.unique key id row other stored stored' (name.trans name'.symm)
          (version.trans version'.symm) ▸ rfl) exempt
  | violated => exact solo.rollback
  | inserted => exact solo.insert consistent.issued here.1 here.2
  | reserved =>
      obtain ⟨rfl, fresh, written, cleared⟩ := here
      exact solo.commit
        ⟨rfl, fresh, solo.sole.rollback_draft, written, clearedBut_commit cleared⟩
  | lost => exact solo.put here.2.1
  | @updated asked key row rows stored acquired =>
      obtain ⟨_, fresh, _⟩ := here
      exact solo.write acquired
        (fun _ row' stored' => by simp [consistent.issued key fresh] at stored') fresh
  | activated => exact solo.commit trivial
  | @spared asked key finished =>
      obtain ⟨rfl, _, _, present, _⟩ := here
      exact absurd rfl (finished _ present)
  | @cleared asked key row rows stored acquired =>
      obtain ⟨rfl, fresh, _, present, cleared⟩ := here
      refine solo.write acquired
        (fun _ row' stored' => by simp [consistent.issued key fresh] at stored')
        ⟨clearedBut_delete acquired cleared, key, ?_⟩
      change rows.committed key = _
      rw [(LockedRows.acquire_eq_some acquired).1, present]
  | removed => exact solo.commit trivial
  | printed => exact solo.put trivial

theorem step (solo : Solo table first referenced run registration registry)
    (consistent : Consistent table first referenced) {action : Action n}
    (alone : Alone run registry action)
    (moved : restrictedStep referenced registry action = some next) :
    Solo table first referenced run registration next := by
  have here := solo.located
  have aborted : ∀ next, registry.step (.abort run) = some next →
      Solo table first referenced run registration next := by
    intro next moved
    simp only [DatasetRegistry.step] at moved
    split at moved
    case h_1 => cases moved
    case h_2 => cases moved
    case h_3 => cases moved; exact solo.rollback
  cases action with
  | start actor asked =>
      obtain rfl : actor = run := alone
      simp only [restrictedStep, DatasetRegistry.step] at moved
      split at moved
      case h_1 located => rw [located] at here; exact here.elim
      case h_2 => cases moved
  | statement actor =>
      obtain rfl : actor = run := alone
      simp only [restrictedStep] at moved
      split at moved
      case isTrue => exact aborted next moved
      case isFalse unrestricted =>
        exact solo.statement consistent (by simpa using unrestricted) moved
  | uploaded actor =>
      obtain rfl : actor = run := alone
      simp only [restrictedStep, DatasetRegistry.step] at moved
      split at moved
      case h_1 asked key located =>
        rw [located] at here
        cases moved
        exact solo.put here
      case h_2 => cases moved
  | uploadFailed actor =>
      obtain rfl : actor = run := alone
      simp only [restrictedStep, DatasetRegistry.step] at moved
      split at moved
      case h_1 asked key located =>
        rw [located] at here
        cases moved
        exact solo.put here
      case h_2 => cases moved
  | abort actor =>
      obtain rfl : actor = run := alone
      exact aborted next moved

theorem initially (table : Nat → Option DatasetRow) (first : Nat) (referenced : Nat → Bool)
    (run : Fin n) (registration : Registration) :
    Solo table first referenced run registration (started table first run registration) where
  issues := Nat.le_refl _
  sole _ _ _ locked := by cases locked
  located := at_put ⟨rfl, rfl, rfl⟩
  kept _ _ _ stored _ := ⟨stored, stored⟩

theorem reached (consistent : Consistent table first referenced)
    (run_ : Runs (restrictedStep referenced) (Alone run)
      (started table first run registration) registry) :
    Solo table first referenced run registration registry :=
  runs_invariant (Solo table first referenced run registration)
    (fun _ _ _ solo alone moved => solo.step consistent alone moved)
    (initially table first referenced run registration) run_

/-- The compensating `DELETE` never waits and never meets a reference. -/
theorem removing (solo : Solo table first referenced run registration registry)
    (consistent : Consistent table first referenced) {key : Nat}
    (located : registry.runs run = .removing registration key) :
    ∃ next, restrictedStep referenced registry (.statement run) = some next ∧
      next.runs run = .removed := by
  have here := solo.located
  rw [located] at here
  have unreferenced : referenced key = false := by
    by_contra refers
    exact consistent.refers key (by simpa using refers) (consistent.issued key here.2.1)
  have unrestricted : (registry.deletes (.removing registration key)).any referenced = false := by
    simp only [deletes]
    split <;> simp [unreferenced]
  obtain ⟨rows, acquired⟩ := solo.sole.acquires key
  simp only [restrictedStep, DatasetRegistry.step, located, unrestricted,
    DatasetRegistry.statement]
  cases registry.rows.committed key with
  | none => exact ⟨_, rfl, Function.update_self ..⟩
  | some row =>
      by_cases pending : row.status = .pending
      · simp only [pending, acquired]
        exact ⟨_, rfl, Function.update_self ..⟩
      · simp only [pending]
        exact ⟨_, rfl, Function.update_self ..⟩

/-- Where a run can be whose upload has raised, if nothing aborts it. -/
def Compensating (table : Nat → Option DatasetRow) (first : Nat) (referenced : Nat → Bool)
    (run : Fin n) (registration : Registration) (registry : DatasetRegistry n) : Prop :=
  Solo table first referenced run registration registry ∧
    ((∃ key, registry.runs run = .removing registration key) ∨ registry.runs run = .removed ∨
      registry.runs run = .failed ∧ registry.Cleared registration)

theorem compensating_raised (consistent : Consistent table first referenced)
    (raised : Raised table first referenced run registration registry) :
    Compensating table first referenced run registration registry := by
  obtain ⟨uploading, key, toUploading, located, failed⟩ := raised
  refine ⟨(Solo.reached consistent toUploading).step consistent
    (show Alone run uploading (.uploadFailed run) from rfl) failed, Or.inl ⟨key, ?_⟩⟩
  simp only [restrictedStep, DatasetRegistry.step, located] at failed
  cases failed
  exact Function.update_self ..

theorem removed (solo : Solo table first referenced run registration registry)
    (located : registry.runs run = .removed) :
    ∃ next, restrictedStep referenced registry (.statement run) = some next ∧
      next.runs run = .failed ∧ next.Cleared registration := by
  have committed : restrictedStep referenced registry (.statement run) =
      some (registry.put run .failed (registry.rows.commit run)) := by
    simp [restrictedStep, DatasetRegistry.step, located, deletes, DatasetRegistry.statement]
  have here := solo.located
  rw [located] at here
  exact ⟨_, committed, Function.update_self ..,
    fun id row stored fits => here.1 id row (by simp) stored fits⟩

/-- The only step of such a run, apart from an abort, is its next statement. -/
theorem compensating_step (consistent : Consistent table first referenced)
    (compensating : Compensating table first referenced run registration registry)
    {action : Action n} (unaborted : Unaborted run registry action)
    (moved : restrictedStep referenced registry action = some next) :
    Compensating table first referenced run registration next := by
  obtain ⟨solo, place⟩ := compensating
  cases action with
  | start actor asked =>
      obtain rfl : actor = run := unaborted
      obtain ⟨key, located⟩ | located | ⟨located, _⟩ := place <;>
        simp [restrictedStep, DatasetRegistry.step, located] at moved
  | statement actor =>
      obtain rfl : actor = run := unaborted
      refine ⟨solo.step consistent (show Alone actor registry (.statement actor) from rfl) moved,
        ?_⟩
      obtain ⟨key, located⟩ | located | ⟨located, _⟩ := place
      · obtain ⟨_, deleted, there⟩ := solo.removing consistent located
        cases moved.symm.trans deleted
        exact Or.inr (Or.inl there)
      · obtain ⟨_, committed, ended⟩ := solo.removed located
        cases moved.symm.trans committed
        exact Or.inr (Or.inr ended)
      · simp [restrictedStep, DatasetRegistry.step, located, deletes,
          DatasetRegistry.statement] at moved
  | uploaded actor =>
      obtain rfl : actor = run := unaborted
      obtain ⟨key, located⟩ | located | ⟨located, _⟩ := place <;>
        simp [restrictedStep, DatasetRegistry.step, located] at moved
  | uploadFailed actor =>
      obtain rfl : actor = run := unaborted
      obtain ⟨key, located⟩ | located | ⟨located, _⟩ := place <;>
        simp [restrictedStep, DatasetRegistry.step, located] at moved
  | abort actor => exact unaborted.elim

theorem compensating_runs (consistent : Consistent table first referenced)
    (raised : Raised table first referenced run registration registry)
    (run_ : Runs (restrictedStep referenced) (Unaborted run) registry next) :
    Compensating table first referenced run registration next :=
  runs_invariant (Compensating table first referenced run registration)
    (fun _ _ _ compensating unaborted moved =>
      compensating_step consistent compensating unaborted moved)
    (compensating_raised consistent raised) run_

theorem compensating_ends (consistent : Consistent table first referenced)
    (compensating : Compensating table first referenced run registration registry) :
    ∃ last, Runs (restrictedStep referenced) (Unaborted run) registry last ∧
      last.runs run = .failed := by
  have byRun : ∀ state, Unaborted run state (.statement run) := fun _ => rfl
  obtain ⟨solo, ⟨key, located⟩ | located | ⟨located, _⟩⟩ := compensating
  · obtain ⟨given, deleted, there⟩ := solo.removing consistent located
    have after := solo.step consistent (show Alone run registry (.statement run) from rfl) deleted
    obtain ⟨last, committed, ended, _⟩ := after.removed there
    exact ⟨last, runs_tail (runs_tail .refl (byRun _) deleted) (byRun _) committed, ended⟩
  · obtain ⟨last, committed, ended, _⟩ := solo.removed located
    exact ⟨last, runs_tail .refl (byRun _) committed, ended⟩
  · exact ⟨registry, .refl, located⟩

/-- An abort before the `DELETE` has committed leaves the row that the run has
reserved. -/
theorem not_cleared_of_abort
    (compensating : Compensating table first referenced run registration registry)
    (running : registry.runs run ≠ .failed)
    (aborted : restrictedStep referenced registry (.abort run) = some next) :
    ¬ next.Cleared registration := by
  obtain ⟨solo, place⟩ := compensating
  have here := solo.located
  have left : ∃ key, registry.rows.committed key = some registration.row := by
    obtain ⟨key, located⟩ | located | ⟨located, _⟩ := place
    · rw [located] at here
      exact ⟨key, here.2.2.2.1⟩
    · rw [located] at here
      exact here.2
    · exact absurd located running
  obtain ⟨key, stored⟩ := left
  have same : next.rows.committed = registry.rows.committed := by
    simp only [restrictedStep, DatasetRegistry.step] at aborted
    split at aborted
    case h_1 => cases aborted
    case h_2 => cases aborted
    case h_3 => cases aborted; rfl
  intro cleared
  exact cleared key registration.row (by rw [same, stored])
    (Registration.matches_iff.mpr ⟨rfl, rfl⟩) rfl

end Solo

theorem blocked_of_sole {registry : DatasetRegistry n} {run : Fin n}
    (sole : registry.rows.Sole run) (registration : Registration) :
    registry.blocked run registration = false := by
  simp only [blocked, List.any_eq_false]
  intro id _
  split
  case h_1 => simp
  case h_2 owner version locked => simp [sole id owner version locked]

theorem existing_started {table : Nat → Option DatasetRow} {first : Nat}
    {referenced : Nat → Bool} (consistent : Consistent table first referenced) (run : Fin n)
    {registration : Registration} {key : Nat} {row : DatasetRow} (stored : table key = some row)
    (fits : registration.matches row = true) :
    (started table first run registration).existing registration = some (key, row) := by
  have issued : key < first := by
    by_contra late
    simp [consistent.issued key (Nat.le_of_not_lt late)] at stored
  cases found : (started table first run registration).existing registration with
  | none =>
      have unmatched := not_matches_of_existing_eq_none found issued stored
      simp [unmatched] at fits
  | some entry =>
      obtain ⟨key', row'⟩ := entry
      obtain ⟨_, stored', name', version'⟩ := existing_eq_some found
      obtain ⟨name, version⟩ := Registration.matches_iff.mp fits
      obtain rfl : key' = key := consistent.unique key' key row' row stored' stored
        (name'.trans name.symm) (version'.trans version.symm)
      rw [Option.some.inj (stored.symm.trans stored')]

section Statements

variable {referenced : Nat → Bool} {registry : DatasetRegistry n} {run : Fin n}
  {registration : Registration} {key : Nat} {row : DatasetRow}

theorem restrictedStep_deleting {rows : LockedRows Nat (Option DatasetRow) (Fin n)}
    (located : registry.runs run = .deleting registration key)
    (stored : registry.rows.committed key = some row) (unreferenced : referenced key = false)
    (acquired : registry.rows.acquire run key = some rows) :
    restrictedStep referenced registry (.statement run) =
      some (registry.put run (.inserting registration) (rows.write run key none)) := by
  simp [restrictedStep, step, located, deletes, statement, stored, unreferenced, acquired]

theorem restrictedStep_inserting (located : registry.runs run = .inserting registration)
    (sole : registry.rows.Sole run)
    (unmatched : ∀ id row, registry.rows.seen run id = some row →
      registration.matches row = false) :
    restrictedStep referenced registry (.statement run) =
      some { registry.put run (.reserved registration registry.nextId)
          (registry.rows.write run registry.nextId (some registration.row)) with
        nextId := registry.nextId + 1 } := by
  have single : registry.duplicate run registration = false := by
    simp only [duplicate, List.any_eq_false]
    intro id _
    cases seen : registry.rows.seen run id with
    | none => simp
    | some row => simp [unmatched id row seen]
  simp [restrictedStep, step, located, deletes, statement, blocked_of_sole sole, single]

theorem restrictedStep_reserved (located : registry.runs run = .reserved registration key) :
    restrictedStep referenced registry (.statement run) =
      some (registry.put run (.uploading registration key) (registry.rows.commit run)) := by
  simp [restrictedStep, step, located, deletes, statement]

end Statements

/-- An archived row that nothing refers to is gone once its replacement is
reserved. -/
theorem deletes_archived {table : Nat → Option DatasetRow} {first : Nat}
    {referenced : Nat → Bool} (consistent : Consistent table first referenced) (run : Fin n)
    {registration : Registration} {key : Nat} {row : DatasetRow} (stored : table key = some row)
    (fits : registration.matches row = true) (archived : row.status = .archived)
    (unreferenced : referenced key = false) :
    ∃ last, Runs (restrictedStep referenced) (Alone run)
        (started table first run registration) last ∧
      last.rows.committed key = none := by
  have byRun : ∀ state, Alone run state (.statement run) := fun _ => rfl
  let opened := started table first run registration
  have sole : opened.rows.Sole run := fun _ _ _ locked => by cases locked
  have selecting : opened.runs run = .selecting registration := Function.update_self ..
  let chosen := opened.put run (.deleting registration key) opened.rows
  have selected : restrictedStep referenced opened (.statement run) =
      some chosen := by
    simp [restrictedStep, DatasetRegistry.step, selecting, deletes, statement, opened, chosen,
      existing_started consistent run stored fits, archived]
  obtain ⟨rows, acquired⟩ := sole.acquires key
  let cleared := chosen.put run (.inserting registration) (rows.write run key none)
  have deleted : restrictedStep referenced chosen (.statement run) = some cleared :=
    restrictedStep_deleting (Function.update_self ..) stored unreferenced acquired
  have seen : ∀ id, cleared.rows.seen run id = if id = key then none else table id := by
    intro id
    change (rows.write run key none).seen run id = _
    rw [LockedRows.seen_write, LockedRows.seen_acquire acquired]
    rfl
  have unmatched : ∀ id row, cleared.rows.seen run id = some row →
      registration.matches row = false := by
    intro id other found
    rw [seen] at found
    split at found
    case isTrue => cases found
    case isFalse distinct =>
      by_contra matched
      obtain ⟨name, version⟩ := Registration.matches_iff.mp fits
      obtain ⟨name', version'⟩ := Registration.matches_iff.mp (by simpa using matched)
      exact distinct (consistent.unique id key other row found stored (name'.trans name.symm)
        (version'.trans version.symm))
  let replaced : DatasetRegistry n :=
    { cleared.put run (.reserved registration cleared.nextId)
        (cleared.rows.write run cleared.nextId (some registration.row)) with
      nextId := cleared.nextId + 1 }
  have inserted : restrictedStep referenced cleared (.statement run) = some replaced :=
    restrictedStep_inserting (Function.update_self ..)
      ((sole.acquire acquired).write key none) unmatched
  have committed : restrictedStep referenced replaced (.statement run) =
      some (replaced.put run (.uploading registration cleared.nextId)
        (replaced.rows.commit run)) :=
    restrictedStep_reserved (Function.update_self ..)
  refine ⟨_, runs_tail (runs_tail (runs_tail (runs_tail .refl (byRun _) selected) (byRun _)
    deleted) (byRun _) inserted) (byRun _) committed, ?_⟩
  have issued : key ≠ cleared.nextId := by
    intro same
    simp [consistent.issued key (Nat.le_of_eq same.symm)] at stored
  change (cleared.rows.write run cleared.nextId _).seen run key = none
  rw [LockedRows.seen_write, if_neg issued, seen, if_pos rfl]

/-- A run harms no finished row exactly if every archived row of its name and
version is protected by a reference.  It clears up after its upload exactly if it
is not aborted before it has ended. -/
theorem harmless_iff_spares_archived {table : Nat → Option DatasetRow} {nextId : Nat}
    {referenced : Nat → Bool} (consistent : Consistent table nextId referenced) (run : Fin n)
    (registration : Registration) :
    (Harmless table nextId referenced run registration ↔
      SparesArchived table referenced registration) ∧
    ∀ raised given last, Raised table nextId referenced run registration raised →
      Runs (restrictedStep referenced) (Unaborted run) raised given →
      given.runs run ≠ .failed → restrictedStep referenced given (.abort run) = some last →
      ¬ last.Cleared registration := by
  refine ⟨⟨?_, ?_⟩, ?_⟩
  · intro harmless key row stored fits archived
    by_contra unreferenced
    obtain ⟨last, reached, gone⟩ :=
      deletes_archived consistent run stored fits archived (by simpa using unreferenced)
    have kept := harmless.keeps last reached key row stored (by simp [archived])
    simp [gone] at kept
  · intro spares
    constructor
    · intro registry reached id row stored finished
      exact ((Solo.reached consistent reached).kept spares id row stored finished).1
    · intro raised last failed toLast ended
      obtain ⟨_, ⟨key, located⟩ | located | ⟨_, cleared⟩⟩ :=
        Solo.compensating_runs consistent failed toLast
      · cases ended.symm.trans located
      · cases ended.symm.trans located
      · exact cleared
    · intro raised failed
      exact Solo.compensating_ends consistent (Solo.compensating_raised consistent failed)
  · intro raised given last failed toGiven running aborted
    exact Solo.not_cleared_of_abort (Solo.compensating_runs consistent failed toGiven) running
      aborted

def archivedExport : DatasetRow where
  name := "annotations"
  version := "9f86d081"
  storagePath := "datasets/annotations/9f86d081.csv"
  pathType := .object
  sizeBytes := 4
  sha256Checksum := "9f86d081"
  status := .archived
  sourceDescription := none

def exportAgain : Registration where
  name := "annotations"
  version := "9f86d081"
  storagePath := "datasets/annotations/9f86d081.csv"
  pathType := .object
  sizeBytes := 4
  sha256Checksum := "9f86d081"
  sourceDescription := none

def laterExport : Registration where
  name := "annotations"
  version := "60303ae2"
  storagePath := "datasets/annotations/60303ae2.csv"
  pathType := .object
  sizeBytes := 5
  sha256Checksum := "60303ae2"
  sourceDescription := none

def archiveTable : Nat → Option DatasetRow
  | 0 => some archivedExport
  | _ + 1 => none

theorem archiveTable_consistent (referenced : Nat → Bool)
    (refers : ∀ id, referenced id = true → id = 0) :
    Consistent archiveTable 1 referenced where
  issued id late := by
    cases id with
    | zero => omega
    | succ id => rfl
  unique id other _ _ stored stored' _ _ := by
    cases id with
    | zero =>
        cases other with
        | zero => rfl
        | succ other => cases stored'
    | succ id => cases stored
  refers id marked := by
    rw [refers id marked]
    simp [archiveTable]

theorem laterExport_raised (referenced : Nat → Bool) :
    ∃ raised, Raised archiveTable 1 referenced (0 : Fin 1) laterExport raised ∧
      raised.runs 0 = .removing laterExport 1 := by
  have replayed : (replay (restrictedStep referenced) (Alone 0)
      (started archiveTable 1 (0 : Fin 1) laterExport) (List.replicate 3 (.statement 0))).any
        (fun registry => registry.runs 0 = .uploading laterExport 1) = true := by
    rfl
  obtain ⟨uploading, reached, located⟩ := exists_runs_of_replay replayed
  have located : uploading.runs 0 = .uploading laterExport 1 := by simpa using located
  refine ⟨uploading.put 0 (.removing laterExport 1) uploading.rows,
    ⟨uploading, 1, reached, located, ?_⟩, by simp [put]⟩
  simp [restrictedStep, DatasetRegistry.step, located]

theorem harmless_iff_spares_archived_referenced :
    Harmless archiveTable 1 (· = 0) (0 : Fin 1) exportAgain ∧
      ∃ raised last, Raised archiveTable 1 (· = 0) (0 : Fin 1) laterExport raised ∧
        restrictedStep (· = 0) raised (.abort 0) = some last ∧ ¬ last.Cleared laterExport := by
  have consistent :=
    archiveTable_consistent (· = 0) fun id marked => by simpa using marked
  refine ⟨(harmless_iff_spares_archived consistent 0 exportAgain).1.mpr
    fun id row stored _ _ => ?_, ?_⟩
  · cases id with
    | zero => rfl
    | succ id => cases stored
  · obtain ⟨raised, failed, located⟩ := laterExport_raised (· = 0)
    have aborted : restrictedStep (· = 0) raised (.abort 0) =
        some (raised.put 0 .failed (raised.rows.rollback 0)) := by
      simp [restrictedStep, DatasetRegistry.step, located]
    exact ⟨raised, _, failed, aborted,
      (harmless_iff_spares_archived consistent 0 laterExport).2 raised raised _ failed .refl
        (by simp [located]) aborted⟩

/-- Registering an archived export again deletes its row. -/
theorem archived_row_deleted :
    Consistent archiveTable 1 (fun _ => false) ∧
      ¬ Harmless archiveTable 1 (fun _ => false) (0 : Fin 1) exportAgain := by
  have consistent := archiveTable_consistent (fun _ => false) (fun _ marked => by cases marked)
  refine ⟨consistent, fun harmless => ?_⟩
  have stored : archiveTable 0 = some archivedExport := rfl
  have fits : exportAgain.matches archivedExport = true := by decide
  obtain ⟨last, reached, gone⟩ :=
    deletes_archived consistent (0 : Fin 1) stored fits rfl rfl
  have kept := harmless.keeps last reached 0 archivedExport rfl (by decide)
  simp [gone] at kept

end Crucible.DatasetRegistry
