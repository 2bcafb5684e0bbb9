import Crucible.JobSchema
import Crucible.ModelCatalogue
import Crucible.UniqueIndexes

/-!
# Registering models

`register_model` runs up to four statements in one transaction.  The `models`
table carries its constraints, so a statement whose result would break one is
refused; unique indexes are checked after each row that a statement writes.
-/

namespace Crucible

/-- A row of the `models` table, without its primary key. -/
structure Model extends ModelRow where
  displayName : String
  archivedAt : Option Time
  createdAt : Time
  deriving DecidableEq, Repr

namespace Model

/-- The entry under `UNIQUE (hf_repo_id, revision)`. -/
def revisionEntry (row : Model) : Option (String × String) :=
  some (row.hfRepoId, row.revision)

/-- The entry in `models_one_default_per_repo`. -/
def defaultEntry (row : Model) : Option String :=
  if row.isDefault then some row.hfRepoId else none

def setDefault (value : Bool) (row : Model) : Model :=
  { row with isDefault := value }

@[simp]
theorem revisionEntry_setDefault (value : Bool) (row : Model) :
    (row.setDefault value).revisionEntry = row.revisionEntry :=
  rfl

@[simp]
theorem defaultEntry_setDefault_false (row : Model) :
    (row.setDefault false).defaultEntry = none :=
  rfl

@[simp]
theorem setDefault_setDefault (first second : Bool) (row : Model) :
    (row.setDefault first).setDefault second = row.setDefault second :=
  rfl

theorem defaultEntry_eq_some {row : Model} {repo : String} :
    row.defaultEntry = some repo ↔ row.isDefault = true ∧ row.hfRepoId = repo := by
  unfold defaultEntry
  split <;> simp_all

end Model

/-- The `models` table with its sequence and its constraints. -/
structure ModelsTable where
  rows : KeyedTable Nat Model
  nextId : Nat
  issued : ∀ id, nextId ≤ id → rows.lookup id = none
  revisions : rows.Indexed Model.revisionEntry
  defaults : rows.Indexed Model.defaultEntry

inductive RegistrationError where
  | valueError (message : String)
  | uniqueViolation (constraint : String)
  deriving DecidableEq, Repr

/-- What the columns can hold: texts without NUL, and a count in a `BIGINT`. -/
def Storable (texts : List String) (paramCount : Option Nat) : Prop :=
  (∀ text ∈ texts, '\x00' ∉ text.toList) ∧ ∀ count ∈ paramCount, count < 2 ^ 63

instance (texts : List String) (paramCount : Option Nat) :
    Decidable (Storable texts paramCount) :=
  inferInstanceAs (Decidable (_ ∧ _))

/-- The arguments of `register_model`, within the types of their columns. -/
structure ModelArguments where
  hfRepoId : String
  revision : String
  displayName : String
  paramCount : Option Nat
  vramHint : Option VramHint
  setDefault : Bool
  storable : Storable [hfRepoId, revision, displayName] paramCount
  deriving DecidableEq, Repr

def comfortableMaxParams : Nat :=
  8500000000

def vramHintFor : Option Nat → Option VramHint
  | none => none
  | some count =>
      if count ≤ comfortableMaxParams then some .comfortable
      else if count ≤ tightMaxParams then some .tight
      else some .unsupported

/-- The hint stored at registration and the worker's preflight check agree. -/
theorem checkModelFits_vramHintFor (paramCount : Option Nat) :
    checkModelFits paramCount (vramHintFor paramCount) = .ok () ↔
      vramHintFor paramCount ≠ some .unsupported := by
  cases paramCount with
  | none => simp [checkModelFits, vramHintFor]
  | some count =>
      have thresholds : comfortableMaxParams ≤ tightMaxParams := by decide
      by_cases comfortable : count ≤ comfortableMaxParams
      · have fits : ¬ tightMaxParams < count := by omega
        simp [checkModelFits, vramHintFor, comfortable, fits]
      · by_cases tight : count ≤ tightMaxParams
        · simp [checkModelFits, vramHintFor, comfortable, tight]
        · simp [checkModelFits, vramHintFor, comfortable, tight]

/-- The values of the `INSERT`. -/
def ModelArguments.row (args : ModelArguments) (now : Time) : Model where
  hfRepoId := args.hfRepoId
  revision := args.revision
  displayName := args.displayName
  paramCount := args.paramCount
  vramHint := args.vramHint
  status := .ready
  isDefault := false
  archivedAt := none
  createdAt := now

namespace ModelsTable

def empty : ModelsTable where
  rows := ∅
  nextId := 1
  issued _ _ := AList.lookup_empty _
  revisions := KeyedTable.indexed_empty
  defaults := KeyedTable.indexed_empty

/-- Accept the rows that a statement has written so far, or the violation. -/
def accept (rows : KeyedTable Nat Model) (nextId : Nat)
    (issued : ∀ id, nextId ≤ id → rows.lookup id = none) :
    Except RegistrationError ModelsTable :=
  if revisions : rows.Indexed Model.revisionEntry then
    if defaults : rows.Indexed Model.defaultEntry then
      .ok ⟨rows, nextId, issued, revisions, defaults⟩
    else
      .error (.uniqueViolation "models_one_default_per_repo")
  else
    .error (.uniqueViolation "models_hf_repo_id_revision_key")

/-- `INSERT .. RETURNING id`. -/
def insert (table : ModelsTable) (row : Model) :
    Except RegistrationError (Nat × ModelsTable) := do
  let next ← accept (table.rows.insert table.nextId row) (table.nextId + 1) (by
    intro id late
    rw [KeyedTable.lookup_insert, if_neg (by omega), table.issued id (by omega)])
  return (table.nextId, next)

def writeDefault (value : Bool) (table : ModelsTable) (id : Nat) :
    Except RegistrationError ModelsTable :=
  accept (table.rows.modify id (Model.setDefault value)) table.nextId (by
    intro other late
    rw [KeyedTable.lookup_modify, table.issued other late]
    split
    case isTrue same => rw [← same, table.issued other late]; rfl
    case isFalse => rfl)

/-- `UPDATE models SET is_default = ..` of the rows that its `WHERE` has found. -/
def updateDefault (value : Bool) (ids : List Nat) (table : ModelsTable) :
    Except RegistrationError ModelsTable :=
  ids.foldlM (writeDefault value) table

def ofRevision (table : ModelsTable) (hfRepoId revision : String) : List Nat :=
  table.rows.select fun row => row.hfRepoId = hfRepoId ∧ row.revision = revision

def othersOfRepo (table : ModelsTable) (hfRepoId : String) (id : Nat) : List Nat :=
  (table.rows.select fun row => row.hfRepoId = hfRepoId).filter (· ≠ id)

/-- The message of the `ValueError`. -/
def alreadyRegistered (hfRepoId revision : String) (id : Nat) : String :=
  "Model " ++ hfRepoId ++ "@" ++ revision ++ " is already registered (id=" ++
    Nat.repr id ++ ")."

/-- `register_model`, with the table that its transaction would commit. -/
def registerModel (table : ModelsTable) (now : Time) (args : ModelArguments) :
    Except RegistrationError (Nat × ModelsTable) :=
  match table.ofRevision args.hfRepoId args.revision with
  | existing :: _ =>
      .error (.valueError (alreadyRegistered args.hfRepoId args.revision existing))
  | [] => do
      let (modelId, inserted) ← table.insert (args.row now)
      if args.setDefault then
        let cleared ← inserted.updateDefault false (inserted.othersOfRepo args.hfRepoId modelId)
        let updated ← cleared.updateDefault true [modelId]
        return (modelId, updated)
      else
        return (modelId, inserted)

/-- The table after a call: an exception rolls the transaction back. -/
def afterCall (table : ModelsTable) (now : Time) (args : ModelArguments) : ModelsTable :=
  match table.registerModel now args with
  | .ok (_, next) => next
  | .error _ => table

def afterCalls (table : ModelsTable) (calls : List (Time × ModelArguments)) : ModelsTable :=
  calls.foldl (fun table call => table.afterCall call.1 call.2) table

def Registered (table : ModelsTable) (hfRepoId revision : String) : Prop :=
  ∃ id row, table.rows.lookup id = some row ∧ row.hfRepoId = hfRepoId ∧ row.revision = revision

variable {table next : ModelsTable} {now : Time} {args : ModelArguments}

theorem registered_iff {hfRepoId revision : String} :
    table.Registered hfRepoId revision ↔ table.ofRevision hfRepoId revision ≠ [] := by
  constructor
  · rintro ⟨id, row, stored, repo, sha⟩ missing
    have member : id ∈ table.ofRevision hfRepoId revision :=
      KeyedTable.mem_select.mpr ⟨row, stored, by simp [repo, sha]⟩
    simp [missing] at member
  · intro present
    obtain ⟨id, member⟩ := List.exists_mem_of_ne_nil _ present
    obtain ⟨row, stored, fits⟩ := KeyedTable.mem_select.mp member
    obtain ⟨repo, sha⟩ := of_decide_eq_true fits
    exact ⟨id, row, stored, repo, sha⟩

theorem accept_ok {rows : KeyedTable Nat Model} (nextId : Nat)
    (issued : ∀ id, nextId ≤ id → rows.lookup id = none)
    (revisions : rows.Indexed Model.revisionEntry) (defaults : rows.Indexed Model.defaultEntry) :
    ∃ next, accept rows nextId issued = .ok next ∧ next.rows = rows :=
  ⟨⟨rows, nextId, issued, revisions, defaults⟩, by simp [accept, revisions, defaults], rfl⟩

theorem writeDefault_ok {value : Bool} {id : Nat}
    (defaults : KeyedTable.Indexed Model.defaultEntry
      (table.rows.modify id (Model.setDefault value))) :
    ∃ next, table.writeDefault value id = .ok next ∧
      next.rows = table.rows.modify id (Model.setDefault value) :=
  accept_ok _ _ (table.revisions.modify_of_subset fun _ => Or.inr rfl) defaults

theorem insert_absent (absent : ¬ table.Registered args.hfRepoId args.revision) :
    ∃ next, table.insert (args.row now) = .ok (table.nextId, next) ∧
      next.rows = table.rows.insert table.nextId (args.row now) := by
  have revisions : KeyedTable.Indexed Model.revisionEntry
      (table.rows.insert table.nextId (args.row now)) := by
    refine table.revisions.insert fun other row' _ stored _ same => absent ⟨other, row', stored, ?_⟩
    simpa [Model.revisionEntry, ModelArguments.row] using same
  have defaults : KeyedTable.Indexed Model.defaultEntry
      (table.rows.insert table.nextId (args.row now)) := by
    refine table.defaults.insert fun other row' _ _ listed same => listed ?_
    rw [same]
    rfl
  obtain ⟨next, accepted, same⟩ := accept_ok (table.nextId + 1) _ revisions defaults
  exact ⟨next, by rw [insert, accepted]; rfl, same⟩

/-- Clearing `is_default` is accepted, in whatever order the rows are written. -/
theorem updateDefault_false (ids : List Nat) (table : ModelsTable) :
    ∃ next, table.updateDefault false ids = .ok next ∧ ∀ other,
      next.rows.lookup other =
        if other ∈ ids then (table.rows.lookup other).map (Model.setDefault false)
        else table.rows.lookup other := by
  induction ids generalizing table with
  | nil => exact ⟨table, rfl, fun other => by simp⟩
  | cons id ids ih =>
      obtain ⟨written, accepted, rows⟩ := writeDefault_ok
        (table.defaults.modify_of_subset fun row => Or.inl row.defaultEntry_setDefault_false)
      obtain ⟨next, finished, lookups⟩ := ih written
      refine ⟨next, ?_, fun other => ?_⟩
      · rw [updateDefault, List.foldlM_cons, accepted]
        exact finished
      · rw [lookups other, rows, KeyedTable.lookup_modify]
        by_cases atId : other = id
        · subst atId
          by_cases later : other ∈ ids <;> simp [later, Function.comp_def]
        · simp [atId]

/-- Setting `is_default` is accepted once no other row of the repo has it. -/
theorem updateDefault_true {id : Nat} {row : Model} (stored : table.rows.lookup id = some row)
    (cleared : ∀ other row', other ≠ id → table.rows.lookup other = some row' →
      row'.hfRepoId = row.hfRepoId → row'.isDefault = false) :
    ∃ next, table.updateDefault true [id] = .ok next ∧
      next.rows = table.rows.modify id (Model.setDefault true) := by
  have defaults : KeyedTable.Indexed Model.defaultEntry
      (table.rows.modify id (Model.setDefault true)) := by
    refine table.defaults.modify fun row₁ other row' found distinct found' _ same => ?_
    obtain rfl : row = row₁ := Option.some.inj (stored.symm.trans found)
    obtain ⟨isDefault, repo⟩ := Model.defaultEntry_eq_some.mp
      (show row'.defaultEntry = some row.hfRepoId from same)
    simp [cleared other row' distinct found' repo] at isDefault
  obtain ⟨next, accepted, rows⟩ := writeDefault_ok defaults
  exact ⟨next, by rw [updateDefault, List.foldlM_cons, accepted]; rfl, rows⟩

end ModelsTable

/-- What a call does to a row that was there before. -/
def ModelArguments.demote (args : ModelArguments) (row : Model) : Model :=
  if args.setDefault = true ∧ row.hfRepoId = args.hfRepoId then row.setDefault false else row

namespace ModelArguments

variable {args : ModelArguments} {row : Model}

@[simp]
theorem demote_hfRepoId : (args.demote row).hfRepoId = row.hfRepoId := by
  unfold demote
  split <;> rfl

theorem demote_of_foreign (foreign : row.hfRepoId ≠ args.hfRepoId) : args.demote row = row :=
  if_neg fun both => foreign both.2

theorem demote_of_not_asked (asked : args.setDefault = false) : args.demote row = row :=
  if_neg fun both => by simp [asked] at both

theorem demote_isDefault (asked : args.setDefault = true)
    (repo : row.hfRepoId = args.hfRepoId) : (args.demote row).isDefault = false := by
  rw [demote, if_pos ⟨asked, repo⟩]
  rfl

end ModelArguments

namespace ModelsTable

variable {table next : ModelsTable} {now : Time} {args : ModelArguments}

theorem registerModel_present {id : Nat} {row : Model}
    (stored : table.rows.lookup id = some row) (repo : row.hfRepoId = args.hfRepoId)
    (revision : row.revision = args.revision) :
    table.registerModel now args =
      .error (.valueError (alreadyRegistered args.hfRepoId args.revision id)) := by
  have present : table.ofRevision args.hfRepoId args.revision ≠ [] :=
    registered_iff.mp ⟨id, row, stored, repo, revision⟩
  obtain ⟨existing, rest, listed⟩ := List.exists_cons_of_ne_nil present
  have member : existing ∈ table.ofRevision args.hfRepoId args.revision := by simp [listed]
  obtain ⟨row', stored', fits⟩ := KeyedTable.mem_select.mp member
  obtain ⟨repo', revision'⟩ := of_decide_eq_true fits
  have same : existing = id := KeyedTable.indexed_iff.mp table.revisions existing id row' row
    stored' stored (by simp [Model.revisionEntry])
    (by simp [Model.revisionEntry, repo, repo', revision, revision'])
  simp only [registerModel, listed, same]

theorem mem_othersOfRepo {hfRepoId : String} {id other : Nat} :
    other ∈ table.othersOfRepo hfRepoId id ↔
      (∃ row, table.rows.lookup other = some row ∧ row.hfRepoId = hfRepoId) ∧ other ≠ id := by
  simp [othersOfRepo, List.mem_filter, KeyedTable.mem_select]

/-- The two `UPDATE`s make a row the only default of its repo. -/
theorem updateDefaults_ok {id : Nat} {row : Model} (stored : table.rows.lookup id = some row) :
    ∃ cleared next, table.updateDefault false (table.othersOfRepo row.hfRepoId id) = .ok cleared ∧
      cleared.updateDefault true [id] = .ok next ∧ ∀ other, next.rows.lookup other =
        if other = id then some (row.setDefault true)
        else (table.rows.lookup other).map fun row' =>
          if row'.hfRepoId = row.hfRepoId then row'.setDefault false else row' := by
  obtain ⟨cleared, accepted, lookups⟩ :=
    updateDefault_false (table.othersOfRepo row.hfRepoId id) table
  have elsewhere : ∀ other, other ≠ id → cleared.rows.lookup other =
      (table.rows.lookup other).map fun row' =>
        if row'.hfRepoId = row.hfRepoId then row'.setDefault false else row' := by
    intro other distinct
    rw [lookups other]
    cases found : table.rows.lookup other with
    | none => simp
    | some row' =>
        by_cases repo : row'.hfRepoId = row.hfRepoId <;>
          simp [mem_othersOfRepo, found, repo, distinct]
  have own : cleared.rows.lookup id = some row := by
    rw [lookups id, if_neg (by simp [mem_othersOfRepo]), stored]
  obtain ⟨next, finished, rows⟩ := updateDefault_true own (by
    intro other row' distinct found repo
    rw [elsewhere other distinct] at found
    obtain ⟨before, _, rfl⟩ := Option.map_eq_some_iff.mp found
    split
    case isTrue => rfl
    case isFalse foreign =>
      rw [if_neg foreign] at repo
      exact absurd repo foreign)
  refine ⟨cleared, next, accepted, finished, fun other => ?_⟩
  rw [rows, KeyedTable.lookup_modify]
  by_cases same : other = id
  · simp [same, own]
  · rw [if_neg same, if_neg same, elsewhere other same]

/-- An absent revision becomes one new row, and only `is_default` of the repo's
other rows can change. -/
theorem registerModel_absent (table : ModelsTable) (now : Time)
    (absent : ¬ table.Registered args.hfRepoId args.revision) :
    ∃ next, table.registerModel now args = .ok (table.nextId, next) ∧
      ∀ other, next.rows.lookup other =
        if other = table.nextId then some ((args.row now).setDefault args.setDefault)
        else (table.rows.lookup other).map args.demote := by
  have missing : table.ofRevision args.hfRepoId args.revision = [] := by
    by_contra present
    exact absent (registered_iff.mpr present)
  obtain ⟨inserted, accepted, rows⟩ := insert_absent absent
  have lookups : ∀ other, inserted.rows.lookup other =
      if other = table.nextId then some (args.row now) else table.rows.lookup other := by
    intro other
    rw [rows, KeyedTable.lookup_insert]
  cases asked : args.setDefault with
  | false =>
      refine ⟨inserted, ?_, fun other => ?_⟩
      · simp only [registerModel, missing, accepted, asked]
        rfl
      · have kept : args.demote = id :=
          funext fun row => ModelArguments.demote_of_not_asked asked
        simp only [lookups, kept, Option.map_id_fun, id]
        rfl
  | true =>
      have own : inserted.rows.lookup table.nextId = some (args.row now) := by
        rw [lookups, if_pos rfl]
      obtain ⟨cleared, next, demoted, promoted, result⟩ := updateDefaults_ok own
      refine ⟨next, ?_, fun other => ?_⟩
      · have cleared_ok : inserted.updateDefault false
            (inserted.othersOfRepo args.hfRepoId table.nextId) = .ok cleared := demoted
        simp only [registerModel, missing, accepted, asked, if_true, bind, Except.bind,
          cleared_ok, promoted]
        rfl
      · rw [result, lookups]
        by_cases same : other = table.nextId
        · simp [same]
        · simp only [same, if_false]
          congr 1
          funext row
          by_cases repo : row.hfRepoId = args.hfRepoId <;>
            simp [ModelArguments.demote, asked, ModelArguments.row, repo]

/-- What a call adds: one ready row, which with `set_default` is the only default
of its repo and without leaves the defaults as they are. -/
structure AddsRow (before after : ModelsTable) (now : Time) (args : ModelArguments)
    (id : Nat) : Prop where
  fresh : before.rows.lookup id = none
  added : ∃ row, after.rows.lookup id = some row ∧ row.hfRepoId = args.hfRepoId ∧
    row.revision = args.revision ∧ row.status = .ready
  others : ∀ other, other ≠ id →
    after.rows.lookup other = (before.rows.lookup other).map args.demote
  elsewhere : ∀ other row, row.hfRepoId ≠ args.hfRepoId →
    (after.rows.lookup other = some row ↔ before.rows.lookup other = some row)
  soleDefault : args.setDefault = true → ∀ other row, after.rows.lookup other = some row →
    row.hfRepoId = args.hfRepoId → (row.isDefault = true ↔ other = id)
  sameDefault : args.setDefault = false → ∀ other row, row.isDefault = true →
    (after.rows.lookup other = some row ↔ before.rows.lookup other = some row)

/-- What one call of `register_model` may do. -/
structure Conforms (before : ModelsTable) (now : Time) (args : ModelArguments) : Prop where
  refuses : before.Registered args.hfRepoId args.revision ↔
    ∃ message, before.registerModel now args = .error (.valueError message)
  unchanged : before.Registered args.hfRepoId args.revision → before.afterCall now args = before
  accepts : ¬ before.Registered args.hfRepoId args.revision → ∃ id,
    before.registerModel now args = .ok (id, before.afterCall now args) ∧
      AddsRow before (before.afterCall now args) now args id
  unhindered : ∀ constraint,
    before.registerModel now args ≠ .error (.uniqueViolation constraint)

theorem addsRow_of_lookups {before after : ModelsTable}
    (lookups : ∀ other, after.rows.lookup other =
      if other = before.nextId then some ((args.row now).setDefault args.setDefault)
      else (before.rows.lookup other).map args.demote) :
    AddsRow before after now args before.nextId := by
  have fresh := before.issued before.nextId (Nat.le_refl _)
  have added : after.rows.lookup before.nextId =
      some ((args.row now).setDefault args.setDefault) := by
    rw [lookups, if_pos rfl]
  have others : ∀ other, other ≠ before.nextId →
      after.rows.lookup other = (before.rows.lookup other).map args.demote := by
    intro other distinct
    rw [lookups, if_neg distinct]
  -- a row that the call neither adds nor changes
  have kept : ∀ other row, row ≠ (args.row now).setDefault args.setDefault →
      (∀ row', args.demote row' = row ↔ row' = row) →
      (after.rows.lookup other = some row ↔ before.rows.lookup other = some row) := by
    intro other row distinct fixed
    by_cases same : other = before.nextId
    · rw [same, added, fresh]
      constructor
      · intro equal
        exact absurd (Option.some.inj equal).symm distinct
      · intro absent
        cases absent
    · rw [others other same, Option.map_eq_some_iff]
      simp only [fixed, exists_eq_right]
  refine ⟨fresh, ⟨_, added, rfl, rfl, rfl⟩, others, ?_, ?_, ?_⟩
  · intro other row foreign
    refine kept other row (fun same => foreign (same ▸ rfl)) fun row' => ?_
    constructor
    · rintro rfl
      rw [ModelArguments.demote_of_foreign (by simpa using foreign)]
    · rintro rfl
      exact ModelArguments.demote_of_foreign foreign
  · intro asked other row found repo
    by_cases same : other = before.nextId
    · rw [same, added] at found
      cases found
      simp [same, asked, Model.setDefault]
    · rw [others other same] at found
      obtain ⟨row', _, rfl⟩ := Option.map_eq_some_iff.mp found
      simp [same, ModelArguments.demote_isDefault asked (by simpa using repo)]
  · intro asked other row isDefault
    refine kept other row (fun same => ?_) fun row' => ?_
    · rw [same, asked] at isDefault
      cases isDefault
    · rw [ModelArguments.demote_of_not_asked asked]

/-- Every call in every sequence of calls conforms.  That the constraints hold
before and after it is part of the tables themselves. -/
theorem register_model_keeps_catalogue (table : ModelsTable)
    (calls : List (Time × ModelArguments)) (now : Time) (args : ModelArguments) :
    Conforms (table.afterCalls calls) now args := by
  generalize table.afterCalls calls = before
  by_cases present : before.Registered args.hfRepoId args.revision
  · obtain ⟨id, row, stored, repo, revision⟩ := id present
    have refused : before.registerModel now args =
        .error (.valueError (alreadyRegistered args.hfRepoId args.revision id)) :=
      registerModel_present stored repo revision
    exact {
      refuses := ⟨fun _ => ⟨_, refused⟩, fun _ => present⟩
      unchanged := fun _ => by rw [afterCall, refused]
      accepts := fun absent => absurd present absent
      unhindered := fun constraint => by simp [refused] }
  · obtain ⟨next, accepted, lookups⟩ := before.registerModel_absent now present
    have after : before.afterCall now args = next := by rw [afterCall, accepted]
    exact {
      refuses := ⟨fun registered => absurd registered present, by simp [accepted]⟩
      unchanged := fun registered => absurd registered present
      accepts := fun _ => ⟨before.nextId, by rw [after, accepted],
        by rw [after]; exact addsRow_of_lookups lookups⟩
      unhindered := fun constraint => by simp [accepted] }

end ModelsTable

end Crucible
