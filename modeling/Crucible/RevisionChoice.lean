import Crucible.ModelRegistration

/-!
# Which revision a job trains on

The worker looks a repo up with `ORDER BY is_default DESC LIMIT 1`.  Over the
tables that registering and archiving can produce, the order picks one row
exactly if a default is ready or no two revisions are.
-/

namespace Crucible

/-- The version of a row that archiving leaves. -/
def Model.archive (now : Time) (row : Model) : Model :=
  { row with status := .archived, archivedAt := some now }

/-- What may happen to the `models` table. -/
inductive CatalogueAction where
  | register (now : Time) (args : ModelArguments)
  | archive (now : Time) (id : Nat)

namespace ModelsTable

/-- Archive a row; it keeps its `is_default`. -/
def archive (table : ModelsTable) (now : Time) (id : Nat) : ModelsTable where
  rows := table.rows.modify id (Model.archive now)
  nextId := table.nextId
  issued other late := by
    rw [KeyedTable.lookup_modify, table.issued other late]
    split
    case isTrue same => rw [← same, table.issued other late]; rfl
    case isFalse => rfl
  revisions := table.revisions.modify_of_subset fun _ => Or.inr rfl
  defaults := table.defaults.modify_of_subset fun _ => Or.inr rfl

def act (table : ModelsTable) : CatalogueAction → ModelsTable
  | .register now args => table.afterCall now args
  | .archive now id => table.archive now id

def built (actions : List CatalogueAction) : ModelsTable :=
  actions.foldl act empty

/-- The columns that the worker reads. -/
def modelRows (table : ModelsTable) : List ModelRow :=
  table.rows.entries.map fun entry => entry.2.toModelRow

/-- A row that the worker's `WHERE` clause selects. -/
def Ready (table : ModelsTable) (hfRepoId : String) (id : Nat) (row : Model) : Prop :=
  table.rows.lookup id = some row ∧ row.hfRepoId = hfRepoId ∧ row.status = .ready

/-- Whatever way ties are broken, the lookup answers the same: the default if it
is ready, and nothing if no revision is. -/
structure Determined (table : ModelsTable) (hfRepoId : String) : Prop where
  agrees : ∀ pick pick', PickAllowed table.modelRows hfRepoId pick →
    PickAllowed table.modelRows hfRepoId pick' →
    getModelMeta table.modelRows hfRepoId pick = getModelMeta table.modelRows hfRepoId pick'
  defaults : ∀ id row, table.Ready hfRepoId id row → row.isDefault = true →
    ∀ pick, PickAllowed table.modelRows hfRepoId pick →
      getModelMeta table.modelRows hfRepoId pick = some row.toMeta
  none_ready : (∀ id row, ¬ table.Ready hfRepoId id row) →
    ∀ pick, getModelMeta table.modelRows hfRepoId pick = none

/-- A default is ready, or at most one revision is. -/
def Pinned (table : ModelsTable) (hfRepoId : String) : Prop :=
  (∃ id row, table.Ready hfRepoId id row ∧ row.isDefault = true) ∨
    ∀ id id' row row', table.Ready hfRepoId id row → table.Ready hfRepoId id' row' → id = id'

variable {table : ModelsTable} {hfRepoId : String}

theorem mem_modelRows {row : ModelRow} :
    row ∈ table.modelRows ↔
      ∃ id stored, table.rows.lookup id = some stored ∧ stored.toModelRow = row := by
  simp only [modelRows, List.mem_map]
  constructor
  · rintro ⟨entry, member, rfl⟩
    exact ⟨entry.1, entry.2, AList.mem_lookup_iff.mpr member, rfl⟩
  · rintro ⟨id, stored, found, rfl⟩
    exact ⟨⟨id, stored⟩, AList.mem_lookup_iff.mp found, rfl⟩

theorem mem_ready {row : ModelRow} :
    row ∈ table.modelRows.filter (fun row => row.hfRepoId = hfRepoId ∧ row.status = .ready) ↔
      ∃ id stored, table.Ready hfRepoId id stored ∧ stored.toModelRow = row := by
  simp only [List.mem_filter, mem_modelRows, decide_eq_true_eq]
  constructor
  · rintro ⟨⟨id, stored, found, rfl⟩, fits⟩
    exact ⟨id, stored, ⟨found, fits⟩, rfl⟩
  · rintro ⟨id, stored, ⟨found, fits⟩, rfl⟩
    exact ⟨⟨id, stored, found, rfl⟩, fits⟩

/-- The rows that may come first: the ready default, or every ready row if the
default is missing or archived. -/
theorem mem_firstModelRows {row : ModelRow} :
    row ∈ firstModelRows table.modelRows hfRepoId ↔
      ∃ id stored, table.Ready hfRepoId id stored ∧ stored.toModelRow = row ∧
        (stored.isDefault = true ∨
          ∀ id' row', table.Ready hfRepoId id' row' → row'.isDefault = false) := by
  simp only [firstModelRows]
  split
  case isTrue missing =>
    have plain : ∀ id row, table.Ready hfRepoId id row → row.isDefault = false := by
      intro id row ready
      have kept := List.filter_eq_nil_iff.mp missing _ (mem_ready.mpr ⟨id, row, ready, rfl⟩)
      simpa using kept
    rw [mem_ready]
    constructor
    · rintro ⟨id, stored, ready, same⟩
      exact ⟨id, stored, ready, same, Or.inr plain⟩
    · rintro ⟨id, stored, ready, same, _⟩
      exact ⟨id, stored, ready, same⟩
  case isFalse present =>
    obtain ⟨first, member⟩ := List.exists_mem_of_ne_nil _ present
    obtain ⟨listed, isDefault⟩ := List.mem_filter.mp member
    obtain ⟨id', row', ready', rfl⟩ := mem_ready.mp listed
    rw [List.mem_filter, mem_ready]
    constructor
    · rintro ⟨⟨id, stored, ready, rfl⟩, chosen⟩
      exact ⟨id, stored, ready, rfl, Or.inl chosen⟩
    · rintro ⟨id, stored, ready, rfl, chosen | plain⟩
      · exact ⟨⟨id, stored, ready, rfl⟩, chosen⟩
      · simp [plain id' row' ready'] at isDefault

theorem exists_pick {row : ModelRow} (member : row ∈ firstModelRows table.modelRows hfRepoId) :
    ∃ pick, PickAllowed table.modelRows hfRepoId pick ∧
      getModelMeta table.modelRows hfRepoId pick = some row.toMeta := by
  obtain ⟨pick, bound, same⟩ := List.getElem_of_mem member
  refine ⟨pick, Or.inr bound, ?_⟩
  unfold getModelMeta
  rw [List.getElem?_eq_getElem bound, same]
  rfl

theorem getModelMeta_allowed {pick : Nat} (allowed : PickAllowed table.modelRows hfRepoId pick) :
    (firstModelRows table.modelRows hfRepoId = [] ∧
        getModelMeta table.modelRows hfRepoId pick = none) ∨
      ∃ row ∈ firstModelRows table.modelRows hfRepoId,
        getModelMeta table.modelRows hfRepoId pick = some row.toMeta := by
  unfold getModelMeta
  obtain missing | bound := allowed
  · exact Or.inl ⟨missing, by simp [missing]⟩
  · exact Or.inr ⟨_, List.getElem_mem bound, by rw [List.getElem?_eq_getElem bound]; rfl⟩

theorem getModelMeta_of_forall {row : ModelRow} {pick : Nat}
    (member : row ∈ firstModelRows table.modelRows hfRepoId)
    (sole : ∀ other ∈ firstModelRows table.modelRows hfRepoId, other = row)
    (allowed : PickAllowed table.modelRows hfRepoId pick) :
    getModelMeta table.modelRows hfRepoId pick = some row.toMeta := by
  obtain ⟨missing, _⟩ | ⟨other, listed, answer⟩ := getModelMeta_allowed allowed
  · simp [missing] at member
  · rw [answer, sole other listed]

theorem sole_of_default {id : Nat} {row : Model} (ready : table.Ready hfRepoId id row)
    (isDefault : row.isDefault = true) :
    row.toModelRow ∈ firstModelRows table.modelRows hfRepoId ∧
      ∀ other ∈ firstModelRows table.modelRows hfRepoId, other = row.toModelRow := by
  refine ⟨mem_firstModelRows.mpr ⟨id, row, ready, rfl, Or.inl isDefault⟩, ?_⟩
  intro other member
  obtain ⟨id', row', ready', rfl, chosen | plain⟩ := mem_firstModelRows.mp member
  · have entry : row'.defaultEntry = some hfRepoId :=
      Model.defaultEntry_eq_some.mpr ⟨chosen, ready'.2.1⟩
    have entry' : row.defaultEntry = some hfRepoId :=
      Model.defaultEntry_eq_some.mpr ⟨isDefault, ready.2.1⟩
    obtain rfl : id' = id := KeyedTable.indexed_iff.mp table.defaults id' id row' row ready'.1
      ready.1 (by simp [entry]) (entry.trans entry'.symm)
    rw [Option.some.inj (ready'.1.symm.trans ready.1)]
  · simp [plain id row ready] at isDefault

/-- The lookup is determined exactly if the default is ready or at most one
revision is. -/
theorem determined_iff_pinned (table : ModelsTable) (hfRepoId : String) :
    table.Determined hfRepoId ↔ table.Pinned hfRepoId := by
  constructor
  · intro determined
    by_contra unpinned
    obtain ⟨noDefault, two⟩ := not_or.mp unpinned
    have plain : ∀ id row, table.Ready hfRepoId id row → row.isDefault = false := by
      intro id row ready
      by_contra isDefault
      exact noDefault ⟨id, row, ready, by simpa using isDefault⟩
    apply two
    intro id id' row row' ready ready'
    obtain ⟨pick, allowed, answer⟩ :=
      exists_pick (mem_firstModelRows.mpr ⟨id, row, ready, rfl, Or.inr plain⟩)
    obtain ⟨pick', allowed', answer'⟩ :=
      exists_pick (mem_firstModelRows.mpr ⟨id', row', ready', rfl, Or.inr plain⟩)
    have same : row.toMeta = row'.toMeta :=
      Option.some.inj (answer.symm.trans ((determined.agrees _ _ allowed allowed').trans answer'))
    have revision : row.revision = row'.revision := congrArg ModelMeta.revision same
    exact KeyedTable.indexed_iff.mp table.revisions id id' row row' ready.1 ready'.1
      (by simp [Model.revisionEntry])
      (by simp [Model.revisionEntry, ready.2.1, ready'.2.1, revision])
  · intro pinned
    have defaults : ∀ id row, table.Ready hfRepoId id row → row.isDefault = true →
        ∀ pick, PickAllowed table.modelRows hfRepoId pick →
          getModelMeta table.modelRows hfRepoId pick = some row.toMeta := by
      intro id row ready isDefault pick allowed
      obtain ⟨member, sole⟩ := sole_of_default ready isDefault
      exact getModelMeta_of_forall member sole allowed
    refine ⟨fun pick pick' allowed allowed' => ?_, defaults, fun missing pick => ?_⟩
    · obtain ⟨id, row, ready, isDefault⟩ | single := pinned
      · rw [defaults id row ready isDefault pick allowed,
          defaults id row ready isDefault pick' allowed']
      · obtain ⟨missing, answer⟩ | ⟨row, member, answer⟩ := getModelMeta_allowed allowed
        · obtain ⟨_, answer'⟩ | ⟨row', member', _⟩ := getModelMeta_allowed allowed'
          · rw [answer, answer']
          · simp [missing] at member'
        · rw [answer, getModelMeta_of_forall member (fun other listed => ?_) allowed']
          obtain ⟨id, stored, ready, rfl, _⟩ := mem_firstModelRows.mp member
          obtain ⟨id', stored', ready', rfl, _⟩ := mem_firstModelRows.mp listed
          obtain rfl := single id id' stored stored' ready ready'
          rw [Option.some.inj (ready'.1.symm.trans ready.1)]
    · have empty : firstModelRows table.modelRows hfRepoId = [] := by
        rw [List.eq_nil_iff_forall_not_mem]
        intro row member
        obtain ⟨id, stored, ready, _⟩ := mem_firstModelRows.mp member
        exact missing id stored ready
      unfold getModelMeta
      simp [empty]

/-- Over every table that registering and archiving build up. -/
theorem revision_determined_iff (actions : List CatalogueAction) (hfRepoId : String) :
    (built actions).Determined hfRepoId ↔ (built actions).Pinned hfRepoId :=
  determined_iff_pinned (built actions) hfRepoId

/-- Registering a revision of one repo without making it the default. -/
def plainRevision (revision : String) (plain : '\x00' ∉ revision.toList) : ModelArguments where
  hfRepoId := "mistralai/Mistral-7B-Instruct-v0.2"
  revision := revision
  displayName := "Mistral-7B-Instruct-v0.2"
  paramCount := some 7241732096
  vramHint := some .comfortable
  setDefault := false
  storable := by simp [Storable, plain]

/-- Two revisions and no default: either may be the one that a job trains on. -/
theorem revision_undetermined :
    ¬ (built [.register 0 (plainRevision "3ad372fc" (by decide)),
      .register 1 (plainRevision "b70aa86f" (by decide))]).Determined
        "mistralai/Mistral-7B-Instruct-v0.2" := by
  intro determined
  have differ : getModelMeta (built [.register 0 (plainRevision "3ad372fc" (by decide)),
      .register 1 (plainRevision "b70aa86f" (by decide))]).modelRows
        "mistralai/Mistral-7B-Instruct-v0.2" 0 ≠
      getModelMeta (built [.register 0 (plainRevision "3ad372fc" (by decide)),
        .register 1 (plainRevision "b70aa86f" (by decide))]).modelRows
          "mistralai/Mistral-7B-Instruct-v0.2" 1 := by
    unfold getModelMeta
    decide +kernel
  exact differ (determined.agrees 0 1 (by decide +kernel) (by decide +kernel))

end ModelsTable

end Crucible
