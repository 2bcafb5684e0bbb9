import Crucible.RevisionChoice
import Crucible.VettedExecutions

/-!
# The allow-list, from the script to the executor

`register_model` asks the Hub about a revision, notes how large the model is and
writes a row.  The worker trains on what these rows say, whatever else happens
between the lookup and the training.
-/

namespace Crucible

open LabelledRuns

/-! ## The script -/

/-- What `model_info` returns: the commit, and `safetensors.total` if the Hub
shows it. -/
structure HubInfo where
  sha : Option String
  total : Option Nat
  deriving DecidableEq, Repr

/-- `model_info`, with what it raises for a repo or a revision that the Hub does
not have. -/
abbrev Hub : Type :=
  String → Option String → Except String HubInfo

/-- The command line of `register_model`. -/
structure RegisterOptions where
  repoId : String
  revision : Option String
  displayName : Option String
  setDefault : Bool
  deriving DecidableEq, Repr

def fetchHfMetadata (hub : Hub) (repoId : String) (revision : Option String) :
    Except String (String × Option Nat) :=
  match hub repoId revision with
  | .error message => .error message
  | .ok info =>
      if info.sha.getD "" = "" then
        .error ("Hugging Face Hub did not return a commit SHA for " ++ repoId)
      else
        .ok (info.sha.getD "", info.total.filter (· ≠ 0))

/-- What `main` prints before it registers a model that is too large. -/
def oversizedWarning (repoId : String) (paramCount : Option Nat) : Option String :=
  match paramCount with
  | none => none
  | some count =>
      if vramHintFor (some count) = some .unsupported then
        some ("Warning: " ++ repoId ++ " has ~" ++ PythonText.withThousands count ++
          " parameters and is flagged 'unsupported' for a single 16GB card. " ++
          "Jobs against it will be rejected by the worker preflight check.")
      else
        none

namespace RegisterOptions

/-- The name that a row gets without `--display-name`, also with an empty one. -/
def shownName (options : RegisterOptions) : String :=
  if options.displayName.getD "" = "" then
    (PythonText.split '/' options.repoId).getLastD ""
  else
    options.displayName.getD ""

/-- `main` up to its call of `register_model`.  That raises and writes nothing if
a column cannot hold a value. -/
def arguments (options : RegisterOptions) (hub : Hub) : Except String ModelArguments :=
  match fetchHfMetadata hub options.repoId options.revision with
  | .error message => .error message
  | .ok (revision, paramCount) =>
      if storable : Storable [options.repoId, revision, options.shownName] paramCount then
        .ok {
          hfRepoId := options.repoId
          revision := revision
          displayName := options.shownName
          paramCount := paramCount
          vramHint := vramHintFor paramCount
          setDefault := options.setDefault
          storable := storable }
      else
        .error "a value is out of range or has a NUL character"

theorem vramHint_arguments {options : RegisterOptions} {hub : Hub} {args : ModelArguments}
    (asked : options.arguments hub = .ok args) : args.vramHint = vramHintFor args.paramCount := by
  unfold arguments at asked
  split at asked
  case h_1 => cases asked
  case h_2 =>
    split at asked
    case isTrue =>
      cases asked
      rfl
    case isFalse => cases asked

end RegisterOptions

theorem oversizedWarning_eq_none_iff {repoId : String} {paramCount : Option Nat} :
    oversizedWarning repoId paramCount = none ↔ vramHintFor paramCount ≠ some .unsupported := by
  cases paramCount with
  | none => simp [oversizedWarning, vramHintFor]
  | some count => simp [oversizedWarning]

/-- A model that is not unsupported is within the limit of the guardrail. -/
theorem le_tightMaxParams_of_vramHintFor {count : Nat}
    (fits : vramHintFor (some count) ≠ some .unsupported) : count ≤ tightMaxParams := by
  by_contra large
  have thresholds : comfortableMaxParams ≤ tightMaxParams := by decide
  refine fits ?_
  rw [vramHintFor, if_neg (by omega), if_neg large]

/-! ## What a history of the table tells -/

/-- What the worker reads of a row that a call of `register_model` has written. -/
def ModelArguments.toMeta (args : ModelArguments) : ModelMeta :=
  ⟨args.hfRepoId, args.revision, args.paramCount, args.vramHint⟩

/-- Whether an action is a call of `register_model` for a revision. -/
def CatalogueAction.names (hfRepoId revision : String) : CatalogueAction → Bool
  | .register _ args => args.hfRepoId = hfRepoId ∧ args.revision = revision
  | .archive _ _ => false

def NamedIn (history : List CatalogueAction) (hfRepoId revision : String) : Prop :=
  ∃ action ∈ history, action.names hfRepoId revision = true

instance (history : List CatalogueAction) (hfRepoId revision : String) :
    Decidable (NamedIn history hfRepoId revision) :=
  inferInstanceAs (Decidable (∃ action ∈ history, _))

/-- The revision that `--set-default` has last made the default of a repo, in a
history with the latest action first; a call for a revision that was named
before is refused. -/
def lastDefault (hfRepoId : String) : List CatalogueAction → Option String
  | [] => none
  | .register _ args :: earlier =>
      if args.hfRepoId = hfRepoId ∧ args.setDefault = true ∧
          ¬ NamedIn earlier args.hfRepoId args.revision then
        some args.revision
      else
        lastDefault hfRepoId earlier
  | .archive _ _ :: earlier => lastDefault hfRepoId earlier

section History

variable {history : List CatalogueAction} {hfRepoId revision : String}

theorem CatalogueAction.names_register {now : Time} {args : ModelArguments} :
    (CatalogueAction.register now args).names hfRepoId revision = true ↔
      args.hfRepoId = hfRepoId ∧ args.revision = revision := by
  simp [names]

theorem namedIn_cons {action : CatalogueAction} :
    NamedIn (action :: history) hfRepoId revision ↔
      action.names hfRepoId revision = true ∨ NamedIn history hfRepoId revision := by
  simp [NamedIn]

theorem namedIn_of_lastDefault (last : lastDefault hfRepoId history = some revision) :
    NamedIn history hfRepoId revision := by
  induction history with
  | nil => cases last
  | cons action earlier ih =>
      rw [namedIn_cons]
      cases action with
      | archive now id => exact .inr (ih last)
      | register now args =>
          rw [lastDefault] at last
          split at last
          case isTrue promoted =>
            exact .inl (CatalogueAction.names_register.mpr
              ⟨promoted.1, Option.some.inj last⟩)
          case isFalse => exact .inr (ih last)

end History

@[simp]
theorem ModelArguments.toMeta_demote (args : ModelArguments) (row : Model) :
    (args.demote row).toMeta = row.toMeta := by
  unfold demote
  split <;> rfl

namespace ModelsTable

def after (history : List CatalogueAction) : ModelsTable :=
  built history.reverse

@[simp]
theorem after_cons (action : CatalogueAction) (history : List CatalogueAction) :
    after (action :: history) = (after history).act action := by
  simp [after, built]

/-- What a history tells of the table that it builds. -/
structure Recorded (table : ModelsTable) (history : List CatalogueAction) : Prop where
  rows : ∀ id row, table.rows.lookup id = some row →
    ∃ now args, CatalogueAction.register now args ∈ history ∧ args.toMeta = row.toMeta
  named : ∀ hfRepoId revision, NamedIn history hfRepoId revision →
    table.Registered hfRepoId revision
  defaults : ∀ id row, table.rows.lookup id = some row →
    (row.isDefault = true ↔ lastDefault row.hfRepoId history = some row.revision)

variable {table : ModelsTable} {history : List CatalogueAction}

theorem Recorded.registered_iff (recorded : table.Recorded history) {hfRepoId revision : String} :
    table.Registered hfRepoId revision ↔ NamedIn history hfRepoId revision := by
  refine ⟨?_, recorded.named hfRepoId revision⟩
  rintro ⟨id, row, stored, rfl, rfl⟩
  obtain ⟨now, args, member, same⟩ := recorded.rows id row stored
  exact ⟨_, member, CatalogueAction.names_register.mpr
    ⟨congrArg ModelMeta.hfRepoId same, congrArg ModelMeta.revision same⟩⟩

theorem recorded_empty : empty.Recorded [] where
  rows _ _ found := by cases found
  named _ _ named := by
    obtain ⟨_, member, _⟩ := named
    cases member
  defaults _ _ found := by cases found

theorem Recorded.archive (recorded : table.Recorded history) (now : Time) (id : Nat) :
    (table.archive now id).Recorded (.archive now id :: history) := by
  have source : ∀ other row, (table.archive now id).rows.lookup other = some row →
      ∃ row', table.rows.lookup other = some row' ∧ row.toMeta = row'.toMeta ∧
        row.isDefault = row'.isDefault := by
    intro other row found
    have written : (table.rows.modify id (Model.archive now)).lookup other = some row := found
    rw [KeyedTable.lookup_modify] at written
    split at written
    case isTrue same =>
      obtain ⟨row', stored, rfl⟩ := Option.map_eq_some_iff.mp written
      exact ⟨row', same ▸ stored, rfl, rfl⟩
    case isFalse => exact ⟨row, written, rfl, rfl⟩
  refine ⟨fun other row found => ?_, fun hfRepoId revision named => ?_, fun other row found => ?_⟩
  · obtain ⟨row', stored, same, _⟩ := source other row found
    obtain ⟨at_, args, member, told⟩ := recorded.rows other row' stored
    exact ⟨at_, args, List.mem_cons_of_mem _ member, told.trans same.symm⟩
  · have before : NamedIn history hfRepoId revision :=
      (namedIn_cons.mp named).resolve_left (by simp [CatalogueAction.names])
    obtain ⟨other, row, stored, repo, sha⟩ := recorded.named hfRepoId revision before
    have written : (table.archive now id).rows.lookup other =
        (table.rows.modify id (Model.archive now)).lookup other := rfl
    rw [KeyedTable.lookup_modify] at written
    by_cases same : other = id
    · subst same
      rw [if_pos rfl, stored] at written
      exact ⟨other, _, written, repo, sha⟩
    · rw [if_neg same, stored] at written
      exact ⟨other, row, written, repo, sha⟩
  · obtain ⟨row', stored, same, isDefault⟩ := source other row found
    have repo : row.hfRepoId = row'.hfRepoId := congrArg ModelMeta.hfRepoId same
    have sha : row.revision = row'.revision := congrArg ModelMeta.revision same
    rw [isDefault, repo, sha]
    exact recorded.defaults other row' stored

/-- A call for a revision that is there is refused, and promotes nothing. -/
theorem Recorded.refused (recorded : table.Recorded history) {now : Time} {args : ModelArguments}
    (present : table.Registered args.hfRepoId args.revision) :
    (table.afterCall now args).Recorded (.register now args :: history) := by
  have unchanged : table.afterCall now args = table := by
    obtain ⟨id, row, stored, repo, revision⟩ := present
    rw [afterCall, registerModel_present stored repo revision]
  have named := recorded.registered_iff.mp present
  rw [unchanged]
  refine ⟨fun id row found => ?_, fun hfRepoId revision mentioned => ?_, fun id row found => ?_⟩
  · obtain ⟨at_, earlier, member, told⟩ := recorded.rows id row found
    exact ⟨at_, earlier, List.mem_cons_of_mem _ member, told⟩
  · rcases namedIn_cons.mp mentioned with own | before
    · obtain ⟨rfl, rfl⟩ := CatalogueAction.names_register.mp own
      exact present
    · exact recorded.named hfRepoId revision before
  · rw [lastDefault, if_neg fun promoted => promoted.2.2 named]
    exact recorded.defaults id row found

/-- A call for a new revision adds its row, and makes it the default if asked. -/
theorem Recorded.accepted (recorded : table.Recorded history) {now : Time} {args : ModelArguments}
    (absent : ¬ table.Registered args.hfRepoId args.revision) :
    (table.afterCall now args).Recorded (.register now args :: history) := by
  obtain ⟨next, accepted, lookups⟩ := table.registerModel_absent now absent
  have unnamed : ¬ NamedIn history args.hfRepoId args.revision :=
    fun named => absent (recorded.named _ _ named)
  have changed : table.afterCall now args = next := by rw [afterCall, accepted]
  rw [changed]
  refine ⟨fun id row found => ?_, fun hfRepoId revision mentioned => ?_, fun id row found => ?_⟩
  · rw [lookups] at found
    split at found
    case isTrue =>
      cases found
      exact ⟨now, args, List.mem_cons_self, rfl⟩
    case isFalse =>
      obtain ⟨row', stored, rfl⟩ := Option.map_eq_some_iff.mp found
      obtain ⟨at_, earlier, member, told⟩ := recorded.rows id row' stored
      exact ⟨at_, earlier, List.mem_cons_of_mem _ member,
        told.trans (args.toMeta_demote row').symm⟩
  · rcases namedIn_cons.mp mentioned with own | before
    · obtain ⟨rfl, rfl⟩ := CatalogueAction.names_register.mp own
      exact ⟨table.nextId, _, by rw [lookups, if_pos rfl], rfl, rfl⟩
    · obtain ⟨id, row, stored, repo, sha⟩ := recorded.named hfRepoId revision before
      have old : id ≠ table.nextId := by
        rintro rfl
        rw [table.issued table.nextId (Nat.le_refl _)] at stored
        cases stored
      have same := args.toMeta_demote row
      exact ⟨id, args.demote row, by rw [lookups, if_neg old, stored]; rfl,
        (congrArg ModelMeta.hfRepoId same).trans repo, (congrArg ModelMeta.revision same).trans sha⟩
  · rw [lookups] at found
    split at found
    case isTrue =>
      cases found
      have last : ¬ lastDefault args.hfRepoId history = some args.revision :=
        fun last => unnamed (namedIn_of_lastDefault last)
      by_cases asked : args.setDefault = true <;>
        simp [Model.setDefault, ModelArguments.row, lastDefault, asked, unnamed, last]
    case isFalse =>
      obtain ⟨row', stored, rfl⟩ := Option.map_eq_some_iff.mp found
      by_cases demoted : args.setDefault = true ∧ row'.hfRepoId = args.hfRepoId
      · -- the call takes the default away from the row
        have other : args.revision ≠ row'.revision := fun same =>
          absent ⟨id, row', stored, demoted.2, same.symm⟩
        simp [ModelArguments.demote, demoted, Model.setDefault, lastDefault, unnamed, other]
      · have kept : args.demote row' = row' := if_neg demoted
        rw [kept, lastDefault, if_neg fun promoted => demoted ⟨promoted.2.1, promoted.1.symm⟩]
        exact recorded.defaults id row' stored

/-- A history tells what is in the table that it builds. -/
theorem recorded_after (history : List CatalogueAction) : (after history).Recorded history := by
  induction history with
  | nil => exact recorded_empty
  | cons action earlier ih =>
      rw [after_cons]
      cases action with
      | archive now id => exact ih.archive now id
      | register now args =>
          by_cases present : (after earlier).Registered args.hfRepoId args.revision
          · exact ih.refused present
          · exact ih.accepted present

end ModelsTable

/-- What a model that was looked up in the table of a history is: registered by
a call in it, still ready, and the last default of its repo if that is still
ready. -/
structure ModelMeta.ChosenFrom (model : ModelMeta) (history : List CatalogueAction)
    (baseModel : String) : Prop where
  registered : ∃ now args, CatalogueAction.register now args ∈ history ∧ args.toMeta = model
  ready : ∃ id row, (ModelsTable.after history).Ready baseModel id row ∧ row.toMeta = model
  isDefault : ∀ id row revision, lastDefault baseModel history = some revision →
    (ModelsTable.after history).Ready baseModel id row → row.revision = revision →
    model.revision = revision

theorem ModelMeta.Listed.chosenFrom {model : ModelMeta} {history : List CatalogueAction}
    {baseModel : String} (listed : model.Listed (ModelsTable.after history).modelRows baseModel) :
    model.ChosenFrom history baseModel := by
  have recorded := ModelsTable.recorded_after history
  obtain ⟨row, member, repo, status, same, default⟩ := listed.row
  obtain ⟨id, stored, found, rfl⟩ := ModelsTable.mem_modelRows.mp member
  have told : stored.toMeta = model := same
  refine ⟨?_, ⟨id, stored, ⟨found, repo, status⟩, told⟩, ?_⟩
  · obtain ⟨now, args, called, written⟩ := recorded.rows id stored found
    exact ⟨now, args, called, written.trans told⟩
  · rintro other row' revision last ⟨found', repo', status'⟩ rfl
    have isDefault' : row'.isDefault = true :=
      (recorded.defaults other row' found').mpr (repo'.symm ▸ last)
    have isDefault := default ⟨row'.toModelRow, ModelsTable.mem_modelRows.mpr
      ⟨other, row', found', rfl⟩, repo', status', isDefault'⟩
    have chosen := (recorded.defaults id stored found).mp isDefault
    have own : stored.hfRepoId = baseModel := repo
    rw [own, last] at chosen
    rw [← told]
    exact (Option.some.inj chosen).symm

def PassedThrough (history : List CatalogueAction) (models : List ModelRow) : Prop :=
  ∃ earlier, earlier <:+ history ∧ (ModelsTable.after earlier).modelRows = models

theorem PassedThrough.cons {history : List CatalogueAction} {models : List ModelRow}
    (action : CatalogueAction) (passed : PassedThrough history models) :
    PassedThrough (action :: history) models := by
  obtain ⟨earlier, suffix, same⟩ := passed
  exact ⟨earlier, suffix.trans (List.suffix_cons action history), same⟩

/-! ## The platform with the table behind its allow-list -/

namespace Cluster

variable {n m : Nat} {config : Config} {cluster next : Cluster n m}

/-- No process of the platform writes to the `models` table. -/
theorem step_models {action : Action n m} (moved : step config cluster action = some next)
    (elsewhere : ∀ models, action ≠ .setModels models) :
    next.stores.models = cluster.stores.models := by
  have written (write : Write) : (cluster.stores.write write).models = cluster.stores.models := by
    cases write with
    | claim =>
        simp only [SharedStores.write]
        split <;> rfl
    | _ => rfl
  cases action with
  | setModels models => exact absurd rfl (elsewhere models)
  | work worker choice =>
      obtain ⟨_, write, pc, _, rfl⟩ := step_work moved
      exact written write
  | serve request choice =>
      obtain ⟨_, write, pc, _, rfl⟩ := step_serve moved
      exact written write
  | start worker =>
      obtain ⟨_, rfl⟩ := step_start moved
      rfl
  | arrive request call =>
      obtain rfl := step_arrive moved
      rfl
  | tick duration | crash worker | drop request =>
      cases moved
      rfl

end Cluster

/-- The platform, and what was done to the `models` table, the latest first. -/
structure CuratedCluster (n m : Nat) where
  cluster : Cluster n m
  history : List CatalogueAction

namespace CuratedCluster

variable {n m : Nat} {config : Config} {site next : CuratedCluster n m}

inductive Action (n m : Nat) where
  | inside (action : Cluster.Action n m)
  | register (hub : Hub) (options : RegisterOptions) (commits : Bool)
  | archive (id : Nat)

/-- Something is done to the table, and the worker reads its rows from then on. -/
def record (site : CuratedCluster n m) (action : CatalogueAction) : CuratedCluster n m where
  cluster := { site.cluster with
    stores := { site.cluster.stores with
      models := (ModelsTable.after (action :: site.history)).modelRows } }
  history := action :: site.history

/-- One step: the table is written by the script, whose transaction may be lost,
and by operators who archive a row. -/
def step (config : Config) (site : CuratedCluster n m) :
    Action n m → Option (CuratedCluster n m)
  | .inside (.setModels _) => none
  | .inside action => (Cluster.step config site.cluster action).map fun cluster =>
      { site with cluster := cluster }
  | .register hub options commits =>
      match options.arguments hub with
      | .error _ => some site
      | .ok args =>
          some (if commits then site.record (.register site.cluster.stores.clock args) else site)
  | .archive id => some (site.record (.archive site.cluster.stores.clock id))

def initial (clock : Time) : CuratedCluster n m where
  cluster := Cluster.initial clock []
  history := []

/-- The catalogue is what the history builds, every call in it was made by the
script, and workers have read what the history leads through. -/
structure Curated (site : CuratedCluster n m) : Prop where
  models : (ModelsTable.after site.history).modelRows = site.cluster.stores.models
  scripted : ∀ now args, CatalogueAction.register now args ∈ site.history →
    ∃ hub options, RegisterOptions.arguments options hub = .ok args
  workers : ∀ worker,
    (site.cluster.workers worker).pc.Vetted (PassedThrough site.history) site.cluster.stores

/-- What a worker has behind it stays, and the table changes for what comes. -/
theorem Curated.record (config : Config) (held : Curated site) (action : CatalogueAction)
    (scripted : ∀ now args, action = .register now args →
      ∃ hub options, RegisterOptions.arguments options hub = .ok args) :
    Curated (site.record action) where
  models := rfl
  scripted now args member := by
    rcases List.mem_cons.mp member with same | earlier
    · exact scripted now args same.symm
    · exact held.scripted now args earlier
  workers worker := by
    have moved : Cluster.step config site.cluster
        (.setModels (ModelsTable.after (action :: site.history)).modelRows) =
          some (site.record action).cluster := rfl
    exact Cluster.vetted_step held.workers moved (fun _ passed => passed.cons action)
      ⟨site.history, List.suffix_refl _, held.models⟩ worker

theorem curated_step {action : Action n m} (held : Curated site)
    (moved : step config site action = some next) : Curated next := by
  cases action with
  | inside action =>
      have elsewhere (models : List ModelRow) : action ≠ .setModels models := by
        rintro rfl
        cases moved
      have inner : (Cluster.step config site.cluster action).map (fun cluster =>
          ({ site with cluster := cluster } : CuratedCluster n m)) = some next := by
        cases action <;> first | exact moved | cases moved
      obtain ⟨cluster, stepped, rfl⟩ := Option.map_eq_some_iff.mp inner
      exact ⟨held.models.trans (Cluster.step_models stepped elsewhere).symm, held.scripted,
        Cluster.vetted_step held.workers stepped (fun _ passed => passed)
          ⟨site.history, List.suffix_refl _, held.models⟩⟩
  | register hub options commits =>
      simp only [step] at moved
      split at moved
      case h_1 =>
        cases moved
        exact held
      case h_2 args asked =>
        cases commits <;> cases moved
        · exact held
        · exact held.record config _ fun _ _ same => by
            cases same
            exact ⟨hub, options, asked⟩
  | archive id =>
      cases moved
      exact held.record config _ fun _ _ same => by cases same

/-- In every run that starts with an empty table: a job is only trained on a
revision that a run of the script has registered without printing the warning,
and that is within the limit of the guardrail if its size is known.  At some
point of the table's history that revision was ready, and it was the last one
made default if that one was ready too. -/
theorem executions_registered {clock : Time}
    (run : Runs (step config) Any (initial clock) site) {worker : Fin n} {lastReconcile : Time}
    {rawJobId : String} {marked : Option JobStatus} {job : Job} {model : ModelMeta}
    {executor : ExecutorPc}
    (at_ : (site.cluster.workers worker).pc =
      .processing lastReconcile rawJobId marked (.executing job model executor)) :
    (∀ count, model.paramCount = some count → count ≤ tightMaxParams) ∧
    ∃ earlier, earlier <:+ site.history ∧ model.ChosenFrom earlier job.baseModel ∧
      ∃ now args hub options, CatalogueAction.register now args ∈ earlier ∧
        RegisterOptions.arguments options hub = .ok args ∧ args.toMeta = model ∧
        oversizedWarning args.hfRepoId args.paramCount = none := by
  have starts : Curated (initial clock : CuratedCluster n m) :=
    ⟨rfl, (fun _ _ member => by cases member), fun _ => trivial⟩
  have held := runs_invariant Curated (fun _ _ _ held _ moved => curated_step held moved)
    starts run
  have vetted := held.workers worker
  rw [at_] at vetted
  obtain ⟨_, models, ⟨earlier, suffix, rfl⟩, listed⟩ := vetted.1
  have chosen := listed.chosenFrom
  obtain ⟨now, args, member, rfl⟩ := chosen.registered
  obtain ⟨hub, options, asked⟩ := held.scripted now args (suffix.subset member)
  have fits : vramHintFor args.paramCount ≠ some .unsupported := by
    have checked : checkModelFits args.paramCount args.vramHint = .ok () := listed.fits
    rw [RegisterOptions.vramHint_arguments asked] at checked
    exact (checkModelFits_vramHintFor args.paramCount).mp checked
  refine ⟨fun count known => ?_, earlier, suffix, chosen, now, args, hub, options, member, asked,
    rfl, oversizedWarning_eq_none_iff.mpr fits⟩
  have same : args.paramCount = some count := known
  rw [same] at fits
  exact le_tightMaxParams_of_vramHintFor fits

/-! ## Two revisions of a model, the second of them made default -/

open Cluster (shortConfig jobSeven executedRun)

def smallHub : Hub := fun _ revision =>
  .ok ⟨some (revision.getD "main"), some 7241732096⟩

def smallOptions (revision : Option String) (setDefault : Bool) : RegisterOptions :=
  ⟨"org/model", revision, some "Small", setDefault⟩

def secondRevisionRun (worker : Fin n) (request : Fin m) : List (Action n m) :=
  .register smallHub (smallOptions (some "v1") false) true ::
    .register smallHub (smallOptions none true) true ::
      (executedRun worker request).map .inside

theorem executions_registered_secondRevisionRun :
    ∃ (site : CuratedCluster 1 1) (lastReconcile : Time) (rawJobId : String)
      (marked : Option JobStatus) (job : Job) (model : ModelMeta) (executor : ExecutorPc),
      (site.cluster.workers 0).pc =
        .processing lastReconcile rawJobId marked (.executing job model executor) ∧
      ∃ earlier, earlier <:+ site.history ∧ model.ChosenFrom earlier job.baseModel := by
  have replays : (replay (step shortConfig) Any (initial 0)
      (secondRevisionRun (0 : Fin 1) (0 : Fin 1))).any
      (fun site => (site.cluster.workers 0).pc.insideExecutor jobSeven) = true := by
    decide +kernel
  obtain ⟨site, run, inside⟩ := exists_runs_of_replay replays
  obtain ⟨lastReconcile, rawJobId, marked, job, model, executor, at_, _⟩ :=
    WorkerPc.executing_of_insideExecutor inside
  obtain ⟨_, earlier, suffix, chosen, _⟩ := executions_registered run at_
  exact ⟨site, lastReconcile, rawJobId, marked, job, model, executor, at_, earlier, suffix, chosen⟩

end CuratedCluster

end Crucible
