import Crucible.PythonText
import Mathlib.Data.List.Nodup

/-!
# One worker process per GPU

`config.load` reads the GPU ids from `CRUCIBLE_GPUS`, and `launcher.run` starts a
process for each of them with `CUDA_VISIBLE_DEVICES` set to the id.
-/

namespace Crucible

open SeparatedFields PythonText

/-- `os.environ`. -/
abbrev Environ := String → Option String

/-! ## The configuration -/

/-- `Config`, with all settings that `load` returns. -/
structure LoadedConfig where
  databaseUrl : String
  redisUrl : String
  garageEndpoint : String
  garageAccessKey : String
  garageSecretKey : String
  garageBucket : String
  modelCacheDir : String
  queueBlockSeconds : Int
  visibilityTimeoutSeconds : Int
  reconcileIntervalSeconds : Int
  orphanGraceSeconds : Int
  gpuIds : List String

def requiredEnv : List String :=
  ["DATABASE_URL", "REDIS_URL", "GARAGE_ENDPOINT", "GARAGE_ACCESS_KEY", "GARAGE_SECRET_KEY",
    "GARAGE_BUCKET"]

def defaultGpuIds : List String :=
  ["0"]

section Load

variable (environ : Environ)

/-- `_gpu_ids_env`, with the text of its `ConfigError`. -/
def gpuIdsEnv (key : String) (default : List String) : Except String (List String) :=
  match environ key with
  | none => .ok default
  | some raw =>
      if strip raw = "" then
        .ok default
      else
        let ids := ((split ',' raw).filter fun part => strip part ≠ "").map strip
        if ids = [] then
          .error (key ++ " is set but lists no GPU ids, got " ++ PythonText.repr raw)
        else
          .ok ids

variable (int : String → Option Int)

/-- `_int_env`, where `int` is Python's. -/
def intEnv (key : String) (default : Int) : Except String Int :=
  match environ key with
  | none => .ok default
  | some raw =>
      if raw = "" then
        .ok default
      else
        match int raw with
        | some value => .ok value
        | none => .error (key ++ " must be an integer, got " ++ PythonText.repr raw)

def load : Except String LoadedConfig := do
  let missing := requiredEnv.filter fun key => (environ key).getD "" = ""
  if missing ≠ [] then
    throw ("missing required environment variables: " ++ ", ".intercalate missing)
  let queueBlockSeconds ← intEnv environ int "QUEUE_BLOCK_SECONDS" 5
  let visibilityTimeoutSeconds ← intEnv environ int "VISIBILITY_TIMEOUT_SECONDS" (15 * 60)
  let reconcileIntervalSeconds ← intEnv environ int "RECONCILE_INTERVAL_SECONDS" (5 * 60)
  let orphanGraceSeconds ← intEnv environ int "ORPHAN_GRACE_SECONDS" 60
  let gpuIds ← gpuIdsEnv environ "CRUCIBLE_GPUS" defaultGpuIds
  return {
    databaseUrl := (environ "DATABASE_URL").getD ""
    redisUrl := (environ "REDIS_URL").getD ""
    garageEndpoint := (environ "GARAGE_ENDPOINT").getD ""
    garageAccessKey := (environ "GARAGE_ACCESS_KEY").getD ""
    garageSecretKey := (environ "GARAGE_SECRET_KEY").getD ""
    garageBucket := (environ "GARAGE_BUCKET").getD ""
    modelCacheDir := (environ "MODEL_CACHE_DIR").getD "/var/crucible/models"
    queueBlockSeconds, visibilityTimeoutSeconds, reconcileIntervalSeconds, orphanGraceSeconds
    gpuIds }

end Load

/-! ## The processes -/

namespace Launcher

/-- A process in which the worker loop is called; the process of `run` itself has
no name. -/
structure WorkerProcess where
  name : Option String
  environ : Environ

/-- `_run_pinned`, up to the call of the worker loop. -/
def runPinned (environ : Environ) (gpuId : String) : Environ :=
  Function.update environ "CUDA_VISIBLE_DEVICES" (some gpuId)

/-- `run`, up to the supervision of the processes. -/
def run (environ : Environ) (cfg : LoadedConfig) : List WorkerProcess :=
  match cfg.gpuIds with
  | [gpuId] => [⟨none, runPinned environ gpuId⟩]
  | gpuIds => gpuIds.map fun gpuId =>
      ⟨some ("crucible-worker-gpu" ++ gpuId), runPinned environ gpuId⟩

/-- The values of `CUDA_VISIBLE_DEVICES` in the worker processes. -/
def visibleDevices (workers : List WorkerProcess) : List (Option String) :=
  workers.map fun worker => worker.environ "CUDA_VISIBLE_DEVICES"

end Launcher

/-- The ids that a value of `CRUCIBLE_GPUS` lists; without any, the default card. -/
def listedIds (value : Option String) : List String :=
  match fields ',' isSpace (value.getD "").toList with
  | [] => defaultGpuIds
  | ids => ids.map String.ofList

/-- Every listed id has one worker, which sees one card that no other sees. -/
structure OneWorkerPerCard (value : Option String) (workers : List Launcher.WorkerProcess) :
    Prop where
  listed : Launcher.visibleDevices workers = (listedIds value).map some
  proper : ∀ device ∈ Launcher.visibleDevices workers, ∃ id, device = some id ∧ id ≠ "" ∧
    ',' ∉ id.toList ∧ Trimmed isSpace id.toList
  distinct : (Launcher.visibleDevices workers).Nodup

/-- All workers that are started with a value of `CRUCIBLE_GPUS` have a card each. -/
def CardsUnshared (value : Option String) : Prop :=
  ∀ (int : String → Option Int) (environ : Environ) (cfg : LoadedConfig),
    environ "CRUCIBLE_GPUS" = value → load environ int = .ok cfg →
      OneWorkerPerCard value (Launcher.run environ cfg)

/-- Of the entries of a value, no two are equal apart from blanks around them,
unless they are blank. -/
def EntriesDiffer (value : String) : Prop :=
  (split ',' value).Pairwise fun first second => strip first = strip second → strip first = ""

instance (value : String) : Decidable (EntriesDiffer value) :=
  inferInstanceAs (Decidable (List.Pairwise _ _))

/-! ## What the value lists -/

theorem strip_ofList (text : List Char) :
    strip (String.ofList text) = String.ofList (trim isSpace text) := by
  rw [strip, String.toList_ofList]

/-- The comprehension of `_gpu_ids_env` collects the fields of the value. -/
theorem strip_filter_split (raw : String) :
    ((split ',' raw).filter fun part => strip part ≠ "").map strip =
      (fields ',' isSpace raw.toList).map String.ofList := by
  have same : (fun part => decide (part ≠ ([] : List Char))) ∘ trim isSpace =
      (fun part => decide (strip part ≠ "")) ∘ String.ofList := by
    funext part
    simp [strip_ofList, String.ofList_eq_empty_iff]
  rw [split, fields, List.filter_map, List.filter_map, List.map_map, List.map_map, same]
  refine List.map_congr_left fun part _ => ?_
  simp [strip_ofList]

theorem listedIds_of_eq_nil {value : Option String}
    (none : fields ',' isSpace (value.getD "").toList = []) : listedIds value = defaultGpuIds := by
  rw [listedIds, none]

theorem listedIds_of_ne_nil {value : Option String}
    (some : fields ',' isSpace (value.getD "").toList ≠ []) :
    listedIds value = (fields ',' isSpace (value.getD "").toList).map String.ofList := by
  rw [listedIds]
  split
  case h_1 none => exact absurd none some
  case h_2 => rfl

theorem gpuIdsEnv_ok_iff {environ : Environ} {ids : List String} :
    gpuIdsEnv environ "CRUCIBLE_GPUS" defaultGpuIds = .ok ids ↔
      ids = listedIds (environ "CRUCIBLE_GPUS") ∧
        ∀ raw ∈ environ "CRUCIBLE_GPUS", strip raw ≠ "" → fields ',' isSpace raw.toList ≠ [] := by
  unfold gpuIdsEnv
  cases environ "CRUCIBLE_GPUS" with
  | none =>
      have nothing : listedIds none = defaultGpuIds := listedIds_of_eq_nil (by decide)
      rw [nothing, Except.ok.injEq]
      exact ⟨fun same => ⟨same.symm, by simp⟩, fun same => same.1.symm⟩
  | some raw =>
      simp only [strip_filter_split, List.map_eq_nil_iff]
      split
      case isTrue blank =>
        have all : ∀ char ∈ raw.toList, isSpace char = true := by
          rw [← trim_eq_nil_iff]
          simpa [strip] using blank
        have nothing : listedIds (some raw) = defaultGpuIds :=
          listedIds_of_eq_nil (fields_eq_nil_of_blank (by decide) all)
        rw [nothing, Except.ok.injEq]
        exact ⟨fun same => ⟨same.symm, by simp [blank]⟩, fun same => same.1.symm⟩
      case isFalse visible =>
        split
        case isTrue none => simp [none, visible]
        case isFalse found =>
          have listed : listedIds (some raw) = _ := listedIds_of_ne_nil found
          rw [listed, Except.ok.injEq]
          exact ⟨fun same => ⟨same.symm, by simp [found]⟩, fun same => same.1.symm⟩

theorem nodup_listedIds_iff (value : Option String) :
    (listedIds value).Nodup ↔ EntriesDiffer (value.getD "") := by
  have entries : EntriesDiffer (value.getD "") ↔
      (fields ',' isSpace (value.getD "").toList).Nodup := by
    rw [EntriesDiffer, split, List.pairwise_map, nodup_fields_iff]
    simp [strip_ofList, String.ofList_inj]
  rw [entries]
  by_cases none : fields ',' isSpace (value.getD "").toList = []
  · rw [listedIds_of_eq_nil none, none]
    decide
  · rw [listedIds_of_ne_nil none, List.nodup_map_iff fun _ _ => String.ofList_injective]

theorem proper_of_mem_listedIds {value : Option String} {id : String}
    (member : id ∈ listedIds value) :
    id ≠ "" ∧ ',' ∉ id.toList ∧ Trimmed isSpace id.toList := by
  by_cases none : fields ',' isSpace (value.getD "").toList = []
  · rw [listedIds_of_eq_nil none] at member
    obtain rfl := List.mem_singleton.mp member
    refine ⟨by decide, by decide, fun symbol first => ?_, fun symbol last => ?_⟩
    · obtain rfl : '0' = symbol := Option.some.inj first
      decide
    · obtain rfl : '0' = symbol := Option.some.inj last
      decide
  · rw [listedIds_of_ne_nil none] at member
    obtain ⟨field, listed, rfl⟩ := List.mem_map.mp member
    obtain ⟨nonempty, whole, trimmed⟩ := proper_of_mem_fields listed
    rw [String.toList_ofList]
    exact ⟨by simpa using nonempty, whole, trimmed⟩

/-! ## What the workers see -/

/-- The workers are pinned to the configured ids in their order. -/
theorem Launcher.visibleDevices_run (environ : Environ) (cfg : LoadedConfig) :
    visibleDevices (run environ cfg) = cfg.gpuIds.map some := by
  rw [run]
  split
  case h_1 gpuId single => simp [visibleDevices, runPinned, single]
  case h_2 gpuIds => simp [visibleDevices, runPinned, Function.comp_def]

theorem exists_of_bind_eq_ok {Value Result : Type} {first : Except String Value}
    {rest : Value → Except String Result} {result : Result}
    (returned : first >>= rest = .ok result) :
    ∃ value, first = .ok value ∧ rest value = .ok result := by
  cases first with
  | error message => cases returned
  | ok value => exact ⟨value, rfl, returned⟩

theorem load_gpuIds {environ : Environ} {int : String → Option Int} {cfg : LoadedConfig}
    (loaded : load environ int = .ok cfg) :
    gpuIdsEnv environ "CRUCIBLE_GPUS" defaultGpuIds = .ok cfg.gpuIds := by
  unfold load at loaded
  dsimp only at loaded
  split at loaded
  case isTrue => cases loaded
  case isFalse =>
    obtain ⟨_, _, loaded⟩ := exists_of_bind_eq_ok loaded
    obtain ⟨_, _, loaded⟩ := exists_of_bind_eq_ok loaded
    obtain ⟨_, _, loaded⟩ := exists_of_bind_eq_ok loaded
    obtain ⟨_, _, loaded⟩ := exists_of_bind_eq_ok loaded
    obtain ⟨gpuIds, accepted, loaded⟩ := exists_of_bind_eq_ok loaded
    obtain rfl := Except.ok.inj loaded
    exact accepted

/-- An environment in which only `CRUCIBLE_GPUS` can be wrong. -/
def completeEnviron (value : Option String) : Environ :=
  fun key =>
    if key = "CRUCIBLE_GPUS" then value
    else if key ∈ requiredEnv then some "x"
    else none

theorem load_complete {value : Option String} {ids : List String}
    (accepted : gpuIdsEnv (completeEnviron value) "CRUCIBLE_GPUS" defaultGpuIds = .ok ids)
    (int : String → Option Int) : ∃ cfg, load (completeEnviron value) int = .ok cfg := by
  unfold load
  rw [accepted]
  exact ⟨_, rfl⟩

/-! ## Which values share no card -/

theorem not_cardsUnshared {value : Option String} (shared : ¬ EntriesDiffer (value.getD "")) :
    ¬ CardsUnshared value := by
  intro unshared
  have repeated : ¬ (listedIds value).Nodup := fun distinct =>
    shared ((nodup_listedIds_iff value).mp distinct)
  have accepted : gpuIdsEnv (completeEnviron value) "CRUCIBLE_GPUS" defaultGpuIds =
      .ok (listedIds value) := by
    refine gpuIdsEnv_ok_iff.mpr ⟨rfl, fun raw set _ none => ?_⟩
    obtain rfl : value = some raw := set
    have nothing : listedIds (some raw) = defaultGpuIds := listedIds_of_eq_nil none
    rw [nothing] at repeated
    exact repeated (by decide)
  obtain ⟨cfg, loaded⟩ := load_complete accepted fun _ => none
  have one := unshared _ _ cfg rfl loaded
  have distinct := one.distinct
  rw [one.listed] at distinct
  exact repeated (List.Nodup.of_map _ distinct)

/-- The workers have a card each exactly if no id is listed twice. -/
theorem cards_unshared_iff (value : Option String) :
    CardsUnshared value ↔ EntriesDiffer (value.getD "") := by
  constructor
  · intro unshared
    by_contra shared
    exact not_cardsUnshared shared unshared
  · rintro differ int environ cfg rfl loaded
    have listed := (gpuIdsEnv_ok_iff.mp (load_gpuIds loaded)).1
    constructor
    · rw [Launcher.visibleDevices_run, listed]
    · intro device member
      rw [Launcher.visibleDevices_run, listed] at member
      obtain ⟨id, listed, rfl⟩ := List.mem_map.mp member
      exact ⟨id, rfl, proper_of_mem_listedIds listed⟩
    · rw [Launcher.visibleDevices_run, listed]
      exact ((nodup_listedIds_iff _).mpr differ).map fun _ _ => Option.some.inj

/-- With `CRUCIBLE_GPUS=0,0` two workers see the same card. -/
theorem card_shared_by_two : ¬ ∀ value : Option String, CardsUnshared value := by
  intro unshared
  exact not_cardsUnshared (by decide) (unshared (some "0,0"))

end Crucible
