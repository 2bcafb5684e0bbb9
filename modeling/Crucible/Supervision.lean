import Crucible.LabelledRuns
import Mathlib.Data.List.Perm.Subperm

/-!
# Supervising the worker processes

`_supervise` of the launcher, one step of its loop after another.  Children may
exit and the signal handler may run between any two steps.
-/

namespace Crucible

open LabelledRuns

/-- What `_supervise` does to its children: an answer of `is_alive()` in its
loop, or a call of `terminate()`. -/
inductive SupervisorAct (Child : Type*) where
  | polled (child : Child) (alive : Bool)
  | terminated (child : Child)
  deriving DecidableEq, Repr

/-- Where `_terminate_remaining` is in its loop over the list. -/
inductive TerminatePc (Child : Type*) where
  | next (index : Nat)
  | asking (index : Nat) (child : Child)
  | sending (index : Nat) (child : Child)
  deriving DecidableEq, Repr

/-- Where `_supervise` is; `rest` is the part of the copy that the inner loop has
not visited. -/
inductive SupervisorPc (Child : Type*) where
  | whileProcs
  | copying
  | forProc (rest : List Child)
  | joining (proc : Child) (rest : List Child)
  | polling (proc : Child) (rest : List Child)
  | removing (proc : Child) (rest : List Child)
  | testing (proc : Child) (rest : List Child)
  | terminating (place : TerminatePc Child) (proc : Child) (rest : List Child)
  | setting (proc : Child) (rest : List Child)
  | returned
  | failed
  deriving DecidableEq, Repr

/-- Whether the loop is still busy with a child that it has taken from the list. -/
def SupervisorPc.processing {Child : Type*} : SupervisorPc Child → Bool
  | .testing _ _ | .terminating _ _ _ | .setting _ _ => true
  | _ => false

/-- The children that are alive, and the variables of `_supervise`. -/
structure Supervisor (Child : Type*) where
  alive : Child → Bool
  procs : List Child
  stopping : Bool
  log : List (SupervisorAct Child)
  pc : SupervisorPc Child

/-- What happens next: a step of `_supervise`, the exit of a child, or a signal. -/
inductive SupervisorEvent (Child : Type*) where
  | loop
  | exit (child : Child)
  | signal
  deriving DecidableEq, Repr

variable {Child : Type*}

namespace Supervisor

/-- `_supervise` after it has installed the handler. -/
def start (children : List Child) (alive : Child → Bool) : Supervisor Child where
  alive := alive
  procs := children
  stopping := false
  log := []
  pc := .whileProcs

section Handler

variable (supervisor : Supervisor Child)

def handle : Supervisor Child :=
  { supervisor with
    stopping := true
    log := supervisor.log ++ (supervisor.procs.filter supervisor.alive).map .terminated }

/-- A step of `_terminate_remaining`, called when `proc` has been removed. -/
def terminateRemaining (proc : Child) (rest : List Child) :
    TerminatePc Child → Supervisor Child
  | .next index =>
      match supervisor.procs[index]? with
      | none => { supervisor with pc := .setting proc rest }
      | some child => { supervisor with pc := .terminating (.asking index child) proc rest }
  | .asking index child =>
      if supervisor.alive child then
        { supervisor with pc := .terminating (.sending index child) proc rest }
      else
        { supervisor with pc := .terminating (.next (index + 1)) proc rest }
  | .sending index child =>
      { supervisor with
        log := supervisor.log ++ [.terminated child]
        pc := .terminating (.next (index + 1)) proc rest }

end Handler

variable [DecidableEq Child] (supervisor : Supervisor Child)

/-- A step of `_supervise`.  `procs.remove` of a child that is not in the list
would raise `ValueError`. -/
def loop : Option (Supervisor Child) :=
  match supervisor.pc with
  | .whileProcs =>
      if supervisor.procs = [] then
        some { supervisor with pc := .returned }
      else
        some { supervisor with pc := .copying }
  | .copying => some { supervisor with pc := .forProc supervisor.procs }
  | .forProc [] => some { supervisor with pc := .whileProcs }
  | .forProc (proc :: rest) => some { supervisor with pc := .joining proc rest }
  -- `join` returns when the child has exited, or after its timeout
  | .joining proc rest => some { supervisor with pc := .polling proc rest }
  | .polling proc rest =>
      if supervisor.alive proc then
        some { supervisor with
          log := supervisor.log ++ [.polled proc true], pc := .forProc rest }
      else
        some { supervisor with
          log := supervisor.log ++ [.polled proc false], pc := .removing proc rest }
  | .removing proc rest =>
      if proc ∈ supervisor.procs then
        some { supervisor with procs := supervisor.procs.erase proc, pc := .testing proc rest }
      else
        some { supervisor with pc := .failed }
  | .testing proc rest =>
      if supervisor.stopping then
        some { supervisor with pc := .forProc rest }
      else
        some { supervisor with pc := .terminating (.next 0) proc rest }
  | .terminating place proc rest => some (supervisor.terminateRemaining proc rest place)
  | .setting _ rest => some { supervisor with stopping := true, pc := .forProc rest }
  | .returned => none
  | .failed => none

def step : SupervisorEvent Child → Option (Supervisor Child)
  | .loop => supervisor.loop
  | .exit child => some { supervisor with alive := Function.update supervisor.alive child false }
  | .signal => some supervisor.handle

end Supervisor

/-- The launcher stops as a unit, in every run from the start of `_supervise`. -/
structure StopsAsUnit [DecidableEq Child] (children : List Child) : Prop where
  waits : ∀ (alive : Child → Bool) (last : Supervisor Child),
    Runs Supervisor.step Any (.start children alive) last → last.pc = .returned →
      ∀ child ∈ children, .polled child false ∈ last.log
  keeps : ∀ (alive : Child → Bool) (last : Supervisor Child),
    Runs Supervisor.step Any (.start children alive) last →
      ∀ child ∈ children, last.alive child = true → child ∈ last.procs
  signalled : ∀ (alive : Child → Bool) (before handled last : Supervisor Child),
    Runs Supervisor.step Any (.start children alive) before →
      before.step .signal = some handled → Runs Supervisor.step Any handled last →
        ∀ child ∈ children, before.alive child = true → .terminated child ∈ last.log
  -- a child has left the list, and the loop has done with it
  processed : ∀ (alive : Child → Bool) (before last : Supervisor Child),
    Runs Supervisor.step Any (.start children alive) before →
      before.procs.length < children.length → before.pc.processing = false →
        Runs Supervisor.step Any before last →
          ∀ child ∈ children, before.alive child = true → .terminated child ∈ last.log

/-! ## The invariant -/

/-- Of the children before an index, those that are alive have been terminated. -/
def SentBefore (alive : Child → Bool) (log : List (SupervisorAct Child)) (procs : List Child)
    (index : Nat) : Prop :=
  ∀ child ∈ procs.take index, alive child = true → .terminated child ∈ log

/-- What is known inside `_terminate_remaining`. -/
def TerminatePc.Fits (alive : Child → Bool) (log : List (SupervisorAct Child))
    (procs : List Child) : TerminatePc Child → Prop
  | .next index => SentBefore alive log procs index
  | .asking index child => procs[index]? = some child ∧ SentBefore alive log procs index
  | .sending index child => procs[index]? = some child ∧ SentBefore alive log procs index

/-- What is known at each place of `_supervise`.  Everything that the copy still
holds is in the list. -/
def SupervisorPc.Fits (alive : Child → Bool) (log : List (SupervisorAct Child))
    (procs : List Child) : SupervisorPc Child → Prop
  | .whileProcs => True
  | .copying => True
  | .forProc rest => rest.Subperm procs
  | .joining proc rest => (proc :: rest).Subperm procs
  | .polling proc rest => (proc :: rest).Subperm procs
  | .removing proc rest =>
      (proc :: rest).Subperm procs ∧ alive proc = false ∧ .polled proc false ∈ log
  | .testing _ rest => rest.Subperm procs
  | .terminating place _ rest => rest.Subperm procs ∧ place.Fits alive log procs
  | .setting _ rest => rest.Subperm procs ∧ SentBefore alive log procs procs.length
  | .returned => procs = []
  | .failed => False

section Invariant

variable {alive alive' : Child → Bool} {log log' : List (SupervisorAct Child)}
  {procs children : List Child}

theorem SentBefore.mono {index : Nat} (sent : SentBefore alive log procs index)
    (fewer : ∀ child, alive' child = true → alive child = true) (more : log ⊆ log') :
    SentBefore alive' log' procs index :=
  fun child member present => more (sent child member (fewer child present))

theorem SentBefore.succ {index : Nat} {child : Child} (sent : SentBefore alive log procs index)
    (here : procs[index]? = some child)
    (settled : alive child = true → .terminated child ∈ log) :
    SentBefore alive log procs (index + 1) := by
  intro other member present
  rw [List.take_add_one, here, List.mem_append] at member
  obtain before | same := member
  · exact sent other before present
  · obtain rfl : other = child := by simpa using same
    exact settled present

theorem SentBefore.all {index : Nat} (sent : SentBefore alive log procs index)
    (past : procs[index]? = none) : SentBefore alive log procs procs.length := by
  have long := List.getElem?_eq_none_iff.mp past
  rwa [SentBefore, List.take_of_length_le long, ← List.take_length (l := procs)] at sent

/-- Exits of children and longer logs do not hurt. -/
theorem SupervisorPc.Fits.mono {pc : SupervisorPc Child} (fits : pc.Fits alive log procs)
    (fewer : ∀ child, alive' child = true → alive child = true) (more : log ⊆ log') :
    pc.Fits alive' log' procs := by
  cases pc with
  | removing proc rest =>
      obtain ⟨listed, dead, polled⟩ := fits
      refine ⟨listed, ?_, more polled⟩
      exact Bool.eq_false_iff.mpr fun present =>
        Bool.false_ne_true (dead.symm.trans (fewer proc present))
  | terminating place proc rest =>
      refine ⟨fits.1, ?_⟩
      cases place with
      | next index => exact fits.2.mono fewer more
      | asking index child => exact ⟨fits.2.1, fits.2.2.mono fewer more⟩
      | sending index child => exact ⟨fits.2.1, fits.2.2.mono fewer more⟩
  | setting proc rest => exact ⟨fits.1, fits.2.mono fewer more⟩
  | _ => exact fits

end Invariant

namespace Supervisor

structure Invariant (children : List Child) (supervisor : Supervisor Child) : Prop where
  kept : ∀ child ∈ children, supervisor.alive child = true → child ∈ supervisor.procs
  dropped : ∀ child ∈ children, child ∉ supervisor.procs → .polled child false ∈ supervisor.log
  flagged : supervisor.stopping = true → ∀ child ∈ children, supervisor.alive child = true →
    .terminated child ∈ supervisor.log
  stopped : supervisor.procs.length < children.length → supervisor.pc.processing = false →
    supervisor.stopping = true
  fits : supervisor.pc.Fits supervisor.alive supervisor.log supervisor.procs

namespace Invariant

variable {children : List Child} {supervisor next : Supervisor Child}

theorem start (children : List Child) (alive : Child → Bool) :
    (Supervisor.start children alive).Invariant children where
  kept := fun _ member _ => member
  dropped := fun _ member missing => absurd member missing
  flagged := fun set => absurd set Bool.false_ne_true
  stopped := fun shorter => absurd shorter (Nat.lt_irrefl _)
  fits := trivial

/-- Steps that leave the list and the flag alone. -/
theorem quiet (invariant : supervisor.Invariant children)
    (fewer : ∀ child, next.alive child = true → supervisor.alive child = true)
    (procs : next.procs = supervisor.procs) (stopping : next.stopping = supervisor.stopping)
    (more : supervisor.log ⊆ next.log)
    (busy : next.pc.processing = false → supervisor.pc.processing = false)
    (fits : next.pc.Fits next.alive next.log next.procs) : next.Invariant children where
  kept := fun child member present =>
    procs ▸ invariant.kept child member (fewer child present)
  dropped := fun child member missing =>
    more (invariant.dropped child member (procs ▸ missing))
  flagged := fun set child member present =>
    more (invariant.flagged (stopping ▸ set) child member (fewer child present))
  stopped := fun shorter idle => stopping ▸ invariant.stopped (procs ▸ shorter) (busy idle)
  fits := fits

theorem handle (invariant : supervisor.Invariant children) :
    supervisor.handle.Invariant children where
  kept := invariant.kept
  dropped := fun child member missing =>
    List.mem_append_left _ (invariant.dropped child member missing)
  flagged := fun _ child member present => by
    have listed : child ∈ supervisor.procs.filter supervisor.alive :=
      List.mem_filter.mpr ⟨invariant.kept child member present, present⟩
    exact List.mem_append_right _ (List.mem_map_of_mem listed)
  stopped := fun _ _ => rfl
  fits := invariant.fits.mono (fun _ => id) (List.subset_append_left _ _)

theorem jump (invariant : supervisor.Invariant children) {pc : SupervisorPc Child}
    (busy : pc.processing = false → supervisor.pc.processing = false)
    (fits : pc.Fits supervisor.alive supervisor.log supervisor.procs) :
    Invariant children { supervisor with pc := pc } :=
  invariant.quiet (fun _ => id) rfl rfl (List.Subset.refl _) busy fits

theorem terminateRemaining (invariant : supervisor.Invariant children)
    {place : TerminatePc Child} {proc : Child} {rest : List Child}
    (here : supervisor.pc = .terminating place proc rest) :
    (supervisor.terminateRemaining proc rest place).Invariant children := by
  have fits := invariant.fits
  rw [here] at fits
  obtain ⟨listed, fits⟩ := fits
  cases place with
  | next index =>
      rw [Supervisor.terminateRemaining]
      split
      case h_1 past =>
        exact invariant.jump (fun idle => by cases idle) ⟨listed, fits.all past⟩
      case h_2 child found =>
        exact invariant.jump (fun idle => by cases idle) ⟨listed, found, fits⟩
  | asking index child =>
      rw [Supervisor.terminateRemaining]
      split
      case isTrue present =>
        exact invariant.jump (fun idle => by cases idle) ⟨listed, fits⟩
      case isFalse dead =>
        exact invariant.jump (fun idle => by cases idle)
          ⟨listed, fits.2.succ fits.1 fun present => absurd present dead⟩
  | sending index child =>
      have more := List.subset_append_left supervisor.log [.terminated child]
      have sent : SupervisorAct.terminated child ∈ supervisor.log ++ [.terminated child] := by
        simp
      exact invariant.quiet (fun _ => id) rfl rfl more (fun idle => by cases idle)
        ⟨listed, (fits.2.mono (fun _ => id) more).succ fits.1 fun _ => sent⟩

theorem process (invariant : supervisor.Invariant children) {rest : List Child}
    (left : rest.Subperm supervisor.procs)
    (sent : ∀ child ∈ children, supervisor.alive child = true →
      .terminated child ∈ supervisor.log) :
    Invariant children { supervisor with stopping := true, pc := .forProc rest } where
  kept := invariant.kept
  dropped := invariant.dropped
  flagged := fun _ => sent
  stopped := fun _ _ => rfl
  fits := left

variable [DecidableEq Child]

theorem exit (invariant : supervisor.Invariant children) (child : Child) :
    Invariant children
      { supervisor with alive := Function.update supervisor.alive child false } := by
  have fewer : ∀ other, Function.update supervisor.alive child false other = true →
      supervisor.alive other = true := by
    intro other present
    by_cases same : other = child
    · simp [same] at present
    · rwa [Function.update_of_ne same] at present
  exact invariant.quiet fewer rfl rfl (List.Subset.refl _) id
    (invariant.fits.mono fewer (List.Subset.refl _))

theorem remove (invariant : supervisor.Invariant children) {proc : Child} {rest : List Child}
    (here : supervisor.pc = .removing proc rest) :
    Invariant children
      { supervisor with procs := supervisor.procs.erase proc, pc := .testing proc rest } := by
  have fits := invariant.fits
  rw [here] at fits
  obtain ⟨listed, dead, polled⟩ := fits
  constructor
  · intro child member present
    have other : child ≠ proc := by
      rintro rfl
      exact absurd (dead.symm.trans present) (by decide)
    exact (List.mem_erase_of_ne other).mpr (invariant.kept child member present)
  · intro child member missing
    by_cases same : child = proc
    · exact same ▸ polled
    · exact invariant.dropped child member fun listed =>
        missing ((List.mem_erase_of_ne same).mpr listed)
  · exact invariant.flagged
  · exact fun _ idle => by cases idle
  · have left := listed.erase proc
    rwa [List.erase_cons_head] at left

theorem loop (invariant : supervisor.Invariant children) (moved : supervisor.loop = some next) :
    next.Invariant children := by
  have fits := invariant.fits
  unfold Supervisor.loop at moved
  cases here : supervisor.pc with
  | whileProcs =>
      simp only [here] at moved
      split at moved
      case isTrue empty =>
        cases moved
        exact invariant.jump (fun _ => here ▸ rfl) empty
      case isFalse =>
        cases moved
        exact invariant.jump (fun _ => here ▸ rfl) trivial
  | copying =>
      simp only [here] at moved
      cases moved
      exact invariant.jump (fun _ => here ▸ rfl) (List.Subperm.refl _)
  | forProc rest =>
      rw [here] at fits
      cases rest with
      | nil =>
          simp only [here] at moved
          cases moved
          exact invariant.jump (fun _ => here ▸ rfl) trivial
      | cons proc rest =>
          simp only [here] at moved
          cases moved
          exact invariant.jump (fun _ => here ▸ rfl) fits
  | joining proc rest =>
      rw [here] at fits
      simp only [here] at moved
      cases moved
      exact invariant.jump (fun _ => here ▸ rfl) fits
  | polling proc rest =>
      rw [here] at fits
      simp only [here] at moved
      split at moved
      case isTrue present =>
        cases moved
        exact invariant.quiet (fun _ => id) rfl rfl (List.subset_append_left _ _)
          (fun _ => here ▸ rfl) ((List.sublist_cons_self proc rest).subperm.trans fits)
      case isFalse dead =>
        cases moved
        exact invariant.quiet (fun _ => id) rfl rfl (List.subset_append_left _ _)
          (fun _ => here ▸ rfl) ⟨fits, Bool.eq_false_iff.mpr dead, by simp⟩
  | removing proc rest =>
      rw [here] at fits
      simp only [here] at moved
      split at moved
      case isTrue =>
        cases moved
        exact invariant.remove here
      case isFalse missing =>
        exact absurd (fits.1.subset List.mem_cons_self) missing
  | testing proc rest =>
      rw [here] at fits
      simp only [here] at moved
      split at moved
      case isTrue set =>
        cases moved
        have processed := invariant.process fits (invariant.flagged set)
        rwa [← set] at processed
      case isFalse =>
        cases moved
        exact invariant.jump (fun idle => by cases idle) ⟨fits, by simp [TerminatePc.Fits, SentBefore]⟩
  | terminating place proc rest =>
      simp only [here] at moved
      cases moved
      exact invariant.terminateRemaining here
  | setting proc rest =>
      rw [here] at fits
      simp only [here] at moved
      cases moved
      refine invariant.process fits.1 fun child member present => fits.2 child ?_ present
      rw [List.take_length]
      exact invariant.kept child member present
  | returned => simp [here] at moved
  | failed => simp [here] at moved

theorem step (invariant : supervisor.Invariant children) {event : SupervisorEvent Child}
    (moved : supervisor.step event = some next) : next.Invariant children := by
  cases event with
  | loop => exact invariant.loop moved
  | exit child =>
      cases moved
      exact invariant.exit child
  | signal =>
      cases moved
      exact invariant.handle

theorem runs (invariant : supervisor.Invariant children)
    (run : Runs Supervisor.step Any supervisor next) : next.Invariant children :=
  runs_invariant (Invariant children) (fun _ _ _ held _ moved => held.step moved) invariant run

end Invariant

/-! ## What has been done stays done -/

section Log

variable {supervisor next : Supervisor Child}

theorem log_terminateRemaining (proc : Child) (rest : List Child) (place : TerminatePc Child) :
    supervisor.log <+: (supervisor.terminateRemaining proc rest place).log := by
  cases place with
  | next index =>
      rw [terminateRemaining]
      split <;> exact List.prefix_rfl
  | asking index child =>
      rw [terminateRemaining]
      split <;> exact List.prefix_rfl
  | sending index child => exact List.prefix_append _ _

variable [DecidableEq Child]

theorem log_loop (moved : supervisor.loop = some next) : supervisor.log <+: next.log := by
  unfold loop at moved
  split at moved
  case h_9 place proc rest here =>
    cases moved
    exact log_terminateRemaining proc rest place
  all_goals try split at moved
  all_goals cases moved
  all_goals first
    | exact List.prefix_rfl
    | exact List.prefix_append _ _

theorem log_runs (run : Runs step Any supervisor next) : supervisor.log <+: next.log := by
  induction run with
  | refl => exact List.prefix_rfl
  | tail _ move ih =>
      obtain ⟨event, _, moved⟩ := move
      refine ih.trans ?_
      cases event with
      | loop => exact log_loop moved
      | exit child =>
          cases moved
          exact List.prefix_rfl
      | signal =>
          cases moved
          exact List.prefix_append _ _

end Log

end Supervisor

section

variable [DecidableEq Child]

/-- In every run all children are watched until they are dead, and a signal or
the first death reaches all others. -/
theorem supervise_stops_as_unit (children : List Child) : StopsAsUnit children where
  waits alive last run returned child member := by
    have holds := (Supervisor.Invariant.start children alive).runs run
    have fits := holds.fits
    rw [returned] at fits
    exact holds.dropped child member (by rw [show last.procs = [] from fits]; simp)
  keeps alive last run := ((Supervisor.Invariant.start children alive).runs run).kept
  signalled alive before handled last toBefore sent toLast child member present := by
    have held := (Supervisor.Invariant.start children alive).runs toBefore
    cases sent
    exact (Supervisor.log_runs toLast).subset (held.handle.flagged rfl child member present)
  processed alive before last toBefore shorter idle toLast child member present := by
    have held := (Supervisor.Invariant.start children alive).runs toBefore
    exact (Supervisor.log_runs toLast).subset
      (held.flagged (held.stopped shorter idle) child member present)

-- the first of two children exits, and the second is terminated
example :
    (replay Supervisor.step Any (.start [0, 1] fun _ => true)
      (.exit 0 :: List.replicate 12 .loop)).map (fun supervisor => supervisor.log) =
        some [.polled 0 false, .terminated 1] := by
  decide

/-- `procs.remove` never raises. -/
theorem supervise_never_fails {children : List Child} {alive : Child → Bool}
    {supervisor : Supervisor Child}
    (run : Runs Supervisor.step Any (.start children alive) supervisor) :
    supervisor.pc ≠ .failed := by
  intro failed
  have fits := ((Supervisor.Invariant.start children alive).runs run).fits
  rw [failed] at fits
  exact fits

end

end Crucible
