import Crucible.SharedStores

/-!
# `Reconciler.reconcile`

The two recovery passes as control points between calls.  The orders in which
the two queries list identifiers are choices of the database.
-/

namespace Crucible

/-- The settings that workers share. -/
structure Config where
  visibilityTimeoutSeconds : Int
  orphanGraceSeconds : Int
  reconcileIntervalSeconds : Int
  deriving DecidableEq, Repr

/-- Control points of `reconcile`: the abandoned jobs still to recover, and then
what the orphan pass has read so far. -/
inductive ReconcilerPc where
  | findStaleRunning
  | resetToQueued (id : UUID) (rest : List UUID)
  | publishQueued (id : UUID) (rest : List UUID)
  | requeueAbandoned (id : UUID) (rest : List UUID)
  | findOrphanQueued
  | queuedIds (candidates : List UUID)
  | inFlightIds (candidates : List UUID) (queued : List String)
  | requeueOrphan (id : UUID) (rest : List UUID) (live : List String)
  deriving DecidableEq

namespace ReconcilerPc

/-- The loop of `_recover_abandoned_running`. -/
def nextAbandoned : List UUID → ReconcilerPc
  | [] => .findOrphanQueued
  | id :: rest => .resetToQueued id rest

/-- The loop of `_recover_orphaned_queued`. -/
def nextOrphan (live : List String) : List UUID → Next ReconcilerPc Unit
  | [] => .returned ()
  | id :: rest => .goto (.requeueOrphan id rest live)

/-- One call of `reconcile`.  Skipping a candidate that is live makes no call. -/
def step (config : Config) (stores : SharedStores) (choice : Choice) :
    ReconcilerPc → Option (Write × Next ReconcilerPc Unit)
  | .findStaleRunning =>
      if choice.order.Perm
          (stores.jobs.findStaleRunning choice.now config.visibilityTimeoutSeconds) then
        some (attempt choice.fault .nothing (.goto (nextAbandoned choice.order))
          (.raised choice.error))
      else
        none
  | .resetToQueued id rest => some (attempt choice.fault
      (.execute choice.now id .resetToQueued)
      (.goto (.publishQueued id rest)) (.raised choice.error))
  | .publishQueued id rest => some (attempt choice.fault
      (.publish choice.now id .queued false)
      (.goto (.requeueAbandoned id rest)) (.raised choice.error))
  | .requeueAbandoned id rest => some (attempt choice.fault (.requeue id.str)
      (.goto (nextAbandoned rest)) (.raised choice.error))
  | .findOrphanQueued =>
      if choice.order.Perm
          (stores.jobs.findOrphanQueued choice.now config.orphanGraceSeconds) then
        some (attempt choice.fault .nothing
          (if choice.order = [] then .returned () else .goto (.queuedIds choice.order))
          (.raised choice.error))
      else
        none
  | .queuedIds candidates => some (attempt choice.fault .nothing
      (.goto (.inFlightIds candidates stores.queue)) (.raised choice.error))
  | .inFlightIds candidates queued => some (attempt choice.fault .nothing
      (nextOrphan (queued ++ stores.processing) candidates) (.raised choice.error))
  | .requeueOrphan id rest live =>
      if id.str ∈ live then
        some (.nothing, nextOrphan live rest)
      else
        some (attempt choice.fault (.requeue id.str) (nextOrphan live rest)
          (.raised choice.error))

/-- The write of the next call of `reconcile`. -/
def call (choice : Choice) : ReconcilerPc → Write
  | .resetToQueued id _ => .execute choice.now id .resetToQueued
  | .publishQueued id _ => .publish choice.now id .queued false
  | .requeueAbandoned id _ | .requeueOrphan id _ _ => .requeue id.str
  | .findStaleRunning | .findOrphanQueued | .queuedIds _ | .inFlightIds _ _ => .nothing

theorem step_write {config : Config} {stores : SharedStores} {choice : Choice}
    {pc : ReconcilerPc} {write : Write} {next : Next ReconcilerPc Unit}
    (stepped : pc.step config stores choice = some (write, next)) :
    write = .nothing ∨ write = pc.call choice := by
  cases pc with
  | findStaleRunning | findOrphanQueued =>
      obtain ⟨_, called⟩ := Option.ite_none_right_eq_some.mp stepped
      obtain rfl := congrArg Prod.fst (Option.some.inj called)
      exact attempt_made
  | requeueOrphan id rest live =>
      simp only [step] at stepped
      split at stepped
      case isTrue => exact .inl (congrArg Prod.fst (Option.some.inj stepped)).symm
      case isFalse =>
        obtain rfl := congrArg Prod.fst (Option.some.inj stepped)
        exact attempt_made
  | _ =>
      obtain rfl := congrArg Prod.fst (Option.some.inj stepped)
      exact attempt_made

theorem call_possible {stores : SharedStores} {choice : Choice}
    (current : choice.now ≤ stores.clock) (pc : ReconcilerPc) :
    stores.Possible (pc.call choice) := by
  cases pc with
  | resetToQueued id rest => exact current
  | _ => trivial

end ReconcilerPc

end Crucible
