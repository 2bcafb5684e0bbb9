import Crucible.RegisteredIds

/-!
# Rows and the runs that insert them

A row is inserted by one run and made ready by that run only, after its uploads
have ended, even when other runs take it for a stale one.  This holds in every
interleaving, without a condition on what the runs find.
-/

namespace Crucible

namespace RegistrationPc

def registered : RegistrationPc → Option Registration
  | .selecting registration | .deleting registration _ | .inserting registration
  | .reserved registration _ | .uploading registration _ | .activating registration _
  | .activated registration _ | .removing registration _ | .printing registration _
  | .printed registration _ => some registration
  | .idle | .removed | .failed => none

/-- The versions of rows that a run has written and not committed. -/
def Writes (id : Nat) (row : DatasetRow) : RegistrationPc → Prop
  | .reserved registration datasetId => id = datasetId ∧ row = registration.row
  | .activated registration datasetId =>
      id = datasetId ∧ row = { registration.row with status := .ready }
  | _ => False

def finishing : RegistrationPc → Bool
  | .activating _ _ | .activated _ _ => true
  | _ => false

theorem not_writes {pc : RegistrationPc} (silent : pc.writes = none) (id : Nat)
    (row : DatasetRow) : ¬ pc.Writes id row := by
  intro writes
  cases pc with
  | reserved registration datasetId | activated registration datasetId => cases silent
  | _ => exact writes.elim

theorem Writes.owns {id : Nat} {row : DatasetRow} {pc : RegistrationPc}
    (writes : pc.Writes id row) : pc.owns = some id := by
  cases pc with
  | reserved registration datasetId | activated registration datasetId =>
      exact congrArg some writes.1.symm
  | _ => exact writes.elim

end RegistrationPc

namespace DatasetRegistry

open LabelledRuns

variable {n : Nat}

/-- Owned rows are as their runs have registered them, and every ready row was
there before or belongs to a run that has uploaded everything. -/
structure Signed (prior : DatasetRow → Prop) (signs : Fin n → Option Registration)
    (done : Fin n → Prop) (registry : DatasetRegistry n) : Prop where
  bounded : ∀ id, registry.nextId ≤ id →
    registry.rows.committed id = none ∧ registry.rows.draft id = none
  issued : ∀ run id, (registry.runs run).owns = some id → id < registry.nextId
  sole : ∀ run other id, (registry.runs run).owns = some id →
    (registry.runs other).owns = some id → run = other
  signed : ∀ run registration, (registry.runs run).registered = some registration →
    signs run = some registration
  owned : ∀ run registration id row, (registry.runs run).registered = some registration →
    (registry.runs run).owns = some id → registry.rows.committed id = some row →
    row = registration.row
  drafted : ∀ id owner row, registry.rows.draft id = some (owner, some row) →
    (registry.runs owner).Writes id row
  ready : ∀ id row, registry.rows.committed id = some row → row.status = .ready →
    prior row ∨ ∃ run registration, signs run = some registration ∧ done run ∧
      row = { registration.row with status := .ready }
  finishing : ∀ run, (registry.runs run).finishing = true → done run

namespace Signed

variable {prior : DatasetRow → Prop} {signs : Fin n → Option Registration}
  {done : Fin n → Prop} {registry next : DatasetRegistry n} {run : Fin n}
  {pc : RegistrationPc}

theorem mono (held : registry.Signed prior signs done) {signs' : Fin n → Option Registration}
    {done' : Fin n → Prop}
    (more : ∀ run registration, signs run = some registration → signs' run = some registration)
    (further : ∀ run, done run → done' run) : registry.Signed prior signs' done' :=
  { held with
    signed := fun run registration listed => more run registration (held.signed run _ listed)
    ready := fun id row stored ready => (held.ready id row stored ready).imp_right
      fun ⟨run, registration, listed, finished, same⟩ =>
        ⟨run, registration, more run registration listed, further run finished, same⟩
    finishing := fun run behind => further run (held.finishing run behind) }

/-- A step of one run to another control point, with other rows. -/
structure Move (signs : Fin n → Option Registration) (done : Fin n → Prop)
    (registry : DatasetRegistry n) (run : Fin n) (pc : RegistrationPc)
    (rows : LockedRows Nat (Option DatasetRow) (Fin n)) (nextId : Nat) : Prop where
  issues : registry.nextId ≤ nextId
  bounded : ∀ id, nextId ≤ id → rows.committed id = none ∧ rows.draft id = none
  signed : ∀ registration, pc.registered = some registration → signs run = some registration
  owns : ∀ id, pc.owns = some id →
    (registry.runs run).owns = some id ∨ registry.nextId ≤ id ∧ id < nextId
  owned : ∀ registration id row, pc.registered = some registration → pc.owns = some id →
    rows.committed id = some row → row = registration.row
  committed : ∀ id row, rows.committed id = some row →
    registry.rows.committed id = some row ∨ registry.rows.draft id = some (run, some row)
  drafted : ∀ id owner row, rows.draft id = some (owner, some row) →
    owner ≠ run ∧ registry.rows.draft id = some (owner, some row) ∨
      owner = run ∧ pc.Writes id row
  finishing : pc.finishing = true → done run

theorem move (held : registry.Signed prior signs done)
    {rows : LockedRows Nat (Option DatasetRow) (Fin n)} {nextId : Nat}
    (moves : Move signs done registry run pc rows nextId) :
    Signed prior signs done { registry.put run pc rows with nextId := nextId } := by
  have own : (registry.put run pc rows).runs run = pc := Function.update_self ..
  have others {other : Fin n} (distinct : other ≠ run) :
      (registry.put run pc rows).runs other = registry.runs other :=
    Function.update_of_ne distinct ..
  have fresh {other : Fin n} {id : Nat} (owns : pc.owns = some id)
      (owns' : (registry.runs other).owns = some id) : other = run := by
    rcases moves.owns id owns with before | new
    · exact held.sole other run id owns' before
    · exact absurd (held.issued other id owns') (Nat.not_lt.mpr new.1)
  refine ⟨moves.bounded, fun other id owns => ?_, fun first second id owns owns' => ?_,
    fun other registration listed => ?_, fun other registration id row listed owns stored => ?_,
    fun id owner row drafted => ?_, fun id row stored ready => ?_, fun other behind => ?_⟩
  · change ((registry.put run pc rows).runs other).owns = some id at owns
    by_cases mine : other = run
    · rw [mine, own] at owns
      exact (moves.owns id owns).elim
        (fun before => Nat.lt_of_lt_of_le (held.issued run id before) moves.issues)
        (fun new => new.2)
    · rw [others mine] at owns
      exact Nat.lt_of_lt_of_le (held.issued other id owns) moves.issues
  · change ((registry.put run pc rows).runs first).owns = some id at owns
    change ((registry.put run pc rows).runs second).owns = some id at owns'
    by_cases mine : first = run <;> by_cases mine' : second = run
    · rw [mine, mine']
    · rw [mine, own] at owns
      rw [others mine'] at owns'
      exact absurd (fresh owns owns') mine'
    · rw [mine', own] at owns'
      rw [others mine] at owns
      exact absurd (fresh owns' owns) mine
    · rw [others mine] at owns
      rw [others mine'] at owns'
      exact held.sole first second id owns owns'
  · change ((registry.put run pc rows).runs other).registered = some registration at listed
    by_cases mine : other = run
    · rw [mine, own] at listed
      rw [mine]
      exact moves.signed registration listed
    · rw [others mine] at listed
      exact held.signed other registration listed
  · change ((registry.put run pc rows).runs other).registered = some registration at listed
    change ((registry.put run pc rows).runs other).owns = some id at owns
    by_cases mine : other = run
    · rw [mine, own] at listed owns
      exact moves.owned registration id row listed owns stored
    · rw [others mine] at listed owns
      rcases moves.committed id row stored with before | drafted
      · exact held.owned other registration id row listed owns before
      · exact absurd (held.sole other run id owns (held.drafted id run row drafted).owns) mine
  · rcases moves.drafted id owner row drafted with ⟨other, before⟩ | ⟨rfl, writes⟩
    · change ((registry.put run pc rows).runs owner).Writes id row
      rw [others other]
      exact held.drafted id owner row before
    · change ((registry.put owner pc rows).runs owner).Writes id row
      rw [own]
      exact writes
  · rcases moves.committed id row stored with before | drafted
    · exact held.ready id row before ready
    · have writes := held.drafted id run row drafted
      cases located : registry.runs run with
      | reserved registration datasetId =>
          rw [located] at writes
          obtain ⟨_, rfl⟩ := writes
          cases ready
      | activated registration datasetId =>
          rw [located] at writes
          exact .inr ⟨run, registration, held.signed run registration (by rw [located]; rfl),
            held.finishing run (by rw [located]; rfl), writes.2⟩
      | _ =>
          rw [located] at writes
          exact writes.elim
  · change ((registry.put run pc rows).runs other).finishing = true at behind
    by_cases mine : other = run
    · rw [mine, own] at behind
      rw [mine]
      exact moves.finishing behind
    · rw [others mine] at behind
      exact held.finishing other behind

section Moves

variable {rows : LockedRows Nat (Option DatasetRow) (Fin n)}

theorem stay (held : registry.Signed prior signs done)
    (quiet : ∀ id row, ¬ (registry.runs run).Writes id row)
    (signed : ∀ registration, pc.registered = some registration → signs run = some registration)
    (keeps : ∀ id, pc.owns = some id → (registry.runs run).owns = some id ∧
      pc.registered = (registry.runs run).registered)
    (finishing : pc.finishing = true → done run) :
    Move signs done registry run pc registry.rows registry.nextId where
  issues := Nat.le_refl _
  bounded := held.bounded
  signed := signed
  owns id owns := .inl (keeps id owns).1
  owned registration id row listed owns stored :=
    held.owned run registration id row ((keeps id owns).2 ▸ listed) (keeps id owns).1 stored
  committed _ _ stored := .inl stored
  drafted id owner row drafted := by
    by_cases mine : owner = run
    · exact absurd (mine ▸ held.drafted id owner row drafted) (quiet id row)
    · exact .inl ⟨mine, drafted⟩
  finishing := finishing

theorem writes (held : registry.Signed prior signs done)
    (quiet : ∀ id row, ¬ (registry.runs run).Writes id row) {key : Nat} {before : DatasetRow}
    (stored : registry.rows.committed key = some before)
    (acquired : registry.rows.acquire run key = some rows) {version : Option DatasetRow}
    (entitled : ∀ row, version = some row → pc.Writes key row)
    (signed : ∀ registration, pc.registered = some registration → signs run = some registration)
    (keeps : ∀ id, pc.owns = some id → (registry.runs run).owns = some id ∧
      pc.registered = (registry.runs run).registered)
    (finishing : pc.finishing = true → done run) :
    Move signs done registry run pc (rows.write run key version) registry.nextId := by
  obtain ⟨same, elsewhere, _⟩ := LockedRows.acquire_eq_some acquired
  have stays := held.stay quiet signed keeps finishing
  have drafts {id : Nat} (other : id ≠ key) :
      (rows.write run key version).draft id = registry.rows.draft id := by
    rw [LockedRows.write_draft_of_ne _ _ _ other, elsewhere id other]
  have committed : (rows.write run key version).committed = registry.rows.committed := by
    rw [LockedRows.write_committed, same]
  refine { stays with bounded := fun id late => ?_, owned := ?_, committed := ?_, drafted := ?_ }
  · have other : id ≠ key := by
      rintro rfl
      rw [(held.bounded id late).1] at stored
      cases stored
    rw [drafts other, committed]
    exact held.bounded id late
  · rw [committed]
    exact stays.owned
  · rw [committed]
    exact stays.committed
  · intro id owner row drafted
    by_cases atKey : id = key
    · subst atKey
      have written : (rows.write run id version).draft id = some (run, version) :=
        Function.update_self ..
      rw [written] at drafted
      cases drafted
      exact .inr ⟨rfl, entitled row rfl⟩
    · rw [drafts atKey] at drafted
      exact stays.drafted id owner row drafted

/-- Ending a transaction: `rows` is what has been committed or rolled back. -/
theorem ends (held : registry.Signed prior signs done)
    (signed : ∀ registration, pc.registered = some registration → signs run = some registration)
    (owns : ∀ id, pc.owns = some id → (registry.runs run).owns = some id)
    (kept : rows.draft = (registry.rows.rollback run).draft)
    (committed : ∀ id, rows.committed id = registry.rows.committed id ∨
      registry.rows.draft id = some (run, rows.committed id))
    (owned : ∀ registration id row, pc.registered = some registration → pc.owns = some id →
      rows.committed id = some row → row = registration.row)
    (finishing : pc.finishing = true → done run) :
    Move signs done registry run pc rows registry.nextId where
  issues := Nat.le_refl _
  bounded id late := by
    obtain ⟨absent, free⟩ := held.bounded id late
    refine ⟨?_, ?_⟩
    · rcases committed id with same | drafted
      · rw [same, absent]
      · rw [free] at drafted
        cases drafted
    · rw [kept]
      change (registry.rows.draft id).filter _ = none
      rw [free]
      rfl
  signed := signed
  owns id owned := .inl (owns id owned)
  owned := owned
  committed id row stored := by
    rcases committed id with same | drafted
    · exact .inl (same.symm.trans stored)
    · exact .inr (stored ▸ drafted)
  drafted id owner row drafted := by
    rw [kept] at drafted
    obtain ⟨before, other⟩ := LockedRows.rollback_draft drafted
    exact .inl ⟨other, before⟩
  finishing := finishing

theorem rollsBack (held : registry.Signed prior signs done) :
    Move signs done registry run .failed (registry.rows.rollback run) registry.nextId :=
  held.ends nofun nofun rfl (fun _ => .inl rfl) nofun nofun

theorem commits (held : registry.Signed prior signs done)
    (signed : ∀ registration, pc.registered = some registration → signs run = some registration)
    (keeps : ∀ id, pc.owns = some id → (registry.runs run).owns = some id ∧
      pc.registered = (registry.runs run).registered)
    (unfinished : pc.owns ≠ none → (registry.runs run).finishing = false)
    (finishing : pc.finishing = true → done run) :
    Move signs done registry run pc (registry.rows.commit run) registry.nextId := by
  refine held.ends signed (fun id owns => (keeps id owns).1) rfl
    (fun id => registry.rows.seen_eq_or run id) ?_ finishing
  intro registration id row listed owns stored
  obtain ⟨owned, same⟩ := keeps id owns
  rcases registry.rows.seen_eq_or run id with before | drafted
  · exact held.owned run registration id row (same ▸ listed) owned (before ▸ stored)
  · rw [LockedRows.commit_committed] at stored
    rw [stored] at drafted
    have writes := held.drafted id run row drafted
    have early := unfinished (by rw [owns]; exact Option.some_ne_none id)
    cases located : registry.runs run with
    | reserved registration' datasetId =>
        rw [located] at writes same
        cases same.symm.trans listed
        exact writes.2
    | activated registration' datasetId =>
        rw [located] at early
        cases early
    | _ =>
        rw [located] at writes
        exact writes.elim

theorem inserts (held : registry.Signed prior signs done)
    (quiet : ∀ id row, ¬ (registry.runs run).Writes id row) {registration : Registration}
    (signed : signs run = some registration) :
    Move signs done registry run (.reserved registration registry.nextId)
      (registry.rows.write run registry.nextId (some registration.row)) (registry.nextId + 1) where
  issues := Nat.le_succ _
  bounded id late := by
    have other : id ≠ registry.nextId := Nat.ne_of_gt late
    rw [LockedRows.write_draft_of_ne _ _ _ other]
    exact held.bounded id (Nat.le_of_succ_le late)
  signed registration' listed := by
    cases listed
    exact signed
  owns id owns := by
    cases owns
    exact .inr ⟨Nat.le_refl _, Nat.lt_succ_self _⟩
  owned registration' id row _ owns stored := by
    cases owns
    rw [LockedRows.write_committed, (held.bounded _ (Nat.le_refl _)).1] at stored
    cases stored
  committed _ _ stored := .inl stored
  drafted id owner row drafted := by
    by_cases fresh : id = registry.nextId
    · subst fresh
      have written : (registry.rows.write run registry.nextId (some registration.row)).draft
          registry.nextId = some (run, some registration.row) := Function.update_self ..
      rw [written] at drafted
      cases drafted
      exact .inr ⟨rfl, rfl, rfl⟩
    · rw [LockedRows.write_draft_of_ne _ _ _ fresh] at drafted
      have stays : Move signs done registry run .failed registry.rows registry.nextId :=
        held.stay quiet nofun nofun nofun
      exact (stays.drafted id owner row drafted).imp_right fun impossible => impossible.2.elim
  finishing := nofun

end Moves

theorem statement (held : registry.Signed prior signs done)
    (moved : registry.statement run (registry.runs run) = some next) :
    next.Signed prior signs done := by
  have signed := held.signed run
  have owned := held.owned run
  have finishing := held.finishing run
  generalize located : registry.runs run = pc at moved signed owned finishing
  have quiet (none : ∀ id row, ¬ pc.Writes id row) :
      ∀ id row, ¬ (registry.runs run).Writes id row := located ▸ none
  cases outcome_of_statement moved with
  | missing | ready | stale | vanished | printed =>
      exact held.move (held.stay (quiet nofun) signed nofun nofun)
  | lost =>
      refine held.move (held.stay (quiet nofun) signed (fun id owns => ?_) finishing)
      rw [located]
      exact ⟨owns, rfl⟩
  | spared => exact held.move (held.stay (quiet nofun) nofun nofun nofun)
  | deleted stored acquired =>
      exact held.move (held.writes (quiet nofun) stored acquired nofun signed nofun nofun)
  | cleared stored acquired =>
      exact held.move (held.writes (quiet nofun) stored acquired nofun nofun nofun nofun)
  | violated => exact held.move held.rollsBack
  | inserted => exact held.move (held.inserts (quiet nofun) (signed _ rfl))
  | reserved =>
      refine held.move (held.commits signed (fun id owns => ?_) (fun _ => ?_) nofun)
      · rw [located]
        exact ⟨owns, rfl⟩
      · rw [located]
        rfl
  | activated => exact held.move (held.commits signed nofun (fun owns => absurd rfl owns) nofun)
  | removed => exact held.move (held.commits nofun nofun (fun owns => absurd rfl owns) nofun)
  | @updated registration datasetId row rows stored acquired =>
      refine held.move (held.writes (quiet nofun) stored acquired (fun version same => ?_) signed
        (fun id owns => ?_) finishing)
      · cases same
        exact ⟨rfl, by rw [owned registration datasetId row rfl rfl stored]⟩
      · rw [located]
        exact ⟨owns, rfl⟩

theorem step (held : registry.Signed prior signs done) {action : Action n}
    (starts : ∀ run registration, action = .start run registration →
      signs run = some registration)
    (uploads : ∀ run, action = .uploaded run → done run)
    (moved : registry.step action = some next) : next.Signed prior signs done := by
  cases action with
  | start run registration =>
      simp only [DatasetRegistry.step] at moved
      split at moved
      case h_1 located =>
        cases moved
        refine held.move (held.stay (by rw [located]; exact RegistrationPc.not_writes rfl) ?_ (fun _ owns => by cases owns)
          fun behind => by cases behind)
        rintro _ ⟨⟩
        exact starts run registration rfl
      case h_2 => cases moved
  | statement run => exact held.statement moved
  | uploaded run =>
      simp only [DatasetRegistry.step] at moved
      split at moved
      case h_1 registration datasetId located =>
        cases moved
        refine held.move (held.stay (by rw [located]; exact RegistrationPc.not_writes rfl) ?_ (fun id owns => ?_)
          fun _ => uploads run rfl)
        · exact fun registration listed =>
            held.signed run registration (by rw [located]; exact listed)
        · rw [located]
          exact ⟨owns, rfl⟩
      case h_2 => cases moved
  | uploadFailed run =>
      simp only [DatasetRegistry.step] at moved
      split at moved
      case h_1 registration datasetId located =>
        cases moved
        refine held.move (held.stay (by rw [located]; exact RegistrationPc.not_writes rfl) ?_ (fun _ owns => by cases owns)
          fun behind => by cases behind)
        exact fun registration listed =>
          held.signed run registration (by rw [located]; exact listed)
      case h_2 => cases moved
  | abort run =>
      simp only [DatasetRegistry.step] at moved
      split at moved
      case h_1 => cases moved
      case h_2 => cases moved
      case h_3 =>
        cases moved
        exact held.move held.rollsBack

end Signed

def Action.starts : Action n → Bool
  | .start _ _ => true
  | _ => false

theorem step_ne_idle {registry next : DatasetRegistry n} {action : Action n} {run : Fin n}
    (moved : registry.step action = some next) (begun : registry.runs run ≠ .idle) :
    next.runs run ≠ .idle := by
  have put {mover : Fin n} {pc : RegistrationPc} (busy : pc ≠ .idle)
      (rows : LockedRows Nat (Option DatasetRow) (Fin n)) :
      (registry.put mover pc rows).runs run ≠ .idle := by
    simp only [DatasetRegistry.put, Function.update_apply]
    split
    · exact busy
    · exact begun
  cases action with
  | start mover registration | uploaded mover | uploadFailed mover =>
      simp only [DatasetRegistry.step] at moved
      split at moved <;> cases moved
      exact put (by simp) _
  | statement mover =>
      simp only [DatasetRegistry.step] at moved
      generalize registry.runs mover = pc at moved
      cases outcome_of_statement moved with
      | inserted => exact put (by simp) registry.rows
      | _ => exact put (by simp) _
  | abort mover =>
      simp only [DatasetRegistry.step] at moved
      split at moved <;> cases moved
      exact put (by simp) _

end DatasetRegistry

end Crucible
