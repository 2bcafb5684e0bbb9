import Mathlib.Logic.Function.Basic

/-!
# Row locks and uncommitted versions

Postgres keeps, for each row, the last committed version and at most one
uncommitted version, which belongs to the transaction that holds the row's
lock.  Plain reads see the committed version.  A writer that meets a lock of
another transaction waits, and then continues from the version committed last.
An absent row is a version like any other, so inserts and deletes are covered.

The one rule behind every argument about such tables is that a version written
under a lock still derives, at its commit, from the version that was committed
when the lock was taken.  `Based` states it for a relation that may depend on
the local state of the lock's holder, and the lemmas below carry it through
every operation.
-/

/-- Committed versions of rows, and uncommitted ones with their lock holders. -/
structure LockedRows (Key Version Holder : Type*) where
  committed : Key → Version
  draft : Key → Option (Holder × Version)

namespace LockedRows

variable {Key Version Holder Local : Type*} [DecidableEq Key] [DecidableEq Holder]

/-- Take the lock of a row, or `none` while another transaction holds it. -/
def acquire (rows : LockedRows Key Version Holder) (holder : Holder) (key : Key) :
    Option (LockedRows Key Version Holder) :=
  match rows.draft key with
  | none =>
      some { rows with
        draft := Function.update rows.draft key (some (holder, rows.committed key)) }
  | some (owner, _) => if owner = holder then some rows else none

def write (rows : LockedRows Key Version Holder) (holder : Holder) (key : Key)
    (version : Version) : LockedRows Key Version Holder :=
  { rows with draft := Function.update rows.draft key (some (holder, version)) }

/-- The version that a transaction itself sees. -/
def seen (rows : LockedRows Key Version Holder) (holder : Holder) (key : Key) : Version :=
  match rows.draft key with
  | some (owner, version) => if owner = holder then version else rows.committed key
  | none => rows.committed key

def rollback (rows : LockedRows Key Version Holder) (holder : Holder) :
    LockedRows Key Version Holder :=
  { rows with draft := fun key => (rows.draft key).filter fun entry => entry.1 ≠ holder }

def commit (rows : LockedRows Key Version Holder) (holder : Holder) :
    LockedRows Key Version Holder :=
  { rows.rollback holder with committed := rows.seen holder }

/-- Every uncommitted version derives from the committed one, in a way that the
state of its writer determines. -/
def Based (derives : Local → Key → Version → Version → Prop) (locals : Holder → Local)
    (rows : LockedRows Key Version Holder) : Prop :=
  ∀ key holder version, rows.draft key = some (holder, version) →
    derives (locals holder) key (rows.committed key) version

omit [DecidableEq Holder] in
@[simp]
theorem write_committed (rows : LockedRows Key Version Holder) (holder : Holder) (key : Key)
    (version : Version) : (rows.write holder key version).committed = rows.committed :=
  rfl

omit [DecidableEq Holder] in
theorem write_draft_of_ne (rows : LockedRows Key Version Holder) (holder : Holder)
    {key other : Key} (version : Version) (distinct : other ≠ key) :
    (rows.write holder key version).draft other = rows.draft other :=
  Function.update_of_ne distinct _ _

omit [DecidableEq Key] in
@[simp]
theorem rollback_committed (rows : LockedRows Key Version Holder) (holder : Holder) :
    (rows.rollback holder).committed = rows.committed :=
  rfl

omit [DecidableEq Key] in
@[simp]
theorem commit_committed (rows : LockedRows Key Version Holder) (holder : Holder) :
    (rows.commit holder).committed = rows.seen holder :=
  rfl

theorem acquire_eq_some {rows rows' : LockedRows Key Version Holder} {holder : Holder}
    {key : Key} (acquired : rows.acquire holder key = some rows') :
    rows'.committed = rows.committed ∧
      (∀ other, other ≠ key → rows'.draft other = rows.draft other) ∧
      ((rows.draft key = none ∧ rows'.draft key = some (holder, rows.committed key)) ∨
        (rows' = rows ∧ ∃ version, rows.draft key = some (holder, version))) := by
  unfold acquire at acquired
  split at acquired
  case h_1 unlocked =>
    cases acquired
    exact ⟨rfl, fun other distinct => Function.update_of_ne distinct _ _,
      Or.inl ⟨unlocked, Function.update_self ..⟩⟩
  case h_2 owner version locked =>
    split at acquired
    case isTrue own =>
      cases acquired
      exact ⟨rfl, fun _ _ => rfl, Or.inr ⟨rfl, version, by rw [locked, own]⟩⟩
    case isFalse => cases acquired

omit [DecidableEq Key] in
/-- What a commit changes is what its transaction wrote. -/
theorem seen_eq_or (rows : LockedRows Key Version Holder) (holder : Holder) (key : Key) :
    rows.seen holder key = rows.committed key ∨
      rows.draft key = some (holder, rows.seen holder key) := by
  unfold seen
  split
  case h_1 owner version locked =>
    split
    case isTrue own => exact Or.inr (by rw [locked, own])
    case isFalse => exact Or.inl rfl
  case h_2 => exact Or.inl rfl

omit [DecidableEq Key] in
theorem seen_of_draft {rows : LockedRows Key Version Holder} {holder : Holder} {key : Key}
    {version : Version} (locked : rows.draft key = some (holder, version)) :
    rows.seen holder key = version := by
  simp [seen, locked]

omit [DecidableEq Key] in
theorem rollback_draft {rows : LockedRows Key Version Holder} {holder owner : Holder}
    {key : Key} {version : Version}
    (kept : (rows.rollback holder).draft key = some (owner, version)) :
    rows.draft key = some (owner, version) ∧ owner ≠ holder := by
  obtain ⟨locked, other⟩ := Option.filter_eq_some_iff.mp kept
  exact ⟨locked, by simpa using other⟩

theorem seen_write (rows : LockedRows Key Version Holder) (holder : Holder) (key : Key)
    (version : Version) (other : Key) :
    (rows.write holder key version).seen holder other =
      if other = key then version else rows.seen holder other := by
  by_cases atKey : other = key
  · subst atKey
    simp [seen, write]
  · simp [seen, write_draft_of_ne rows holder version atKey, atKey]

/-- Taking a lock changes nothing that the holder sees. -/
theorem seen_acquire {rows rows' : LockedRows Key Version Holder} {holder : Holder} {key : Key}
    (acquired : rows.acquire holder key = some rows') :
    rows'.seen holder = rows.seen holder := by
  obtain ⟨same, elsewhere, ⟨free, taken⟩ | ⟨rfl, _⟩⟩ := acquire_eq_some acquired
  · funext other
    by_cases atKey : other = key
    · subst atKey
      simp [seen, free, taken]
    · simp [seen, same, elsewhere other atKey]
  · rfl

omit [DecidableEq Key] in
theorem seen_rollback (rows : LockedRows Key Version Holder) (holder : Holder) :
    (rows.rollback holder).seen holder = rows.committed := by
  funext key
  unfold seen
  split
  case h_1 owner version kept => simp [(rollback_draft kept).2]
  case h_2 => rfl

omit [DecidableEq Key] in
theorem seen_commit (rows : LockedRows Key Version Holder) (holder : Holder) :
    (rows.commit holder).seen holder = rows.seen holder := by
  funext key
  change (match (rows.rollback holder).draft key with
    | some (owner, version) => if owner = holder then version else rows.seen holder key
    | none => rows.seen holder key) = rows.seen holder key
  split
  case h_1 owner version kept => simp [(rollback_draft kept).2]
  case h_2 => rfl

def locks (rows : LockedRows Key Version Holder) (holder : Holder) (key : Key) : Bool :=
  (rows.draft key).any fun entry => entry.1 = holder

omit [DecidableEq Key] in
theorem locks_iff {rows : LockedRows Key Version Holder} {holder : Holder} {key : Key} :
    rows.locks holder key = true ↔ ∃ version, rows.draft key = some (holder, version) := by
  rw [locks, Option.any_eq_true]
  constructor
  · rintro ⟨entry, locked, own⟩
    exact ⟨entry.2, by rw [locked, ← of_decide_eq_true own]⟩
  · rintro ⟨version, locked⟩
    exact ⟨_, locked, decide_eq_true rfl⟩

section OtherLocks

variable {rows rows' : LockedRows Key Version Holder} {holder other : Holder} {key : Key}

theorem locks_acquire_of_ne (distinct : other ≠ holder)
    (acquired : rows.acquire holder key = some rows') : rows'.locks other = rows.locks other := by
  obtain ⟨_, elsewhere, ⟨free, taken⟩ | ⟨rfl, _⟩⟩ := acquire_eq_some acquired
  · funext place
    by_cases atKey : place = key
    · subst atKey
      simp [locks, free, taken, Ne.symm distinct]
    · simp [locks, elsewhere place atKey]
  · rfl

theorem locks_write_of_ne (distinct : other ≠ holder) (version : Version)
    (held : ∃ before, rows.draft key = some (holder, before)) :
    (rows.write holder key version).locks other = rows.locks other := by
  obtain ⟨before, held⟩ := held
  funext place
  by_cases atKey : place = key
  · subst atKey
    simp [locks, write, held, Ne.symm distinct]
  · simp [locks, rows.write_draft_of_ne holder version atKey]

omit [DecidableEq Key] in
theorem locks_rollback_of_ne (distinct : other ≠ holder) :
    (rows.rollback holder).locks other = rows.locks other := by
  funext place
  simp only [locks, rollback]
  cases rows.draft place with
  | none => rfl
  | some entry =>
      by_cases own : entry.1 = holder
      · simp [own, Ne.symm distinct]
      · simp [own]

omit [DecidableEq Key] in
theorem locks_commit_of_ne (distinct : other ≠ holder) :
    (rows.commit holder).locks other = rows.locks other :=
  locks_rollback_of_ne distinct

end OtherLocks

/-- Every lock belongs to one transaction. -/
def Sole (rows : LockedRows Key Version Holder) (holder : Holder) : Prop :=
  ∀ key owner version, rows.draft key = some (owner, version) → owner = holder

namespace Sole

variable {rows rows' : LockedRows Key Version Holder} {holder : Holder} {key : Key}

/-- The only transaction never waits for a lock. -/
theorem acquires (sole : rows.Sole holder) (key : Key) :
    ∃ rows', rows.acquire holder key = some rows' := by
  cases locked : rows.draft key with
  | none => exact ⟨_, by rw [LockedRows.acquire, locked]⟩
  | some entry =>
      obtain ⟨owner, version⟩ := entry
      exact ⟨rows, by simp [acquire, locked, sole key owner version locked]⟩

theorem acquire (sole : rows.Sole holder) (acquired : rows.acquire holder key = some rows') :
    rows'.Sole holder := by
  obtain ⟨_, elsewhere, ⟨_, taken⟩ | ⟨rfl, _⟩⟩ := acquire_eq_some acquired
  · intro other owner version locked
    by_cases atKey : other = key
    · subst atKey
      rw [taken] at locked
      exact (congrArg Prod.fst (Option.some.inj locked)).symm
    · exact sole other owner version (elsewhere other atKey ▸ locked)
  · exact sole

omit [DecidableEq Holder] in
theorem write (sole : rows.Sole holder) (key : Key) (version : Version) :
    (rows.write holder key version).Sole holder := by
  intro other owner before locked
  by_cases atKey : other = key
  · subst atKey
    simp only [LockedRows.write, Function.update_self] at locked
    exact (congrArg Prod.fst (Option.some.inj locked)).symm
  · rw [rows.write_draft_of_ne holder version atKey] at locked
    exact sole other owner before locked

omit [DecidableEq Key] in
theorem rollback_draft (sole : rows.Sole holder) (key : Key) :
    (rows.rollback holder).draft key = none := by
  cases kept : (rows.rollback holder).draft key with
  | none => rfl
  | some entry =>
      obtain ⟨locked, other⟩ := LockedRows.rollback_draft kept
      exact absurd (sole key entry.1 entry.2 locked) other

end Sole

namespace Based

variable {derives : Local → Key → Version → Version → Prop} {locals : Holder → Local}
  {rows rows' : LockedRows Key Version Holder} {holder : Holder} {next : Local}

omit [DecidableEq Key] in
/-- A transaction may change its own state as long as its versions still derive. -/
theorem update (based : Based derives locals rows)
    (keeps : ∀ key before after,
      derives (locals holder) key before after → derives next key before after) :
    Based derives (Function.update locals holder next) rows := by
  intro key owner version locked
  have derived := based key owner version locked
  by_cases own : owner = holder
  · subst own
    simpa using keeps key _ _ derived
  · simpa [Function.update_of_ne own] using derived

theorem acquire (based : Based derives locals rows) {key : Key}
    (acquired : rows.acquire holder key = some rows')
    (keeps : ∀ key before after,
      derives (locals holder) key before after → derives next key before after)
    (starts : derives next key (rows.committed key) (rows.committed key)) :
    Based derives (Function.update locals holder next) rows' := by
  obtain ⟨same, others, fresh | ⟨rfl, _⟩⟩ := acquire_eq_some acquired
  · intro other owner version locked
    rw [same]
    by_cases atKey : other = key
    · subst atKey
      obtain ⟨rfl, rfl⟩ : holder = owner ∧ rows.committed other = version := by
        simpa [fresh.2] using locked
      simpa using starts
    · rw [others other atKey] at locked
      exact based.update keeps other owner version locked
  · exact based.update keeps

/-- A version written under a lock has to derive from the committed one. -/
theorem write (based : Based derives locals rows) {key : Key} {version : Version}
    (keeps : ∀ other before after, other ≠ key →
      derives (locals holder) other before after → derives next other before after)
    (held : ∃ before, rows.draft key = some (holder, before))
    (starts : derives next key (rows.committed key) version) :
    Based derives (Function.update locals holder next) (rows.write holder key version) := by
  intro other owner written locked
  by_cases atKey : other = key
  · subst atKey
    obtain ⟨rfl, rfl⟩ : holder = owner ∧ version = written := by
      simpa [LockedRows.write] using locked
    simpa using starts
  · have before : rows.draft other = some (owner, written) := by
      simpa [LockedRows.write, Function.update_of_ne atKey] using locked
    have derived := based other owner written before
    by_cases own : owner = holder
    · subst own
      simpa using keeps other _ _ atKey derived
    · simpa [Function.update_of_ne own] using derived

omit [DecidableEq Key] in
theorem rollback (based : Based derives locals rows) :
    Based derives (Function.update locals holder next) (rows.rollback holder) := by
  intro key owner version locked
  obtain ⟨before, other⟩ := rollback_draft locked
  simpa [Function.update_of_ne other] using based key owner version before

omit [DecidableEq Key] in
/-- A commit leaves the rows that other transactions have locked as they are. -/
theorem commit (based : Based derives locals rows) :
    Based derives (Function.update locals holder next) (rows.commit holder) := by
  intro key owner version locked
  obtain ⟨before, other⟩ := rollback_draft locked
  have unchanged : rows.seen holder key = rows.committed key := by
    simp [seen, before, other]
  simpa [Function.update_of_ne other, unchanged] using based key owner version before

end Based

/-- Transactions whose state needs a lock have it. -/
def Holds (needs : Local → Option Key) (locals : Holder → Local)
    (rows : LockedRows Key Version Holder) : Prop :=
  ∀ holder key, needs (locals holder) = some key →
    ∃ version, rows.draft key = some (holder, version)

namespace Holds

variable {needs : Local → Option Key} {locals : Holder → Local}
  {rows rows' : LockedRows Key Version Holder} {holder : Holder} {next : Local}

omit [DecidableEq Key] in
theorem update (holds : Holds needs locals rows)
    (keeps : ∀ key, needs next = some key → ∃ version, rows.draft key = some (holder, version)) :
    Holds needs (Function.update locals holder next) rows := by
  intro owner key needed
  by_cases own : owner = holder
  · subst own
    exact keeps key (by simpa using needed)
  · exact holds owner key (by simpa [Function.update_of_ne own] using needed)

theorem acquire (holds : Holds needs locals rows) {key : Key}
    (acquired : rows.acquire holder key = some rows')
    (keeps : ∀ other, needs next = some other → other = key) :
    Holds needs (Function.update locals holder next) rows' := by
  obtain ⟨_, others, fresh | ⟨rfl, version, held⟩⟩ := acquire_eq_some acquired
  · intro owner other needed
    by_cases own : owner = holder
    · subst own
      obtain rfl : other = key := keeps other (by simpa using needed)
      exact ⟨_, fresh.2⟩
    · obtain ⟨version, held⟩ :=
        holds owner other (by simpa [Function.update_of_ne own] using needed)
      have distinct : other ≠ key := by
        rintro rfl
        simp [fresh.1] at held
      exact ⟨version, by rw [others other distinct, held]⟩
  · refine holds.update fun other needed => ?_
    obtain rfl := keeps other needed
    exact ⟨version, held⟩

theorem write (holds : Holds needs locals rows) {key : Key} {version : Version}
    (held : ∃ before, rows.draft key = some (holder, before))
    (keeps : ∀ other, needs next = some other → other = key) :
    Holds needs (Function.update locals holder next) (rows.write holder key version) := by
  intro owner other needed
  by_cases atKey : other = key
  · subst atKey
    by_cases own : owner = holder
    · subst own
      exact ⟨version, Function.update_self ..⟩
    · obtain ⟨before, locked⟩ := held
      obtain ⟨_, mine⟩ := holds owner other (by simpa [Function.update_of_ne own] using needed)
      have sameHolder := congrArg Prod.fst (Option.some.inj (mine.symm.trans locked))
      exact absurd sameHolder own
  · have distinct : owner ≠ holder := by
      rintro rfl
      exact atKey (keeps other (by simpa using needed))
    obtain ⟨before, mine⟩ :=
      holds owner other (by simpa [Function.update_of_ne distinct] using needed)
    exact ⟨before, by simpa [LockedRows.write, Function.update_of_ne atKey] using mine⟩

omit [DecidableEq Key] in
/-- A transaction that has ended needs no lock; the others keep theirs. -/
theorem rollback (holds : Holds needs locals rows) (ended : needs next = none) :
    Holds needs (Function.update locals holder next) (rows.rollback holder) := by
  intro owner key needed
  have other : owner ≠ holder := by
    rintro rfl
    simp [ended] at needed
  obtain ⟨version, mine⟩ :=
    holds owner key (by simpa [Function.update_of_ne other] using needed)
  exact ⟨version, by simp [LockedRows.rollback, mine, other]⟩

omit [DecidableEq Key] in
theorem commit (holds : Holds needs locals rows) (ended : needs next = none) :
    Holds needs (Function.update locals holder next) (rows.commit holder) :=
  holds.rollback ended

end Holds

end LockedRows
