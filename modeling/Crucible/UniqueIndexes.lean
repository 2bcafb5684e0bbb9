import Crucible.KeyedTable

/-!
# Unique indexes

A unique index assigns an entry to some rows of a table and allows no two rows
with the same entry; rows without an entry lie outside the index, as under the
`WHERE` clause of a partial one.  The rules below say which inserts and
modifications the index accepts.
-/

namespace KeyedTable

variable {Key Row Entry : Type*} [DecidableEq Key]

/-- No two rows share an entry. -/
def Indexed (index : Row → Option Entry) (table : KeyedTable Key Row) : Prop :=
  ∀ first ∈ table.entries, ∀ second ∈ table.entries,
    index first.2 ≠ none → index first.2 = index second.2 → first.1 = second.1

instance [DecidableEq Entry] (index : Row → Option Entry) (table : KeyedTable Key Row) :
    Decidable (table.Indexed index) :=
  inferInstanceAs (Decidable (∀ first ∈ table.entries, ∀ second ∈ table.entries, _))

variable {index : Row → Option Entry} {table : KeyedTable Key Row}

theorem indexed_iff :
    table.Indexed index ↔ ∀ key other row row', table.lookup key = some row →
      table.lookup other = some row' → index row ≠ none → index row = index row' →
      key = other := by
  constructor
  · intro indexed key other row row' found found' listed same
    exact indexed ⟨key, row⟩ (AList.mem_lookup_iff.mp found) ⟨other, row'⟩
      (AList.mem_lookup_iff.mp found') listed same
  · intro unique first member second member' listed same
    exact unique first.1 second.1 first.2 second.2 (AList.mem_lookup_iff.mpr member)
      (AList.mem_lookup_iff.mpr member') listed same

omit [DecidableEq Key] in
theorem indexed_empty : (∅ : KeyedTable Key Row).Indexed index :=
  fun _ member => absurd member (by simp)

theorem Indexed.insert (indexed : table.Indexed index) {key : Key} {row : Row}
    (free : ∀ other row', other ≠ key → table.lookup other = some row' →
      index row' ≠ none → index row' ≠ index row) :
    Indexed index (table.insert key row) := by
  rw [indexed_iff] at indexed ⊢
  intro first second row₁ row₂ found found' listed same
  rw [lookup_insert] at found found'
  by_cases atFirst : first = key <;> by_cases atSecond : second = key
  · rw [atFirst, atSecond]
  · obtain rfl : row = row₁ := by simpa [atFirst] using found
    rw [if_neg atSecond] at found'
    exact absurd same.symm (free second row₂ atSecond found' (same ▸ listed))
  · obtain rfl : row = row₂ := by simpa [atSecond] using found'
    rw [if_neg atFirst] at found
    exact absurd same (free first row₁ atFirst found listed)
  · rw [if_neg atFirst] at found
    rw [if_neg atSecond] at found'
    exact indexed first second row₁ row₂ found found' listed same

/-- A row may be changed if no other row has the entry of the new version. -/
theorem Indexed.modify (indexed : table.Indexed index) {key : Key} {change : Row → Row}
    (free : ∀ row other row', table.lookup key = some row → other ≠ key →
      table.lookup other = some row' → index row' ≠ none → index row' ≠ index (change row)) :
    Indexed index (table.modify key change) := by
  unfold KeyedTable.modify
  split
  case h_1 row found => exact indexed.insert fun other row' => free row other row' found
  case h_2 => exact indexed

/-- A change that leaves the entry as it was, or takes the row out of the index,
needs no condition. -/
theorem Indexed.modify_of_subset (indexed : table.Indexed index) {key : Key}
    {change : Row → Row}
    (subset : ∀ row, index (change row) = none ∨ index (change row) = index row) :
    Indexed index (table.modify key change) := by
  refine indexed.modify fun row other row' found distinct found' listed same => ?_
  obtain gone | kept := subset row
  · exact listed (same.trans gone)
  · exact distinct (indexed_iff.mp indexed other key row' row found' found listed
      (same.trans kept))

end KeyedTable
