import Mathlib.Data.List.Basic

/-!
# Redis list commands

Lists are written with the left end first.  `LPUSH` adds at the left,
`BRPOPLPUSH` moves the rightmost entry of one list to the left of another, and
`LREM key 0 value` removes every occurrence of a value.
-/

namespace RedisLists

variable {Entry : Type*}

def lpush (entries : List Entry) (entry : Entry) : List Entry :=
  entry :: entries

/-- `LREM key 0 value`. -/
def lrem [DecidableEq Entry] (entries : List Entry) (entry : Entry) : List Entry :=
  entries.filter (· ≠ entry)

/-- `BRPOPLPUSH`: the moved entry with both lists afterwards, or `none` when
the source stays empty until the timeout. -/
def brpoplpush (source target : List Entry) :
    Option (Entry × List Entry × List Entry) :=
  source.getLast?.map fun entry => (entry, source.dropLast, lpush target entry)

@[simp]
theorem mem_lpush {entries : List Entry} {entry other : Entry} :
    other ∈ lpush entries entry ↔ other = entry ∨ other ∈ entries :=
  List.mem_cons

@[simp]
theorem mem_lrem [DecidableEq Entry] {entries : List Entry} {entry other : Entry} :
    other ∈ lrem entries entry ↔ other ∈ entries ∧ other ≠ entry := by
  simp [lrem]

@[simp]
theorem count_lrem_self [DecidableEq Entry] (entries : List Entry) (entry : Entry) :
    (lrem entries entry).count entry = 0 :=
  List.count_eq_zero.mpr (by simp)

theorem count_lrem_of_ne [DecidableEq Entry] (entries : List Entry) {entry other : Entry}
    (distinct : other ≠ entry) :
    (lrem entries entry).count other = entries.count other :=
  List.count_filter (by simpa using distinct)

theorem count_lpush [DecidableEq Entry] (entries : List Entry) (entry other : Entry) :
    (lpush entries entry).count other =
      entries.count other + if entry = other then 1 else 0 := by
  simp [lpush, List.count_cons]

theorem brpoplpush_eq_some {source target source' target' : List Entry} {entry : Entry}
    (moved : brpoplpush source target = some (entry, source', target')) :
    source = source' ++ [entry] ∧ target' = entry :: target := by
  obtain ⟨last, found, equal⟩ := Option.map_eq_some_iff.mp moved
  obtain ⟨rfl, rfl, rfl⟩ : last = entry ∧ source.dropLast = source' ∧
      lpush target last = target' := by simpa using equal
  have nonempty : source ≠ [] := by
    rintro rfl
    simp at found
  have lastEq : source.getLast nonempty = last := by
    simpa [List.getLast?_eq_getLast_of_ne_nil nonempty] using found
  exact ⟨by rw [← lastEq, List.dropLast_append_getLast], rfl⟩

end RedisLists
