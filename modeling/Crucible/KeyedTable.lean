import Mathlib.Data.List.AList

/-!
# Tables with a primary key

A table is a finite map from keys to rows.  Selecting returns the keys whose
row meets a test, in some order and each at most once; modifying a key rewrites
its row and leaves every other row alone.
-/

/-- Rows stored under distinct keys. -/
abbrev KeyedTable (Key Row : Type*) :=
  AList (fun _ : Key => Row)

namespace KeyedTable

variable {Key Row : Type*} [DecidableEq Key]

/-- Rewrite the row stored under a key, if there is one. -/
def modify (table : KeyedTable Key Row) (key : Key) (change : Row → Row) :
    KeyedTable Key Row :=
  match table.lookup key with
  | some row => table.insert key (change row)
  | none => table

/-- Keys of the rows that pass a test. -/
def select (table : KeyedTable Key Row) (test : Row → Bool) : List Key :=
  (table.entries.filter fun entry => test entry.2).map Sigma.fst

@[simp]
theorem lookup_modify_self (table : KeyedTable Key Row) (key : Key)
    (change : Row → Row) :
    (table.modify key change).lookup key = (table.lookup key).map change := by
  unfold modify
  cases found : table.lookup key <;> simp [found]

theorem lookup_modify_of_ne (table : KeyedTable Key Row) {key other : Key}
    (change : Row → Row) (distinct : other ≠ key) :
    (table.modify key change).lookup other = table.lookup other := by
  unfold modify
  cases table.lookup key <;> simp [AList.lookup_insert_ne distinct]

theorem lookup_modify (table : KeyedTable Key Row) (key other : Key)
    (change : Row → Row) :
    (table.modify key change).lookup other =
      if other = key then (table.lookup key).map change else table.lookup other := by
  split
  case isTrue same => subst same; simp
  case isFalse distinct => exact lookup_modify_of_ne table change distinct

theorem lookup_insert (table : KeyedTable Key Row) (key other : Key) (row : Row) :
    (table.insert key row).lookup other =
      if other = key then some row else table.lookup other := by
  split
  case isTrue same => subst same; simp
  case isFalse distinct => exact AList.lookup_insert_ne distinct

theorem mem_select {table : KeyedTable Key Row} {test : Row → Bool} {key : Key} :
    key ∈ table.select test ↔ ∃ row, table.lookup key = some row ∧ test row = true := by
  constructor
  · intro member
    obtain ⟨entry, listed, rfl⟩ := List.mem_map.mp member
    obtain ⟨stored, passes⟩ := List.mem_filter.mp listed
    exact ⟨entry.2, AList.mem_lookup_iff.mpr stored, passes⟩
  · rintro ⟨row, found, passes⟩
    exact List.mem_map.mpr
      ⟨⟨key, row⟩, List.mem_filter.mpr ⟨AList.mem_lookup_iff.mp found, passes⟩, rfl⟩

omit [DecidableEq Key] in
theorem nodup_select (table : KeyedTable Key Row) (test : Row → Bool) :
    (table.select test).Nodup :=
  (List.filter_sublist.map Sigma.fst).nodup table.nodupKeys

end KeyedTable
