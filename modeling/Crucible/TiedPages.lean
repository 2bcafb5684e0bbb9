import Mathlib.Data.List.Nodup
import Mathlib.Data.List.Perm.Basic
import Mathlib.Data.List.Sort
import Mathlib.Order.Defs.LinearOrder

/-!
# Pages of a query that leaves ties open

`ORDER BY key DESC` fixes an order of the rows up to the order of rows with
equal keys, and each query may settle that order anew.  A cut of the sequence
is *clean* if no group of rows with one key lies on both sides of it.  Reading
the pages one query at a time yields every row exactly once, whatever the
orders are, exactly if every cut between two pages is clean.
-/

namespace TiedPages

variable {Row Key : Type*} [LinearOrder Key]

/-- An order in which a query may return the rows. -/
structure Permitted (key : Row → Key) (rows order : List Row) : Prop where
  perm : order.Perm rows
  descending : order.Pairwise fun first second => key second ≤ key first

/-- Rows that come before every row with the given key. -/
def before (key : Row → Key) (rows : List Row) (tie : Key) : Nat :=
  rows.countP fun row => tie < key row

/-- Rows that do not come after every row with the given key. -/
def through (key : Row → Key) (rows : List Row) (tie : Key) : Nat :=
  rows.countP fun row => tie ≤ key row

/-- No group of rows with one key lies on both sides of a cut. -/
def Clean (key : Row → Key) (rows : List Row) (cut : Nat) : Prop :=
  ∀ row ∈ rows, ¬ (before key rows (key row) < cut ∧ cut < through key rows (key row))

instance (key : Row → Key) (rows : List Row) (cut : Nat) : Decidable (Clean key rows cut) :=
  inferInstanceAs (Decidable (∀ row ∈ rows, _))

/-- `LIMIT limit OFFSET index * limit`. -/
def page (limit : Nat) (order : List Row) (index : Nat) : List Row :=
  (order.drop (index * limit)).take limit

variable {key : Row → Key} {rows order order' : List Row}

/-- A test that passes early rows and fails late ones cuts the order in two. -/
theorem filter_eq_take_countP {test : Row → Bool}
    (early : order.Pairwise fun first second => test second = true → test first = true) :
    order.filter test = order.take (order.countP test) := by
  induction early with
  | nil => rfl
  | @cons first rest before _ ih =>
      by_cases passes : test first = true
      · simp [passes, ih]
      · have fails : ∀ row ∈ rest, ¬ test row = true := fun row member passed =>
          passes (before row member passed)
        have count : rest.countP test = 0 := List.countP_eq_zero.mpr fails
        have none : rest.filter test = [] := List.filter_eq_nil_iff.mpr fails
        simp [passes, count, none]

theorem lt_countP_iff {test : Row → Bool}
    (early : order.Pairwise fun first second => test second = true → test first = true)
    {index : Nat} (bound : index < order.length) :
    index < order.countP test ↔ test order[index] = true := by
  induction early generalizing index with
  | nil => simp at bound
  | @cons first rest before _ ih =>
      by_cases passes : test first = true
      · cases index with
        | zero => simp [passes]
        | succ index => simpa [passes] using ih (by simpa using bound)
      · have fails : ∀ row ∈ rest, ¬ test row = true := fun row member passed =>
          passes (before row member passed)
        have count : rest.countP test = 0 := List.countP_eq_zero.mpr fails
        cases index with
        | zero => simp [passes, count]
        | succ index =>
            have late := fails _ (List.getElem_mem (by simpa using bound : index < rest.length))
            simp [passes, count, late]

namespace Permitted

theorem early_above (permitted : Permitted key rows order) (tie : Key) :
    order.Pairwise fun first second =>
      decide (tie < key second) = true → decide (tie < key first) = true :=
  permitted.descending.imp fun le lt => by
    simp only [decide_eq_true_eq] at lt ⊢
    exact lt_of_lt_of_le lt le

theorem take_before (permitted : Permitted key rows order) (tie : Key) :
    order.take (before key rows tie) = order.filter fun row => tie < key row := by
  rw [filter_eq_take_countP (permitted.early_above tie), before, permitted.perm.countP_eq]

theorem lt_before_iff (permitted : Permitted key rows order) (tie : Key) {index : Nat}
    (bound : index < order.length) :
    index < before key rows tie ↔ tie < key order[index] := by
  rw [before, ← permitted.perm.countP_eq, lt_countP_iff (permitted.early_above tie) bound,
    decide_eq_true_eq]

theorem lt_through_iff (permitted : Permitted key rows order) (tie : Key) {index : Nat}
    (bound : index < order.length) :
    index < through key rows tie ↔ tie ≤ key order[index] := by
  have early : order.Pairwise fun first second =>
      decide (tie ≤ key second) = true → decide (tie ≤ key first) = true :=
    permitted.descending.imp fun le lt => by
      simp only [decide_eq_true_eq] at lt ⊢
      exact le_trans lt le
  rw [through, ← permitted.perm.countP_eq, lt_countP_iff early bound, decide_eq_true_eq]

/-- What comes before a clean cut does not depend on the order. -/
theorem take_perm (permitted : Permitted key rows order) (permitted' : Permitted key rows order')
    {cut : Nat} (clean : Clean key rows cut) : (order.take cut).Perm (order'.take cut) := by
  by_cases bound : cut < order.length
  · have member : order[cut] ∈ rows := permitted.perm.mem_iff.mp (List.getElem_mem bound)
    have reached : ¬ cut < before key rows (key order[cut]) := by
      rw [permitted.lt_before_iff _ bound]
      exact lt_irrefl _
    have inside : cut < through key rows (key order[cut]) := by
      rw [permitted.lt_through_iff _ bound]
    have exact_cut : before key rows (key order[cut]) = cut := by
      have outside := clean _ member
      omega
    rw [← exact_cut, permitted.take_before, permitted'.take_before]
    exact (permitted.perm.trans permitted'.perm.symm).filter _
  · have late' : order'.length ≤ cut := by
      rw [permitted'.perm.length_eq, ← permitted.perm.length_eq]
      omega
    rw [List.take_of_length_le (Nat.le_of_not_lt bound), List.take_of_length_le late']
    exact permitted.perm.trans permitted'.perm.symm

theorem page_perm (permitted : Permitted key rows order) (permitted' : Permitted key rows order')
    {limit index : Nat} (opens : Clean key rows (index * limit))
    (closes : Clean key rows ((index + 1) * limit)) :
    (page limit order index).Perm (page limit order' index) := by
  have whole := permitted.take_perm permitted' closes
  rw [Nat.succ_mul, List.take_add, List.take_add] at whole
  have front := permitted.take_perm permitted' opens
  exact (List.perm_append_left_iff _).mp (whole.trans (front.symm.append_right _))

end Permitted

theorem through_eq (key : Row → Key) (rows : List Row) (tie : Key) :
    through key rows tie = before key rows tie + (rows.map key).count tie := by
  induction rows with
  | nil => rfl
  | cons row rows ih =>
      simp only [through, before] at ih
      simp only [through, before, List.countP_cons, List.map_cons, List.count_cons, ih,
        decide_eq_true_eq, beq_iff_eq]
      rcases lt_trichotomy tie (key row) with above | rfl | below
      · simp [above, above.le, above.ne']
        omega
      · simp
        omega
      · simp [below.not_ge, below.not_gt, below.ne]

theorem clean_of_nodup (distinct : (rows.map key).Nodup) (cut : Nat) : Clean key rows cut := by
  intro row _ inside
  have single := List.nodup_iff_count_le_one.mp distinct (key row)
  rw [through_eq] at inside
  omega

theorem flatMap_page (limit : Nat) (order : List Row) (count : Nat) :
    (List.range count).flatMap (page limit order) = order.take (count * limit) := by
  induction count with
  | zero => simp
  | succ count ih =>
      rw [List.range_succ, List.flatMap_append, ih, Nat.succ_mul, List.take_add]
      simp [page]

/-- Between clean cuts every row is received exactly once. -/
theorem flatMap_page_perm {limit count : Nat} {orders : Nat → List Row}
    (permitted : ∀ query, Permitted key rows (orders query))
    (clean : ∀ index, Clean key rows (index * limit)) (enough : rows.length ≤ count * limit) :
    ((List.range count).flatMap fun index => page limit (orders index) index).Perm rows := by
  have same : ∀ index ∈ List.range count,
      (page limit (orders index) index).Perm (page limit (orders 0) index) := fun index _ =>
    (permitted index).page_perm (permitted 0) (clean index) (clean (index + 1))
  refine (List.Perm.flatMap_left _ same).trans ?_
  rw [flatMap_page, List.take_of_length_le (by rw [(permitted 0).perm.length_eq]; exact enough)]
  exact (permitted 0).perm

theorem exists_permitted (key : Row → Key) (rows : List Row) :
    ∃ order, Permitted key rows order := by
  refine ⟨rows.mergeSort fun first second => key second ≤ key first,
    List.mergeSort_perm _ _, ?_⟩
  have sorted : (rows.mergeSort fun first second => key second ≤ key first).Pairwise
      fun first second => decide (key second ≤ key first) = true :=
    List.pairwise_mergeSort
      (fun _ _ _ above below => by
        simp only [decide_eq_true_eq] at above below ⊢
        exact le_trans below above)
      (fun first second => by simpa using le_total (key second) (key first)) rows
  simpa using sorted

/-- Rows next to each other with one key may change places. -/
theorem Permitted.swap {front rest : List Row} {first second : Row}
    (permitted : Permitted key rows (front ++ first :: second :: rest))
    (tied : key first = key second) :
    Permitted key rows (front ++ second :: first :: rest) where
  perm := ((List.Perm.swap first second rest).append_left front).trans permitted.perm
  descending := by
    have keys : (front ++ second :: first :: rest).map key =
        (front ++ first :: second :: rest).map key := by
      simp [tied]
    have sorted : ((front ++ first :: second :: rest).map key).Pairwise fun above below =>
        below ≤ above := List.pairwise_map.mpr permitted.descending
    rw [← keys] at sorted
    exact List.pairwise_map.mp sorted

theorem getElem_mem_page {limit index position : Nat} (bound : position < order.length)
    (opens : index * limit ≤ position) (closes : position < (index + 1) * limit) :
    order[position] ∈ page limit order index := by
  rw [Nat.succ_mul] at closes
  have inPage : position - index * limit < (page limit order index).length := by
    rw [page, List.length_take, List.length_drop]
    omega
  refine List.mem_iff_getElem.mpr ⟨position - index * limit, inPage, ?_⟩
  simp only [page, List.getElem_take, List.getElem_drop]
  congr 1
  omega

/-- At a cut that is not clean, two queries may return one row on both sides. -/
theorem exists_twice {limit index : Nat} (unclean : ¬ Clean key rows (index * limit)) :
    ∃ orders : Nat → List Row, (∀ query, Permitted key rows (orders query)) ∧
      0 < index ∧ index * limit < rows.length ∧
      ∃ row, row ∈ page limit (orders (index - 1)) (index - 1) ∧
        row ∈ page limit (orders index) index := by
  simp only [Clean, not_forall, not_not] at unclean
  obtain ⟨tied, _, above, below⟩ := unclean
  obtain ⟨order, permitted⟩ := exists_permitted key rows
  have length : order.length = rows.length := permitted.perm.length_eq
  have bound : index * limit < rows.length :=
    Nat.lt_of_lt_of_le below List.countP_le_length
  have positive : 0 < index ∧ 0 < limit := by
    constructor <;> apply Nat.pos_of_ne_zero <;> rintro rfl <;> simp at above
  -- the last row before the cut and the first one after it
  obtain ⟨cut, cut_eq⟩ : ∃ cut, index * limit = cut + 1 :=
    ⟨index * limit - 1, by have := Nat.mul_pos positive.1 positive.2; omega⟩
  have inBound : cut < order.length := by omega
  have inBound' : cut + 1 < order.length := by omega
  have keyOf : ∀ position (fits : position < order.length),
      before key rows (key tied) ≤ position → position < through key rows (key tied) →
      key order[position] = key tied := by
    intro position fits late early
    have notAbove := mt (permitted.lt_before_iff (key tied) fits).mpr (Nat.not_lt.mpr late)
    exact le_antisymm (not_lt.mp notAbove) ((permitted.lt_through_iff (key tied) fits).mp early)
  have same : key order[cut] = key order[cut + 1] :=
    (keyOf cut inBound (by omega) (by omega)).trans
      (keyOf (cut + 1) inBound' (by omega) (by omega)).symm
  have split : order = order.take cut ++ order[cut] :: order[cut + 1] :: order.drop (cut + 2) := by
    rw [← List.drop_eq_getElem_cons inBound', ← List.drop_eq_getElem_cons inBound,
      List.take_append_drop]
  let swapped := order.take cut ++ order[cut + 1] :: order[cut] :: order.drop (cut + 2)
  have permitted' : Permitted key rows swapped := Permitted.swap (split ▸ permitted) same
  have bound' : cut + 1 < swapped.length := by
    rw [permitted'.perm.length_eq]
    omega
  have moved : swapped[cut + 1] = order[cut] := by
    have front : (order.take cut).length = cut := List.length_take_of_le (by omega)
    simp [swapped, List.getElem_append_right, front]
  obtain ⟨previous, rfl⟩ := Nat.exists_eq_succ_of_ne_zero (Nat.ne_of_gt positive.1)
  rw [Nat.succ_eq_add_one, Nat.succ_mul] at cut_eq
  refine ⟨fun query => if query ≤ previous then order else swapped, fun query => ?_,
    positive.1, bound, order[cut], ?_, ?_⟩
  · by_cases early : query ≤ previous
    · simpa only [early, if_true] using permitted
    · simpa only [early, if_false] using permitted'
  · have last : order[cut] ∈ page limit order previous :=
      getElem_mem_page inBound (by omega) (by rw [Nat.succ_mul]; omega)
    simpa using last
  · have first : swapped[cut + 1] ∈ page limit swapped (previous + 1) :=
      getElem_mem_page bound' (by rw [Nat.succ_mul]; omega)
        (by rw [Nat.succ_mul, Nat.succ_mul]; omega)
    have late : ¬ previous + 1 ≤ previous := by omega
    rw [moved] at first
    simpa only [Nat.succ_eq_add_one, late, if_false] using first

end TiedPages
