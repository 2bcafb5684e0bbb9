import Mathlib.Data.List.DropRight

/-!
# Lists of trimmed fields

A text is split at a separator, the parts are trimmed of blanks at both ends,
and what is then empty is dropped.
-/

namespace SeparatedFields

variable {Symbol : Type*}

/-- A text without the blanks at its ends. -/
def trim (blank : Symbol → Bool) (text : List Symbol) : List Symbol :=
  (text.dropWhile blank).rdropWhile blank

structure Trimmed (blank : Symbol → Bool) (text : List Symbol) : Prop where
  first : ∀ symbol ∈ text.head?, blank symbol = false
  last : ∀ symbol ∈ text.getLast?, blank symbol = false

/-- The trimmed parts of a text that are not empty. -/
def fields [DecidableEq Symbol] (separator : Symbol) (blank : Symbol → Bool)
    (text : List Symbol) : List (List Symbol) :=
  ((text.splitOn separator).map (trim blank)).filter (· ≠ [])

section Trim

variable (blank : Symbol → Bool) (text : List Symbol)

theorem trim_subset : trim blank text ⊆ text :=
  fun _ member => (List.dropWhile_sublist blank).subset
    ((List.rdropWhile_prefix blank _).subset member)

theorem trimmed_trim : Trimmed blank (trim blank text) where
  first := by
    intro symbol member
    obtain ⟨rest, start⟩ := List.head?_eq_some_iff.mp member
    have nonempty : trim blank text ≠ [] := by simp [start]
    have shorter : trim blank text <+: text.dropWhile blank := List.rdropWhile_prefix blank _
    have nonblank := List.head_dropWhile_not blank (shorter.ne_nil nonempty)
    rw [← shorter.head nonempty] at nonblank
    simpa [start] using nonblank
  last := by
    intro symbol member
    obtain ⟨rest, ends⟩ := List.getLast?_eq_some_iff.mp member
    have nonempty : trim blank text ≠ [] := by simp [ends]
    have nonblank := List.rdropWhile_last_not blank (text.dropWhile blank) nonempty
    change ¬ blank ((trim blank text).getLast nonempty) = true at nonblank
    simpa [ends] using nonblank

variable {blank text}

theorem trim_eq_nil_iff : trim blank text = [] ↔ ∀ symbol ∈ text, blank symbol = true := by
  rw [trim, List.rdropWhile_eq_nil_iff]
  constructor
  · intro dropped symbol member
    rw [← List.takeWhile_append_dropWhile (p := blank) (l := text), List.mem_append] at member
    exact member.elim List.mem_takeWhile_imp (dropped symbol)
  · intro all symbol member
    exact all symbol ((List.dropWhile_sublist blank).subset member)

end Trim

section Fields

variable [DecidableEq Symbol] {separator : Symbol} {blank : Symbol → Bool}
  {text field : List Symbol}

theorem separator_notMem_of_mem_splitOn (member : field ∈ text.splitOn separator) :
    separator ∉ field := by
  induction text generalizing field with
  | nil =>
      rw [List.splitOn_nil, List.mem_singleton] at member
      simp [member]
  | cons symbol text ih =>
      rw [List.splitOn_cons_eq_if_modifyHead] at member
      split at member
      case isTrue =>
        obtain rfl | later := List.mem_cons.mp member
        · exact List.not_mem_nil
        · exact ih later
      case isFalse other =>
        obtain ⟨part, parts, split⟩ :=
          List.exists_cons_of_ne_nil (List.splitOn_ne_nil separator text)
        rw [split, List.modifyHead_cons] at member
        rw [split] at ih
        obtain rfl | later := List.mem_cons.mp member
        · have different : separator ≠ symbol := by
            rintro rfl
            simp at other
          exact List.not_mem_cons_of_ne_of_not_mem different (ih List.mem_cons_self)
        · exact ih (List.mem_cons_of_mem _ later)

/-- A field is not empty, and it has neither separators nor blanks at its ends. -/
theorem proper_of_mem_fields (member : field ∈ fields separator blank text) :
    field ≠ [] ∧ separator ∉ field ∧ Trimmed blank field := by
  obtain ⟨listed, nonempty⟩ := List.mem_filter.mp member
  obtain ⟨part, split, rfl⟩ := List.mem_map.mp listed
  refine ⟨of_decide_eq_true nonempty, fun inside => ?_, trimmed_trim blank part⟩
  exact separator_notMem_of_mem_splitOn split (trim_subset blank part inside)

theorem fields_eq_nil_of_blank (visible : blank separator = false)
    (all : ∀ symbol ∈ text, blank symbol = true) : fields separator blank text = [] := by
  have absent : separator ∉ text := fun member =>
    Bool.false_ne_true (visible.symm.trans (all separator member))
  simp [fields, List.splitOn_eq_singleton absent, trim_eq_nil_iff.mpr all]

/-- Fields are different if parts are, apart from the blank ones. -/
theorem nodup_fields_iff :
    (fields separator blank text).Nodup ↔
      (text.splitOn separator).Pairwise fun first second =>
        trim blank first = trim blank second → trim blank first = [] := by
  rw [fields, List.Nodup, List.pairwise_filter, List.pairwise_map]
  refine List.Pairwise.iff fun {first second} => ?_
  constructor
  · intro distinct same
    by_contra present
    exact distinct (decide_eq_true present) (decide_eq_true (same ▸ present)) same
  · intro blanks present _ same
    exact of_decide_eq_true present (blanks same)

end Fields

end SeparatedFields
