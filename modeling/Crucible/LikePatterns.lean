import Mathlib.Data.List.Infix

/-!
# Patterns of `LIKE`

A pattern is read once into tokens: a percent sign stands for any sequence, an
underscore for any one character, and a backslash takes the next character
literally.  Matching compares characters through a folding function, the
identity for `LIKE` and the locale's lower case for `ILIKE`.

A search string put between two percent signs without escaping finds its
substrings exactly if none of the three special characters occurs in it.
-/

namespace LikePatterns

inductive Token where
  | any
  | one
  | literal (char : Char)
  deriving DecidableEq, Repr

/-- The characters that a pattern does not take literally. -/
def special : List Char :=
  ['%', '_', '\\']

/-- Read a pattern, possibly after an escape; it must not end in one. -/
def parse : Bool → List Char → Except String (List Token)
  | false, [] => .ok []
  | true, [] => .error "LIKE pattern must not end with escape character"
  | true, char :: rest => (parse false rest).map (.literal char :: ·)
  | false, char :: rest =>
      if char = '%' then (parse false rest).map (.any :: ·)
      else if char = '_' then (parse false rest).map (.one :: ·)
      else if char = '\\' then parse true rest
      else (parse false rest).map (.literal char :: ·)

variable {Folded : Type*} [DecidableEq Folded]

def accepts (fold : Char → Folded) : List Token → List Char → Bool
  | [] => fun text => text.isEmpty
  | .any :: pattern => fun text => text.tails.any (accepts fold pattern)
  | .one :: pattern => fun text =>
      match text with
      | [] => false
      | _ :: text => accepts fold pattern text
  | .literal char :: pattern => fun text =>
      match text with
      | [] => false
      | first :: text => fold char = fold first ∧ accepts fold pattern text

/-- Substrings up to folding. -/
def ContainsFolded (fold : Char → Folded) (text search : List Char) : Prop :=
  search.map fold <:+: text.map fold

instance (fold : Char → Folded) (text search : List Char) :
    Decidable (ContainsFolded fold text search) :=
  inferInstanceAs (Decidable (_ <:+: _))

variable {fold : Char → Folded}

theorem accepts_any {pattern : List Token} {text : List Char} :
    accepts fold (.any :: pattern) text = true ↔
      ∃ rest, rest <:+ text ∧ accepts fold pattern rest = true := by
  simp [accepts, List.mem_tails]

@[simp]
theorem accepts_one_cons {pattern : List Token} {first : Char} {text : List Char} :
    accepts fold (.one :: pattern) (first :: text) = accepts fold pattern text :=
  rfl

@[simp]
theorem accepts_literal_cons {pattern : List Token} {char first : Char} {text : List Char} :
    accepts fold (.literal char :: pattern) (first :: text) = true ↔
      fold char = fold first ∧ accepts fold pattern text = true := by
  simp [accepts]

theorem accepts_literals {search text : List Char} :
    accepts fold (search.map .literal ++ [.any]) text = true ↔
      search.map fold <+: text.map fold := by
  induction search generalizing text with
  | nil =>
      simp only [List.map_nil, List.nil_append, List.nil_prefix, iff_true]
      exact accepts_any.mpr ⟨[], List.nil_suffix, rfl⟩
  | cons char search ih =>
      cases text with
      | nil => simp [accepts]
      | cons first text => simp [ih, List.cons_prefix_cons]

theorem accepts_between {search text : List Char} :
    accepts fold (.any :: (search.map .literal ++ [.any])) text = true ↔
      ContainsFolded fold text search := by
  rw [accepts_any]
  simp only [accepts_literals]
  constructor
  · rintro ⟨rest, suffix, starts⟩
    exact starts.isInfix.trans (suffix.isInfix.map fold)
  · rintro ⟨front, back, same⟩
    refine ⟨text.drop front.length, List.drop_suffix _ _, ⟨back, ?_⟩⟩
    rw [List.map_drop, ← same]
    simp

theorem parse_plain {search : List Char} (plain : ∀ char ∈ search, char ∉ special) :
    parse false (search ++ ['%']) = .ok (search.map .literal ++ [.any]) := by
  induction search with
  | nil => rfl
  | cons char search ih =>
      obtain ⟨ordinary, rest⟩ := List.forall_mem_cons.mp plain
      simp only [special, List.mem_cons, List.not_mem_nil, or_false, not_or] at ordinary
      obtain ⟨notAny, notOne, notEscape⟩ := ordinary
      simp [parse, notAny, notOne, notEscape, ih rest, Except.map]

/-- A text that a search string finds: percent signs stand for nothing,
underscores for a percent sign, and an escape at the end makes the closing
percent sign literal. -/
def found : Bool → List Char → List Char
  | false, [] => []
  | true, [] => ['%']
  | true, char :: rest => char :: found false rest
  | false, char :: rest =>
      if char = '%' then found false rest
      else if char = '_' then '%' :: found false rest
      else if char = '\\' then found true rest
      else char :: found false rest

theorem accepts_found (fold : Char → Folded) (escaped : Bool) (search : List Char) :
    ∃ tokens, parse escaped (search ++ ['%']) = .ok tokens ∧
      accepts fold tokens (found escaped search) = true := by
  induction search generalizing escaped with
  | nil =>
      cases escaped with
      | false => exact ⟨[.any], rfl, accepts_any.mpr ⟨[], List.nil_suffix, rfl⟩⟩
      | true => exact ⟨[.literal '%'], rfl, by simp [found, accepts]⟩
  | cons char search ih =>
      obtain ⟨tokens, read, matched⟩ := ih false
      cases escaped with
      | true =>
          exact ⟨.literal char :: tokens, by simp [parse, read, Except.map],
            accepts_literal_cons.mpr ⟨rfl, matched⟩⟩
      | false =>
          simp only [List.cons_append, parse, found]
          split
          case isTrue =>
            exact ⟨.any :: tokens, by simp [read, Except.map],
              accepts_any.mpr ⟨_, List.suffix_refl _, matched⟩⟩
          case isFalse =>
            split
            case isTrue => exact ⟨.one :: tokens, by simp [read, Except.map], matched⟩
            case isFalse =>
              split
              case isTrue => exact ih true
              case isFalse =>
                exact ⟨.literal char :: tokens, by simp [read, Except.map],
                  accepts_literal_cons.mpr ⟨rfl, matched⟩⟩

theorem length_found (search : List Char) :
    (found false search).length ≤ search.length ∧
      (found true search).length ≤ max 1 search.length := by
  induction search with
  | nil => simp [found]
  | cons char search ih =>
      obtain ⟨plain, escaped⟩ := ih
      simp only [found, List.length_cons]
      constructor
      · split
        · omega
        · split
          · simp only [List.length_cons]
            omega
          · split
            · omega
            · simp only [List.length_cons]
              omega
      · omega

/-- No special character looks like another one. -/
def Distinguishes (fold : Char → Folded) : Prop :=
  ∀ char ∈ special, ∀ other, fold char = fold other → char = other

omit [DecidableEq Folded] in
theorem plain_of_map_found (distinguishes : Distinguishes fold) {search : List Char}
    (same : search.map fold = (found false search).map fold) :
    ∀ char ∈ search, char ∉ special := by
  induction search with
  | nil => simp
  | cons char search ih =>
      have lengths := congrArg List.length same
      obtain ⟨plain, _⟩ := length_found search
      simp only [List.length_map, List.length_cons, found] at lengths
      simp only [List.map_cons, found] at same
      split at lengths
      case isTrue => omega
      case isFalse notAny =>
        rw [if_neg notAny] at same
        split at lengths
        case isTrue one =>
          rw [if_pos one] at same
          obtain ⟨head, _⟩ := List.cons.inj same
          exact absurd (distinguishes char (by simp [one, special]) '%' head) notAny
        case isFalse notOne =>
          rw [if_neg notOne] at same
          split at lengths
          case isTrue escape =>
            rw [if_pos escape] at same
            cases search with
            | nil =>
                obtain ⟨head, _⟩ := List.cons.inj same
                exact absurd (distinguishes char (by simp [escape, special]) '%' head) notAny
            | cons next search =>
                have short := (length_found search).1
                simp only [found, List.length_cons] at lengths
                omega
          case isFalse notEscape =>
            rw [if_neg notEscape] at same
            obtain ⟨_, rest⟩ := List.cons.inj same
            exact List.forall_mem_cons.mpr ⟨by simp [special, notAny, notOne, notEscape], ih rest⟩

/-- The pattern finds exactly the substrings if and only if the search string has
no special character. -/
theorem finds_substrings_iff (distinguishes : Distinguishes fold) (search : List Char) :
    (∀ text, (parse false ('%' :: (search ++ ['%']))).map (accepts fold · text) =
        .ok (decide (ContainsFolded fold text search))) ↔
      ∀ char ∈ search, char ∉ special := by
  constructor
  · intro finds
    obtain ⟨tokens, read, matched⟩ := accepts_found fold false search
    have hit : accepts fold (.any :: tokens) (found false search) = true :=
      accepts_any.mpr ⟨_, List.suffix_refl _, matched⟩
    have contained : ContainsFolded fold (found false search) search := by
      have := finds (found false search)
      simpa [parse, read, Except.map, hit] using this
    refine plain_of_map_found distinguishes (contained.eq_of_length_le ?_)
    simpa using (length_found search).1
  · intro plain text
    rw [parse, if_pos rfl, parse_plain plain]
    simp only [Except.map, Except.ok.injEq]
    rw [Bool.eq_iff_iff, decide_eq_true_eq]
    exact accepts_between

end LikePatterns
