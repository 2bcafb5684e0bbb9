import Mathlib.Data.List.Basic
import Mathlib.Tactic.Ring

/-!
# Job identifiers and their text form

Postgres generates job identifiers, the backend prints them with
`uuid.UUID.String`, and the worker reads them back with Python's `UUID(hex)`.
Both languages print the canonical lower-case form, which is the only form that
ever reaches Redis; `UUID(hex)` also accepts braces, a `urn:uuid:` prefix, upper
case and hyphens in any place.
-/

namespace Crucible

structure UUID where
  int : BitVec 128
  deriving DecidableEq, Repr

namespace UUID

def hexDigit (digit : Nat) : Char :=
  ['0', '1', '2', '3', '4', '5', '6', '7', '8', '9',
    'a', 'b', 'c', 'd', 'e', 'f'].getD digit '0'

/-- The number a hexadecimal digit of either case stands for. -/
def hexValue? (char : Char) : Option Nat :=
  if '0'.toNat ≤ char.toNat ∧ char.toNat ≤ '9'.toNat then
    some (char.toNat - '0'.toNat)
  else if 'a'.toNat ≤ char.toNat ∧ char.toNat ≤ 'f'.toNat then
    some (char.toNat - 'a'.toNat + 10)
  else if 'A'.toNat ≤ char.toNat ∧ char.toNat ≤ 'F'.toNat then
    some (char.toNat - 'A'.toNat + 10)
  else
    none

/-- `'%0{width}x' % number`, most significant digit first. -/
def hexDigits : Nat → Nat → List Char
  | 0, _ => []
  | width + 1, number => hexDigits width (number / 16) ++ [hexDigit (number % 16)]

/-- `int(digits, 16)` on plain hexadecimal digits. -/
def ofHexDigits? (digits : List Char) : Option Nat :=
  digits.foldl
    (fun value char => do return 16 * (← value) + (← hexValue? char)) (some 0)

/-- Put the hyphens of the 8-4-4-4-12 form between 32 digits. -/
def hyphenate (digits : List Char) : List Char :=
  digits.take 8 ++ '-' :: (digits.drop 8).take 4 ++ '-' :: (digits.drop 12).take 4 ++
    '-' :: (digits.drop 16).take 4 ++ '-' :: digits.drop 20

/-- `str(id)` in the worker and `id.String()` in the backend. -/
def str (id : UUID) : String :=
  String.ofList (hyphenate (hexDigits 32 id.int.toNat))

/-- `text.replace(pattern, '')`, scanning at most `fuel` positions. -/
def removeAll (pattern : List Char) : Nat → List Char → List Char
  | 0, text => text
  | _ + 1, [] => []
  | fuel + 1, char :: text =>
      if pattern.isPrefixOf (char :: text) then
        removeAll pattern fuel ((char :: text).drop pattern.length)
      else
        char :: removeAll pattern fuel text

/-- `text.strip('{}')`. -/
def stripBraces (text : List Char) : List Char :=
  let brace := fun char : Char => char = Char.ofNat 0x7b ∨ char = Char.ofNat 0x7d
  (((text.dropWhile brace).reverse).dropWhile brace).reverse

/-- The 32 digits that `UUID(hex)` looks at. -/
def significant (text : List Char) : List Char :=
  let text := removeAll "urn:".toList text.length text
  let text := removeAll "uuid:".toList text.length text
  (stripBraces text).filter (· ≠ '-')

/-- `UUID(hex)`, with `none` for the `ValueError`.  Texts that only `int(hex, 16)`
takes for a number, with a sign, `0x`, `_`, blanks or Unicode digits among the 32
characters, are refused here. -/
def parse (raw : String) : Option UUID :=
  let digits := significant raw.toList
  if digits.length = 32 then
    (ofHexDigits? digits).map fun value => ⟨BitVec.ofNat 128 value⟩
  else
    none

/-! ## Reading back what was printed -/

/-- Characters of the canonical form other than the hyphen. -/
def PlainDigit (char : Char) : Prop :=
  ∃ digit < 16, char = hexDigit digit

theorem hexValue?_hexDigit {digit : Nat} (small : digit < 16) :
    hexValue? (hexDigit digit) = some digit := by
  have every : ∀ digit : Fin 16, hexValue? (hexDigit digit) = some digit.val := by decide
  exact every ⟨digit, small⟩

theorem PlainDigit.ne {char other : Char} (plain : PlainDigit char)
    (excluded : ∀ digit < 16, hexDigit digit ≠ other) :
    char ≠ other := by
  obtain ⟨digit, small, rfl⟩ := plain
  exact excluded digit small

theorem hexDigits_length (width number : Nat) :
    (hexDigits width number).length = width := by
  induction width generalizing number with
  | zero => rfl
  | succ width ih => simp [hexDigits, ih]

theorem plainDigit_of_mem_hexDigits {width number : Nat} {char : Char}
    (member : char ∈ hexDigits width number) :
    PlainDigit char := by
  induction width generalizing number with
  | zero => simp [hexDigits] at member
  | succ width ih =>
      rcases List.mem_append.mp member with earlier | last
      · exact ih earlier
      · exact ⟨number % 16, Nat.mod_lt _ (by omega), List.mem_singleton.mp last⟩

theorem ofHexDigits?_hexDigits (width number : Nat) :
    ofHexDigits? (hexDigits width number) = some (number % 16 ^ width) := by
  induction width generalizing number with
  | zero => simp [hexDigits, ofHexDigits?, Nat.mod_one]
  | succ width ih =>
      have earlier := ih (number / 16)
      have split : number % 16 ^ (width + 1) =
          16 * (number / 16 % 16 ^ width) + number % 16 := by
        rw [pow_succ', Nat.mod_mul]
        ring
      unfold ofHexDigits? at earlier ⊢
      rw [hexDigits, List.foldl_append, earlier, split]
      simp [hexValue?_hexDigit (Nat.mod_lt number (by omega : 16 > 0))]

theorem mem_hyphenate {digits : List Char} {char : Char}
    (member : char ∈ hyphenate digits) :
    char = '-' ∨ char ∈ digits := by
  simp only [hyphenate, List.mem_append, List.mem_cons] at member
  rcases member with ((((inFirst | hyphen | inSecond) | hyphen | inThird) |
    hyphen | inFourth) | hyphen | inLast)
  · exact Or.inr (List.mem_of_mem_take inFirst)
  · exact Or.inl hyphen
  · exact Or.inr (List.mem_of_mem_drop (List.mem_of_mem_take inSecond))
  · exact Or.inl hyphen
  · exact Or.inr (List.mem_of_mem_drop (List.mem_of_mem_take inThird))
  · exact Or.inl hyphen
  · exact Or.inr (List.mem_of_mem_drop (List.mem_of_mem_take inFourth))
  · exact Or.inl hyphen
  · exact Or.inr (List.mem_of_mem_drop inLast)

theorem removeAll_of_notMem {first : Char} {rest text : List Char}
    (absent : first ∉ text) :
    removeAll (first :: rest) text.length text = text := by
  induction text with
  | nil => rfl
  | cons char text ih =>
      have differs : first ≠ char := fun same => absent (by simp [same])
      have later : first ∉ text := fun member => absent (by simp [member])
      simp [removeAll, differs, ih later]

theorem dropWhile_of_forall {test : Char → Bool} {text : List Char}
    (fails : ∀ char ∈ text, test char = false) :
    text.dropWhile test = text := by
  cases text with
  | nil => rfl
  | cons char text => simp [fails char (by simp)]

theorem stripBraces_of_forall {text : List Char}
    (noBraces : ∀ char ∈ text, char ≠ Char.ofNat 0x7b ∧ char ≠ Char.ofNat 0x7d) :
    stripBraces text = text := by
  have fails : ∀ char ∈ text,
      decide (char = Char.ofNat 0x7b ∨ char = Char.ofNat 0x7d) = false := by
    intro char member
    simp [noBraces char member]
  simp only [stripBraces]
  rw [dropWhile_of_forall fails,
    dropWhile_of_forall fun char member => fails char (List.mem_reverse.mp member),
    List.reverse_reverse]

theorem filter_hyphenate {digits : List Char}
    (plain : ∀ char ∈ digits, char ≠ '-') :
    (hyphenate digits).filter (· ≠ '-') = digits := by
  have keep (part : List Char) (sub : ∀ char ∈ part, char ∈ digits) :
      part.filter (· ≠ '-') = part :=
    List.filter_eq_self.mpr fun char member => by simpa using plain char (sub char member)
  have rejoin : digits.take 8 ++ ((digits.drop 8).take 4 ++ ((digits.drop 12).take 4 ++
      ((digits.drop 16).take 4 ++ digits.drop 20))) = digits := by
    have fourth : (digits.drop 16).take 4 ++ digits.drop 20 = digits.drop 16 := by
      simpa using List.take_append_drop 4 (digits.drop 16)
    have third : (digits.drop 12).take 4 ++ digits.drop 16 = digits.drop 12 := by
      simpa using List.take_append_drop 4 (digits.drop 12)
    have second : (digits.drop 8).take 4 ++ digits.drop 12 = digits.drop 8 := by
      simpa using List.take_append_drop 4 (digits.drop 8)
    rw [fourth, third, second, List.take_append_drop]
  simp only [hyphenate, List.filter_append, List.filter_cons, ne_eq, not_true_eq_false,
    decide_false, Bool.false_eq_true, if_false] at keep ⊢
  rw [keep _ fun _ => List.mem_of_mem_take,
    keep _ fun _ member => List.mem_of_mem_drop (List.mem_of_mem_take member),
    keep _ fun _ member => List.mem_of_mem_drop (List.mem_of_mem_take member),
    keep _ fun _ member => List.mem_of_mem_drop (List.mem_of_mem_take member),
    keep _ fun _ => List.mem_of_mem_drop]
  simpa only [List.append_assoc] using rejoin

theorem significant_hyphenate {digits : List Char}
    (plain : ∀ char ∈ digits, PlainDigit char) :
    significant (hyphenate digits) = digits := by
  have excludes (other : Char) (notHyphen : other ≠ '-')
      (excluded : ∀ digit < 16, hexDigit digit ≠ other) :
      ∀ char ∈ hyphenate digits, char ≠ other := by
    intro char member
    rcases mem_hyphenate member with rfl | digit
    · exact notHyphen.symm
    · exact (plain char digit).ne excluded
  have noU : 'u' ∉ hyphenate digits := fun member =>
    excludes 'u' (by decide) (by decide) 'u' member rfl
  simp only [significant]
  rw [show "urn:".toList = 'u' :: ['r', 'n', ':'] by decide, removeAll_of_notMem noU,
    show "uuid:".toList = 'u' :: ['u', 'i', 'd', ':'] by decide, removeAll_of_notMem noU,
    stripBraces_of_forall fun char member =>
      ⟨excludes _ (by decide) (by decide) char member,
        excludes _ (by decide) (by decide) char member⟩]
  exact filter_hyphenate fun char member => (plain char member).ne (by decide)

/-- The worker reads back every identifier that either side prints. -/
@[simp]
theorem parse_str (id : UUID) : parse id.str = some id := by
  have digitsEq : significant id.str.toList = hexDigits 32 id.int.toNat := by
    simpa only [str, String.toList_ofList] using
      significant_hyphenate fun char member => plainDigit_of_mem_hexDigits member
  have fits : id.int.toNat % 16 ^ 32 = id.int.toNat :=
    Nat.mod_eq_of_lt (by simpa using id.int.isLt)
  simp only [parse, digitsEq, hexDigits_length, if_true, ofHexDigits?_hexDigits, fits,
    Option.map_some, BitVec.ofNat_toNat, BitVec.setWidth_eq]

theorem str_injective : Function.Injective str := by
  intro first second equal
  simpa using congrArg parse equal

@[simp]
theorem str_inj {first second : UUID} : first.str = second.str ↔ first = second :=
  str_injective.eq_iff

theorem length_toList_str (id : UUID) : id.str.toList.length = 36 := by
  simp [str, hyphenate, hexDigits_length]

/- Only the lemmas above are used from here on; unfolding the text of an
identifier never helps a proof. -/
attribute [irreducible] str parse

end UUID

end Crucible
