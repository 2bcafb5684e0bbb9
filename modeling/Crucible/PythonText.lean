import Crucible.SeparatedFields

/-!
# Python strings and POSIX paths

The text operations of the Python standard library that the worker applies to
dataset paths and settings and puts into its messages: `str.lower`, `str.strip`,
`str.split`, `repr`, thousands separators, and `pathlib.PurePosixPath` as it is
in Python 3.12 and 3.13.
-/

namespace PythonText

/-- Lower-case form of one character.  Characters outside ASCII keep their form
unless their lower case contains an ASCII letter. -/
def lowerChar (char : Char) : List Char :=
  if char = Char.ofNat 0x130 then
    ['i', Char.ofNat 0x307]
  else if char = Char.ofNat 0x212A then
    ['k']
  else
    [char.toLower]

theorem toNat_toLower (char : Char) :
    char.toLower.toNat =
      if 65 ≤ char.toNat ∧ char.toNat ≤ 90 then char.toNat + 32 else char.toNat := by
  unfold Char.toLower
  by_cases upper : char.val ≥ 'A'.val ∧ char.val ≤ 'Z'.val
  · have bounds : 65 ≤ char.toNat ∧ char.toNat ≤ 90 := upper
    rw [dif_pos upper, if_pos bounds]
    change (char.val + 32).toNat = char.val.toNat + 32
    rw [UInt32.toNat_add]
    exact Nat.mod_eq_of_lt (Nat.lt_of_le_of_lt (Nat.add_le_add_right bounds.2 32) (by decide))
  · have bounds : ¬ (65 ≤ char.toNat ∧ char.toNat ≤ 90) := upper
    rw [dif_neg upper, if_neg bounds]

theorem lowerChar_of_ne_dot {char : Char} (other : char ≠ '.') :
    ∃ first rest, lowerChar char = first :: rest ∧ first ≠ '.' := by
  unfold lowerChar
  split
  case isTrue => exact ⟨'i', _, rfl, by decide⟩
  case isFalse =>
    split
    case isTrue => exact ⟨'k', _, rfl, by decide⟩
    case isFalse =>
      refine ⟨char.toLower, [], rfl, fun same => other (Char.toNat_inj.mp ?_)⟩
      have code := congrArg Char.toNat same
      rw [toNat_toLower] at code
      change char.toNat = 46
      change _ = 46 at code
      split at code <;> omega

/-- `text.lower()`. -/
def lower (text : String) : String :=
  String.ofList (text.toList.flatMap lowerChar)

/-- `text.lstrip(char)` for a single character. -/
def lstrip (char : Char) (text : String) : String :=
  String.ofList (text.toList.dropWhile (· = char))

def rstrip (char : Char) (text : String) : String :=
  String.ofList (text.toList.rdropWhile (· = char))

/-- `char.isspace()`. -/
def isSpace (char : Char) : Bool :=
  let code := char.toNat
  (9 ≤ code ∧ code ≤ 13) ∨ (28 ≤ code ∧ code ≤ 32) ∨ (0x2000 ≤ code ∧ code ≤ 0x200A) ∨
    code ∈ [0x85, 0xA0, 0x1680, 0x2028, 0x2029, 0x202F, 0x205F, 0x3000]

/-- `text.strip()`. -/
def strip (text : String) : String :=
  String.ofList (SeparatedFields.trim isSpace text.toList)

/-- `text.split(separator)` for a single character. -/
def split (separator : Char) (text : String) : List String :=
  (text.toList.splitOn separator).map String.ofList

/-- The escape that `repr` writes for one character inside `quote`.  Beyond ASCII
it leaves every character as it is, also those that are not printable. -/
def reprChar (quote char : Char) : List Char :=
  let backslash := Char.ofNat 0x5C
  let hex (digit : Nat) : Char := (Nat.digitChar digit)
  if char = quote ∨ char = backslash then
    [backslash, char]
  else if char = Char.ofNat 9 then
    [backslash, 't']
  else if char = Char.ofNat 10 then
    [backslash, 'n']
  else if char = Char.ofNat 13 then
    [backslash, 'r']
  else if char.toNat < 32 ∨ char.toNat = 127 then
    [backslash, 'x', hex (char.toNat / 16), hex (char.toNat % 16)]
  else
    [char]

/-- `repr(text)`; double quotes are used only around text that has single
quotes and no double quotes. -/
def repr (text : String) : String :=
  let single := Char.ofNat 0x27
  let double := Char.ofNat 0x22
  let quote :=
    if single ∈ text.toList ∧ double ∉ text.toList then double else single
  String.ofList (quote :: text.toList.flatMap (reprChar quote) ++ [quote])

/-- The decimal digits of a number in groups of three, last group first. -/
def thousandsGroups : Nat → List Char → List Char
  | 0, digits => digits
  | fuel + 1, digits =>
      if digits.length ≤ 3 then
        digits
      else
        thousandsGroups fuel (digits.take (digits.length - 3)) ++
          ',' :: digits.drop (digits.length - 3)

/-- `f"{number:,}"`. -/
def withThousands (number : Nat) : String :=
  let digits := number.repr.toList
  String.ofList (thousandsGroups digits.length digits)

end PythonText

namespace PurePosixPath

/-- The path's parts below its root: empty and `.` segments are dropped, `..`
is kept. -/
def parts (path : String) : List (List Char) :=
  (path.toList.splitOn '/').filter fun part => part ≠ [] ∧ part ≠ ['.']

/-- `PurePosixPath(path).name`: the last part, or the empty string. -/
def name (path : String) : List Char :=
  (parts path).getLast?.getD []

/-- The suffix of a file name: from its last dot on, unless that dot is the
first or the last character. -/
def nameSuffix (name : List Char) : List Char :=
  let extension := name.rtakeWhile (· ≠ '.')
  let stem := name.rdropWhile (· ≠ '.')
  if extension ≠ [] ∧ 2 ≤ stem.length then
    '.' :: extension
  else
    []

/-- `PurePosixPath(path).suffix`. -/
def suffix (path : String) : String :=
  String.ofList (nameSuffix (name path))

example : suffix "datasets/demo/abc123.csv" = ".csv" := by decide
example : suffix "datasets/demo/.hidden" = "" := by decide
example : suffix "datasets/demo/v1/" = "" := by decide

end PurePosixPath
