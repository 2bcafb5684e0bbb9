import Crucible.CalendarDates
import Mathlib.Algebra.Group.Nat.Defs

/-!
# RFC 3339 texts

Moments in whole seconds as texts: how Python's `isoformat` writes them in UTC,
and what Go's `parseRFC3339` reads from a text without a fraction of a second.
What the one writes for a moment in the years 1 to 9999 the other reads back.
-/

namespace Rfc3339

open CalendarDates

/-! ## Numbers of fixed width -/

/-- A number in a fixed count of decimal digits. -/
def decimal : Nat → Nat → List Char
  | 0, _ => []
  | width + 1, number => decimal width (number / 10) ++ [Nat.digitChar (number % 10)]

def digitsValue (text : List Char) : Option Nat :=
  text.foldlM
    (fun value char => if char.isDigit then some (10 * value + (char.toNat - 48)) else none) 0

/-- Decimal digits as a number within bounds. -/
def parseUint (text : List Char) (min max : Nat) : Option Nat :=
  (digitsValue text).filter fun value => min ≤ value ∧ value ≤ max

theorem toNat_digitChar {digit : Nat} (small : digit < 10) :
    (Nat.digitChar digit).toNat - 48 = digit := by
  have table : ∀ digit : Fin 10, (Nat.digitChar digit).toNat - 48 = digit := by decide
  exact table ⟨digit, small⟩

theorem digitsValue_decimal {width number : Nat} (fits : number < 10 ^ width) :
    digitsValue (decimal width number) = some number := by
  induction width generalizing number with
  | zero =>
      have zero : number = 0 := by simpa using fits
      rw [zero]
      rfl
  | succ width ih =>
      have shorter : number / 10 < 10 ^ width :=
        Nat.div_lt_of_lt_mul (by rwa [Nat.mul_comm, ← Nat.pow_succ])
      have digit : number % 10 < 10 := Nat.mod_lt _ (by decide)
      have front := ih shorter
      unfold digitsValue at front ⊢
      rw [decimal, List.foldlM_append, front]
      simp [digit, toNat_digitChar digit, Nat.div_add_mod]

theorem parseUint_decimal {width number min max : Nat} (fits : number < 10 ^ width)
    (above : min ≤ number) (below : number ≤ max) :
    parseUint (decimal width number) min max = some number := by
  simp [parseUint, digitsValue_decimal fits, above, below]

/-! ## Writing -/

/-- The number of the first of January 1970. -/
def epochDay : Int :=
  719162

/-- Moments in seconds since the epoch that fall into the years 1 to 9999. -/
def Representable (moment : Int) : Prop :=
  -62135596800 ≤ moment ∧ moment < 253402300800

/-- Date and time of day, without the zone. -/
def dateTime (date : Date) (second : Nat) : List Char :=
  decimal 4 date.year ++ '-' :: (decimal 2 date.month ++ '-' :: (decimal 2 date.day ++
    'T' :: (decimal 2 (second / 3600) ++ ':' :: (decimal 2 (second / 60 % 60) ++
      ':' :: decimal 2 (second % 60)))))

def isoformat (moment : Int) : List Char :=
  dateTime (ofNumber (moment / 86400 + epochDay).toNat) (moment % 86400).toNat ++
    ['+', '0', '0', ':', '0', '0']

/-! ## Reading -/

/-- The characters of a text from one index to before another. -/
def slice (text : List Char) (first last : Nat) : List Char :=
  (text.take last).drop first

/-- Seconds from the epoch to a time of day in UTC. -/
def unix (date : Date) (hour minute second : Nat) : Int :=
  (date.number - epochDay) * 86400 + (hour * 3600 + minute * 60 + second : Nat)

/-- The first nineteen characters. -/
def parseDateTime (text : List Char) : Option Int := do
  let year ← parseUint (slice text 0 4) 0 9999
  let month ← parseUint (slice text 5 7) 1 12
  let day ← parseUint (slice text 8 10) 1 (daysInMonth (isLeap year) month)
  let hour ← parseUint (slice text 11 13) 0 23
  let minute ← parseUint (slice text 14 16) 0 59
  let second ← parseUint (slice text 17 19) 0 59
  if text[4]? = some '-' ∧ text[7]? = some '-' ∧ text[10]? = some 'T' ∧
      text[13]? = some ':' ∧ text[16]? = some ':' then
    some (unix ⟨year, month, day⟩ hour minute second)
  else
    none

/-- The offset of a zone in seconds. -/
def parseZone (text : List Char) : Option Int :=
  if text = ['Z'] then
    some 0
  else if text.length = 6 then do
    let hour ← parseUint (slice text 1 3) 0 23
    let minute ← parseUint (slice text 4 6) 0 59
    let offset : Int := (hour * 60 + minute) * 60
    match text[0]?, text[3]? with
    | some '+', some ':' => some offset
    | some '-', some ':' => some (-offset)
    | _, _ => none
  else
    none

/-- A text that ends after a whole second and its zone. -/
def parseRFC3339 (text : List Char) : Option Int :=
  if text.length < 19 then
    none
  else do
    let local_ ← parseDateTime text
    let offset ← parseZone (text.drop 19)
    some (local_ - offset)

/-! ## Reading what was written -/

theorem parseDateTime_dateTime {date : Date} (valid : date.Valid) (year_le : date.year ≤ 9999)
    {second : Nat} (within : second < 86400) (zone : List Char) :
    parseDateTime (dateTime date second ++ zone) =
      some (unix date (second / 3600) (second / 60 % 60) (second % 60)) := by
  obtain ⟨⟨month_pos, month_le⟩, day_pos, day_le⟩ := valid
  have short : daysInMonth (isLeap date.year) date.month ≤ 31 := by
    unfold daysInMonth
    split <;> (try split) <;> omega
  have year : parseUint (decimal 4 date.year) 0 9999 = some date.year :=
    parseUint_decimal (by omega) (Nat.zero_le _) year_le
  have month : parseUint (decimal 2 date.month) 1 12 = some date.month :=
    parseUint_decimal (by omega) month_pos month_le
  have day : parseUint (decimal 2 date.day) 1 (daysInMonth (isLeap date.year) date.month) =
      some date.day :=
    parseUint_decimal (by omega) day_pos day_le
  have hour : parseUint (decimal 2 (second / 3600)) 0 23 = some (second / 3600) :=
    parseUint_decimal (by omega) (Nat.zero_le _) (by omega)
  have sixty (number : Nat) : parseUint (decimal 2 (number % 60)) 0 59 = some (number % 60) :=
    parseUint_decimal (by omega) (Nat.zero_le _) (by omega)
  -- Every field of the text is where the reader looks for it.
  change (parseUint (decimal 4 date.year) 0 9999).bind (fun year =>
    (parseUint (decimal 2 date.month) 1 12).bind fun month =>
      (parseUint (decimal 2 date.day) 1 (daysInMonth (isLeap year) month)).bind fun day =>
        (parseUint (decimal 2 (second / 3600)) 0 23).bind fun hour =>
          (parseUint (decimal 2 (second / 60 % 60)) 0 59).bind fun minute =>
            (parseUint (decimal 2 (second % 60)) 0 59).bind fun second =>
              some (unix ⟨year, month, day⟩ hour minute second)) = _
  rw [year, Option.bind_some, month, Option.bind_some, day, Option.bind_some, hour,
    Option.bind_some, sixty, Option.bind_some, sixty, Option.bind_some]

theorem parseRFC3339_isoformat {moment : Int} (representable : Representable moment) :
    parseRFC3339 (isoformat moment) = some moment := by
  obtain ⟨first, last⟩ := representable
  have days : ((moment / 86400 + epochDay).toNat : Int) = moment / 86400 + epochDay := by
    unfold epochDay
    omega
  have early : (moment / 86400 + epochDay).toNat < 3652059 := by
    unfold epochDay
    omega
  have within : (moment % 86400).toNat < 86400 := by omega
  have read := parseDateTime_dateTime (valid_ofNumber _) (year_ofNumber_le early) within
    ['+', '0', '0', ':', '0', '0']
  have zone : parseZone ((isoformat moment).drop 19) = some 0 := by
    change parseZone ['+', '0', '0', ':', '0', '0'] = some 0
    decide
  have long : ¬(isoformat moment).length < 19 := by
    change ¬25 < 19
    decide
  have same : unix (ofNumber (moment / 86400 + epochDay).toNat) ((moment % 86400).toNat / 3600)
      ((moment % 86400).toNat / 60 % 60) ((moment % 86400).toNat % 60) = moment := by
    unfold unix
    rw [number_ofNumber, days]
    omega
  rw [parseRFC3339, if_neg long, zone]
  change (parseDateTime (dateTime _ _ ++ _)).bind _ = _
  rw [read, same]
  exact congrArg some (Int.sub_zero moment)

end Rfc3339
