import Mathlib.Data.Nat.Notation
import Mathlib.Data.Int.Basic

/-!
# Dates of the Gregorian calendar

Days are numbered from the first of January of the year 1, which is day 0.  The
number of a date and the date of a number are each computed from the cycles of
400, 100, 4 and 1 years.
-/

namespace CalendarDates

structure Date where
  year : Nat
  month : Nat
  day : Nat
  deriving DecidableEq, Repr

def isLeap (year : Nat) : Bool :=
  year % 4 = 0 ∧ (year % 100 ≠ 0 ∨ year % 400 = 0)

/-- Days in the years before a year; the year 0 lies before the first day. -/
def daysBeforeYear (year : Nat) : Int :=
  365 * (year - 1 : Int) + (year - 1 : Int) / 4 - (year - 1 : Int) / 100 + (year - 1 : Int) / 400

def daysInMonth (leap : Bool) : Nat → Nat
  | 2 => if leap then 29 else 28
  | 4 | 6 | 9 | 11 => 30
  | _ => 31

def daysBeforeMonth (leap : Bool) (month : Nat) : Nat :=
  (List.range (month - 1)).foldl (fun days earlier => days + daysInMonth leap (earlier + 1)) 0

structure Date.Valid (date : Date) : Prop where
  month : 1 ≤ date.month ∧ date.month ≤ 12
  day : 1 ≤ date.day ∧ date.day ≤ daysInMonth (isLeap date.year) date.month

def Date.number (date : Date) : Int :=
  daysBeforeYear date.year +
    (daysBeforeMonth (isLeap date.year) date.month + (date.day - 1) : Nat)

/-- Month and day of a day of a year: the estimate of the month is at most one
too large. -/
def monthOfDay (leap : Bool) (day : Nat) : Nat × Nat :=
  let month := (day + 50) / 32
  if daysBeforeMonth leap month ≤ day then
    (month, day - daysBeforeMonth leap month + 1)
  else
    (month - 1, day - daysBeforeMonth leap (month - 1) + 1)

def ofNumber (number : Nat) : Date :=
  let cycles := number / 146097
  let inCycle := number % 146097
  let centuries := inCycle / 36524
  let inCentury := inCycle % 36524
  let quads := inCentury / 1461
  let inQuad := inCentury % 1461
  let years := inQuad / 365
  let inYear := inQuad % 365
  let year := 400 * cycles + 100 * centuries + 4 * quads + years + 1
  -- The last day of four years, or of four hundred, is the 366th of its year.
  if years = 4 ∨ centuries = 4 then
    ⟨year - 1, 12, 31⟩
  else
    let leap := decide (years = 3 ∧ (quads ≠ 24 ∨ centuries = 3))
    ⟨year, (monthOfDay leap inYear).1, (monthOfDay leap inYear).2⟩

/-! ## Parts of a number -/

theorem monthOfDay_spec (leap : Bool) {day : Nat} (within : day < 365 + leap.toNat) :
    (1 ≤ (monthOfDay leap day).1 ∧ (monthOfDay leap day).1 ≤ 12) ∧
      (1 ≤ (monthOfDay leap day).2 ∧
        (monthOfDay leap day).2 ≤ daysInMonth leap (monthOfDay leap day).1) ∧
      daysBeforeMonth leap (monthOfDay leap day).1 + ((monthOfDay leap day).2 - 1) = day := by
  have table : ∀ leap : Bool, ∀ day : Fin 366, day.val < 365 + leap.toNat →
      (1 ≤ (monthOfDay leap day).1 ∧ (monthOfDay leap day).1 ≤ 12) ∧
        (1 ≤ (monthOfDay leap day).2 ∧
          (monthOfDay leap day).2 ≤ daysInMonth leap (monthOfDay leap day).1) ∧
        daysBeforeMonth leap (monthOfDay leap day).1 + ((monthOfDay leap day).2 - 1) = day := by
    decide +kernel
  refine table leap ⟨day, ?_⟩ within
  cases leap <;> simp only [Bool.toNat_true, Bool.toNat_false] at within <;> omega

theorem daysBeforeYear_of_cycles {cycles centuries quads years : Nat}
    (centuries_le : centuries ≤ 3) (quads_le : quads ≤ 24) (years_le : years ≤ 3) :
    daysBeforeYear (400 * cycles + 100 * centuries + 4 * quads + years + 1) =
      (146097 * cycles + 36524 * centuries + 1461 * quads + 365 * years : Nat) := by
  unfold daysBeforeYear
  omega

theorem isLeap_of_cycles {cycles centuries quads years : Nat}
    (centuries_le : centuries ≤ 3) (quads_le : quads ≤ 24) (years_le : years ≤ 3) :
    isLeap (400 * cycles + 100 * centuries + 4 * quads + years + 1) =
      decide (years = 3 ∧ (quads ≠ 24 ∨ centuries = 3)) := by
  refine decide_eq_decide.mpr ?_
  omega

theorem ofNumber_cases (number : Nat) :
    ∃ cycles centuries quads years inYear, centuries ≤ 3 ∧ quads ≤ 24 ∧ years ≤ 3 ∧
      number = 146097 * cycles + 36524 * centuries + 1461 * quads + 365 * years + inYear ∧
      inYear < 365 + (decide (years = 3 ∧ (quads ≠ 24 ∨ centuries = 3))).toNat ∧
      ofNumber number =
        let leap := decide (years = 3 ∧ (quads ≠ 24 ∨ centuries = 3))
        ⟨400 * cycles + 100 * centuries + 4 * quads + years + 1,
          (monthOfDay leap inYear).1, (monthOfDay leap inYear).2⟩ := by
  by_cases lastOfFour : number % 146097 % 36524 % 1461 / 365 = 4
  · refine ⟨number / 146097, number % 146097 / 36524, number % 146097 % 36524 / 1461, 3, 365,
      by omega, by omega, by omega, by omega, ?_, ?_⟩
    · have leap : number % 146097 % 36524 / 1461 ≠ 24 := by omega
      simp [leap]
    · have leap : number % 146097 % 36524 / 1461 ≠ 24 := by omega
      simp [ofNumber, lastOfFour, leap, show monthOfDay true 365 = (12, 31) from rfl]
  · by_cases lastOfCycle : number % 146097 / 36524 = 4
    · refine ⟨number / 146097, 3, 24, 3, 365, by omega, by omega, by omega, by omega,
        by decide, ?_⟩
      have years : number % 146097 % 36524 = 0 := by omega
      simp [ofNumber, lastOfCycle, years, show monthOfDay true 365 = (12, 31) from rfl]
    · refine ⟨number / 146097, number % 146097 / 36524, number % 146097 % 36524 / 1461,
        number % 146097 % 36524 % 1461 / 365, number % 146097 % 36524 % 1461 % 365,
        by omega, by omega, by omega, by omega, ?_, ?_⟩
      · have within : number % 146097 % 36524 % 1461 % 365 < 365 := Nat.mod_lt _ (by decide)
        omega
      · simp [ofNumber, lastOfFour, lastOfCycle]

theorem number_ofNumber (number : Nat) : (ofNumber number).number = number := by
  obtain ⟨cycles, centuries, quads, years, inYear, centuries_le, quads_le, years_le, same, within,
    date⟩ := ofNumber_cases number
  obtain ⟨_, _, rest⟩ := monthOfDay_spec _ within
  rw [date, Date.number]
  simp only
  rw [daysBeforeYear_of_cycles centuries_le quads_le years_le,
    isLeap_of_cycles centuries_le quads_le years_le]
  omega

theorem valid_ofNumber (number : Nat) : (ofNumber number).Valid := by
  obtain ⟨cycles, centuries, quads, years, inYear, centuries_le, quads_le, years_le, _, within,
    date⟩ := ofNumber_cases number
  obtain ⟨month, day, _⟩ := monthOfDay_spec _ within
  rw [date]
  refine ⟨month, ?_⟩
  simp only
  rw [isLeap_of_cycles centuries_le quads_le years_le]
  exact day

theorem year_ofNumber_le {number : Nat} (early : number < 3652059) :
    (ofNumber number).year ≤ 9999 := by
  obtain ⟨cycles, centuries, quads, years, inYear, _, _, _, same, _, date⟩ :=
    ofNumber_cases number
  rw [date]
  simp only
  omega

end CalendarDates
