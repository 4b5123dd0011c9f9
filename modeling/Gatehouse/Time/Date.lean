/-!
# Dates

Days of the proleptic Gregorian calendar, and the days before and after a day.
-/

namespace Gatehouse

/-- Is the year a leap year? -/
def isLeapYear (year : Int) : Bool := year % 4 = 0 && (year % 100 ≠ 0 || year % 400 = 0)

/-- The number of days in a month, counted from 1. -/
def daysIn (year : Int) (month : Nat) : Nat :=
  if month = 2 then if isLeapYear year then 29 else 28
  else if month = 4 ∨ month = 6 ∨ month = 9 ∨ month = 11 then 30 else 31

theorem one_le_daysIn (year : Int) (month : Nat) : 1 ≤ daysIn year month := by
  unfold daysIn
  split
  · split <;> omega
  · split <;> omega

/-- A day of the calendar. -/
structure Date where
  year : Int
  month : Nat
  day : Nat
  month_ok : 1 ≤ month ∧ month ≤ 12
  day_ok : 1 ≤ day ∧ day ≤ daysIn year month
  deriving DecidableEq

namespace Date

/-- The day with the given numbers, if there is one. -/
def of? (year : Int) (month day : Nat) : Option Date :=
  if m : 1 ≤ month ∧ month ≤ 12 then
    if d : 1 ≤ day ∧ day ≤ daysIn year month then some ⟨year, month, day, m, d⟩ else none
  else none

/-- The first of January 1970. -/
def epoch : Date := ⟨1970, 1, 1, by decide, by decide⟩

instance : Inhabited Date := ⟨epoch⟩

/-- The day after. -/
def next (d : Date) : Date :=
  if h : d.day < daysIn d.year d.month then
    ⟨d.year, d.month, d.day + 1, d.month_ok, ⟨by omega, h⟩⟩
  else if m : d.month < 12 then
    ⟨d.year, d.month + 1, 1, ⟨by omega, by omega⟩, ⟨Nat.le_refl 1, one_le_daysIn _ _⟩⟩
  else ⟨d.year + 1, 1, 1, by decide, ⟨Nat.le_refl 1, one_le_daysIn _ _⟩⟩

/-- The day before. -/
def previous (d : Date) : Date :=
  if h : 1 < d.day then
    ⟨d.year, d.month, d.day - 1, d.month_ok, ⟨by omega, by have := d.day_ok; omega⟩⟩
  else if m : 1 < d.month then
    ⟨d.year, d.month - 1, daysIn d.year (d.month - 1),
      ⟨by omega, by have := d.month_ok; omega⟩, ⟨one_le_daysIn _ _, Nat.le_refl _⟩⟩
  else ⟨d.year - 1, 12, daysIn (d.year - 1) 12, by decide, ⟨one_le_daysIn _ _, Nat.le_refl _⟩⟩

/-- The day a given number of days after the first of January 1970. Years are counted from March, in
cycles of four hundred years. -/
def ofEpochDays (days : Int) : Date :=
  let z := days + 719468
  let era := z.fdiv 146097
  let doe := z.fmod 146097
  let yoe := (doe - doe / 1460 + doe / 36524 - doe / 146096) / 365
  let doy := doe - (365 * yoe + yoe / 4 - yoe / 100)
  let mp := (5 * doy + 2) / 153
  let day := doy - (153 * mp + 2) / 5 + 1
  let month := if mp < 10 then mp + 3 else mp - 9
  let year := yoe + era * 400 + (if month ≤ 2 then 1 else 0)
  (of? year month.toNat day.toNat).getD epoch

/-- The number of days from the first of January 1970 to a day. -/
def epochDays (d : Date) : Int :=
  let y : Int := if d.month ≤ 2 then d.year - 1 else d.year
  let era := y.fdiv 400
  let yoe := y.fmod 400
  let mp : Int := (d.month + 9) % 12
  let doy : Int := (153 * mp + 2) / 5 + d.day - 1
  let doe := yoe * 365 + yoe / 4 - yoe / 100 + doy
  era * 146097 + doe - 719468

/-- The years that a time may have. -/
def inRange (d : Date) : Bool := -262143 ≤ d.year && d.year ≤ 262142

end Date

end Gatehouse
