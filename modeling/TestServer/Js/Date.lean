import Mathlib.Data.Int.Basic
import Mathlib.Tactic.SplitIfs

/-!
# Clock arithmetic on JavaScript dates

A time is a number of milliseconds since 1970, with days as in UTC. Moving a
date by a year keeps its month, day and time of day.
-/

namespace TestServer.Js

/-- Milliseconds since 1970. -/
abbrev Time := Int

def oneDay : Time := 24 * 60 * 60 * 1000

/-- Day number of a date in the Gregorian calendar; a day past the end of its month counts
on into the next one. The year starts in March, so a leap day is its last day. -/
def dayNumber (year month day : Int) : Int :=
  let y := if month ≤ 2 then year - 1 else year
  let m := if month ≤ 2 then month + 9 else month - 3
  365 * y + y / 4 - y / 100 + y / 400 + (153 * m + 2) / 5 + day - 719469

/-- The year, month and day of a day number. -/
def civil (n : Int) : Int × Int × Int :=
  let z := n + 719468
  let era := z / 146097
  let doe := z - era * 146097
  let yoe := (doe - doe / 1460 + doe / 36524 - doe / 146096) / 365
  let doy := doe - (365 * yoe + yoe / 4 - yoe / 100)
  let mp := (5 * doy + 2) / 153
  let month := if mp < 10 then mp + 3 else mp - 9
  let year := yoe + era * 400
  (if month ≤ 2 then year + 1 else year, month, doy - (153 * mp + 2) / 5 + 1)

/-- `date.setDate(date.getDate() + days)`. -/
def addDays (t : Time) (days : Int) : Time := t + days * oneDay

/-- `date.setFullYear(date.getFullYear() + years)`. -/
def addYears (t : Time) (years : Int) : Time :=
  let (year, month, day) := civil (t / oneDay)
  addDays t (dayNumber (year + years) month day - dayNumber year month day)

/-- A later year is at least 365 days later. -/
theorem dayNumber_succ_year (year month day : Int) :
    dayNumber year month day + 365 ≤ dayNumber (year + 1) month day := by
  have hcentury (y : Int) : (y + 1) / 100 - y / 100 ≤ (y + 1) / 4 - y / 4 := by
    omega
  have hyear (y : Int) : 365 * y + y / 4 - y / 100 + y / 400 + 365 ≤
      365 * (y + 1) + (y + 1) / 4 - (y + 1) / 100 + (y + 1) / 400 := by
    have hc := hcentury y
    have h400 : y / 400 ≤ (y + 1) / 400 := Int.ediv_le_ediv (by decide) (by omega)
    omega
  simp only [dayNumber]
  split_ifs with hmonth
  · have h := hyear (year - 1)
    rw [show year - 1 + 1 = year + 1 - 1 by omega] at h
    omega
  · have h := hyear year
    omega

theorem dayNumber_add_years (year month day : Int) (n : Nat) :
    dayNumber year month day + 365 * n ≤ dayNumber (year + n) month day := by
  induction n with
  | zero => simp
  | succ n ih =>
      have h := dayNumber_succ_year (year + n) month day
      rw [Int.add_assoc] at h
      push_cast
      omega

/-- Moving a date by years moves it by 365 days for each year or more. -/
theorem le_addYears (t : Time) (n : Nat) : t + 365 * n * oneDay ≤ addYears t n := by
  obtain ⟨year, month, day, hcivil⟩ : ∃ year month day, civil (t / oneDay) = (year, month, day) :=
    ⟨_, _, _, rfl⟩
  have hday : (0 : Int) ≤ oneDay := by decide
  have hyears : 365 * (n : Int) ≤ dayNumber (year + n) month day - dayNumber year month day := by
    have h := dayNumber_add_years year month day n
    omega
  calc
    t + 365 * n * oneDay
        ≤ t + (dayNumber (year + n) month day - dayNumber year month day) * oneDay :=
      Int.add_le_add_left (Int.mul_le_mul_of_nonneg_right hyears hday) t
    _ = addYears t n := by simp only [addYears, hcivil, addDays]

end TestServer.Js
