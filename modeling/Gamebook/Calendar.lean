namespace Gamebook

namespace Calendar

/-- The Gregorian calendar, carried back before its first year. -/
structure Date where
  year : Int
  month : Nat
  day : Nat
deriving DecidableEq

def isLeapYear (year : Int) : Bool := year % 4 == 0 && (year % 100 != 0 || year % 400 == 0)

def daysInMonth (year : Int) (month : Nat) : Nat :=
  match month with
  | 2 => if isLeapYear year then 29 else 28
  | 4 | 6 | 9 | 11 => 30
  | _ => 31

def Date.inCalendar (d : Date) : Bool :=
  1 ≤ d.month && d.month ≤ 12 && 1 ≤ d.day && d.day ≤ daysInMonth d.year d.month

/-- The first of March, with which a year begins here so that a leap day is its last one. -/
def yearStart (year : Int) : Int := year * 365 + year / 4 - year / 100 + year / 400 - 719468

/-- The days of a year before a month, with March as month zero. -/
def monthStart (month : Int) : Int := (153 * month + 2) / 5

def dayOfDate (d : Date) : Int :=
  let year := if d.month ≤ 2 then d.year - 1 else d.year
  yearStart year + monthStart ((d.month + 9) % 12) + d.day - 1

/-- In 400 years the last century, and in each cycle of four years the last year, is one day longer. -/
def yearOfDay (n : Int) : Int :=
  let day := (n + 719468) % 146097
  let century := min 3 (day / 36524)
  let cycle := (day - century * 36524) / 1461
  let year := min 3 ((day - century * 36524 - cycle * 1461) / 365)
  (n + 719468) / 146097 * 400 + century * 100 + cycle * 4 + year

def monthOfDay (dayOfYear : Int) : Int := (5 * dayOfYear + 2) / 153

def dateOfDay (n : Int) : Date :=
  let dayOfYear := n - yearStart (yearOfDay n)
  let month := monthOfDay dayOfYear
  let day := (dayOfYear - monthStart month + 1).toNat
  if month < 10 then ⟨yearOfDay n, (month + 3).toNat, day⟩
  else ⟨yearOfDay n + 1, (month - 9).toNat, day⟩

theorem yearStart_split (era century cycle year : Int) (hc : 0 ≤ century ∧ century ≤ 3)
    (hq : 0 ≤ cycle ∧ cycle ≤ 24) (hy : 0 ≤ year ∧ year ≤ 3) :
    yearStart (era * 400 + century * 100 + cycle * 4 + year) =
      era * 146097 + century * 36524 + cycle * 1461 + year * 365 - 719468 := by
  unfold yearStart
  omega

theorem yearStart_succ (year : Int) :
    yearStart (year + 1) = yearStart year + if isLeapYear (year + 1) then 366 else 365 := by
  unfold yearStart isLeapYear
  simp only [Bool.and_eq_true, Bool.or_eq_true, beq_iff_eq, bne_iff_ne]
  omega

theorem yearOfDay_bounds (n : Int) :
    yearStart (yearOfDay n) ≤ n ∧ n < yearStart (yearOfDay n + 1) := by
  rw [yearStart_succ]
  unfold yearOfDay isLeapYear
  simp only [Bool.and_eq_true, Bool.or_eq_true, beq_iff_eq, bne_iff_ne]
  generalize hd : (n + 719468) % 146097 = day
  generalize he : (n + 719468) / 146097 = era
  generalize hc : min 3 (day / 36524) = century
  generalize hq : (day - century * 36524) / 1461 = cycle
  generalize hy : min 3 ((day - century * 36524 - cycle * 1461) / 365) = year
  rw [yearStart_split era century cycle year (by omega) (by omega) (by omega)]
  have hlong : 365 ≤ day - century * 36524 - cycle * 1461 - year * 365 →
      year = 3 ∧ (cycle ≠ 24 ∨ century = 3) := by omega
  by_cases hlast : year = 3
  · by_cases hcycle : cycle = 24
    · subst hlast hcycle
      omega
    · have hmod : (cycle * 4 + 4) % 100 ≠ 0 := by omega
      omega
  · omega

theorem dayOfDate_dateOfDay (n : Int) : dayOfDate (dateOfDay n) = n := by
  have hy := yearOfDay_bounds n
  rw [yearStart_succ] at hy
  unfold dateOfDay monthOfDay
  generalize yearOfDay n = year at hy ⊢
  generalize hd : n - yearStart year = day
  have hday : 0 ≤ day ∧ day ≤ 365 := by
    split at hy <;> omega
  simp only
  generalize hm : (5 * day + 2) / 153 = month
  have hmonth : 0 ≤ month ∧ month ≤ 11 := by omega
  have hfirst : monthStart month ≤ day := by
    unfold monthStart
    omega
  split
  · unfold dayOfDate
    have hback : (((month + 3).toNat : Int) + 9) % 12 = month := by omega
    simp only [show ¬(month + 3).toNat ≤ 2 by omega, if_false, hback]
    omega
  · unfold dayOfDate
    have hback : (((month - 9).toNat : Int) + 9) % 12 = month := by omega
    simp only [show (month - 9).toNat ≤ 2 by omega, if_true, hback,
      show year + 1 - 1 = year by omega]
    omega

theorem dateOfDay_inCalendar (n : Int) : (dateOfDay n).inCalendar := by
  have hy := yearOfDay_bounds n
  rw [yearStart_succ] at hy
  unfold dateOfDay monthOfDay
  generalize yearOfDay n = year at hy ⊢
  generalize hd : n - yearStart year = day
  simp only
  generalize hm : (5 * day + 2) / 153 = month
  have hday : 0 ≤ day ∧ day < if isLeapYear (year + 1) then 366 else 365 := by omega
  have hmonth : 0 ≤ month ∧ month ≤ 11 := by
    split at hday <;> omega
  have hcases : month = 0 ∨ month = 1 ∨ month = 2 ∨ month = 3 ∨ month = 4 ∨ month = 5 ∨ month = 6 ∨
      month = 7 ∨ month = 8 ∨ month = 9 ∨ month = 10 ∨ month = 11 := by omega
  cases hl : isLeapYear (year + 1) <;> rw [hl] at hday <;>
    rcases hcases with rfl | rfl | rfl | rfl | rfl | rfl | rfl | rfl | rfl | rfl | rfl | rfl <;>
      simp [Date.inCalendar, monthStart, daysInMonth, hl] at hday ⊢ <;> omega

end Calendar

end Gamebook
