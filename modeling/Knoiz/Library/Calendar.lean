import Mathlib.Tactic.Common
import Mathlib.Tactic.Linarith

/-!
# Instants and calendar days

Instants are integers counting microseconds in UTC, the precision at which instants are
stored.  A day has a fixed length, so that the calendar day of an instant is its quotient by
that length and the end of the day is the last microsecond of it.
-/

namespace Calendar

/-- One second, in microseconds. -/
def second : ℤ := 1000000
def minute : ℤ := 60 * second
def hour : ℤ := 60 * minute
def day : ℤ := 24 * hour

theorem day_eq : day = 86400000000 := rfl

/-- The calendar day an instant belongs to. -/
def dayOf (t : ℤ) : ℤ := t / day

/-- The last microsecond of the day of `t`. -/
def endOfDay (t : ℤ) : ℤ := dayOf t * day + (day - 1)

theorem le_endOfDay (t : ℤ) : t ≤ endOfDay t := by
  simp only [endOfDay, dayOf, day_eq]
  omega

/-- Whole days later, the end of the day is as many days later. -/
theorem endOfDay_add_days (t : ℤ) (k : ℤ) : endOfDay (t + k * day) = endOfDay t + k * day := by
  simp only [endOfDay, dayOf, day_eq]
  omega

theorem endOfDay_eq_iff (s t : ℤ) : endOfDay s = endOfDay t ↔ dayOf s = dayOf t := by
  simp only [endOfDay, dayOf, day_eq]
  omega

/-- The same number of days from two instants ends together exactly when the instants fall on
one day. -/
theorem endOfDay_add_days_eq_iff (s t : ℤ) (k : ℤ) :
    endOfDay (s + k * day) = endOfDay (t + k * day) ↔ dayOf s = dayOf t := by
  rw [endOfDay_add_days, endOfDay_add_days, add_left_inj, endOfDay_eq_iff]

/-- An instant is not after the end of a day exactly when its own day is not. -/
theorem le_endOfDay_iff (s t : ℤ) : s ≤ endOfDay t ↔ dayOf s ≤ dayOf t := by
  simp only [endOfDay, dayOf, day_eq]
  omega

theorem dayOf_add_days (t k : ℤ) : dayOf (t + k * day) = dayOf t + k := by
  simp only [dayOf, day_eq]
  omega

end Calendar
