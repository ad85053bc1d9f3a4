import Mathlib.Algebra.Group.Nat.Defs
import Mathlib.Tactic.SplitIfs

/-! Dates of the Gregorian calendar and times of the day. Whole hours are added with the
carries into day, month and year; `seconds` counts from the beginning of year 0 and says
that the sum is right. -/
namespace BoxFirmware.CivilTime

def isLeap (year : Nat) : Bool := year % 4 = 0 && (year % 100 ≠ 0 || year % 400 = 0)

def monthDays (year : Nat) : Nat → Nat
  | 1 | 3 | 5 | 7 | 8 | 10 | 12 => 31
  | 4 | 6 | 9 | 11 => 30
  | 2 => if isLeap year then 29 else 28
  | _ => 0

structure Date where
  year : Nat
  month : Nat
  day : Nat
  deriving DecidableEq

structure Date.Valid (d : Date) : Prop where
  month_pos : 1 ≤ d.month
  month_le : d.month ≤ 12
  day_pos : 1 ≤ d.day
  day_le : d.day ≤ monthDays d.year d.month

def nextDay (d : Date) : Date :=
  if d.day < monthDays d.year d.month then { d with day := d.day + 1 }
  else if d.month < 12 then ⟨d.year, d.month + 1, 1⟩
  else ⟨d.year + 1, 1, 1⟩

def daysBeforeMonth (year : Nat) : Nat → Nat
  | 0 => 0
  | month + 1 => daysBeforeMonth year month + monthDays year month

def daysBeforeYear : Nat → Nat
  | 0 => 0
  | year + 1 => daysBeforeYear year + daysBeforeMonth year 13

def dayNumber (d : Date) : Nat :=
  daysBeforeYear d.year + daysBeforeMonth d.year d.month + d.day

structure Civil where
  date : Date
  hour : Nat
  minute : Nat
  second : Nat
  deriving DecidableEq

structure Civil.Valid (c : Civil) : Prop where
  date : c.date.Valid
  hour : c.hour < 24
  minute : c.minute < 60
  second : c.second < 60

def seconds (c : Civil) : Nat :=
  86400 * dayNumber c.date + 3600 * c.hour + 60 * c.minute + c.second

def addHours (hours : Nat) (c : Civil) : Civil :=
  if c.hour + hours < 24 then { c with hour := c.hour + hours }
  else { c with date := nextDay c.date, hour := c.hour + hours - 24 }

theorem monthDays_pos (year : Nat) {month : Nat} (lower : 1 ≤ month) (upper : month ≤ 12) :
    1 ≤ monthDays year month := by
  obtain rfl | rfl | rfl | rfl | rfl | rfl | rfl | rfl | rfl | rfl | rfl | rfl :
    month = 1 ∨ month = 2 ∨ month = 3 ∨ month = 4 ∨ month = 5 ∨ month = 6 ∨ month = 7 ∨
      month = 8 ∨ month = 9 ∨ month = 10 ∨ month = 11 ∨ month = 12 := by omega
  all_goals simp only [monthDays]
  all_goals first | decide | (split_ifs <;> decide)

theorem monthDays_le (year month : Nat) : monthDays year month ≤ 31 := by
  unfold monthDays
  split
  all_goals first | decide | (split_ifs <;> decide)

theorem nextDay_valid {d : Date} (valid : d.Valid) : (nextDay d).Valid := by
  unfold nextDay
  split_ifs with inside more
  · exact ⟨valid.month_pos, valid.month_le, Nat.le_add_left 1 d.day, inside⟩
  · exact ⟨Nat.le_add_left 1 d.month, more, Nat.le_refl 1,
      monthDays_pos d.year (Nat.le_add_left 1 d.month) more⟩
  · have january : 1 ≤ 12 := by decide
    exact ⟨Nat.le_refl 1, january, Nat.le_refl 1,
      monthDays_pos (d.year + 1) (Nat.le_refl 1) january⟩

theorem dayNumber_nextDay {d : Date} (valid : d.Valid) :
    dayNumber (nextDay d) = dayNumber d + 1 := by
  have last := valid.day_le
  unfold nextDay
  split_ifs with inside more
  · simp only [dayNumber]
    omega
  · simp only [dayNumber, daysBeforeMonth]
    omega
  · obtain same : d.month = 12 := Nat.le_antisymm valid.month_le (Nat.le_of_not_lt more)
    have first : daysBeforeMonth (d.year + 1) 1 = 0 := rfl
    have whole : daysBeforeMonth d.year 13 = daysBeforeMonth d.year 12 + monthDays d.year 12 := rfl
    rw [same] at last inside
    simp only [dayNumber, daysBeforeYear, first, whole, same]
    omega

theorem addHours_valid {hours : Nat} (day : hours ≤ 24) {c : Civil} (valid : c.Valid) :
    (addHours hours c).Valid := by
  have hour := valid.hour
  unfold addHours
  split_ifs with today
  · exact ⟨valid.date, today, valid.minute, valid.second⟩
  · exact ⟨nextDay_valid valid.date, by dsimp only; omega, valid.minute, valid.second⟩

theorem seconds_addHours (hours : Nat) {c : Civil} (valid : c.Valid) :
    seconds (addHours hours c) = seconds c + 3600 * hours := by
  have hour := valid.hour
  unfold addHours
  split_ifs with today
  · simp only [seconds]
    omega
  · simp only [seconds, dayNumber_nextDay valid.date]
    omega

end BoxFirmware.CivilTime
