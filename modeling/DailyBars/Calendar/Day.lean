import DailyBars.Text.Basic

/-! # Days of the civil calendar

A day is its distance from 1970-01-01 in the proleptic Gregorian calendar, year zero
included. Arithmetic on days is arithmetic on that number, so it is exact and never
fails; the calendar proper ends on both sides, and `Day.InCalendar` says when a day is
one that a date can name. `Day.ofCivil?` only ever builds days of the calendar.
-/

namespace DailyBars

/-- A day, counted from 1970-01-01. -/
structure Day where
  number : Int
deriving DecidableEq, Hashable, Repr

/-- The seven days of the week, Monday first. -/
inductive Weekday where
  | monday | tuesday | wednesday | thursday | friday | saturday | sunday
deriving DecidableEq, Repr

/-- A day written as year, month and day of the month. -/
structure Civil where
  year : Int
  month : Nat
  day : Nat
deriving DecidableEq, Repr

namespace Day

instance : LE Day := ⟨fun a b => a.number ≤ b.number⟩
instance : LT Day := ⟨fun a b => a.number < b.number⟩

instance (a b : Day) : Decidable (a ≤ b) := inferInstanceAs (Decidable (a.number ≤ b.number))
instance (a b : Day) : Decidable (a < b) := inferInstanceAs (Decidable (a.number < b.number))

instance : Min Day := ⟨fun a b => if a ≤ b then a else b⟩
instance : Max Day := ⟨fun a b => if a ≤ b then b else a⟩

instance : Inhabited Day := ⟨⟨0⟩⟩

theorem le_def {a b : Day} : a ≤ b ↔ a.number ≤ b.number := Iff.rfl

theorem lt_def {a b : Day} : a < b ↔ a.number < b.number := Iff.rfl

/-- Days with the same number are equal. -/
@[ext] theorem ext {a b : Day} (h : a.number = b.number) : a = b := by
  cases a; cases b; exact congrArg Day.mk h

/-- The number of the earlier day is the smaller one, -/
theorem min_number (a b : Day) : (min a b).number = min a.number b.number := by
  show (if a ≤ b then a else b).number = _
  split <;> rename_i h <;> simp only [le_def] at h <;> omega

/-- and that of the later day the larger one. -/
theorem max_number (a b : Day) : (max a b).number = max a.number b.number := by
  show (if a ≤ b then b else a).number = _
  split <;> rename_i h <;> simp only [le_def] at h <;> omega

/-- The day `n` days later, or earlier when `n` is negative. -/
def plus (d : Day) (n : Int) : Day := ⟨d.number + n⟩

/-- The day after. -/
def next (d : Day) : Day := d.plus 1

/-- The day before. -/
def previous (d : Day) : Day := d.plus (-1)

@[simp] theorem plus_number (d : Day) (n : Int) : (d.plus n).number = d.number + n := rfl

@[simp] theorem next_number (d : Day) : d.next.number = d.number + 1 := rfl

@[simp] theorem previous_number (d : Day) : d.previous.number = d.number - 1 := rfl

/-! ## The ends of the calendar -/

/-- The first day of the calendar, 1 January of the year -262143. -/
def earliest : Day := ⟨-96465292⟩

/-- The last day of the calendar, 31 December of the year 262142. -/
def latest : Day := ⟨95026236⟩

/-- The day lies between the two ends of the calendar. -/
def InCalendar (d : Day) : Prop := earliest ≤ d ∧ d ≤ latest

instance (d : Day) : Decidable d.InCalendar := inferInstanceAs (Decidable (_ ∧ _))

/-- The day with this number, if the calendar has one. -/
def ofNumber? (n : Int) : Option Day :=
  if (Day.mk n).InCalendar then some ⟨n⟩ else none

/-! ## Weekdays -/

/-- The position of the day in its week: 0 is Monday and 6 is Sunday. -/
def weekdayIndex (d : Day) : Int := (d.number + 3) % 7

/-- The index of a weekday is at least 0 -/
theorem weekdayIndex_nonneg (d : Day) : 0 ≤ d.weekdayIndex := by
  unfold weekdayIndex; omega

/-- and below 7. -/
theorem weekdayIndex_lt (d : Day) : d.weekdayIndex < 7 := by
  unfold weekdayIndex; omega

/-- The day of the week. -/
def weekday (d : Day) : Weekday :=
  match d.weekdayIndex.toNat with
  | 0 => .monday
  | 1 => .tuesday
  | 2 => .wednesday
  | 3 => .thursday
  | 4 => .friday
  | 5 => .saturday
  | _ => .sunday

/-! ## Years, months and days -/

/-- A year has 366 days if it is divisible by 4, except centuries not divisible by 400. -/
def isLeapYear (year : Int) : Bool :=
  year % 4 == 0 && (year % 100 != 0 || year % 400 == 0)

/-- The number of days of a month, 0 for a month that does not exist. -/
def daysInMonth (year : Int) : Nat → Nat
  | 2 => if isLeapYear year then 29 else 28
  | 4 | 6 | 9 | 11 => 30
  | 1 | 3 | 5 | 7 | 8 | 10 | 12 => 31
  | _ => 0

/-- The day a civil date names. Years are taken to start in March, which puts the leap day
last, and are counted in cycles of 400. -/
def ofCivil (c : Civil) : Day :=
  let year := if c.month ≤ 2 then c.year - 1 else c.year
  let month : Int := if c.month ≤ 2 then c.month + 9 else c.month - 3
  let cycle := year / 400
  let yearOfCycle := year % 400
  let dayOfYear := (153 * month + 2) / 5 + c.day - 1
  let dayOfCycle := yearOfCycle * 365 + yearOfCycle / 4 - yearOfCycle / 100 + dayOfYear
  ⟨cycle * 146097 + dayOfCycle - 719468⟩

/-- The day a civil date names, if the date exists and lies in the calendar. -/
def ofCivil? (c : Civil) : Option Day :=
  if 1 ≤ c.month ∧ c.month ≤ 12 ∧ 1 ≤ c.day ∧ c.day ≤ daysInMonth c.year c.month then
    let d := ofCivil c
    if d.InCalendar then some d else none
  else
    none

/-- The civil date of a day. -/
def toCivil (d : Day) : Civil :=
  let shifted := d.number + 719468
  let cycle := shifted / 146097
  let dayOfCycle := shifted % 146097
  let yearOfCycle :=
    (dayOfCycle - dayOfCycle / 1460 + dayOfCycle / 36524 - dayOfCycle / 146096) / 365
  let dayOfYear := dayOfCycle - (365 * yearOfCycle + yearOfCycle / 4 - yearOfCycle / 100)
  let month := (5 * dayOfYear + 2) / 153
  let year := yearOfCycle + cycle * 400
  { year := if month < 10 then year else year + 1
    month := (if month < 10 then month + 3 else month - 9).toNat
    day := (dayOfYear - (153 * month + 2) / 5 + 1).toNat }

/-- The day of the month, 1 to 31. -/
def dayOfMonth (d : Day) : Nat := d.toCivil.day

/-! ## Text -/

/-- The year of a written date: four digits from 0 to 9999, and beyond that a sign and at
least four digits. -/
def yearText (year : Int) : String :=
  if 0 ≤ year ∧ year ≤ 9999 then Text.padded 4 year.toNat
  else (if year < 0 then "-" else "+") ++ Text.padded 4 year.natAbs

/-- A date written as `YYYY-MM-DD`. -/
def text (d : Day) : String :=
  let c := d.toCivil
  yearText c.year ++ "-" ++ Text.padded 2 c.month ++ "-" ++ Text.padded 2 c.day

/-- The digits of a date with a separator between year, month and day. -/
def textWith (separator : String) (d : Day) : String :=
  let c := d.toCivil
  yearText c.year ++ separator ++ Text.padded 2 c.month ++ separator ++ Text.padded 2 c.day

end Day
end DailyBars
