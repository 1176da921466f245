import DailyBars.Calendar.Clock

/-! # Sums that may have no place

The calendar ends on both sides and a count has 32 bits, so a day, an instant or a count that is
worked out may have no place, and a program that works one out ends there. What is worked out is
written down once, for any `Reckoning`: in an endless one every value has a place, within the
calendar there is a result only as long as it lasts, and a third one says where the program stood
when it ended.
-/

namespace DailyBars

/-- What becomes of a value that may have no place. -/
structure Reckoning (μ : Type → Type) where
  place : {α : Type} → (fits : Prop) → [Decidable fits] → α → μ α

namespace Reckoning

variable {μ : Type → Type}

/-- Every value has a place. -/
def endless : Reckoning Id where
  place _ _ a := a

/-- A value that does not fit is none. -/
def within : Reckoning Option where
  place fits _ a := if fits then some a else none

/-- A value that does not fit ends the program, which then stands at `s`. -/
def ending {ε : Type} (s : ε) : Reckoning (Except ε) where
  place fits _ a := if fits then .ok a else .error s

/-- A day, which the calendar may not have. -/
def day (r : Reckoning μ) (d : Day) : μ Day := r.place d.InCalendar d

/-- An instant, which the calendar may not have. -/
def instant (r : Reckoning μ) (t : Instant) : μ Instant := r.place t.InCalendar t

/-- A count, which may need more than 32 bits. -/
def count (r : Reckoning μ) (n : Nat) : μ Nat := r.place (n < UInt32.size) n

end Reckoning

namespace Day

/-- The day `n` days later, if the calendar has it. -/
def plus? (d : Day) (n : Int) : Option Day := Reckoning.within.day (d.plus n)

/-- The day after, if the calendar has it. -/
def next? (d : Day) : Option Day := d.plus? 1

/-- The day before, if the calendar has it. -/
def previous? (d : Day) : Option Day := d.plus? (-1)

end Day
end DailyBars
