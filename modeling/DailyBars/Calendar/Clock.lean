import DailyBars.Calendar.Day

/-! # Durations, instants and the clock

Durations and instants are counted in nanoseconds, so sums and differences are exact. A
clock is a value: reading it is free, and the two ways of moving it are time that passes and
time that is slept through.
-/

namespace DailyBars

/-- A length of time, in nanoseconds. -/
structure Duration where
  nanos : Nat
deriving DecidableEq, Repr, Inhabited

namespace Duration

instance : LE Duration := ⟨fun a b => a.nanos ≤ b.nanos⟩
instance (a b : Duration) : Decidable (a ≤ b) := inferInstanceAs (Decidable (a.nanos ≤ b.nanos))

instance : Add Duration := ⟨fun a b => ⟨a.nanos + b.nanos⟩⟩

/-- So many seconds. -/
def ofSeconds (n : Nat) : Duration := ⟨n * 1000000000⟩

/-- So many days. -/
def ofDays (n : Nat) : Duration := ofSeconds (n * 86400)

/-- No time at all. -/
def zero : Duration := ⟨0⟩

/-- The whole seconds. -/
def seconds (d : Duration) : Nat := d.nanos / 1000000000

/-- The nanoseconds beyond the whole seconds. -/
def subsecond (d : Duration) : Nat := d.nanos % 1000000000

/-- A decimal fraction with `places` places, without the zeros at its end and without the
point when nothing remains. -/
def fractionText (places n : Nat) : String :=
  let digits := ((Text.padded places n).toList.reverse.dropWhile (· == '0')).reverse
  if digits.isEmpty then "" else String.ofList ('.' :: digits)

/-- A duration in the largest of the units s, ms, µs and ns that it reaches. -/
def text (d : Duration) : String :=
  let n := d.nanos
  if 1000000000 ≤ n then toString d.seconds ++ fractionText 9 d.subsecond ++ "s"
  else if 1000000 ≤ n then toString (n / 1000000) ++ fractionText 6 (n % 1000000) ++ "ms"
  else if 1000 ≤ n then toString (n / 1000) ++ fractionText 3 (n % 1000) ++ "µs"
  else toString n ++ "ns"

end Duration

/-- A point in time, in nanoseconds since the start of 1970-01-01. -/
structure Instant where
  nanos : Int
deriving DecidableEq, Repr, Inhabited

namespace Instant

instance : LE Instant := ⟨fun a b => a.nanos ≤ b.nanos⟩
instance : LT Instant := ⟨fun a b => a.nanos < b.nanos⟩
instance (a b : Instant) : Decidable (a ≤ b) := inferInstanceAs (Decidable (a.nanos ≤ b.nanos))
instance (a b : Instant) : Decidable (a < b) := inferInstanceAs (Decidable (a.nanos < b.nanos))

/-- The later of two instants. -/
def later (a b : Instant) : Instant := if a ≤ b then b else a

/-- The instant so much later. -/
def plus (t : Instant) (d : Duration) : Instant := ⟨t.nanos + d.nanos⟩

/-- The day on which the instant falls. -/
def day (t : Instant) : Day := ⟨t.nanos / 86400000000000⟩

/-- The start of a day and so many seconds more. -/
def ofDay (d : Day) (seconds : Int) : Instant := ⟨(d.number * 86400 + seconds) * 1000000000⟩

/-- The instant falls on a day of the calendar. -/
def InCalendar (t : Instant) : Prop := t.day.InCalendar

instance (t : Instant) : Decidable t.InCalendar := inferInstanceAs (Decidable (Day.InCalendar _))

/-- The whole seconds since 1970. -/
def seconds (t : Instant) : Int := t.nanos / 1000000000

/-- The nanoseconds beyond the whole seconds. -/
def subsecond (t : Instant) : Nat := (t.nanos % 1000000000).toNat

end Instant

/-- A clock: the time it shows and how much of it was slept through. -/
structure Clock where
  now : Instant
  slept : Duration
deriving DecidableEq, Repr

namespace Clock

/-- A clock that shows `now`. -/
def showing (now : Instant) : Clock := ⟨now, .zero⟩

/-- A clock that shows noon of a day. -/
def noonOf (d : Day) : Clock := showing (.ofDay d 43200)

/-- The day that the clock shows. -/
def today (c : Clock) : Day := c.now.day

/-- Time passes. The clock stands still where the calendar ends. -/
def advance (c : Clock) (d : Duration) : Clock :=
  if (c.now.plus d).InCalendar then { c with now := c.now.plus d } else c

/-- Time is slept through: it passes, and it is added to the total. -/
def sleep (c : Clock) (d : Duration) : Clock := { c.advance d with slept := c.slept + d }

end Clock
end DailyBars
