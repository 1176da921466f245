import DailyBars.Bar.Series

/-! # Rates as of a date

The closes of a currency pair by date. A close that is not a positive number is no rate.
-/

namespace DailyBars

/-- Rates, each with the day from which it holds, the latest day first. -/
structure Rates where
  latestFirst : List (Day × Float)

namespace Rates

/-- The bar has a close that can be a rate. -/
def isUsable (b : Bar) : Bool := b.close.isFinite && 0 < b.close

/-- The rates of bars in any order; of two bars of one date the later counts. -/
def ofBars (bars : List Bar) : Rates :=
  ⟨(Series.keepLast (bars.filter isUsable)).reverse.map fun b => (b.date, b.close)⟩

/-- There is no rate. -/
def isEmpty (r : Rates) : Bool := r.latestFirst.isEmpty

/-- The latest rate on or before a date, or else the earliest one, which is after it. -/
def asOf (r : Rates) (date : Day) : Option Float :=
  ((r.latestFirst.find? fun e => e.1 ≤ date).or r.latestFirst.getLast?).map (·.2)

end Rates
end DailyBars
