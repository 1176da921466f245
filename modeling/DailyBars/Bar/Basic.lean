import DailyBars.Calendar.Window

/-! # Daily bars

One row of prices for one instrument on one day, tagged with the source that gave it.
-/

namespace DailyBars

/-- Open, high, low and close of one day, the number of units traded, and where the row
comes from. -/
structure Bar where
  date : Day
  openPrice : Float
  high : Float
  low : Float
  close : Float
  volume : UInt64
  symbol : String
  exchange : String
  source : String

namespace Bar

/-- One of the four prices is not a number. -/
def isVoid (b : Bar) : Bool := b.openPrice.isNaN || b.high.isNaN || b.low.isNaN || b.close.isNaN

/-- The four prices are numbers, none lies above the high or below the low, and the close is
positive. -/
def isSane (b : Bar) : Bool :=
  !b.isVoid && b.low ≤ b.high && b.openPrice ≤ b.high && b.close ≤ b.high &&
    b.low ≤ b.openPrice && b.low ≤ b.close && 0 < b.close

/-- The bar with its four prices multiplied by `factor`. The volume is a count and stays. -/
def scale (factor : Float) (b : Bar) : Bar :=
  { b with
    openPrice := b.openPrice * factor
    high := b.high * factor
    low := b.low * factor
    close := b.close * factor }

/-- A bar whose four prices are all one value. -/
def flat (date : Day) (price : Float) (volume : UInt64) (symbol exchange source : String) : Bar :=
  { date, openPrice := price, high := price, low := price, close := price, volume, symbol,
    exchange, source }

end Bar
end DailyBars
