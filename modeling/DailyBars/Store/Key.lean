import DailyBars.Instrument.Exchange
import DailyBars.Text.Basic

/-! # Names of stored series

A series is stored under its ticker and exchange, in upper case. The name of its file joins
the two with an underscore; since exchanges have none, the last underscore is where they
meet.
-/

namespace DailyBars

/-- Ticker and exchange of a stored series, trimmed and in upper case. -/
structure SeriesKey where
  symbol : String
  exchange : String
deriving DecidableEq, Hashable, Repr

namespace SeriesKey

/-- The key of a ticker and an exchange. -/
def of (symbol exchange : String) : SeriesKey :=
  ⟨Text.upper (Text.trim symbol), Text.upper (Text.trim exchange)⟩

/-- Ticker and exchange joined. -/
def text (k : SeriesKey) : String := k.symbol ++ "_" ++ k.exchange

/-- How the name of a series file ends. -/
def seriesExtension : String := ".parquet"

/-- The name of the file with the series. -/
def seriesName (k : SeriesKey) : String := k.text ++ seriesExtension

/-- The name of the record of the dates that were asked for. -/
def spanName (k : SeriesKey) : String := k.text ++ ".span.json"

/-- The name ends in that of a series file. -/
def isSeriesName (name : String) : Bool := seriesExtension.toList.isSuffixOf name.toList

/-- The key whose series file has this name. -/
def ofSeriesName? (name : String) : Option SeriesKey :=
  if isSeriesName name then
    let stem := name.toList.take (name.length - seriesExtension.length)
    match Ticker.splitLast '_' stem with
    | some (symbol, exchange) =>
      if symbol.isEmpty || exchange.isEmpty then none
      else some (of (String.ofList symbol) (String.ofList exchange))
    | none => none
  else
    none

/-- Both parts are well formed; the ticker is looked at first. -/
def check (k : SeriesKey) : Except CodeFault Unit := do
  Ticker.check k.symbol
  Exchange.check k.exchange

end SeriesKey
end DailyBars
