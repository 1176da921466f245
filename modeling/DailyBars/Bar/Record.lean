import DailyBars.Bar.Basic
import DailyBars.Calendar.Pattern
import DailyBars.Json.Reader
import DailyBars.Json.Writer

/-! # Bars as JSON records -/

namespace DailyBars

/-- The day that a JSON text names. -/
def Day.ofJson? (v : Json) : Option Day := v.toText?.bind DatePattern.spacedHyphenated.parse?

namespace Bar

/-- The names of the fields, in the order in which they are written. -/
def fieldNames : List String :=
  ["date", "open", "high", "low", "close", "volume", "symbol", "exchange", "source"]

/-- A bar written as a JSON record. Prices that are not finite become `null`. -/
def toJson (b : Bar) : String :=
  Json.writeRecord (fieldNames.zip
    [Json.writeText b.date.text, Number.jsonText b.openPrice, Number.jsonText b.high,
      Number.jsonText b.low, Number.jsonText b.close, toString b.volume.toNat,
      Json.writeText b.symbol, Json.writeText b.exchange, Json.writeText b.source])

/-- The bar of a JSON record, which needs all its fields. -/
def ofJson? (v : Json) : Option Bar := do
  match ← v.fields? fieldNames fieldNames.length with
  | [date, openPrice, high, low, close, volume, symbol, exchange, source] =>
    pure
      { date := ← Day.ofJson? (← date)
        openPrice := ← (← openPrice).toFloat?
        high := ← (← high).toFloat?
        low := ← (← low).toFloat?
        close := ← (← close).toFloat?
        volume := ← (← volume).toUInt64?
        symbol := ← (← symbol).toText?
        exchange := ← (← exchange).toText?
        source := ← (← source).toText? }
  | _ => none

end Bar
end DailyBars
