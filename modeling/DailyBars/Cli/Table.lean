import DailyBars.Bar.Basic
import DailyBars.Number.Decimal
import DailyBars.Store.SeriesCache
import DailyBars.Text.Basic

/-! # Tables

Bars as a table of fixed columns or with commas between the values, and the stored series as a
table. A value wider than its column pushes the rest of its line to the right.
-/

namespace DailyBars.Cli

open Text (padRight)

/-- A value at the right edge of a column. -/
def atRight (width : Nat) (s : String) : String := Text.padLeft ' ' width s

/-- Values as one line with a space between them. -/
def columns (values : List String) : String := " ".intercalate values

/-- A line across a table. -/
def rule (width : Nat) : String := String.ofList (List.replicate width '-')

/-! ## Bars -/

/-- The prices of a bar. -/
def prices (b : Bar) : List Float := [b.openPrice, b.high, b.low, b.close]

/-- The heads of a table of bars. -/
def barHeads : String :=
  columns (padRight 12 "Date" :: ["Open", "High", "Low", "Close"].map (atRight 12) ++
    [atRight 14 "Volume", padRight 14 "Source"])

/-- A bar in a table: prices with four places, and the date as wide as it is. -/
def barLine (b : Bar) : String :=
  columns (b.date.text :: (prices b).map (fun p => atRight 12 (Number.fixedText 4 p)) ++
    [atRight 14 (toString b.volume.toNat), padRight 14 b.source])

/-- A table of bars. -/
def barTable (bars : List Bar) : List String :=
  barHeads :: rule 94 :: bars.map barLine ++ ["", toString bars.length ++ " bars"]

/-- A bar with commas between its values. -/
def barFields (b : Bar) : String :=
  ",".intercalate (b.date.text :: (prices b).map Number.plainText ++
    [toString b.volume.toNat, b.source])

/-- Bars with commas between their values, under the names of the values. -/
def barCsv (bars : List Bar) : List String :=
  "Date,Open,High,Low,Close,Volume,Source" :: bars.map barFields

/-! ## Stored series -/

/-- A size in bytes, in the largest of B, KB and MB that it reaches, with one place from KB
on. -/
def sizeText (bytes : Nat) : String :=
  if bytes < 1024 then toString bytes ++ " B"
  else if bytes < 1024 * 1024 then
    Number.fixedText 1 (Float.ofNat bytes / 1024) ++ " KB"
  else Number.fixedText 1 (Float.ofNat bytes / (1024 * 1024)) ++ " MB"

/-- The heads of a table of stored series. -/
def seriesHeads : String :=
  columns [padRight 12 "Symbol", padRight 6 "Exch", padRight 25 "Date Range", padRight 12 "Bars",
    atRight 10 "Size"]

/-- A stored series in a table. -/
def seriesLine (s : SeriesStatus) : String :=
  let range := match s.span with
    | some w => w.first.text ++ " to " ++ w.last.text
    | none => "(empty)"
  columns [padRight 12 s.symbol, padRight 6 s.exchange, padRight 25 range,
    padRight 12 (toString s.bars ++ " bars"), atRight 10 (sizeText s.bytes)]

/-- One series comes before another: by symbol, and by exchange where the symbols agree. -/
def seriesBefore (a b : SeriesStatus) : Bool :=
  a.symbol < b.symbol || (a.symbol == b.symbol && a.exchange ≤ b.exchange)

/-- What is said about the series that are kept at a location. -/
def statusReport (location : String) (series : List SeriesStatus) : List String :=
  if series.isEmpty then ["Cache is empty: " ++ location]
  else
    let total := series.foldl (fun n s => n + s.bytes) 0
    ["Cache: " ++ location, "Series: " ++ toString series.length,
      "Total size: " ++ sizeText total, "", seriesHeads, rule 69] ++
      (series.mergeSort seriesBefore).map seriesLine

end DailyBars.Cli
