import DailyBars.Bar.Series
import DailyBars.Http.Transport
import DailyBars.Instrument.Exchange
import DailyBars.Json.Reader
import DailyBars.Source.Query

/-! # Yahoo Finance

Charts of daily bars as JSON: a list of timestamps beside columns of prices. A column may be
shorter than the list or have gaps. A bar is stamped with an instant of its day, so its date
is taken in the time of its exchange.
-/

namespace DailyBars.Yahoo

/-- The name of the source. -/
def id : String := "yahoo"

/-- Where the source is found unless the configuration says otherwise. -/
def home : String := "https://query2.finance.yahoo.com"

/-- The symbol of an instrument: `GSK.L`, `AAPL`, `GBPUSD=X`. An unknown exchange is its own
suffix. -/
def symbolOf (symbol exchange : String) : String :=
  if Exchange.isPairs exchange then symbol ++ "=X"
  else
    match Exchange.find? exchange with
    | some e => symbol ++ e.yahooSuffix
    | none => if exchange.isEmpty then symbol else symbol ++ "." ++ exchange

/-- The first and the last second of a window in universal time. -/
def period (w : Window) : Int × Int :=
  ((Instant.ofDay w.first 0).seconds, (Instant.ofDay w.last 86399).seconds)

/-- The address of a chart. -/
def chartAddress (base symbol : String) (w : Window) : String :=
  let (first, last) := period w
  base ++ "/v8/finance/chart/" ++ symbol ++ "?period1=" ++ toString first ++ "&period2=" ++
    toString last ++ "&interval=1d"

/-! ## Charts -/

/-- The columns of a chart. -/
structure Quote where
  openPrice : Array (Option Float)
  high : Array (Option Float)
  low : Array (Option Float)
  close : Array (Option Float)
  volume : Array (Option UInt64)

/-- One series of a chart: the offset of its exchange from universal time in seconds, the
timestamps, and its quotes, of which only the first is looked at. -/
structure ChartSeries where
  offset : Option Int
  timestamps : Option (List Int)
  quotes : List Quote

/-- What a chart request is answered with: series, or a code with a description of what is
wrong. -/
structure Chart where
  series : Option (List ChartSeries)
  fault : Option (String × String)

namespace Quote

/-- A column with gaps. -/
def column? {α : Type} (read : Json → Option α) (v : Json) : Option (Array (Option α)) :=
  (v.list? fun item => item.optional? read).map List.toArray

/-- The columns of a JSON record, all of which are needed. -/
def ofJson? (v : Json) : Option Quote := do
  match ← v.fields? ["open", "high", "low", "close", "volume"] 5 with
  | [openPrice, high, low, close, volume] =>
    pure
      { openPrice := ← column? Json.toFloat? (← openPrice)
        high := ← column? Json.toFloat? (← high)
        low := ← column? Json.toFloat? (← low)
        close := ← column? Json.toFloat? (← close)
        volume := ← column? Json.toUInt64? (← volume) }
  | _ => none

end Quote

namespace ChartSeries

/-- The offset that the description of a series gives. -/
def offset? (v : Json) : Option (Option Int) := do
  match ← v.fields? ["gmtoffset"] 0 with
  | [offset] => Json.optionalField? Json.toInt64? offset
  | _ => none

/-- The quotes of a series. -/
def quotes? (v : Json) : Option (List Quote) := do
  match ← v.fields? ["quote"] 1 with
  | [quotes] => (← quotes).list? Quote.ofJson?
  | _ => none

/-- The series of a JSON record. -/
def ofJson? (v : Json) : Option ChartSeries := do
  match ← v.fields? ["meta", "timestamp", "indicators"] 3 with
  | [description, timestamps, indicators] =>
    pure
      { offset := (← Json.optionalField? offset? description).join
        timestamps := ← Json.optionalField? (Json.list? Json.toInt64?) timestamps
        quotes := ← quotes? (← indicators) }
  | _ => none

end ChartSeries

namespace Chart

/-- The code and description of a JSON record. -/
def fault? (v : Json) : Option (String × String) := do
  match ← v.fields? ["code", "description"] 2 with
  | [code, description] => pure (← (← code).toText?, ← (← description).toText?)
  | _ => none

/-- The chart of a JSON record. -/
def ofJson? (v : Json) : Option Chart := do
  match ← v.fields? ["chart"] 1 with
  | [chart] =>
    match ← (← chart).fields? ["result", "error"] 2 with
    | [series, fault] =>
      pure ⟨← Json.optionalField? (Json.list? ChartSeries.ofJson?) series, ← Json.optionalField? fault? fault⟩
    | _ => none
  | _ => none

end Chart

/-! ## From charts to bars -/

/-- The date of a timestamp at an offset from universal time. -/
def dateOf? (offset timestamp : Int) : Option Day := Day.ofNumber? ((timestamp + offset) / 86400)

/-- The bar of one position, if there is a close at it. What else is missing is taken from the
close, and a missing volume is zero. -/
def Quote.bar? (q : Quote) (position : Nat) (date : Day) (symbol exchange : String) :
    Option Bar :=
  (q.close[position]?).join.map fun close =>
    { date
      openPrice := ((q.openPrice[position]?).join).getD close
      high := ((q.high[position]?).join).getD close
      low := ((q.low[position]?).join).getD close
      close
      volume := ((q.volume[position]?).join).getD 0
      symbol, exchange, source := id }

/-- The bars of timestamps, in their order. Every timestamp has to have a date. -/
def Quote.rows (q : Quote) (offset : Int) (timestamps : List Int) (symbol exchange : String) :
    Except Failure (List (Option Bar)) :=
  timestamps.zipIdx.mapM fun (timestamp, position) =>
    match dateOf? offset timestamp with
    | none => .error (.malformed ("invalid timestamp: " ++ toString timestamp))
    | some date => .ok (q.bar? position date symbol exchange)

/-- The bars of a series. Without timestamps there was no trading in the window. -/
def ChartSeries.bars (s : ChartSeries) (symbol exchange : String) : Except Failure (List Bar) :=
  match s.timestamps, s.quotes with
  | none, _ => .ok []
  | some _, [] => .error (.malformed "no quote data")
  | some timestamps, quote :: _ =>
    (quote.rows (s.offset.getD 0) timestamps symbol exchange).map fun rows =>
      Series.keepFirst (rows.filterMap fun row => row)

/-- The bars of a chart. -/
def Chart.bars (c : Chart) (symbol exchange : String) : Except Failure (List Bar) :=
  match c.series, c.fault with
  | some (s :: _), _ => s.bars symbol exchange
  | some [], _ => .error (.malformed "result array is empty")
  | none, some (code, description) =>
    if code = "Not Found" then .error (.notFound symbol)
    else .error (.malformed (code ++ ": " ++ description))
  | none, none => .error (.malformed "empty result with no error")

/-- The bars of a chart text, tagged with a symbol and an exchange. -/
def parse (text symbol exchange : String) : Except Failure (List Bar) :=
  match (Json.parse? text).bind Chart.ofJson? with
  | some chart => chart.bars symbol exchange
  | none => .error (.malformed ("chart JSON for " ++ symbol))

/-! ## Sums of 64 bits

A timestamp and an offset are added in 64 bits. A sum beyond them ends the program, and then there
is no result, not even a failure. The functions from charts to bars are given here a second time,
with every sum checked.
-/

/-- The number fits in 64 bits, one of which is its sign. -/
def isWord (n : Int) : Bool := Int64.minValue.toInt ≤ n && n ≤ Int64.maxValue.toInt

/-- The row of one timestamp, unless the sum is beyond 64 bits. -/
def Quote.row? (q : Quote) (offset timestamp : Int) (position : Nat) (symbol exchange : String) :
    Option (Except Failure (Option Bar)) :=
  if isWord (timestamp + offset) then
    match dateOf? offset timestamp with
    | none => some (.error (.malformed ("invalid timestamp: " ++ toString timestamp)))
    | some date => some (.ok (q.bar? position date symbol exchange))
  else none

/-- The rows of timestamps, read one after another up to the first that has no date. -/
def Quote.rows? (q : Quote) (offset : Int) (timestamps : List Int) (symbol exchange : String) :
    Option (Except Failure (List (Option Bar))) :=
  (timestamps.zipIdx.mapM fun (timestamp, position) =>
    ExceptT.mk (q.row? offset timestamp position symbol exchange)).run

/-- The bars of a series. -/
def ChartSeries.bars? (s : ChartSeries) (symbol exchange : String) :
    Option (Except Failure (List Bar)) :=
  match s.timestamps, s.quotes with
  | none, _ => some (.ok [])
  | some _, [] => some (.error (.malformed "no quote data"))
  | some timestamps, quote :: _ =>
    (quote.rows? (s.offset.getD 0) timestamps symbol exchange).map fun rows =>
      rows.map fun rows => Series.keepFirst (rows.filterMap fun row => row)

/-- The bars of a chart. What is wrong with it otherwise is told as before. -/
def Chart.bars? (c : Chart) (symbol exchange : String) : Option (Except Failure (List Bar)) :=
  match c.series with
  | some (s :: _) => s.bars? symbol exchange
  | _ => some (c.bars symbol exchange)

/-- The bars of a chart text. -/
def parse? (text symbol exchange : String) : Option (Except Failure (List Bar)) :=
  match (Json.parse? text).bind Chart.ofJson? with
  | some chart => chart.bars? symbol exchange
  | none => some (.error (.malformed ("chart JSON for " ++ symbol)))

/-! ## Asking -/

/-- Asks for the bars of a query. -/
def fetch {ω : Type} (send : Http.Transport ω) (base : String) (timeout : Duration) (q : Query) :
    Http.Asking ω (List Bar) := do
  liftM (Failure.checkTicker q.symbol)
  let symbol := symbolOf q.symbol q.exchange
  let body ← Http.page send timeout (chartAddress base symbol q.window) q.symbol
  liftM (parse body q.symbol (Exchange.tag q.exchange))

end DailyBars.Yahoo
