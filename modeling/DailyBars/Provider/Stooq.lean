import DailyBars.Bar.Record
import DailyBars.Bar.Series
import DailyBars.Csv.Rows
import DailyBars.Http.Form
import DailyBars.Http.Transport
import DailyBars.Instrument.Exchange
import DailyBars.Number.Binary
import DailyBars.Source.Query

/-! # Stooq

Daily bars as comma-separated text. A spent quota and an unknown symbol are told in plain
words in the place of the text.
-/

namespace DailyBars.Stooq

/-- The name of the source. -/
def id : String := "stooq"

/-- Where the source is found unless the configuration says otherwise. -/
def home : String := "https://stooq.com"

/-- The symbol of an instrument: `gsk.uk`, `aapl.us`, `gbpusd`. There is none on an exchange
that is not listed. -/
def symbolOf? (symbol exchange : String) : Option String :=
  if Exchange.isPairs exchange then some (Text.lower symbol)
  else
    ((Exchange.find? exchange).bind Exchange.stooqSuffix).map fun suffix =>
      Text.lower symbol ++ "." ++ suffix

/-- The bar of a row under a heading. The five columns before the volume are needed, each
once, and a volume may be left out. -/
def bar? (heading row : List String) (symbol exchange : String) : Option Bar := do
  if row.length ≠ heading.length then none
  let text := fun name => (Csv.column? heading row name).bind fun value => value
  let price := fun name => (text name).bind Number.readFloat?
  let volume : Float ← match ← Csv.column? heading row "Volume" with
    | none => some 0.0
    | some value => if value.isEmpty then some 0.0 else Number.readFloat? value
  pure
    { date := ← DatePattern.spacedHyphenated.parse? (← text "Date")
      openPrice := ← price "Open"
      high := ← price "High"
      low := ← price "Low"
      close := ← price "Close"
      volume := Number.count volume
      symbol, exchange, source := id }

/-- The bars of rows, the first of which is the heading. Every row has to be one. -/
def barsOf? (rows : List (List String)) (symbol exchange : String) : Option (List Bar) :=
  match rows with
  | [] => some []
  | heading :: rows =>
    (rows.mapM fun row => bar? heading row symbol exchange).map Series.keepFirst

/-- How many characters of an unexpected text a message shows. -/
def shown : Nat := 60

/-- The text begins with some words. -/
def startsWith (words : String) (cs : List Char) : Bool := words.toList.isPrefixOf cs

/-- The bars of a text, tagged with a symbol and an exchange. -/
def parse (text symbol exchange : String) : Except Failure (List Bar) :=
  let cs := Text.trimLeft text.toList
  if startsWith "Exceeded the daily hits limit" cs then .error (.rateLimited none)
  else if startsWith "No data" cs then .error (.notFound symbol)
  else if startsWith "Date," cs then
    match barsOf? (Csv.rows (String.ofList cs)) symbol exchange with
    | some bars => .ok bars
    | none => .error (.malformed ("CSV row for " ++ symbol))
  else
    .error (.malformed ("unexpected CSV header: " ++ Text.quoted (String.ofList (cs.take shown))))

/-- The address of the bars of a window. -/
def address (base symbol : String) (w : Window) : String :=
  Http.withQuery (base ++ "/q/d/l/")
    [("s", symbol), ("d1", w.first.textWith ""), ("d2", w.last.textWith ""), ("i", "d")]

/-- Asks for the bars of a query. -/
def fetch {ω : Type} (send : Http.Transport ω) (base : String) (timeout : Duration) (q : Query) :
    Http.Asking ω (List Bar) := do
  liftM (Failure.checkTicker q.symbol)
  match symbolOf? q.symbol q.exchange with
  | none =>
    throw (.notFound (q.symbol ++ " (stooq has no market for exchange '" ++ q.exchange ++ "')"))
  | some symbol =>
    let body ← Http.page send timeout (address base symbol q.window) q.symbol
    liftM (parse body q.symbol (Exchange.tag q.exchange))

end DailyBars.Stooq
