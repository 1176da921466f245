import DailyBars.Bar.Series
import DailyBars.Calendar.Pattern
import DailyBars.Html.Insertion
import DailyBars.Http.Form
import DailyBars.Http.Transport
import DailyBars.Instrument.Exchange
import DailyBars.Json.Reader
import DailyBars.Number.Binary
import DailyBars.Number.Decimal
import DailyBars.Source.Query

/-! # FT Markets

Two steps: the page of an instrument names it by a number, and the rows of a table are asked
for by that number. Rows are for people to read, with dates in words, commas in numbers and
volumes in thousands, millions or billions.
-/

namespace DailyBars.Ft

/-- The name of the source. -/
def id : String := "ft"

/-- Where the source is found unless the configuration says otherwise. -/
def home : String := "https://markets.ft.com"

/-- The symbol of an instrument: security identifiers have a currency, `GB00B4PQW151:GBP`, and
all others a venue, `GSK:LSE`. An unknown exchange of three letters is a currency. -/
def symbolOf? (symbol exchange : String) : Option String :=
  if Exchange.isPairs exchange then none
  else if Ticker.isIsin symbol then
    match Exchange.currencyOf? exchange with
    | some currency => some (symbol ++ ":" ++ currency)
    | none =>
      if exchange.utf8ByteSize = 3 then some (symbol ++ ":" ++ Text.upper exchange) else none
  else
    ((Exchange.find? exchange).bind Exchange.ftVenue).map fun venue => symbol ++ ":" ++ venue

/-! ## The number of an instrument -/

/-- The attribute in which elements of a page keep a record. -/
def recordName : String := "data-mod-config"

/-- The number in a record: a text that is not empty, or a number as it would be written. -/
def number? (record : String) : Option String := do
  match ← (← Json.parse? record).fields? ["xid"] 1 with
  | [some (.text (some text))] => if text.isEmpty then none else some text
  | [some (.number n)] =>
    match n.toInt? with
    | some value => some (toString value)
    | none => n.toFloat?.map Number.jsonText
  | _ => none

/-- The number on the page of an instrument: that of the first record that has one. -/
def numberOnPage? (page : String) : Option String :=
  let d := Html.Document.ofPage page
  d.attached.findSome? fun element => (d.attribute? element recordName).bind number?

/-! ## Rows -/

/-- A number with commas in it. -/
def readPrice? (text : String) : Option Float :=
  Number.readFloat? (String.ofList ((Text.trim text).toList.filter (· != ',')))

/-- A volume without its unit, and what one of its unit is. -/
def volumeUnit (cs : List Char) : List Char × Float :=
  match cs.getLast? with
  | some 'k' => (cs.dropLast, 1000.0)
  | some 'm' => (cs.dropLast, 1000000.0)
  | some 'b' => (cs.dropLast, 1000000000.0)
  | _ => (cs, 1.0)

/-- A volume as a count. What cannot be read counts as nothing. -/
def readVolume (text : String) : UInt64 :=
  let cs := ((Text.trim text).toList.filter (· != ',')).map Char.toLower
  let (digits, unit) := volumeUnit cs
  match Number.readFloat? (String.ofList digits) with
  | some x => Number.count (x * unit).round
  | none => 0

/-- The text of an element without the white space around it. -/
def cellText (d : Html.Document) (cell : Nat) : String := Text.trim (d.text cell)

/-- The date of a cell. It may be written twice, at length first. -/
def cellDate? (d : Html.Document) (cell : Nat) : Option Day :=
  DatePattern.spelledOut.parse? (cellText d (((d.namedWithin cell "span").head?).getD cell))

/-- The price of a cell. -/
def cellPrice (d : Html.Document) (cell : Nat) : Except Failure Float :=
  let text := cellText d cell
  match readPrice? text with
  | some x => .ok x
  | none => .error (.malformed ("ft price cell " ++ Text.quoted text))

/-- The bar of the cells of a row: date, four prices and perhaps a volume. There is none for a
row with fewer cells and for a date outside the window. -/
def rowBar? (d : Html.Document) (cells : List Nat) (symbol exchange : String) (w : Window) :
    Except Failure (Option Bar) :=
  match cells with
  | dateCell :: first :: second :: third :: fourth :: more =>
    match cellDate? d dateCell with
    | none => .error (.malformed ("ft date cell " ++ Text.quoted (cellText d dateCell)))
    | some date =>
      if !w.contains date then .ok none
      else do
        let openPrice ← cellPrice d first
        let high ← cellPrice d second
        let low ← cellPrice d third
        let close ← cellPrice d fourth
        let volume := (more.head?.map fun cell => readVolume (cellText d cell)).getD 0
        pure (some { date, openPrice, high, low, close, volume, symbol, exchange, source := id })
  | _ => .ok none

/-- The bars of the rows of a document. -/
def barsOf (d : Html.Document) (symbol exchange : String) (w : Window) :
    Except Failure (List Bar) :=
  ((d.named "tr").mapM fun row => rowBar? d (d.namedWithin row "td") symbol exchange w).map
    fun rows => Series.keepFirst (rows.filterMap fun row => row)

/-- The rows in a reply. -/
def rows? (v : Json) : Option String := do
  match ← v.fields? ["html"] 1 with
  | [rows] => (← rows).toText?
  | _ => none

/-- The bars of a reply text, tagged with a symbol and an exchange. -/
def parse (text symbol exchange : String) (w : Window) : Except Failure (List Bar) :=
  match (Json.parse? text).bind rows? with
  | some rows => barsOf (.ofPart ("<table>" ++ rows ++ "</table>")) symbol exchange w
  | none => .error (.malformed ("ft history JSON for " ++ symbol))

/-! ## Asking -/

/-- The address of the page of an instrument. -/
def pageAddress (base ticker symbol : String) : String :=
  let kind := if Ticker.isIsin ticker then "funds" else "equities"
  Http.withQuery (base ++ "/data/" ++ kind ++ "/tearsheet/historical") [("s", symbol)]

/-- The address of the rows of a window. -/
def rowsAddress (base number : String) (w : Window) : String :=
  Http.withQuery (base ++ "/data/equities/ajax/get-historical-prices")
    [("startDate", w.first.textWith "/"), ("endDate", w.last.textWith "/"), ("symbol", number)]

/-- Asks for the bars of a query. -/
def fetch {ω : Type} (send : Http.Transport ω) (base : String) (timeout : Duration) (q : Query) :
    Http.Asking ω (List Bar) := do
  liftM (Failure.checkTicker q.symbol)
  match symbolOf? q.symbol q.exchange with
  | none =>
    throw (.notFound (q.symbol ++ " (ft has no venue for exchange '" ++ q.exchange ++ "')"))
  | some symbol =>
    let page ← Http.page send timeout (pageAddress base q.symbol symbol) q.symbol
    match numberOnPage? page with
    | none => throw (.notFound q.symbol)
    | some number =>
      let body ← Http.page send timeout (rowsAddress base number q.window) q.symbol
      liftM (parse body q.symbol q.exchange q.window)

end DailyBars.Ft
