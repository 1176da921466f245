import DailyBars.Bar.Series
import DailyBars.Calendar.Pattern
import DailyBars.Http.Form
import DailyBars.Http.Transport
import DailyBars.Instrument.Exchange
import DailyBars.Json.Reader
import DailyBars.Number.Binary
import DailyBars.Source.Query

/-! # Alpha Vantage

Daily bars as JSON: an object with one record of texts per date, always the whole history. A
notice in the place of the bars means that the quota of the day is spent.
-/

namespace DailyBars.AlphaVantage

/-- The name of the source. -/
def id : String := "alpha_vantage"

/-- Where the source is found unless the configuration says otherwise. -/
def home : String := "https://www.alphavantage.co"

/-- The symbol of an instrument: `GSK.LON`, `AAPL`. There is none on an exchange that is not
listed. -/
def symbolOf? (symbol exchange : String) : Option String :=
  ((Exchange.find? exchange).bind Exchange.alphaVantageSuffix).map fun suffix => symbol ++ suffix

/-! ## Replies -/

/-- The record of one date. -/
structure Quote where
  openPrice : String
  high : String
  low : String
  close : String
  volume : Option String
deriving DecidableEq, Repr

/-- The bars by the text of their date, and the words that may stand in their place. -/
structure Reply where
  shares : Option (List (String × Quote))
  pairs : Option (List (String × Quote))
  fault : Option String
  note : Option String
  information : Option String

/-- The record of a date. -/
def Quote.ofJson? (v : Json) : Option Quote := do
  match ← v.fields? ["1. open", "2. high", "3. low", "4. close", "5. volume"] 5 with
  | [openPrice, high, low, close, volume] =>
    pure
      { openPrice := ← (← openPrice).toText?
        high := ← (← high).toText?
        low := ← (← low).toText?
        close := ← (← close).toText?
        volume := ← Json.optionalField? Json.toText? volume }
  | _ => none

/-- The names of the fields of a reply. -/
def Reply.fieldNames : List String :=
  ["Time Series (Daily)", "Time Series FX (Daily)", "Error Message", "Note", "Information"]

/-- The reply of a JSON record. -/
def Reply.ofJson? (v : Json) : Option Reply := do
  match ← v.fields? fieldNames fieldNames.length with
  | [shares, pairs, fault, note, information] =>
    pure
      { shares := ← Json.optionalField? (Json.table? Quote.ofJson?) shares
        pairs := ← Json.optionalField? (Json.table? Quote.ofJson?) pairs
        fault := ← Json.optionalField? Json.toText? fault
        note := ← Json.optionalField? Json.toText? note
        information := ← Json.optionalField? Json.toText? information }
  | _ => none

/-! ## From replies to bars -/

/-- A number of a record, named for the message when it is not one. -/
def number (field value date : String) : Except Failure Float :=
  match Number.readFloat? (Text.trim value) with
  | some x => .ok x
  | none => .error (.malformed (field ++ " " ++ Text.quoted value ++ " on " ++ date))

/-- The bar of a record. The volume is looked at first. -/
def Quote.bar (q : Quote) (dateText : String) (date : Day) (symbol exchange : String) :
    Except Failure Bar := do
  let volume ← match q.volume with
    | some v => (number "volume" v dateText).map Number.count
    | none => pure 0
  pure
    { date
      openPrice := ← number "open" q.openPrice dateText
      high := ← number "high" q.high dateText
      low := ← number "low" q.low dateText
      close := ← number "close" q.close dateText
      volume, symbol, exchange, source := id }

/-- The bar of one date, unless it lies outside the window; then its record is not looked
at. -/
def bar? (dateText : String) (q : Quote) (symbol exchange : String) (w : Window) :
    Except Failure (Option Bar) :=
  match DatePattern.hyphenated.parse? dateText with
  | none => .error (.malformed ("bad date key " ++ Text.quoted dateText))
  | some date =>
    if w.contains date then (q.bar dateText date symbol exchange).map some else .ok none

/-- The bars of a window in order of date. Two texts of one date give two bars. -/
def barsOf (quotes : List (String × Quote)) (symbol exchange : String) (w : Window) :
    Except Failure (List Bar) :=
  (quotes.mapM fun e => bar? e.1 e.2 symbol exchange w).map fun rows =>
    Series.sortByDate (rows.filterMap fun row => row)

/-- The bars of a reply. A notice comes before everything else. -/
def Reply.bars (r : Reply) (symbol exchange : String) (w : Window) : Except Failure (List Bar) :=
  if r.note.isSome || r.information.isSome then .error (.rateLimited none)
  else
    match r.fault, r.shares.or r.pairs with
    | some words, _ => .error (.notFound (symbol ++ " (" ++ words ++ ")"))
    | none, none => .error (.malformed "no time series in response")
    | none, some quotes => barsOf quotes symbol exchange w

/-- The bars of a reply text, tagged with a symbol and an exchange. -/
def parse (text symbol exchange : String) (w : Window) : Except Failure (List Bar) :=
  match (Json.parse? text).bind Reply.ofJson? with
  | some reply => reply.bars symbol exchange w
  | none => .error (.malformed ("alpha vantage JSON for " ++ symbol))

/-! ## Asking -/

/-- What is asked for: a pair by its two currencies, everything else by its symbol. -/
def subject (q : Query) : Except Failure (List (String × String)) :=
  if Exchange.isPairs q.exchange then
    match Exchange.splitPair q.symbol with
    | some (source, target) =>
      .ok [("function", "FX_DAILY"), ("from_symbol", source), ("to_symbol", target)]
    | none => .error (.invalidSymbol q.symbol "FX pair must be six letters")
  else
    match symbolOf? q.symbol q.exchange with
    | some symbol => .ok [("function", "TIME_SERIES_DAILY"), ("symbol", symbol)]
    | none => .error (.notFound
        (q.symbol ++ " (alpha vantage has no market for exchange '" ++ q.exchange ++ "')"))

/-- Asks for the bars of a query with a key. -/
def fetch {ω : Type} (send : Http.Transport ω) (base : String) (timeout : Duration) (key : String)
    (q : Query) : Http.Asking ω (List Bar) := do
  liftM (Failure.checkTicker q.symbol)
  let subject ← liftM (subject q)
  let address :=
    Http.withQuery (base ++ "/query") (subject ++ [("outputsize", "full"), ("apikey", key)])
  let body ← Http.page send timeout address q.symbol
  liftM (parse body q.symbol (Exchange.tag q.exchange) q.window)

end DailyBars.AlphaVantage
