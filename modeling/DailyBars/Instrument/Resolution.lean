import DailyBars.Error
import DailyBars.Instrument.Exchange
import DailyBars.Instrument.Metadata

/-! # Which instrument a request means

A ticker may carry its exchange as a suffix, the caller may name one, and a document may know
it, in this order of precedence. The exchange of the document is kept besides, because series
are stored under it.
-/

namespace DailyBars

/-- Where the exchange of an instrument comes from. -/
inductive ExchangeOrigin where
  | suffix
  | caller
  | metadata
deriving DecidableEq, Repr

/-- The name of an origin in messages. -/
def ExchangeOrigin.text : ExchangeOrigin → String
  | suffix => "suffix"
  | caller => "caller"
  | metadata => "metadata"

/-- An instrument with its exchange, and what is known about it. -/
structure Instrument where
  symbol : String
  exchange : String
  origin : ExchangeOrigin
  metadataExchange : Option String
  metadata : Option Metadata
deriving DecidableEq, Repr

namespace Instrument

/-- The exchange under which the series is stored. -/
def storedExchange (i : Instrument) : String := i.metadataExchange.getD i.exchange

/-- The currency of the document, or else that of the exchange. -/
def currency? (i : Instrument) : Option String :=
  (i.metadata.bind Metadata.currency).or (Exchange.currencyOf? i.storedExchange)

/-- An exchange code that has to be well formed, with what a message says of it. -/
def checkExchange (symbol code : String) (origin : ExchangeOrigin) : Except DataError String :=
  match Exchange.check code with
  | .ok () => .ok code
  | .error fault => .error (.invalidSymbol symbol
      (origin.text ++ " exchange " ++ Text.quoted code ++ ": " ++ fault.message))

/-- An exchange that may be absent. -/
def checkExchange? (symbol : String) (origin : ExchangeOrigin) :
    Option String → Except DataError (Option String)
  | some code => (checkExchange symbol code origin).map some
  | none => .ok none

/-- A ticker and the exchange of its suffix, which counts only if it is known. -/
def splitKnownSuffix (ticker : String) : String × Option String :=
  match Ticker.splitSuffix ticker with
  | (base, some suffix) =>
    if Exchange.isKnown suffix then (Text.upper base, some (Text.upper suffix))
    else (Text.upper ticker, none)
  | (_, none) => (Text.upper ticker, none)

/-- The first exchange there is, and where it comes from. -/
def choose? (suffix caller document : Option String) : Option (String × ExchangeOrigin) :=
  match suffix, caller, document with
  | some e, _, _ => some (e, .suffix)
  | none, some e, _ => some (e, .caller)
  | none, none, some e => some (e, .metadata)
  | none, none, none => none

/-- The instrument that a ticker and the caller's exchange mean. A blank exchange is none. -/
def resolve (library : MetadataLibrary) (ticker : String) (exchange : Option String) :
    Except DataError Instrument := do
  let ticker := Text.trim ticker
  match Ticker.check ticker with
  | .error fault => throw (.invalidSymbol ticker fault.message)
  | .ok () =>
    let (symbol, suffix) := splitKnownSuffix ticker
    let named := (exchange.map Text.trim).filter fun e => !e.isEmpty
    let caller ← checkExchange? symbol .caller (named.map Text.upper)
    let hit := library.find? symbol
    let document ← checkExchange? symbol .metadata (hit.map MetadataHit.exchange)
    match choose? suffix caller document with
    | some (exchange, origin) =>
      pure ⟨symbol, exchange, origin, document, hit.map MetadataHit.doc⟩
    | none => throw (.unresolvableExchange symbol)

end Instrument
end DailyBars
