import DailyBars.Bar.Basic
import DailyBars.Error
import DailyBars.Json.Reader

/-! # Price factors

Some sources quote in another unit than callers expect, such as pence for pounds. A document
gives a factor per exchange and ticker; the ticker `*` stands for every ticker of the exchange
that has no factor of its own. Exchanges and tickers count in any case.
-/

namespace DailyBars

/-- Factors by exchange and ticker, both in upper case. -/
structure Scaling where
  exchanges : List (String × List (String × Float)) := []

namespace Scaling

/-- The ticker that stands for all others. -/
def wildcard : String := "*"

/-- A factor that prices may be multiplied by. -/
def isFactor (x : Float) : Bool := x.isFinite && 0 < x

/-- The factors of one exchange. Of several spellings of a ticker the last counts. -/
def tickersOf (factors : List (String × Float)) : List (String × Float) :=
  factors.foldl (fun table f => Json.assign (Text.upper f.1) f.2 table) []

/-- The table of a document. Every factor that counts within its exchange has to be finite and
positive; of several spellings of an exchange the last counts. -/
def ofDocument (document : List (String × List (String × Float))) :
    Except MetadataFault Scaling := do
  let exchanges ← document.foldlM (fun table (exchange, factors) =>
    let tickers := tickersOf factors
    match tickers.find? fun f => !isFactor f.2 with
    | some (ticker, factor) => .error (.scalingFactor exchange ticker factor)
    | none => .ok (Json.assign (Text.upper exchange) tickers table)) []
  pure ⟨exchanges⟩

/-- The table that a JSON text describes. -/
def parse (text : String) : Except MetadataFault Scaling :=
  match (Json.parse? text).bind (Json.table? (Json.table? Json.toFloat?)) with
  | none => .error .invalidScaling
  | some document => ofDocument document

/-- The table of a file, given its text if it can be read. -/
def load : Option String → Except MetadataFault Scaling
  | some text => parse text
  | none => .error .unreadable

/-- The factor for a ticker of an exchange: its own, or else that of the wildcard. -/
def factor? (s : Scaling) (exchange symbol : String) : Option Float :=
  (s.exchanges.lookup (Text.upper exchange)).bind fun tickers =>
    (tickers.lookup (Text.upper symbol)).or (tickers.lookup wildcard)

/-- Bars of a ticker in the unit that callers expect. -/
def apply (s : Scaling) (exchange symbol : String) (bars : List Bar) : List Bar :=
  match s.factor? exchange symbol with
  | some factor => if factor == 1.0 then bars else bars.map (Bar.scale factor)
  | none => bars

end Scaling
end DailyBars
