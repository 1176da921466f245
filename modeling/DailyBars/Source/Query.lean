import DailyBars.Calendar.Window
import DailyBars.Instrument.Symbol

/-! # What a source is asked for, and how it can fail

A source answers a request for bars with rows or with a failure. Failures stay with the engine that
asked: a caller never sees one.
-/

namespace DailyBars

/-- A request for the bars of one instrument in a window. -/
structure Query where
  symbol : String
  exchange : String
  window : Window
deriving DecidableEq, Repr

/-- Why a source gave no rows. -/
inductive Failure where
  /-- Refused for now; without a time to wait, the quota of the day is spent. -/
  | rateLimited (retryAfter : Option Duration)
  | notFound (symbol : String)
  | malformed (detail : String)
  /-- Out of reach: no connection, no answer in time, or an unexpected status. -/
  | unavailable (detail : String)
  | invalidSymbol (symbol reason : String)
deriving DecidableEq, Repr

namespace Failure

/-- The wording of a failure. -/
def message : Failure → String
  | rateLimited none => "rate limited by provider (retry after None)"
  | rateLimited (some wait) => "rate limited by provider (retry after Some(" ++ wait.text ++ "))"
  | notFound symbol => "symbol not found: " ++ symbol
  | malformed detail => "malformed response: " ++ detail
  | unavailable detail => "source unavailable: " ++ detail
  | invalidSymbol symbol reason => "invalid symbol '" ++ symbol ++ "': " ++ reason

/-- A ticker is well formed; what every source checks before it asks anything. -/
def checkTicker (symbol : String) : Except Failure Unit :=
  match Ticker.check symbol with
  | .ok () => .ok ()
  | .error fault => .error (.invalidSymbol symbol fault.message)

end Failure
end DailyBars
