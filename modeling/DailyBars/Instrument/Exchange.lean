import DailyBars.Instrument.Symbol

/-! # Exchanges

The exchanges that are known by code, how each source spells them, and the currency they
quote in. Currency pairs live on an exchange of their own.
-/

namespace DailyBars

/-- An exchange as the sources spell it; `none` where a source does not list it. -/
structure Exchange where
  code : String
  /-- Appended to the ticker, with its dot. -/
  yahooSuffix : String
  /-- Appended to the ticker after a dot. -/
  stooqSuffix : Option String
  /-- Appended to the ticker, with its dot. -/
  alphaVantageSuffix : Option String
  /-- Appended to the ticker after a colon. -/
  ftVenue : Option String
  currency : String
deriving DecidableEq, Repr

namespace Exchange

/-- The known exchanges. -/
def all : List Exchange := [
  ⟨"US", "", some "us", some "", none, "USD"⟩,
  ⟨"L", ".L", some "uk", some ".LON", some "LSE", "GBP"⟩,
  ⟨"DE", ".DE", some "de", some ".DEX", some "GER", "EUR"⟩,
  ⟨"F", ".F", none, some ".FRK", some "FRA", "EUR"⟩,
  ⟨"PA", ".PA", none, some ".PAR", some "PAR", "EUR"⟩,
  ⟨"AS", ".AS", none, some ".AMS", some "AEX", "EUR"⟩,
  ⟨"MI", ".MI", none, some ".MIL", some "MIL", "EUR"⟩,
  ⟨"IR", ".IR", none, none, some "ISE", "EUR"⟩,
  ⟨"SW", ".SW", none, none, some "SWX", "CHF"⟩,
  ⟨"TO", ".TO", none, some ".TRT", some "TOR", "CAD"⟩,
  ⟨"AX", ".AX", none, none, some "ASX", "AUD"⟩,
  ⟨"HK", ".HK", some "hk", none, some "HKG", "HKD"⟩,
  ⟨"T", ".T", some "jp", none, some "TYO", "JPY"⟩]

/-- The exchange with this code, in any case. -/
def find? (code : String) : Option Exchange := all.find? fun e => Text.sameLetters e.code code

/-- The code names a known exchange. -/
def isKnown (code : String) : Bool := (find? code).isSome

/-- The currency that the exchange with this code quotes in. -/
def currencyOf? (code : String) : Option String := (find? code).map currency

/-- An exchange code is well formed. -/
def check (code : String) : Except CodeFault Unit := CodeKind.exchange.check code

/-- The code under which currency pairs are listed. -/
def pairs : String := "FX"

/-- The code is that of the currency pairs, in any case. -/
def isPairs (code : String) : Bool := Text.sameLetters code pairs

/-- The exchange that bars are tagged with: every spelling of that of the pairs is one. -/
def tag (code : String) : String := if isPairs code then pairs else code

/-- The two currencies of a pair of six ASCII characters. -/
def splitPair (pair : String) : Option (String × String) :=
  let cs := pair.toList
  if cs.length == 6 && cs.all (·.toNat < 128) then
    some (String.ofList (cs.take 3), String.ofList (cs.drop 3))
  else
    none

end Exchange
end DailyBars
