import DailyBars.Text.Basic

/-! # Currencies and their units -/

namespace DailyBars

/-- A major currency and what one of the quoted unit is worth in it. -/
structure Currency where
  code : String
  unit : Float

namespace Currency

/-- The currency of a code. London quotes pence as `GBX` or `GBp`, a hundredth of `GBP`; every
other code is in upper case and counts whole units. -/
def of (text : String) : Currency :=
  let code := Text.trim text
  if code == "GBp" || Text.sameLetters code "GBX" then ⟨"GBP", 0.01⟩ else ⟨Text.upper code, 1.0⟩

/-- The same major currency in the same unit. -/
def same (a b : String) : Bool := (of a).code == (of b).code && (of a).unit == (of b).unit

/-- The ticker of the pair that gives the price of one currency in another. -/
def pair (source target : String) : String := source ++ target

end Currency
end DailyBars
