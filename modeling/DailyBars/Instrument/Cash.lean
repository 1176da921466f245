import DailyBars.Bar.Basic
import DailyBars.Instrument.Metadata

/-! # Cash

One unit of a currency is worth one of it on every business day, so its series is made and
not fetched. Cash is named by a prefix and a currency of three letters, or by a document in
the folder of cash.
-/

namespace DailyBars

/-- Cash under the symbol it was asked for by. -/
structure Cash where
  symbol : String
  currency : String
deriving DecidableEq, Repr

namespace Cash

/-- The source that bars of cash name. -/
def source : String := "cash"

/-- The currency of a symbol made of a prefix, a dot and three letters. -/
def prefixed? (marker symbol : String) : Option String :=
  let start := (Text.upper (Text.trim marker)).toList ++ ['.']
  let rest := symbol.toList.drop start.length
  if start.isPrefixOf symbol.toList && rest.length == 3 && rest.all Char.isAlpha then
    some (String.ofList rest)
  else
    none

/-- The cash that a symbol means, if it means cash. -/
def recognise? (marker : String) (library : MetadataLibrary) (text : String) : Option Cash :=
  let symbol := Text.upper (Text.trim text)
  match prefixed? marker symbol with
  | some currency => some ⟨symbol, currency⟩
  | none =>
    (library.findCash? symbol).map fun hit =>
      ⟨symbol, (hit.doc.currency.map Text.upper).getD symbol⟩

/-- A bar of value one for each business day. -/
def bars (c : Cash) (w : Window) : List Bar :=
  (w.first.businessDays w.last).map fun d => Bar.flat d 1.0 0 c.symbol c.currency source

end Cash
end DailyBars
