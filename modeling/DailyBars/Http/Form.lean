import DailyBars.Text.Basic

/-! # Form encoding

Names and values of a query: letters, digits and four marks stand for themselves, a space is
a plus sign, and every other byte of the UTF-8 form is written as a percent sign and two
digits.
-/

namespace DailyBars.Http

/-- The byte stands for itself. -/
def isFormSafe (b : UInt8) : Bool :=
  let c := Char.ofNat b.toNat
  b < 0x80 && (c.isAlphanum || c == '*' || c == '-' || c == '.' || c == '_')

/-- One byte in a query. -/
def formByte (b : UInt8) : List Char :=
  if isFormSafe b then [Char.ofNat b.toNat]
  else if b == 0x20 then ['+']
  else '%' :: (Text.hexPlaces 2 b.toNat).map Char.toUpper

/-- A name or a value in a query. -/
def formText (s : String) : String := String.ofList (s.toUTF8.toList.flatMap formByte)

/-- An address with the pairs of a query after it. -/
def withQuery (address : String) (pairs : List (String × String)) : String :=
  address ++ (if address.toList.contains '?' then "&" else "?") ++
    "&".intercalate (pairs.map fun p => formText p.1 ++ "=" ++ formText p.2)

end DailyBars.Http
