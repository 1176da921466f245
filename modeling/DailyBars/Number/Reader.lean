import DailyBars.Text.Basic

/-! # Numbers read from text

Two readings of decimal text. `readFloat?` gives the number nearest to the decimal, whatever
its length. `truncatedFloat?` is the faster reading that JSON texts get: at most nineteen
digits are kept and scaled by one power of ten in floating point, so the last bit can differ
from the nearest number.
-/

namespace DailyBars.Number

/-- The value of decimal digits. -/
def ofDigits (digits : List Char) : Nat :=
  digits.foldl (fun n c => n * 10 + (c.toNat - '0'.toNat)) 0

/-- Infinity with a sign. -/
def infinity (negative : Bool) : Float := if negative then -1.0 / 0.0 else 1.0 / 0.0

/-- The number that is not one. -/
def notANumber : Float := 0.0 / 0.0

/-- A number with a sign, also for zero. -/
def withSign (negative : Bool) (x : Float) : Float := if negative then -x else x

/-- The number nearest to `± digits · 10 ^ exponent`. Magnitudes far outside the range of the
format are settled by the number of digits alone. -/
def ofDecimal (negative : Bool) (digits : Nat) (exponent : Int) : Float :=
  if digits = 0 then withSign negative 0.0
  else
    let size := ((Nat.toDigits 10 digits).length : Int) + exponent
    if 400 < size then infinity negative
    else if size < -400 then withSign negative 0.0
    else withSign negative (Float.ofScientific digits (exponent < 0) exponent.natAbs)

/-- A sign, if there is one, and the rest. -/
def takeSign : List Char → Bool × List Char
  | '-' :: rest => (true, rest)
  | '+' :: rest => (false, rest)
  | rest => (false, rest)

/-- An exponent after its `e`: a sign and at least one digit. -/
def readExponent? (cs : List Char) : Option Int :=
  let (negative, digits) := takeSign cs
  if digits.isEmpty || !digits.all Char.isDigit then none
  else
    let n : Int := ofDigits digits
    some (if negative then -n else n)

/-- A decimal without its sign: digits with a point before, among or after them, and an
exponent. -/
def readUnsigned? (negative : Bool) (cs : List Char) : Option Float :=
  let whole := cs.takeWhile Char.isDigit
  let afterWhole := cs.dropWhile Char.isDigit
  let (fraction, rest) :=
    match afterWhole with
    | '.' :: rest => (rest.takeWhile Char.isDigit, rest.dropWhile Char.isDigit)
    | _ => ([], afterWhole)
  if whole.isEmpty && fraction.isEmpty then none
  else
    let exponent :=
      match rest with
      | [] => some 0
      | c :: rest => if c == 'e' || c == 'E' then readExponent? rest else none
    exponent.map fun e => ofDecimal negative (ofDigits (whole ++ fraction)) (e - fraction.length)

/-- The number that a text names: a decimal, `inf`, `infinity` or `nan` in any case, with an
optional sign and nothing else around it. -/
def readFloat? (text : String) : Option Float :=
  let (negative, body) := takeSign text.toList
  let word := String.ofList (body.map Char.toLower)
  if word == "inf" || word == "infinity" then some (infinity negative)
  else if word == "nan" then some (withSign negative notANumber)
  else readUnsigned? negative body

/-- A whole number from 0 to `most`: digits, with an optional plus sign. -/
def readNat? (most : Nat) (text : String) : Option Nat :=
  let digits := match text.toList with
    | '+' :: rest => rest
    | cs => cs
  if digits.isEmpty || !digits.all Char.isDigit then none
  else
    let n := ofDigits digits
    if n ≤ most then some n else none

/-! ## The faster reading -/

/-- Digits appended to a number while it fits in 64 bits: the number and how many digits were
left over. -/
def appendDigits (start : Nat) : List Char → Nat × Nat
  | [] => (start, 0)
  | c :: rest =>
    let n := start * 10 + (c.toNat - '0'.toNat)
    if n < UInt64.size then appendDigits n rest else (start, rest.length + 1)

/-- A power of ten up to 10³⁰⁸. -/
def powerOfTen (n : Nat) : Float := Float.ofScientific 1 false n

/-- Scales by a power of ten, in steps of 10³⁰⁸ when the number has to become smaller. There
is no result beyond the range of the format. -/
def scaleByTen (x : Float) (exponent : Int) : Option Float :=
  if 0 ≤ exponent then
    if exponent ≤ 308 then
      let y := x * powerOfTen exponent.toNat
      if y.isInf then none else some y
    else if x == 0.0 then some x
    else none
  else
    let n := exponent.natAbs
    let steps := min ((n - 1) / 308) 3
    let scaled := steps.fold (fun _ _ y => y / powerOfTen 308) x
    if n - 308 * steps ≤ 308 then some (scaled / powerOfTen (n - 308 * steps)) else some 0.0

/-- A decimal given as its whole digits, its fraction and its exponent. -/
def truncatedFloat? (negative : Bool) (whole fraction : List Char) (exponent : Int) :
    Option Float :=
  let (leading, dropped) := appendDigits 0 whole
  let (significand, unused) := appendDigits leading fraction
  let scale := (dropped : Int) - ((fraction.length - unused : Nat) : Int) + exponent
  (scaleByTen significand.toUInt64.toFloat scale).map (withSign negative)

end DailyBars.Number
