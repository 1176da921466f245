import DailyBars.Number.Binary

/-! # Numbers as decimal text

A number is written with the fewest digits that read back as the same number, and among
those with the digits nearest to it. The digits are found by looking, for one digit, two
digits and so on, at the two decimals of that many digits next to the value, and taking the
first that lies in the interval of reals that round to the number.
-/

namespace DailyBars.Number

/-- The value `digits · 10 ^ exponent`. -/
structure Decimal where
  digits : Nat
  exponent : Int
deriving DecidableEq, Repr

/-- A fraction `a · 2 ^ p / 10 ^ q` compared with another takes both over a common
denominator: this is the numerator of `a · 2 ^ p · 10 ^ q` for exponents shifted to be
non-negative. -/
def scaledUp (a : Nat) (two ten : Int) (twoShift tenShift : Nat) : Nat :=
  a * Nat.pow 2 (two + twoShift).toNat * Nat.pow 10 (ten + tenShift).toNat

/-- `a · 2 ^ p` is at most, or less than, `b · 10 ^ q`. -/
def Binary.compareDecimal (a : Nat) (p : Int) (b : Nat) (q : Int) : Ordering :=
  let twoShift := (-p).toNat
  let tenShift := (-q).toNat
  compare (scaledUp a p 0 twoShift tenShift) (scaledUp b 0 q twoShift tenShift)

namespace Binary

/-- The power of ten of the leading digit of a positive value: estimated from the position of
the leading bit, and corrected by one where the estimate is off. -/
def leadingPower (x : Binary) : Int :=
  let estimate := (x.mantissa.log2 + x.exponent) * 30103 / 100000
  if compareDecimal x.mantissa x.exponent 1 estimate = .lt then estimate - 1
  else if compareDecimal x.mantissa x.exponent 1 (estimate + 1) = .lt then estimate
  else estimate + 1

/-- The whole part of the value divided by `10 ^ q`. -/
def quotient (x : Binary) (q : Int) : Nat :=
  let twoShift := (-x.exponent).toNat
  let tenShift := (-q).toNat
  scaledUp x.mantissa x.exponent 0 twoShift tenShift / scaledUp 1 0 q twoShift tenShift

/-- The decimal rounds to the number: it lies between the midpoints to the two neighbouring
numbers, or on one of them when the mantissa is even. Below a power of two the neighbour is
twice as near. Both midpoints are counted in quarters of the last place. -/
def roundsBack (x : Binary) (d : Decimal) : Bool :=
  let nearBelow := x.mantissa = 0x10000000000000 ∧ -1074 < x.exponent
  let low := 4 * x.mantissa - (if nearBelow then 1 else 2)
  let high := 4 * x.mantissa + 2
  let aboveLow := compareDecimal low (x.exponent - 2) d.digits d.exponent
  let belowHigh := compareDecimal high (x.exponent - 2) d.digits d.exponent
  if x.mantissa % 2 = 0 then aboveLow != .gt && belowHigh != .lt
  else aboveLow == .lt && belowHigh == .gt

/-- Of the decimals `d` and `d + 1` in units of `10 ^ q`, the upper is nearer. -/
def nearerAbove (x : Binary) (d : Nat) (q : Int) : Bool :=
  compareDecimal (2 * x.mantissa) x.exponent (2 * d + 1) q == .gt

/-- The decimal of `count` digits that rounds to the number and is nearest to it, if one
does. -/
def withDigits? (x : Binary) (count : Nat) : Option Decimal :=
  let q := x.leadingPower - (count : Int) + 1
  let d := x.quotient q
  let below := x.roundsBack ⟨d, q⟩
  let above := x.roundsBack ⟨d + 1, q⟩
  if above && (!below || x.nearerAbove d q) then some ⟨d + 1, q⟩
  else if below then some ⟨d, q⟩
  else none

/-- The shortest decimal that rounds to a positive number. Seventeen digits always suffice. -/
def shortest (x : Binary) : Decimal :=
  ((List.range 17).findSome? fun n => x.withDigits? (n + 1)).getD
    ⟨x.quotient (x.leadingPower - 16), x.leadingPower - 16⟩

end Binary

namespace Decimal

/-- The digits without zeros at the end, and the power of ten of the last digit. -/
def trimmed (d : Decimal) : List Char × Int :=
  let digits := Nat.toDigits 10 d.digits
  let kept := (digits.reverse.dropWhile (· == '0')).reverse
  (kept, d.exponent + ((digits.length - kept.length : Nat) : Int))

end Decimal

/-- Digits and the power of ten of the last one, written without an exponent. -/
def positional (digits : List Char) (exponent : Int) : List Char :=
  if 0 ≤ exponent then digits ++ List.replicate exponent.toNat '0'
  else
    let places := (-exponent).toNat
    let padded := List.replicate (places + 1 - digits.length) '0' ++ digits
    let whole := padded.length - places
    padded.take whole ++ '.' :: padded.drop whole

/-- The sign, written only when it is negative. -/
def signText (negative : Bool) : List Char := if negative then ['-'] else []

/-- A number without an exponent and without a fraction of zeros: `9`, `-0`, `0.0000001`. -/
def plainText (x : Float) : String :=
  match read x with
  | .notANumber => "NaN"
  | .infinite negative => String.ofList (signText negative ++ ['i', 'n', 'f'])
  | .finite v =>
    if v.mantissa = 0 then String.ofList (signText v.negative ++ ['0'])
    else
      let (digits, exponent) := v.shortest.trimmed
      String.ofList (signText v.negative ++ positional digits exponent)

/-- A number with a fixed number of places; what lies half way goes to the even digit. -/
def fixedText (places : Nat) (x : Float) : String :=
  match read x with
  | .notANumber => "NaN"
  | .infinite negative => String.ofList (signText negative ++ ['i', 'n', 'f'])
  | .finite v =>
    let digits := Nat.toDigits 10 (v.scaled .toEven (Nat.pow 10 places))
    String.ofList (signText v.negative ++ positional digits (-(places : Int)))

/-- The exponent of a number in scientific notation, with its sign. -/
def exponentText (e : Int) : List Char :=
  'e' :: (if e < 0 then '-' else '+') :: Nat.toDigits 10 e.natAbs

/-- A number of a JSON text: from 10⁻⁵ up to 10¹⁶ with a point and at least one place,
beyond that with one digit before the point and an exponent. What is not finite is `null`. -/
def jsonText (x : Float) : String :=
  match read x with
  | .notANumber | .infinite _ => "null"
  | .finite v =>
    if v.mantissa = 0 then String.ofList (signText v.negative ++ ['0', '.', '0'])
    else
      let (digits, exponent) := v.shortest.trimmed
      let leading := exponent + (digits.length : Int) - 1
      let body :=
        if leading < -5 ∨ 16 ≤ leading then
          digits.take 1 ++ (if digits.length = 1 then [] else '.' :: digits.drop 1) ++
            exponentText leading
        else if 0 ≤ exponent then positional digits exponent ++ ['.', '0']
        else positional digits exponent
      String.ofList (signText v.negative ++ body)

end DailyBars.Number
