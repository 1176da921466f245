/-! # Floating-point numbers as exact values

A finite number of the binary64 format is a sign, a whole number and a power of two. Text and
durations are computed from these parts in exact arithmetic, so nothing is rounded twice.
-/

namespace DailyBars.Number

/-- The value `± mantissa · 2 ^ exponent`. -/
structure Binary where
  negative : Bool
  mantissa : Nat
  exponent : Int
deriving DecidableEq, Repr

/-- What the bits of a number stand for. -/
inductive Reading where
  | notANumber
  | infinite (negative : Bool)
  | finite (value : Binary)
deriving DecidableEq, Repr

/-- Reads the sign bit, the eleven exponent bits and the 52 fraction bits. -/
def readBits (bits : UInt64) : Reading :=
  let n := bits.toNat
  let negative := n.testBit 63
  let biased : Nat := n / 0x10000000000000 % 0x800
  let fraction : Nat := n % 0x10000000000000
  if biased = 2047 then
    if fraction = 0 then .infinite negative else .notANumber
  else if biased = 0 then .finite ⟨negative, fraction, -1074⟩
  else .finite ⟨negative, 0x10000000000000 + fraction, biased - 1075⟩

/-- What a number stands for. -/
def read (x : Float) : Reading := readBits x.toBits

/-- Which neighbour a value half way between two whole numbers goes to. -/
inductive Tie where
  | toEven
  | up
deriving DecidableEq, Repr

/-- The whole number nearest to `numerator / denominator`. -/
def roundQuotient (tie : Tie) (numerator denominator : Nat) : Nat :=
  let quotient := numerator / denominator
  let twice := 2 * (numerator % denominator)
  if twice < denominator then quotient
  else if denominator < twice then quotient + 1
  else
    match tie with
    | .up => quotient + 1
    | .toEven => if quotient % 2 = 0 then quotient else quotient + 1

/-- A number as a count of 64 bits: what is not a number or is negative counts as zero, a
fraction is cut off, and what is too large is the largest count. -/
def count (x : Float) : UInt64 := (if 0 < x then x else 0.0).toUInt64

namespace Binary

/-- The absolute value times `scale`, rounded to the nearest whole number. -/
def scaled (tie : Tie) (x : Binary) (scale : Nat) : Nat :=
  if 0 ≤ x.exponent then x.mantissa * scale * Nat.pow 2 x.exponent.toNat
  else roundQuotient tie (x.mantissa * scale) (Nat.pow 2 (-x.exponent).toNat)

end Binary
end DailyBars.Number
