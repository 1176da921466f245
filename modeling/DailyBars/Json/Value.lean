import DailyBars.Number.Reader

/-! # JSON values

The value that a JSON text denotes, before anyone has asked what it should be: numbers are
kept as they were written, objects keep their members in order with repeated names, and a
text whose escapes do not form characters is kept as such. Whether any of that is a fault
depends on the reader of the value, since a part that nobody reads may hold it.
-/

namespace DailyBars

/-- A number as written: its sign, the digits before the point, the digits after it if there
is a point, and the exponent if there is one. -/
structure Json.Numeral where
  negative : Bool
  whole : List Char
  fraction : Option (List Char)
  exponent : Option Int
deriving Repr

/-- A JSON value. A text is `none` when it has a surrogate escape without a partner. -/
inductive Json where
  | null
  | bool (value : Bool)
  | number (value : Json.Numeral)
  | text (value : Option String)
  | array (items : List Json)
  | object (members : List (Option String × Json))
deriving Repr

namespace Json

namespace Numeral

/-- A whole number within 64 bits, and only if it was written as one: no point, no exponent,
and no minus before a zero. -/
def toInt? (n : Numeral) : Option Int :=
  match n.fraction, n.exponent with
  | none, none =>
    let value := Number.ofDigits n.whole
    if n.negative then
      if value = 0 ∨ -(value : Int) < Int64.minValue.toInt then none else some (-(value : Int))
    else if UInt64.size ≤ value then none
    else some value
  | _, _ => none

/-- The number in floating point; whole numbers within 64 bits are rounded once. -/
def toFloat? (n : Numeral) : Option Float :=
  match n.toInt? with
  | some value => some (Number.withSign n.negative value.natAbs.toUInt64.toFloat)
  | none => Number.truncatedFloat? n.negative n.whole (n.fraction.getD []) (n.exponent.getD 0)

/-- Reads a numeral: an optional minus, digits without a leading zero, then an optional
fraction and exponent with at least one digit each. -/
def ofChars? (cs : List Char) : Option Numeral :=
  let (negative, cs) := match cs with
    | '-' :: rest => (true, rest)
    | _ => (false, cs)
  let whole := cs.takeWhile Char.isDigit
  let rest := cs.dropWhile Char.isDigit
  if whole.isEmpty || (whole.head? == some '0' && whole.length != 1) then none
  else
    let fractional : Option (Option (List Char) × List Char) := match rest with
      | '.' :: rest =>
        let digits := rest.takeWhile Char.isDigit
        if digits.isEmpty then none else some (some digits, rest.dropWhile Char.isDigit)
      | _ => some (none, rest)
    match fractional with
    | none => none
    | some (fraction, []) => some ⟨negative, whole, fraction, none⟩
    | some (fraction, c :: rest) =>
      if c == 'e' || c == 'E' then
        (Number.readExponent? rest).map fun e => ⟨negative, whole, fraction, some e⟩
      else none

end Numeral

/-- A text, if the value is one. -/
def toText? : Json → Option String
  | text value => value
  | _ => none

/-- A truth value, if the value is one. -/
def toBool? : Json → Option Bool
  | bool value => some value
  | _ => none

/-- A number in floating point, if the value is one. -/
def toFloat? : Json → Option Float
  | number n => n.toFloat?
  | _ => none

/-- A whole number from 0 up to 2⁶⁴ - 1, if the value is one. -/
def toUInt64? : Json → Option UInt64
  | number n => match n.toInt? with
    | some (.ofNat value) => some value.toUInt64
    | _ => none
  | _ => none

/-- A whole number from -2⁶³ up to 2⁶³ - 1, if the value is one. -/
def toInt64? : Json → Option Int
  | number n => match n.toInt? with
    | some value => if value ≤ Int64.maxValue.toInt then some value else none
    | _ => none
  | _ => none

/-- Nothing for `null`, and otherwise what `read` makes of the value. -/
def optional? {α : Type} (read : Json → Option α) : Json → Option (Option α)
  | null => some none
  | v => (read v).map some

/-- A field of a record that may be left out or `null`. -/
def optionalField? {α : Type} (read : Json → Option α) : Option Json → Option (Option α)
  | none => some none
  | some v => v.optional? read

/-- The items of an array, each read by `read`. -/
def list? {α : Type} (read : Json → Option α) : Json → Option (List α)
  | array items => items.mapM read
  | _ => none

/-- Puts a value under a name: in the place of the earlier value of that name, or at the
end. -/
def assign {α : Type} (name : String) (value : α) (table : List (String × α)) :
    List (String × α) :=
  if table.any (·.1 == name) then table.map fun e => if e.1 == name then (name, value) else e
  else table ++ [(name, value)]

/-- The members of an object as a table; of two members of one name the last counts, and
both must be readable. -/
def table? {α : Type} (read : Json → Option α) : Json → Option (List (String × α))
  | object members =>
    members.foldlM (fun table (name, v) => do
      let name ← name
      let value ← read v
      pure (assign name value table)) []
  | _ => none

/-- The values of a record's fields in the order of `names`. An object may leave fields out
and have others, but no field twice. An array gives the fields in order; it may stop early,
but not before `least` of them. -/
def fields? (names : List String) (least : Nat) : Json → Option (List (Option Json))
  | object members => do
    if members.any fun m => m.1.isNone then none
    let known := members.filterMap fun m => m.1.bind fun name =>
      if names.contains name then some (name, m.2) else none
    names.mapM fun name =>
      match known.filter (·.1 == name) with
      | [] => some none
      | [(_, v)] => some (some v)
      | _ => none
  | array items =>
    if items.length < least ∨ names.length < items.length then none
    else some (items.map some ++ List.replicate (names.length - items.length) none)
  | _ => none

end Json
end DailyBars
