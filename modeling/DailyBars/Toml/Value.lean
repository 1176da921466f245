/-! # TOML values

What a TOML document holds once tables are put together. Dates and times are recognised but
their value is of no interest here.
-/

namespace DailyBars

/-- A TOML value. -/
inductive Toml where
  | text (value : String)
  | integer (value : Int)
  | float (value : Float)
  | bool (value : Bool)
  | dateTime
  | array (items : List Toml)
  | table (entries : List (String × Toml))

namespace Toml

/-- A text, if the value is one. -/
def toText? : Toml → Option String
  | text value => some value
  | _ => none

/-- A truth value, if the value is one. -/
def toBool? : Toml → Option Bool
  | bool value => some value
  | _ => none

/-- A number in floating point; an integer will do. -/
def toFloat? : Toml → Option Float
  | float value => some value
  | integer value => some (Float.ofInt value)
  | _ => none

/-- An integer from zero up to, but not including, `size`. -/
def toNat? (size : Nat) : Toml → Option Nat
  | integer (.ofNat value) => if value < size then some value else none
  | _ => none

/-- The items of an array, each read by `read`. -/
def list? {α : Type} (read : Toml → Option α) : Toml → Option (List α)
  | array items => items.mapM read
  | _ => none

/-- The entries of a table, each read by `read`. -/
def entries? {α : Type} (read : Toml → Option α) : Toml → Option (List (String × α))
  | table entries => entries.mapM fun e => (read e.2).map fun value => (e.1, value)
  | _ => none

/-- The fields of a section, in the order of `names`. A table may leave fields out and have
others; an array gives the fields in order; a date stands for a section that says nothing. -/
def fields? (names : List String) : Toml → Option (List (Option Toml))
  | table entries => some (names.map fun name => entries.lookup name)
  | array items =>
    some ((items.map some ++ List.replicate names.length none).take names.length)
  | dateTime => some (names.map fun _ => none)
  | _ => none

/-- A field with its default. -/
def fieldOr {α : Type} (default : α) (read : Toml → Option α) : Option Toml → Option α
  | none => some default
  | some v => read v

end Toml
end DailyBars
