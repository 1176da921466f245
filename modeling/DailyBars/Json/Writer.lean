import DailyBars.Number.Decimal
import DailyBars.Text.Basic
import DailyBars.Text.Quoted

/-! # Writing JSON texts

Records are written with their fields in order and without white space. In a text only the
quotation mark, the backslash and control characters are escaped.
-/

namespace DailyBars.Json

/-- One character inside a JSON text. -/
def escape (c : Char) : List Char :=
  if c = '"' then ['\\', '"']
  else if c = '\\' then ['\\', '\\']
  else if c = '\x08' then ['\\', 'b']
  else if c = '\x0c' then ['\\', 'f']
  else if c = '\n' then ['\\', 'n']
  else if c = '\r' then ['\\', 'r']
  else if c = '\t' then ['\\', 't']
  else if c.toNat < 0x20 then
    ['\\', 'u'] ++ (Text.padLeft '0' 4 (String.ofList (Text.hexDigits c.toNat))).toList
  else [c]

/-- A text between quotation marks. -/
def writeText (s : String) : String :=
  String.ofList (['"'] ++ s.toList.flatMap escape ++ ['"'])

/-- A record of fields whose values are already written. -/
def writeRecord (fields : List (String × String)) : String :=
  "\x7b" ++ ",".intercalate (fields.map fun f => writeText f.1 ++ ":" ++ f.2) ++ "\x7d"

end DailyBars.Json
