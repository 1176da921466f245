import DailyBars.Text.Basic
import DailyBars.Text.Unprintable

/-! # Quoted texts in messages

A message shows a foreign text between quotes, with everything that would be invisible or
misread spelled by a backslash sequence. A single character is shown in the same way between
apostrophes.
-/

namespace DailyBars.Text

/-- One character as it is shown between two `quote` marks. -/
def spelled (quote c : Char) : List Char :=
  if c = '\x00' then ['\\', '0']
  else if c = '\t' then ['\\', 't']
  else if c = '\n' then ['\\', 'n']
  else if c = '\r' then ['\\', 'r']
  else if c = '\\' ∨ c = quote then ['\\', c]
  else if c.toNat < 0x20 ∨ isUnprintable c then
    ['\\', 'u', '\x7b'] ++ hexDigits c.toNat ++ ['\x7d']
  else [c]

/-- A text between quotation marks. -/
def quoted (s : String) : String :=
  String.ofList (['"'] ++ s.toList.flatMap (spelled '"') ++ ['"'])

/-- A character between apostrophes. -/
def quotedChar (c : Char) : String :=
  String.ofList (['\''] ++ spelled '\'' c ++ ['\''])

end DailyBars.Text
