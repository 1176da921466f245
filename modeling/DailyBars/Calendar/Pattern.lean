import DailyBars.Calendar.Day
import DailyBars.Text.Basic
import DailyBars.Number.Reader

/-! # Dates read from text

A pattern is a list of items that are taken from the front of a text one after another. Numbers
may be short of digits and may follow white space; names of weekdays and months count in any
case, in full or as their first three letters. A date is found when the pattern takes the
whole text, the date exists, and the weekday, if one was named, is its own.
-/

namespace DailyBars

/-- What a pattern takes from a text. -/
inductive PatternItem where
  | year
  | month
  | day
  | weekdayName
  | monthName
  /-- Exactly this character. -/
  | mark (char : Char)
  /-- Any amount of white space, also none. -/
  | blank
deriving DecidableEq, Repr

/-- The items of a pattern in order. -/
abbrev DatePattern := List PatternItem

namespace DatePattern

/-- Year, month and day in numbers with a hyphen between them. -/
def hyphenated : DatePattern := [.year, .mark '-', .month, .mark '-', .day]

/-- The same, with white space allowed around every part. -/
def spacedHyphenated : DatePattern :=
  [.year, .blank, .mark '-', .month, .blank, .mark '-', .day, .blank]

/-- Weekday, month, day and year, as in `Thursday, January 04, 2024`. -/
def spelledOut : DatePattern :=
  [.weekdayName, .mark ',', .blank, .monthName, .blank, .day, .mark ',', .blank, .year]

/-- The parts of a date that were found so far. -/
structure Found where
  year : Option Int := none
  month : Option Nat := none
  day : Option Nat := none
  weekday : Option Weekday := none
deriving Repr

/-- The names of the weekdays, cut after their third letter. -/
def weekdayNames : List (Weekday × String × String) :=
  [(.monday, "mon", "day"), (.tuesday, "tue", "sday"), (.wednesday, "wed", "nesday"),
   (.thursday, "thu", "rsday"), (.friday, "fri", "day"), (.saturday, "sat", "urday"),
   (.sunday, "sun", "day")]

/-- The names of the months, cut after their third letter. -/
def monthNames : List (Nat × String × String) :=
  [(1, "jan", "uary"), (2, "feb", "ruary"), (3, "mar", "ch"), (4, "apr", "il"), (5, "may", ""),
   (6, "jun", "e"), (7, "jul", "y"), (8, "aug", "ust"), (9, "sep", "tember"),
   (10, "oct", "ober"), (11, "nov", "ember"), (12, "dec", "ember")]

/-- Takes a word from the front of a text, in any case. -/
def takeWord? (word : String) (cs : List Char) : Option (List Char) :=
  let n := word.length
  if (cs.take n).map Char.toLower = word.toList then some (cs.drop n) else none

/-- Takes a name from a table: its first three letters, and its other letters if all of them
follow. -/
def takeName? {α : Type} (names : List (α × String × String)) (cs : List Char) :
    Option (α × List Char) :=
  names.findSome? fun (value, short, others) =>
    (takeWord? short cs).map fun rest => (value, (takeWord? others rest).getD rest)

/-- Takes at least one and at most `most` digits. -/
def takeNumber? (most : Nat) (cs : List Char) : Option (Nat × List Char) :=
  let digits := (cs.take most).takeWhile Char.isDigit
  if digits.isEmpty then none else some (Number.ofDigits digits, cs.drop digits.length)

/-- Takes a year: up to four digits, or a sign and any number of digits. -/
def takeYear? (cs : List Char) : Option (Int × List Char) :=
  match cs with
  | '-' :: rest => (takeNumber? rest.length rest).map fun (n, rest) => (-(n : Int), rest)
  | '+' :: rest => (takeNumber? rest.length rest).map fun (n, rest) => ((n : Int), rest)
  | _ => (takeNumber? 4 cs).map fun (n, rest) => ((n : Int), rest)

/-- Takes one item from the front of a text. -/
def take? (found : Found) (cs : List Char) : PatternItem → Option (Found × List Char)
  | .year => (takeYear? (Text.trimLeft cs)).map fun (n, rest) => ({ found with year := some n }, rest)
  | .month =>
    (takeNumber? 2 (Text.trimLeft cs)).map fun (n, rest) => ({ found with month := some n }, rest)
  | .day =>
    (takeNumber? 2 (Text.trimLeft cs)).map fun (n, rest) => ({ found with day := some n }, rest)
  | .weekdayName =>
    (takeName? weekdayNames cs).map fun (w, rest) => ({ found with weekday := some w }, rest)
  | .monthName =>
    (takeName? monthNames cs).map fun (m, rest) => ({ found with month := some m }, rest)
  | .mark char => match cs with
    | c :: rest => if c = char then some (found, rest) else none
    | [] => none
  | .blank => some (found, Text.trimLeft cs)

/-- The day that the parts name. -/
def Found.toDay? (found : Found) : Option Day := do
  let day ← Day.ofCivil? ⟨← found.year, ← found.month, ← found.day⟩
  match found.weekday with
  | some weekday => if day.weekday = weekday then some day else none
  | none => some day

/-- The day that a text names under a pattern. -/
def parse? (pattern : DatePattern) (text : String) : Option Day := do
  let (found, rest) ← pattern.foldlM (fun (state : Found × List Char) item =>
    take? state.1 state.2 item) ({}, text.toList)
  if rest.isEmpty then found.toDay? else none

end DatePattern
end DailyBars
