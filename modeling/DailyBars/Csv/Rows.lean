/-! # Rows of comma-separated text

A text is cut into rows of fields one character at a time. A field that begins with a
quotation mark runs to the next one that is not doubled; whatever follows that mark up to
the next comma still belongs to the field. Empty lines are not rows.
-/

namespace DailyBars.Csv

/-- What the next character belongs to. -/
inductive Place where
  | rowStart
  | fieldStart
  | plain
  | quoted
  /-- After a quotation mark in a quoted field. -/
  | quotedMark
deriving DecidableEq, Repr

/-- What has been read: the finished rows, the finished fields of the row, and the characters
of the field, all in reverse. -/
structure Reading where
  rows : List (List String) := []
  fields : List String := []
  field : List Char := []
  place : Place := .rowStart
deriving Repr

namespace Reading

/-- Takes a character into the field. -/
def take (r : Reading) (c : Char) (place : Place) : Reading :=
  { r with field := c :: r.field, place }

/-- Ends the field. -/
def endField (r : Reading) : Reading :=
  { r with fields := String.ofList r.field.reverse :: r.fields, field := [], place := .fieldStart }

/-- Ends the field and the row. -/
def endRow (r : Reading) : Reading :=
  let r := r.endField
  { rows := r.fields.reverse :: r.rows }

/-- Takes a character where no quotation mark is special. -/
def plain (r : Reading) (c : Char) : Reading :=
  if c = ',' then r.endField
  else if c = '\n' ∨ c = '\r' then r.endRow
  else r.take c .plain

/-- Takes the first character of a field. -/
def start (r : Reading) (c : Char) : Reading :=
  if c = '"' then { r with place := .quoted } else r.plain c

/-- Takes one character. -/
def step (r : Reading) (c : Char) : Reading :=
  match r.place with
  | .rowStart => if c = '\n' ∨ c = '\r' then r else r.start c
  | .fieldStart => r.start c
  | .plain => r.plain c
  | .quoted => if c = '"' then { r with place := .quotedMark } else r.take c .quoted
  | .quotedMark => if c = '"' then r.take c .quoted else r.plain c

/-- The rows at the end of the text, which also ends the last row. -/
def finish (r : Reading) : List (List String) :=
  (if r.place = .rowStart then r else r.endRow).rows.reverse

end Reading

/-- The rows of a text. -/
def rows (text : String) : List (List String) := (text.toList.foldl Reading.step {}).finish

/-- The value of a column in a row under a heading: nothing when there is no such column, and
a fault when there are several. -/
def column? (heading row : List String) (name : String) : Option (Option String) :=
  match (heading.zip row).filter (·.1 == name) with
  | [] => some none
  | [(_, value)] => some (some value)
  | _ => none

end DailyBars.Csv
