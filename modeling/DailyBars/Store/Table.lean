import DailyBars.Bar.Basic
import DailyBars.Error
import DailyBars.Number.Reader
import DailyBars.Store.Lines
import DailyBars.Text.Basic

/-! # Series files

A series is stored as a table: columns with a name, a kind and one value for each row, any of
which may be absent. A table becomes text line by line; the numbers in it are written as words of
64 bits in base sixteen, so they are kept exactly, and the numbers of its rows and columns in
decimal, so there may be any number of them. `Table.toBars` says which tables are series and what
is wrong with the others.
-/

namespace DailyBars

/-- The values of a column by kind. Dates count days from 1970-01-01. -/
inductive Column where
  | dates (values : List (Option Int))
  | floats (values : List (Option Float))
  | naturals (values : List (Option UInt64))
  | integers (values : List (Option Int))
  | texts (values : List (Option String))

namespace Column

/-- The number of values. -/
def size : Column → Nat
  | dates values => values.length
  | floats values => values.length
  | naturals values => values.length
  | integers values => values.length
  | texts values => values.length

end Column

/-- Named columns of one size. -/
structure Table where
  columns : List (String × Column)

namespace Table

/-- The number of rows. -/
def height (t : Table) : Nat :=
  match t.columns with
  | [] => 0
  | c :: _ => c.2.size

/-! ## Tables as text -/

/-- A whole number as a word of 64 bits, negative ones from the top. -/
def wordOfInt (n : Int) : UInt64 := (Int64.ofInt n).toUInt64

/-- The whole number nearest to zero that a word stands for. -/
def intOfWord (w : UInt64) : Int := w.toInt64.toInt

/-- The line of a value: a plus before it, or a minus alone when it is absent. -/
def cell {α : Type} (write : α → List Char) : Option α → List Char
  | some value => '+' :: write value
  | none => ['-']

/-- The value of a line. -/
def ofCell? {α : Type} (read : List Char → Option α) : List Char → Option (Option α)
  | '+' :: cs => (read cs).map some
  | ['-'] => some none
  | _ => none

/-- The kind of a column and the lines of its values. -/
def columnLines : Column → String × List (List Char)
  | .dates values => ("date", values.map (cell fun n => Text.hexWord (wordOfInt n)))
  | .floats values => ("float", values.map (cell fun x => Text.hexWord x.toBits))
  | .naturals values => ("natural", values.map (cell Text.hexWord))
  | .integers values => ("integer", values.map (cell fun n => Text.hexWord (wordOfInt n)))
  | .texts values => ("text", values.map (cell String.toList))

/-- The column of a kind with the values of its lines. -/
def ofColumnLines? (kind : String) (lines : List (List Char)) : Option Column :=
  if kind = "date" then
    (lines.mapM (ofCell? fun cs => (Text.ofHexWord? cs).map intOfWord)).map .dates
  else if kind = "float" then
    (lines.mapM (ofCell? fun cs => (Text.ofHexWord? cs).map Float.ofBits)).map .floats
  else if kind = "natural" then (lines.mapM (ofCell? Text.ofHexWord?)).map .naturals
  else if kind = "integer" then
    (lines.mapM (ofCell? fun cs => (Text.ofHexWord? cs).map intOfWord)).map .integers
  else if kind = "text" then
    (lines.mapM (ofCell? fun cs => some (String.ofList cs))).map .texts
  else none

/-- The line of a number of rows or columns. -/
def countLine (n : Nat) : List Char := (Text.padded 1 n).toList

/-- The number of rows or columns of a line. -/
def ofCountLine? (cs : List Char) : Option Nat :=
  if cs.isEmpty || !cs.all Char.isDigit then none else some (Number.ofDigits cs)

/-- The first line of every table. -/
def heading : List Char := "daily bars, table of columns, version 1".toList

/-- The lines of a table: its heading, the numbers of rows and columns, and for each column
its name, its kind and its values. -/
def lines (t : Table) : List (List Char) :=
  heading :: countLine t.height :: countLine t.columns.length ::
    t.columns.flatMap fun (name, column) =>
      let (kind, values) := columnLines column
      name.toList :: kind.toList :: values

/-- Reads so many columns of so many rows, and nothing after them. -/
def columnsOf? (rows : Nat) : Nat → List (List Char) → Option (List (String × Column))
  | 0, [] => some []
  | count + 1, name :: kind :: rest =>
    if rest.length < rows then none
    else do
      let column ← ofColumnLines? (String.ofList kind) (rest.take rows)
      let columns ← columnsOf? rows count (rest.drop rows)
      pure ((String.ofList name, column) :: columns)
  | _, _ => none

/-- The table of lines. -/
def ofLines? : List (List Char) → Option Table
  | first :: rows :: count :: rest =>
    if first = heading then do
      let rows ← ofCountLine? rows
      let count ← ofCountLine? count
      pure ⟨← columnsOf? rows count rest⟩
    else none
  | _ => none

/-- The table as text. -/
def render (t : Table) : String := String.ofList (Lines.join t.lines)

/-- The table that a text describes. -/
def parse? (text : String) : Option Table := (Lines.split text.toList).bind ofLines?

/-! ## Tables and series -/

/-- The table of bars, with a ticker in the place of theirs. -/
def ofBars (bars : List Bar) (ticker : String) : Table where
  columns := [
    ("Date", .dates (bars.map fun b => some b.date.number)),
    ("Open", .floats (bars.map fun b => some b.openPrice)),
    ("High", .floats (bars.map fun b => some b.high)),
    ("Low", .floats (bars.map fun b => some b.low)),
    ("Close", .floats (bars.map fun b => some b.close)),
    ("Volume", .naturals (bars.map fun b => some b.volume)),
    ("Ticker", .texts (bars.map fun _ => some ticker)),
    ("Source", .texts (bars.map fun b => some b.source))]

/-- The column of a name. -/
def column (t : Table) (name : String) : Except SeriesFault Column :=
  match t.columns.lookup name with
  | some c => .ok c
  | none => .error (.missingColumn name)

/-- The dates of a column. -/
def datesOf (t : Table) (name : String) : Except SeriesFault (Array (Option Int)) := do
  match ← t.column name with
  | .dates values => pure values.toArray
  | _ => throw (.columnType name)

/-- The prices of a column. -/
def floatsOf (t : Table) (name : String) : Except SeriesFault (Array (Option Float)) := do
  match ← t.column name with
  | .floats values => pure values.toArray
  | _ => throw (.columnType name)

/-- The counts of a column. -/
def naturalsOf (t : Table) (name : String) : Except SeriesFault (Array (Option UInt64)) := do
  match ← t.column name with
  | .naturals values => pure values.toArray
  | _ => throw (.columnType name)

/-- The texts of a column. -/
def textsOf (t : Table) (name : String) : Except SeriesFault (Array (Option String)) := do
  match ← t.column name with
  | .texts values => pure values.toArray
  | _ => throw (.columnType name)

/-- The value of a row, or what stands for an absent one. -/
def valueAt {α : Type} (values : Array (Option α)) (absent : α) (row : Nat) : α :=
  ((values[row]?).join).getD absent

/-- The date of a row, which may not be absent. -/
def dateAt (dates : Array (Option Int)) (row : Nat) : Except SeriesFault Day :=
  match (dates[row]?).join with
  | none => .error (.nullDate row)
  | some n =>
    match Day.ofNumber? n with
    | some d => .ok d
    | none => .error (.dateOutsideCalendar row)

/-- The bars of a table, tagged with an exchange. A series has at least one row, its eight
columns have their kinds, and no date is absent; an absent price is not a number, an absent
volume is zero and an absent text is empty. -/
def toBars (t : Table) (exchange : String) : Except SeriesFault (List Bar) := do
  if t.height = 0 then throw .empty
  let dates ← t.datesOf "Date"
  let opens ← t.floatsOf "Open"
  let highs ← t.floatsOf "High"
  let lows ← t.floatsOf "Low"
  let closes ← t.floatsOf "Close"
  let volumes ← t.naturalsOf "Volume"
  let tickers ← t.textsOf "Ticker"
  let sources ← t.textsOf "Source"
  (List.range t.height).mapM fun row => do
    let date ← dateAt dates row
    pure
      { date
        openPrice := valueAt opens Number.notANumber row
        high := valueAt highs Number.notANumber row
        low := valueAt lows Number.notANumber row
        close := valueAt closes Number.notANumber row
        volume := valueAt volumes 0 row
        symbol := valueAt tickers "" row
        exchange
        source := valueAt sources "" row }

end Table

namespace Series

/-- The contents of a series file. -/
def encode (bars : List Bar) (ticker : String) : String := (Table.ofBars bars ticker).render

/-- The bars of a series file. -/
def decode (text exchange : String) : Except SeriesFault (List Bar) :=
  match Table.parse? text with
  | some t => t.toBars exchange
  | none => .error .unreadable

end Series
end DailyBars
