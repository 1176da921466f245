import DailyBars.Number.Reader
import DailyBars.Text.Basic
import DailyBars.Toml.Value

/-! # TOML scalars

Texts in their four spellings, and the words that stand for numbers, truth values, dates and
times.
-/

namespace DailyBars.Toml

/-- A blank within a line. -/
def isBlank (c : Char) : Bool := c == ' ' || c == '\t'

/-- A character that may stand in a comment, or unescaped in a text: a tab, or no control
character. -/
def isTextChar (c : Char) : Bool := c == '\t' || (0x20 ≤ c.toNat && c.toNat != 0x7F)

/-- A character of a bare key. -/
def isBareKeyChar (c : Char) : Bool := c.isAlpha || c.isDigit || c == '-' || c == '_'

/-! ## Texts -/

/-- The character of a short escape. -/
def escaped? : Char → Option Char
  | 'b' => some '\x08'
  | 't' => some '\t'
  | 'n' => some '\n'
  | 'f' => some '\x0c'
  | 'r' => some '\r'
  | '"' => some '"'
  | '\\' => some '\\'
  | _ => none

/-- The character of an escape by number. Surrogates are no characters. -/
def ofCode? (digits : List Char) : Option Char :=
  (Text.ofHexPlaces? digits).bind fun n =>
    if n < 0xD800 ∨ (0xDFFF < n ∧ n < 0x110000) then some (Char.ofNat n) else none

/-- The rest of a text in quotation marks, with what has been read of it in reverse. -/
def basicText (read : List Char) : List Char → Option (List Char × List Char)
  | '"' :: rest => some (read.reverse, rest)
  | '\\' :: 'u' :: a :: b :: c :: d :: rest =>
    (ofCode? [a, b, c, d]).bind fun x => basicText (x :: read) rest
  | '\\' :: 'U' :: a :: b :: c :: d :: e :: f :: g :: h :: rest =>
    (ofCode? [a, b, c, d, e, f, g, h]).bind fun x => basicText (x :: read) rest
  | '\\' :: c :: rest => (escaped? c).bind fun x => basicText (x :: read) rest
  | c :: rest => if c != '\\' && isTextChar c then basicText (c :: read) rest else none
  | [] => none

/-- The rest of a text in apostrophes, in which nothing is escaped. -/
def literalText (read : List Char) : List Char → Option (List Char × List Char)
  | '\'' :: rest => some (read.reverse, rest)
  | c :: rest => if isTextChar c then literalText (c :: read) rest else none
  | [] => none

/-- The line ends here, apart from blanks. -/
def endsLine (cs : List Char) : Bool :=
  match cs.dropWhile isBlank with
  | '\n' :: _ => true
  | '\r' :: '\n' :: _ => true
  | _ => false

/-- The rest of a text between triple quotation marks. A backslash at the end of a line takes
away all blanks and line breaks up to the next character; `skipping` says that this is under
way. Up to two quotation marks may stand before the closing ones. -/
def multilineText (skipping : Bool) (read : List Char) :
    List Char → Option (List Char × List Char)
  | '"' :: '"' :: '"' :: '"' :: '"' :: rest => some (('"' :: '"' :: read).reverse, rest)
  | '"' :: '"' :: '"' :: '"' :: rest => some (('"' :: read).reverse, rest)
  | '"' :: '"' :: '"' :: rest => some (read.reverse, rest)
  | '\\' :: 'u' :: a :: b :: c :: d :: rest =>
    (ofCode? [a, b, c, d]).bind fun x => multilineText false (x :: read) rest
  | '\\' :: 'U' :: a :: b :: c :: d :: e :: f :: g :: h :: rest =>
    (ofCode? [a, b, c, d, e, f, g, h]).bind fun x => multilineText false (x :: read) rest
  | '\\' :: c :: rest =>
    if endsLine (c :: rest) then multilineText true read (c :: rest)
    else (escaped? c).bind fun x => multilineText false (x :: read) rest
  | '\r' :: '\n' :: rest =>
    if skipping then multilineText true read rest else multilineText false ('\n' :: read) rest
  | c :: rest =>
    if skipping && (isBlank c || c == '\n') then multilineText true read rest
    else if c == '\n' || (c != '\\' && isTextChar c) then multilineText false (c :: read) rest
    else none
  | [] => none

/-- The rest of a text between triple apostrophes. -/
def multilineLiteral (read : List Char) : List Char → Option (List Char × List Char)
  | '\'' :: '\'' :: '\'' :: '\'' :: '\'' :: rest => some (('\'' :: '\'' :: read).reverse, rest)
  | '\'' :: '\'' :: '\'' :: '\'' :: rest => some (('\'' :: read).reverse, rest)
  | '\'' :: '\'' :: '\'' :: rest => some (read.reverse, rest)
  | '\r' :: '\n' :: rest => multilineLiteral ('\n' :: read) rest
  | c :: rest => if c == '\n' || isTextChar c then multilineLiteral (c :: read) rest else none
  | [] => none

/-- A line break right after the opening marks does not belong to the text. -/
def dropFirstBreak : List Char → List Char
  | '\n' :: rest => rest
  | '\r' :: '\n' :: rest => rest
  | cs => cs

/-- Takes a text in any of its spellings. -/
def takeText? : List Char → Option (List Char × List Char)
  | '"' :: '"' :: '"' :: rest => multilineText false [] (dropFirstBreak rest)
  | '"' :: rest => basicText [] rest
  | '\'' :: '\'' :: '\'' :: rest => multilineLiteral [] (dropFirstBreak rest)
  | '\'' :: rest => literalText [] rest
  | _ => none

/-! ## Numbers -/

/-- Digits without the underscores between them, if every underscore has a digit on both
sides. -/
def plainDigits? (isDigit : Char → Bool) : List Char → Option (List Char)
  | [] => none
  | [c] => if isDigit c then some [c] else none
  | c :: '_' :: rest => if isDigit c then (plainDigits? isDigit rest).map (c :: ·) else none
  | c :: rest => if isDigit c then (plainDigits? isDigit rest).map (c :: ·) else none

/-- Decimal digits without a leading zero. -/
def wholeDigits? (cs : List Char) : Option (List Char) :=
  (plainDigits? Char.isDigit cs).bind fun digits =>
    if digits.head? == some '0' && digits.length != 1 then none else some digits

/-- The value of digits to a base. -/
def ofBase (base : Nat) (digits : List Char) : Nat :=
  digits.foldl (fun n c => n * base + (Text.hexValue? c).getD 0) 0

/-- A digit to a base. -/
def isDigitTo (base : Nat) (c : Char) : Bool := ((Text.hexValue? c).getD 16) < base

/-- An integer of 64 bits. -/
def inRange? (n : Int) : Option Int :=
  if Int64.minValue.toInt ≤ n ∧ n ≤ Int64.maxValue.toInt then some n else none

/-- An integer, in decimal with a sign or to another base without one. -/
def integer? (word : List Char) : Option Int :=
  match word with
  | '0' :: 'x' :: digits => (plainDigits? (isDigitTo 16) digits).bind fun ds => inRange? (ofBase 16 ds)
  | '0' :: 'o' :: digits => (plainDigits? (isDigitTo 8) digits).bind fun ds => inRange? (ofBase 8 ds)
  | '0' :: 'b' :: digits => (plainDigits? (isDigitTo 2) digits).bind fun ds => inRange? (ofBase 2 ds)
  | _ =>
    let (negative, digits) := Number.takeSign word
    (wholeDigits? digits).bind fun ds =>
      let n : Int := Number.ofDigits ds
      inRange? (if negative then -n else n)

/-- An exponent, whose digits may begin with zeros. -/
def exponent? (cs : List Char) : Option Int :=
  let (negative, digits) := Number.takeSign cs
  (plainDigits? Char.isDigit digits).map fun ds =>
    let n : Int := Number.ofDigits ds
    if negative then -n else n

/-- A number in floating point with a fraction, an exponent or both. Numbers above the range
of the format are refused; below it there is negative infinity. -/
def float? (word : List Char) : Option Float := do
  let (negative, body) := Number.takeSign word
  if body == ['i', 'n', 'f'] then return Number.infinity negative
  if body == ['n', 'a', 'n'] then return Number.withSign negative Number.notANumber
  let isPoint := fun c => c == '.' || c == 'e' || c == 'E'
  let whole ← wholeDigits? (body.takeWhile fun c => !isPoint c)
  let rest := body.dropWhile fun c => !isPoint c
  let (fraction, rest) ← match rest with
    | '.' :: rest =>
      (plainDigits? Char.isDigit (rest.takeWhile fun c => !isPoint c)).map fun ds =>
        (ds, rest.dropWhile fun c => !isPoint c)
    | _ :: _ => some ([], rest)
    | [] => none
  let exponent ← match rest with
    | [] => some 0
    | '.' :: _ => none
    | _ :: rest => exponent? rest
  let x := Number.ofDecimal negative (Number.ofDigits (whole ++ fraction))
    (exponent - fraction.length)
  if x.isInf && !negative then none else return x

/-! ## Dates and times -/

/-- The number of so many digits, no more and no fewer. -/
def exactDigits? (count : Nat) (cs : List Char) : Option Nat :=
  if cs.length = count ∧ cs.all Char.isDigit then some (Number.ofDigits cs) else none

/-- A date `YYYY-MM-DD` that exists. -/
def isDate (cs : List Char) : Bool :=
  match exactDigits? 4 (cs.take 4), cs.drop 4 with
  | some year, '-' :: rest =>
    match exactDigits? 2 (rest.take 2), rest.drop 2 with
    | some month, '-' :: rest =>
      match exactDigits? 2 rest with
      | some day => 1 ≤ day && day ≤ daysOf year month
      | none => false
    | _, _ => false
  | _, _ => false
where
  /-- The number of days of a month; none of one that does not exist. -/
  daysOf (year month : Nat) : Nat :=
    if month = 2 then
      if year % 4 = 0 ∧ (year % 100 ≠ 0 ∨ year % 400 = 0) then 29 else 28
    else if month ∈ [4, 6, 9, 11] then 30
    else if 1 ≤ month ∧ month ≤ 12 then 31
    else 0

/-- Hours and minutes `HH:MM`. -/
def isClock (cs : List Char) : Bool :=
  match exactDigits? 2 (cs.take 2), cs.drop 2 with
  | some hour, ':' :: rest =>
    match exactDigits? 2 rest with
    | some minute => hour < 24 && minute < 60
    | none => false
  | _, _ => false

/-- A time `HH:MM:SS`, with a fraction of the second if there is one. -/
def isTime (cs : List Char) : Bool :=
  isClock (cs.take 5) &&
    match cs.drop 5 with
    | ':' :: rest =>
      match exactDigits? 2 (rest.take 2), rest.drop 2 with
      | some second, [] => second ≤ 60
      | some second, '.' :: digits => second ≤ 60 && !digits.isEmpty && digits.all Char.isDigit
      | _, _ => false
    | _ => false

/-- An offset from UTC: nothing, `Z`, or a sign with hours and minutes. -/
def isOffset : List Char → Bool
  | [] => true
  | ['Z'] => true
  | ['z'] => true
  | '+' :: rest => isClock rest
  | '-' :: rest => isClock rest
  | _ => false

/-- A time with an offset. -/
def isTimeWithOffset (cs : List Char) : Bool :=
  let isTimeChar := fun (c : Char) => c.isDigit || c == ':' || c == '.'
  isTime (cs.takeWhile isTimeChar) && isOffset (cs.dropWhile isTimeChar)

/-- A date, a time, or both with a `T` between them. -/
def isDateTime (word : List Char) : Bool :=
  isDate word || isTime word ||
    (isDate (word.take 10) &&
      match word.drop 10 with
      | c :: rest => (c == 'T' || c == 't') && isTimeWithOffset rest
      | [] => false)

/-! ## Words -/

/-- A character of a word. -/
def isWordChar (c : Char) : Bool :=
  c.isAlpha || c.isDigit || c == '+' || c == '-' || c == '_' || c == '.' || c == ':'

/-- The value of a word. -/
def wordValue? (word : List Char) : Option Toml :=
  if word == "true".toList then some (.bool true)
  else if word == "false".toList then some (.bool false)
  else if isDateTime word then some .dateTime
  else
    match integer? word with
    | some n => some (.integer n)
    | none => (float? word).map .float

/-- Takes a word from the front of a text. A date and a time may have one space between
them. -/
def takeWord? (cs : List Char) : Option (Toml × List Char) :=
  let word := cs.takeWhile isWordChar
  let rest := cs.dropWhile isWordChar
  match rest with
  | ' ' :: more =>
    let time := more.takeWhile isWordChar
    if isDate word && isTimeWithOffset time then some (.dateTime, more.dropWhile isWordChar)
    else (wordValue? word).map fun v => (v, rest)
  | _ => (wordValue? word).map fun v => (v, rest)

end DailyBars.Toml
