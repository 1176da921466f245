/-! # Characters and texts

Codes, tickers and currencies are compared and folded by their ASCII letters alone; every other
character stands for itself. White space is what has the Unicode property White_Space, and widths
count characters.
-/

namespace DailyBars.Text

/-! ## Letter case -/

/-- The text with its ASCII letters in upper case. -/
def upper (s : String) : String := String.ofList (s.toList.map Char.toUpper)

/-- The text with its ASCII letters in lower case. -/
def lower (s : String) : String := String.ofList (s.toList.map Char.toLower)

/-- Equal up to the case of ASCII letters. -/
def sameLetters (s t : String) : Bool := s.toList.map Char.toUpper == t.toList.map Char.toUpper

/-- An ASCII letter or digit. -/
def isAlphanumeric (c : Char) : Bool := c.isAlpha || c.isDigit

/-! ## White space -/

/-- The character has the Unicode property White_Space. -/
def isBlank (c : Char) : Bool :=
  let n := c.toNat
  (9 ≤ n && n ≤ 13) || n == 0x20 || n == 0x85 || n == 0xA0 || n == 0x1680 ||
    (0x2000 ≤ n && n ≤ 0x200A) || n == 0x2028 || n == 0x2029 || n == 0x202F || n == 0x205F ||
    n == 0x3000

/-- The characters without the white space before them. -/
def trimLeft (cs : List Char) : List Char := cs.dropWhile isBlank

/-- The characters without the white space after them. -/
def trimRight (cs : List Char) : List Char := (cs.reverse.dropWhile isBlank).reverse

/-- The text without the white space around it. -/
def trim (s : String) : String := String.ofList (trimRight (trimLeft s.toList))

/-! ## Parts and widths -/

/-- The parts of a text between the occurrences of a mark: always one more than there are
occurrences. -/
def fields (mark : Char) : List Char → List (List Char)
  | [] => [[]]
  | c :: rest =>
    if c = mark then [] :: fields mark rest
    else
      match fields mark rest with
      | [] => [[c]]
      | part :: parts => (c :: part) :: parts

/-- Filled up with `fill` on the left. -/
def padLeft (fill : Char) (width : Nat) (s : String) : String :=
  String.ofList (List.replicate (width - s.length) fill) ++ s

/-- Filled up with spaces on the right. -/
def padRight (width : Nat) (s : String) : String :=
  s ++ String.ofList (List.replicate (width - s.length) ' ')

/-- A number in decimal with at least `width` digits. -/
def padded (width n : Nat) : String := padLeft '0' width (toString n)

/-! ## Base sixteen

Digits in base sixteen, and words of 64 bits as sixteen of them. -/

/-- The digits of a number, in lower case. -/
def hexDigits (n : Nat) : List Char := Nat.toDigits 16 n

/-- The value of a digit in either case. -/
def hexValue? (c : Char) : Option Nat :=
  if c.isDigit then some (c.toNat - 48)
  else if 'a' ≤ c ∧ c ≤ 'f' then some (c.toNat - 87)
  else if 'A' ≤ c ∧ c ≤ 'F' then some (c.toNat - 55)
  else none

/-- The last `count` digits of a number. -/
def hexPlaces : Nat → Nat → List Char
  | 0, _ => []
  | count + 1, n => hexPlaces count (n / 16) ++ [Nat.digitChar (n % 16)]

/-- The number that digits stand for. -/
def ofHexPlaces? (cs : List Char) : Option Nat :=
  cs.foldlM (fun n c => (hexValue? c).map fun d => n * 16 + d) 0

/-- A word of 64 bits as sixteen digits. -/
def hexWord (w : UInt64) : List Char := hexPlaces 16 w.toNat

/-- The word of sixteen digits. -/
def ofHexWord? (cs : List Char) : Option UInt64 :=
  if cs.length = 16 then (ofHexPlaces? cs).map UInt64.ofNat else none

end DailyBars.Text
