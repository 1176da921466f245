import DailyBars.Html.NamedCharacter
import DailyBars.Number.Reader

/-! # Character references

A page may write a character by its number or its name after an ampersand. A reference is
told by how many characters after the ampersand it takes and what it stands for; an ampersand
without one stands for itself.
-/

namespace DailyBars.Html

/-- The character that stands for one that cannot be shown. -/
def replacement : Char := '\uFFFD'

/-- The code points that the numbers 128 to 159 stand for, as far as not themselves. -/
def windowsCodes : List (Nat × Nat) := [
  (0x80, 0x20AC), (0x82, 0x201A), (0x83, 0x0192), (0x84, 0x201E), (0x85, 0x2026), (0x86, 0x2020),
  (0x87, 0x2021), (0x88, 0x02C6), (0x89, 0x2030), (0x8A, 0x0160), (0x8B, 0x2039), (0x8C, 0x0152),
  (0x8E, 0x017D), (0x91, 0x2018), (0x92, 0x2019), (0x93, 0x201C), (0x94, 0x201D), (0x95, 0x2022),
  (0x96, 0x2013), (0x97, 0x2014), (0x98, 0x02DC), (0x99, 0x2122), (0x9A, 0x0161), (0x9B, 0x203A),
  (0x9C, 0x0153), (0x9E, 0x017E), (0x9F, 0x0178)]

/-- The character of a number. -/
def numberedCharacter (n : Nat) : Char :=
  if n = 0 ∨ 0x10FFFF < n ∨ (0xD800 ≤ n ∧ n < 0xE000) then replacement
  else Char.ofNat ((windowsCodes.lookup n).getD n)

/-- A reference by number, after the number sign: digits, and a semicolon that may be left
out. `marked` characters were taken before the digits. -/
def numbered? (marked : Nat) (isDigit : Char → Bool) (value : List Char → Nat) (cs : List Char) :
    Option (Nat × List Char) :=
  let digits := cs.takeWhile isDigit
  if digits.isEmpty then none
  else
    let closed := match cs.drop digits.length with
      | ';' :: _ => 1
      | _ => 0
    some (marked + digits.length + closed, [numberedCharacter (value digits)])

/-- A name without a semicolon counts inside an attribute only if no letter, digit or equals
sign follows. -/
def allowedName (inAttribute : Bool) (name next : List Char) : Bool :=
  !inAttribute || name.getLast? == some ';' ||
    match next with
    | c :: _ => !(c.isAlphanum || c == '=')
    | [] => true

/-- The reference after an ampersand, if there is one. -/
def reference? (inAttribute : Bool) (cs : List Char) : Option (Nat × List Char) :=
  match cs with
  | '#' :: x :: rest =>
    if x = 'x' ∨ x = 'X' then
      numbered? 2 (fun c => (Text.hexValue? c).isSome) (fun ds => (Text.ofHexPlaces? ds).getD 0) rest
    else numbered? 1 Char.isDigit Number.ofDigits (x :: rest)
  | _ =>
    match namedCharacter? cs with
    | some (length, characters) =>
      if allowedName inAttribute (cs.take length) (cs.drop length) then some (length, characters)
      else none
    | none => none

/-- A text with its references put in, in reverse before what was found so far. The first
`skip` characters are left out. -/
def resolveFrom (inAttribute : Bool) (found : List Char) : Nat → List Char → List Char
  | _, [] => found
  | skip + 1, _ :: rest => resolveFrom inAttribute found skip rest
  | 0, c :: rest =>
    if c = '&' then
      match reference? inAttribute rest with
      | some (length, characters) =>
        resolveFrom inAttribute (characters.reverse ++ found) length rest
      | none => resolveFrom inAttribute (c :: found) 0 rest
    else resolveFrom inAttribute ((if c = '\x00' then replacement else c) :: found) 0 rest

/-- A text with its references put in. What cannot be shown is replaced. -/
def resolve (inAttribute : Bool) (cs : List Char) : List Char :=
  (resolveFrom inAttribute [] 0 cs).reverse

end DailyBars.Html
