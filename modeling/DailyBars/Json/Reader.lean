import DailyBars.Json.Value
import DailyBars.Text.Basic

/-! # Reading JSON texts

A text is cut into tokens one character at a time, and the tokens are put together into a
value with a stack of the arrays and objects that are still open. Both are steps of a machine
that either goes on or refuses, so reading ends with the text.
-/

namespace DailyBars.Json

/-- The words of a JSON text. -/
inductive Token where
  | openArray | closeArray | openObject | closeObject | comma | colon
  | null
  | bool (value : Bool)
  | number (value : Numeral)
  | text (value : Option String)
deriving Repr

/-! ## From characters to tokens -/

/-- What the characters just before belong to. Texts hold their code points in reverse;
escaped surrogates are still unpaired there. -/
inductive Scanning where
  | nothing
  | word (letters : List Char)
  | numeral (chars : List Char)
  | text (codes : List Nat)
  | escape (codes : List Nat)
  | unicode (codes : List Nat) (digits : List Char)
deriving Repr

/-- The tokens so far, in reverse, and what is being scanned. -/
structure Scan where
  tokens : List Token := []
  state : Scanning := .nothing

/-- The white space of JSON. -/
def isSpace (c : Char) : Bool := c == ' ' || c == '\t' || c == '\n' || c == '\r'

/-- Joins each leading surrogate with the trailing one after it. There is no text when one is
left alone. -/
def pairSurrogates : List Nat → Option (List Char)
  | [] => some []
  | high :: rest =>
    if 0xD800 ≤ high ∧ high < 0xDC00 then
      match rest with
      | low :: rest =>
        if 0xDC00 ≤ low ∧ low < 0xE000 then
          (pairSurrogates rest).map
            (Char.ofNat (0x10000 + (high - 0xD800) * 0x400 + (low - 0xDC00)) :: ·)
        else none
      | [] => none
    else if 0xDC00 ≤ high ∧ high < 0xE000 then none
    else (pairSurrogates rest).map (Char.ofNat high :: ·)

/-- The token of a word. -/
def wordToken? (letters : List Char) : Option Token :=
  if letters = ['n', 'u', 'l', 'l'] then some .null
  else if letters = ['t', 'r', 'u', 'e'] then some (.bool true)
  else if letters = ['f', 'a', 'l', 's', 'e'] then some (.bool false)
  else none

/-- The token of a single character. -/
def markToken? : Char → Option Token
  | '[' => some .openArray
  | ']' => some .closeArray
  | '\x7b' => some .openObject
  | '\x7d' => some .closeObject
  | ',' => some .comma
  | ':' => some .colon
  | _ => none

/-- A character of a numeral. -/
def isNumeralChar (c : Char) : Bool :=
  c.isDigit || c == '-' || c == '+' || c == '.' || c == 'e' || c == 'E'

namespace Scan

/-- Begins with a character after which nothing is pending. -/
def start (tokens : List Token) (c : Char) : Option Scan :=
  if isSpace c then some ⟨tokens, .nothing⟩
  else if c == '"' then some ⟨tokens, .text []⟩
  else if c.isDigit || c == '-' then some ⟨tokens, .numeral [c]⟩
  else if c.isLower then some ⟨tokens, .word [c]⟩
  else (markToken? c).map fun t => ⟨t :: tokens, .nothing⟩

/-- Ends a pending word or numeral. A text cannot end here. -/
def finish (s : Scan) : Option (List Token) :=
  match s.state with
  | .nothing => some s.tokens
  | .word letters => (wordToken? letters.reverse).map (· :: s.tokens)
  | .numeral chars => (Numeral.ofChars? chars.reverse).map (.number · :: s.tokens)
  | _ => none

/-- The code point of a short escape. -/
def escaped? : Char → Option Nat
  | '"' => some 0x22
  | '\\' => some 0x5C
  | '/' => some 0x2F
  | 'b' => some 8
  | 'f' => some 12
  | 'n' => some 10
  | 'r' => some 13
  | 't' => some 9
  | _ => none

/-- Takes one character. -/
def step (s : Scan) (c : Char) : Option Scan :=
  match s.state with
  | .nothing => start s.tokens c
  | .word letters =>
    if c.isLower then some { s with state := .word (c :: letters) }
    else s.finish.bind (start · c)
  | .numeral chars =>
    if isNumeralChar c then some { s with state := .numeral (c :: chars) }
    else s.finish.bind (start · c)
  | .text codes =>
    if c == '"' then
      some ⟨.text ((pairSurrogates codes.reverse).map String.ofList) :: s.tokens, .nothing⟩
    else if c == '\\' then some { s with state := .escape codes }
    else if c.toNat < 0x20 then none
    else some { s with state := .text (c.toNat :: codes) }
  | .escape codes =>
    if c == 'u' then some { s with state := .unicode codes [] }
    else (escaped? c).map fun code => { s with state := .text (code :: codes) }
  | .unicode codes digits =>
    match Text.hexValue? c, digits with
    | none, _ => none
    | some _, [d, e, f] =>
      let code := [f, e, d, c].foldl (fun n c => n * 16 + (Text.hexValue? c).getD 0) 0
      some { s with state := .text (code :: codes) }
    | some _, digits => some { s with state := .unicode codes (c :: digits) }

end Scan

/-- The tokens of a text. -/
def tokens? (cs : List Char) : Option (List Token) :=
  ((cs.foldlM Scan.step {}).bind Scan.finish).map List.reverse

/-! ## From tokens to a value -/

/-- An array or object that is still open, with what it holds so far in reverse. -/
inductive Frame where
  | array (items : List Json)
  | object (members : List (Option String × Json)) (name : Option String)
deriving Repr

/-- What may come next. -/
inductive Expecting where
  | value
  | valueOrClose
  | name
  | nameOrClose
  | colon
  | commaOrClose
  | nothing
deriving DecidableEq, Repr

/-- The open arrays and objects, innermost first, and the finished value at the end. -/
structure Assembly where
  frames : List Frame := []
  expecting : Expecting := .value
  result : Option Json := none

namespace Assembly

/-- A value is complete. -/
def put (a : Assembly) (v : Json) : Assembly :=
  match a.frames with
  | [] => { a with expecting := .nothing, result := some v }
  | .array items :: rest => { a with frames := .array (v :: items) :: rest, expecting := .commaOrClose }
  | .object members name :: rest =>
    { a with frames := .object ((name, v) :: members) name :: rest, expecting := .commaOrClose }

/-- Takes one token where a value is expected. -/
def value (a : Assembly) : Token → Option Assembly
  | .null => some (a.put .null)
  | .bool b => some (a.put (.bool b))
  | .number n => some (a.put (.number n))
  | .text s => some (a.put (.text s))
  | .openArray => some { a with frames := .array [] :: a.frames, expecting := .valueOrClose }
  | .openObject => some { a with frames := .object [] none :: a.frames, expecting := .nameOrClose }
  | _ => none

/-- Closes the innermost array or object with its own bracket. -/
def close (a : Assembly) : Token → Option Assembly
  | .closeArray => match a.frames with
    | .array items :: rest => some ({ a with frames := rest }.put (.array items.reverse))
    | _ => none
  | .closeObject => match a.frames with
    | .object members _ :: rest => some ({ a with frames := rest }.put (.object members.reverse))
    | _ => none
  | _ => none

/-- Takes the name of a member. -/
def name (a : Assembly) : Token → Option Assembly
  | .text s => match a.frames with
    | .object members _ :: rest =>
      some { a with frames := .object members s :: rest, expecting := .colon }
    | _ => none
  | _ => none

/-- Takes one token. -/
def step (a : Assembly) (t : Token) : Option Assembly :=
  match a.expecting with
  | .value => a.value t
  | .valueOrClose => (a.value t).orElse fun _ => a.close t
  | .name => a.name t
  | .nameOrClose => (a.name t).orElse fun _ => a.close t
  | .colon => match t with
    | .colon => some { a with expecting := .value }
    | _ => none
  | .commaOrClose => match t, a.frames with
    | .comma, .array _ :: _ => some { a with expecting := .value }
    | .comma, .object _ _ :: _ => some { a with expecting := .name }
    | _, _ => a.close t
  | .nothing => none

end Assembly

/-- The value of a JSON text. -/
def parse? (text : String) : Option Json :=
  (tokens? text.toList).bind fun tokens =>
    (tokens.foldlM Assembly.step {}).bind fun a =>
      if a.expecting = .nothing then a.result else none

end DailyBars.Json
