import DailyBars.Text.Basic
import DailyBars.Text.Quoted

/-! # Tickers and exchange codes

Which texts may name an instrument or an exchange. Both end up in file names and in
addresses, so only a few characters pass.
-/

namespace DailyBars

/-- What a malformed code is: a ticker or an exchange code. -/
inductive CodeKind where
  | ticker
  | exchange
deriving DecidableEq, Repr

/-- Why a ticker or an exchange code is refused. -/
inductive CodeFault where
  | empty (kind : CodeKind)
  | tooLong (kind : CodeKind)
  | illegal (kind : CodeKind) (char : Char)
deriving DecidableEq, Repr

namespace CodeKind

/-- The greatest length of a code, in bytes. -/
def maxLength : CodeKind → Nat
  | ticker => 32
  | exchange => 8

/-- The characters that a code may hold. -/
def allows : CodeKind → Char → Bool
  | ticker, c => Text.isAlphanumeric c || c ∈ ['.', '-', '^', '=', '&', '_', ':']
  | exchange, c => Text.isAlphanumeric c

/-- The name of the kind in messages. -/
def name : CodeKind → String
  | ticker => "ticker"
  | exchange => "exchange"

/-- The first fault of a code, if it has one: emptiness, then length, then characters. -/
def check (kind : CodeKind) (code : String) : Except CodeFault Unit :=
  if code.isEmpty then .error (.empty kind)
  else if kind.maxLength < code.utf8ByteSize then .error (.tooLong kind)
  else
    match code.toList.find? fun c => !kind.allows c with
    | some c => .error (.illegal kind c)
    | none => .ok ()

end CodeKind

/-- The wording of a fault. -/
def CodeFault.message : CodeFault → String
  | empty kind => kind.name ++ " is empty"
  | tooLong kind => kind.name ++ " longer than " ++ toString kind.maxLength ++ " characters"
  | illegal .ticker c => "illegal character " ++ Text.quotedChar c
  | illegal .exchange c => "illegal character " ++ Text.quotedChar c ++ " in exchange"

namespace Ticker

/-- A ticker is well formed. -/
def check (ticker : String) : Except CodeFault Unit := CodeKind.ticker.check ticker

/-- A security identifier: two country letters, nine letters or digits and a check digit,
with capital letters only. -/
def isIsin (id : String) : Bool :=
  let cs := id.toList
  cs.length == 12 && (cs.take 2).all Char.isUpper &&
    ((cs.drop 2).take 9).all (fun c => c.isUpper || c.isDigit) && (cs.drop 11).all Char.isDigit

/-- The text before and after the last occurrence of `mark`, if it occurs. -/
def splitLast (mark : Char) (cs : List Char) : Option (List Char × List Char) :=
  let after := cs.reverse.takeWhile (· != mark)
  match cs.reverse.dropWhile (· != mark) with
  | [] => none
  | _ :: before => some (before.reverse, after.reverse)

/-- A ticker and the suffix after its last dot. Without a dot, or with nothing on one side of
it, there is no suffix. -/
def splitSuffix (ticker : String) : String × Option String :=
  match splitLast '.' ticker.toList with
  | some (before, after) =>
    if before.isEmpty || after.isEmpty then (ticker, none)
    else (String.ofList before, some (String.ofList after))
  | none => (ticker, none)

end Ticker
end DailyBars
