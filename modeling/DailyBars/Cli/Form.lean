/-! # Words of a command line

A command takes options, which are followed by a value, switches, and operands in a fixed
order; one that has commands of its own ends at the first word that names one of them. Its
words are read from left to right, and the first that does not fit ends the reading.
-/

namespace DailyBars.Cli

/-- A word by its looks. -/
inductive Word where
  /-- Two hyphens: what follows are operands. -/
  | ends
  /-- Two hyphens and a name, and a value if an equals sign follows. -/
  | long (name : String) (value : Option String)
  /-- One hyphen and letters. -/
  | short (letters : List Char)
  /-- Anything else, among it a hyphen alone. -/
  | plain
deriving DecidableEq, Repr

/-- The looks of a word. -/
def Word.of (word : String) : Word :=
  match word.toList with
  | ['-', '-'] => .ends
  | '-' :: '-' :: rest =>
    let name := rest.takeWhile (· != '=')
    let value := if name.length < rest.length then
        some (String.ofList (rest.drop (name.length + 1)))
      else none
    .long (String.ofList name) value
  | '-' :: c :: rest => .short (c :: rest)
  | _ => .plain

/-- What a command takes. -/
structure Form where
  /-- The options. -/
  options : List String
  /-- The options whose value may not be empty. -/
  filled : List String := []
  switches : List String
  /-- The names of the operands. -/
  operands : List String := []
  /-- The commands of the command. -/
  commands : List String := []

/-- What is wrong with a command line. -/
inductive Misuse where
  | unknownOption (word : String)
  | unwantedValue (name : String)
  | missingValue (name : String)
  | emptyValue (name : String)
  | repeated (name : String)
  | extraWord (word : String)
  | missingOperand (name : String)
  | unknownCommand (word : String)
  | missingCommand
deriving DecidableEq, Repr

/-- Why reading ended early. -/
inductive Halt where
  /-- Help was asked for. -/
  | help
  | misuse (fault : Misuse)
deriving DecidableEq, Repr

/-- What was found in the words of a command. -/
structure Found where
  values : List (String × String) := []
  switches : List String := []
  operands : List String := []
  /-- The command that was named, and the words after it. -/
  next : Option (String × List String) := none
deriving Repr

namespace Found

/-- The value of an option, if it was given. -/
def value? (found : Found) (name : String) : Option String := found.values.lookup name

/-- The switch was given. -/
def has (found : Found) (name : String) : Bool := found.switches.contains name

/-- The operand at an index, which is called `name`. -/
def operand (found : Found) (index : Nat) (name : String) : Except Halt String :=
  match found.operands[index]? with
  | some word => .ok word
  | none => .error (.misuse (.missingOperand name))

end Found

namespace Form

/-- A word can be the value of an option: it does not look like an option. -/
def isValue (word : String) : Bool := Word.of word == .plain

/-- Notes the value of an option, which may be given once. -/
def noteValue (form : Form) (name value : String) (found : Found) : Except Halt Found :=
  if (found.value? name).isSome then .error (.misuse (.repeated name))
  else if form.filled.contains name && value.isEmpty then .error (.misuse (.emptyValue name))
  else .ok { found with values := found.values ++ [(name, value)] }

/-- Notes a switch, which may be given once. -/
def noteSwitch (name : String) (found : Found) : Except Halt Found :=
  if found.has name then .error (.misuse (.repeated name))
  else .ok { found with switches := found.switches ++ [name] }

/-- Notes an operand, if there is a place for one more. -/
def noteOperand (form : Form) (found : Found) (word : String) : Except Halt Found :=
  if found.operands.length < form.operands.length then
    .ok { found with operands := found.operands ++ [word] }
  else if form.commands.isEmpty then .error (.misuse (.extraWord word))
  else .error (.misuse (.unknownCommand word))

/-- Reads the words of a command after those in which `found` was found. -/
def readFrom (form : Form) : List String → Found → Except Halt Found
  | [], found => .ok found
  | word :: rest, found =>
    if form.commands.contains word then .ok { found with next := some (word, rest) }
    else
      match Word.of word with
      | .ends => rest.foldlM form.noteOperand found
      | .plain => do form.readFrom rest (← form.noteOperand found word)
      | .short letters =>
        if letters.head? = some 'h' then .error .help else .error (.misuse (.unknownOption word))
      | .long name value =>
        if form.options.contains name then
          match value, rest with
          | some value, rest => do form.readFrom rest (← form.noteValue name value found)
          | none, [] => .error (.misuse (.missingValue name))
          | none, value :: rest =>
            if isValue value then do form.readFrom rest (← form.noteValue name value found)
            else .error (.misuse (.missingValue name))
        else if form.switches.contains name || name = "help" then
          if value.isSome then .error (.misuse (.unwantedValue name))
          else if name = "help" then .error .help
          else do form.readFrom rest (← noteSwitch name found)
        else .error (.misuse (.unknownOption word))

/-- What is found in the words of a command. -/
def read (form : Form) (words : List String) : Except Halt Found := form.readFrom words {}

end Form
end DailyBars.Cli
