import DailyBars.Cli.Form

/-! # What a command line asks for

The commands, the pages of help about them, and the settings that may stand at any command and
reach from there to the commands within it.
-/

namespace DailyBars.Cli

/-- Settings of a command line that come before those of a configuration. -/
structure Overrides where
  /-- The file with the configuration. -/
  config : Option String
  /-- Nobody is asked. -/
  offline : Bool
  /-- Where series are kept. -/
  cache : Option String
deriving DecidableEq, Repr

/-- What to print. Dates are still text. -/
inductive Command where
  | history (symbol : String) (exchange first last currency : Option String) (asCsv : Bool)
  | rate (currency : String) (date : Option String)
  | cacheStatus
deriving DecidableEq, Repr

/-- A command under its settings. -/
structure Request where
  overrides : Overrides
  command : Command
deriving DecidableEq, Repr

/-- The commands that there is help about. -/
inductive Page where
  | program
  | history
  | rate
  | cache
  | cacheStatus
  /-- Help itself, for the commands of the program and for those of the cache. -/
  | help
  | cacheHelp
deriving DecidableEq, Repr

namespace Page

/-- The commands of a command by name. -/
def commands : Page → List (String × Page)
  | program => [("history", history), ("fx", rate), ("cache", cache), ("help", help)]
  | cache => [("status", cacheStatus), ("help", cacheHelp)]
  | _ => []

/-- The options that every command takes. -/
def sharedOptions : List String := ["config", "cache"]

/-- What the words of a command may be. -/
def form (page : Page) : Form where
  options := sharedOptions ++ match page with
    | history => ["exchange", "start", "end", "currency"]
    | rate => ["date"]
    | _ => []
  filled := ["config"]
  switches := "offline" :: match page with
    | history => ["csv"]
    | _ => []
  operands := match page with
    | history => ["SYMBOL"]
    | rate => ["CURRENCY"]
    | _ => []
  commands := page.commands.map (·.1)

/-- The page that names lead to, from another page on. -/
def find (page : Page) : List String → Except Misuse Page
  | [] => .ok page
  | name :: rest =>
    match page.commands.lookup name with
    | some inner => inner.find rest
    | none => .error (.unknownCommand name)

end Page

/-- What a command line comes to if it asks for no data. -/
inductive Notice where
  | help (page : Page)
  | misuse (page : Page) (fault : Misuse)
deriving DecidableEq, Repr

namespace Overrides

/-- The settings that were found at one command. -/
def ofFound (found : Found) : Overrides :=
  ⟨found.value? "config", found.has "offline", found.value? "cache"⟩

/-- Settings with those of a command within the command, which count first. -/
def within (outer inner : Overrides) : Overrides :=
  ⟨inner.config.or outer.config, inner.offline || outer.offline, inner.cache.or outer.cache⟩

end Overrides

namespace Request

/-- Ends with help or with a misuse at a command. -/
def notice (page : Page) : Halt → Notice
  | .help => .help page
  | .misuse fault => .misuse page fault

/-- What is found in the words of a command, under the settings so far. -/
def readAt (page : Page) (words : List String) : Except Notice (Found × Overrides) :=
  match page.form.read words with
  | .ok found => .ok (found, .ofFound found)
  | .error halt => .error (notice page halt)

/-- The command that has to follow, and its words. -/
def follow (page : Page) (found : Found) : Except Notice (Page × List String) :=
  match found.next with
  | none => .error (.misuse page .missingCommand)
  | some (name, words) =>
    match page.commands.lookup name with
    | some inner => .ok (inner, words)
    | none => .error (.misuse page (.unknownCommand name))

/-- Help about the page that words lead to. -/
def helpAbout {α : Type} (page : Page) (words : List String) : Except Notice α :=
  match page.find words with
  | .ok about => .error (.help about)
  | .error fault => .error (.misuse page fault)

/-- The command of a page, of which its own words have been read. -/
def commandOf (page : Page) (found : Found) : Except Notice Command :=
  let operand := fun name => (found.operand 0 name).mapError (notice page)
  match page with
  | .history => do
    pure (.history (← operand "SYMBOL") (found.value? "exchange") (found.value? "start")
      (found.value? "end") (found.value? "currency") (found.has "csv"))
  | .rate => do pure (.rate (← operand "CURRENCY") (found.value? "date"))
  | .cacheStatus => .ok .cacheStatus
  | _ => .error (.misuse page .missingCommand)

/-- Reads the words of a command that has none within it. -/
def readLeaf (page : Page) (outer : Overrides) (words : List String) : Except Notice Request := do
  let (found, inner) ← readAt page words
  pure ⟨outer.within inner, ← commandOf page found⟩

/-- What the words of a command line ask for. -/
def read (words : List String) : Except Notice Request := do
  let (found, top) ← readAt .program words
  match ← follow .program found with
  | (.help, words) => helpAbout .program words
  | (.cache, words) =>
    let (found, inner) ← readAt .cache words
    match ← follow .cache found with
    | (.cacheHelp, words) => helpAbout .cache words
    | (page, words) => readLeaf page (top.within inner) words
  | (page, words) => readLeaf page top words

end Request
end DailyBars.Cli
