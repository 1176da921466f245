import DailyBars.Cli.Request
import DailyBars.Text.Basic

/-! # Help

A page of help says what a command does and how it is written, and lists in sections what can
follow it. The two columns of a section are as far apart as its widest entry needs.
-/

namespace DailyBars.Cli

/-- Entries under a title, each with what it is for. -/
structure HelpSection where
  title : String
  entries : List (String × String)

/-- The lines of a section. -/
def HelpSection.lines (s : HelpSection) : List String :=
  let width := (s.entries.map fun e => e.1.length).foldl max 0
  (s.title ++ ":") :: s.entries.map fun e => "  " ++ Text.padRight width e.1 ++ "  " ++ e.2

namespace Page

/-- What a command does. -/
def about : Page → String
  | program => "PriceVault CLI: historical daily prices with a rolling cache"
  | history => "Daily bars for one instrument"
  | rate => "Rate converting one unit of a currency into the base currency"
  | cache => "Cache management commands"
  | cacheStatus => "Report cached series, date ranges and sizes"
  | help | cacheHelp => "Print this message or the help of the given subcommand(s)"

/-- How a command is written. -/
def usage (page : Page) : String :=
  "pricevault" ++ match page with
    | program => " [OPTIONS] <COMMAND>"
    | history => " history [OPTIONS] <SYMBOL>"
    | rate => " fx [OPTIONS] <CURRENCY>"
    | cache => " cache [OPTIONS] <COMMAND>"
    | cacheStatus => " cache status [OPTIONS]"
    | help => " help [COMMAND]..."
    | cacheHelp => " cache help [COMMAND]..."

/-- The operands of a command. -/
def operandEntries : Page → List (String × String)
  | history => [("<SYMBOL>", "Ticker, optionally with an exchange suffix (e.g. GSK.L)")]
  | rate => [("<CURRENCY>", "Currency code (e.g. USD, GBX)")]
  | help | cacheHelp => [("[COMMAND]...", "Print help for the subcommand(s)")]
  | _ => []

/-- The option that names the file with the configuration. -/
def configEntry : String × String :=
  ("    --config <CONFIG>", "Path to a TOML config file. Defaults apply when omitted")

/-- The switch that keeps to what is stored. -/
def offlineEntry : String × String := ("    --offline", "Offline mode: serve only from cache")

/-- The option that says where series are kept. -/
def cacheEntry : String × String :=
  ("    --cache <CACHE>",
    "Cache location (directory or http(s) prefix). Overrides the config")

/-- The options and switches of a command. -/
def optionEntries : Page → List (String × String)
  | help | cacheHelp => []
  | history =>
    [configEntry,
     ("    --exchange <EXCHANGE>", "Exchange code (e.g. L, US). Falls back to suffix and metadata"),
     offlineEntry,
     ("    --start <START>", "Start date (YYYY-MM-DD). Defaults to one year ago"),
     cacheEntry,
     ("    --end <END>", "End date (YYYY-MM-DD). Defaults to today"),
     ("    --currency <CURRENCY>", "Convert prices into this currency"),
     ("    --csv", "Print CSV instead of a table"),
     ("-h, --help", "Print help")]
  | rate =>
    [configEntry, ("    --date <DATE>", "Date (YYYY-MM-DD). Defaults to today"), offlineEntry,
     cacheEntry, ("-h, --help", "Print help")]
  | _ => [configEntry, offlineEntry, cacheEntry, ("-h, --help", "Print help")]

/-- The sections of a page. -/
def sections (page : Page) : List HelpSection :=
  [⟨"Commands", page.commands.map fun c => (c.1, c.2.about)⟩,
   ⟨"Arguments", page.operandEntries⟩,
   ⟨"Options", page.optionEntries⟩].filter fun s => !s.entries.isEmpty

/-- The lines of a page. -/
def lines (page : Page) : List String :=
  page.about :: "" :: ("Usage: " ++ page.usage) ::
    page.sections.flatMap fun s => "" :: s.lines

end Page

/-- The wording of a misuse. -/
def Misuse.message : Misuse → String
  | unknownOption word => "unexpected argument '" ++ word ++ "' found"
  | unwantedValue name => "unexpected value for '--" ++ name ++ "' found; no more were expected"
  | missingValue name => "a value is required for '--" ++ name ++ "' but none was supplied"
  | emptyValue name => "a value is required for '--" ++ name ++ "' but it is empty"
  | repeated name => "the argument '--" ++ name ++ "' cannot be used multiple times"
  | extraWord word => "unexpected argument '" ++ word ++ "' found"
  | missingOperand name => "the following required argument was not provided: <" ++ name ++ ">"
  | unknownCommand word => "unrecognized subcommand '" ++ word ++ "'"
  | missingCommand => "a subcommand is required but none was provided"

/-- What is said about a misuse at a command. -/
def Misuse.lines (page : Page) (fault : Misuse) : List String :=
  ["error: " ++ fault.message, "", "Usage: " ++ page.usage, "",
   "For more information, try '--help'."]

end DailyBars.Cli
