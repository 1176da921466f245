import DailyBars.Calendar.Pattern
import DailyBars.Cli.Help
import DailyBars.Cli.Table
import DailyBars.History
import DailyBars.Provider.Catalogue

/-! # Running a command line

A run turns words into what is printed. It sees its surroundings as values: a tree of files, the
folder it stands in, the variables of the environment and a clock. Requests go out over a
transport; the files after the run are part of its result.
-/

namespace DailyBars.Cli

/-- What a run sees. -/
structure Surroundings where
  disk : FileTree
  /-- The folder that paths are seen from. -/
  here : TreePath
  var : String → Option String
  clock : Clock

/-- What a run prints, to its output and to its readers' attention, and how it ends. -/
structure Report where
  code : Nat
  output : List String := []
  complaint : List String := []
deriving Repr

/-- Why a run has nothing to print. -/
inductive RunFault where
  /-- The file with the configuration is of no use. -/
  | configFile (path : String) (fault : ConfigFault)
  | date (text : String)
  | data (error : DataError)

namespace RunFault

/-- What is said about a fault, the cause below it. -/
def lines : RunFault → List String
  | configFile path fault =>
    ["Error: loading config " ++ path, "", "Caused by:",
      "    " ++ (DataError.config fault).message]
  | date text => ["Error: invalid date '" ++ text ++ "'"]
  | data error => ["Error: " ++ error.message]

/-- How a run ends. Beyond the calendar there is no way to go on at all. -/
def code : RunFault → Nat
  | data .outsideCalendar => 101
  | _ => 1

/-- The report of a fault. -/
def report (fault : RunFault) : Report := { code := fault.code, complaint := fault.lines }

end RunFault

/-- The report of a command line that asks for no data. -/
def Notice.report : Notice → Report
  | .help page => { code := 0, output := page.lines }
  | .misuse page fault => { code := 2, complaint := fault.lines page }

/-! ## Putting things together -/

namespace Surroundings

/-- The text of the file at a path, if it can be read. -/
def textOf (s : Surroundings) (path : String) : Option String :=
  match s.disk.read (s.here.join path) with
  | .ok text => some text
  | .error _ => none

/-- The library under the roots of a configuration. An empty path leads nowhere. -/
def library (s : Surroundings) (roots : List String) : MetadataLibrary :=
  .ofListings (roots.map fun root =>
    if root.isEmpty then [] else RootListing.under s.disk (s.here.join root))

/-- The configuration under the settings of a command line. Only a file is read and put under
the environment as a whole; faults of the settings count as faults of the data. -/
def configuration (s : Surroundings) (o : Overrides) : Except RunFault Config := do
  let c ← match o.config with
    | some path => (Config.load (s.textOf path) s.var).mapError (.configFile path)
    | none => pure (Config.withEnvironment {} s.var)
  let c := { c with cache := { c.cache with
    offline := c.cache.offline || o.offline
    baseLocation := o.cache.getD c.cache.baseLocation } }
  c.validate.mapError fun fault => .data (.config fault)
  pure c

end Surroundings

/-- The location is an address. -/
def isAddress (location : String) : Bool :=
  "http://".toList.isPrefixOf location.toList || "https://".toList.isPrefixOf location.toList

/-- The storage at a location: objects at an address, or a folder of a tree of files. Objects
are reached over a connection of their own. An empty location holds files, but lists none. -/
def storageAt {ω : Type} (send : Http.Transport ω) (here : TreePath) (location : String) :
    Storage (FileTree × ω) :=
  if isAddress location then
    (Storage.objects send location).within Prod.snd fun state outside => (state.1, outside)
  else
    let folder := Storage.localFolder (here.join location) location
    let folder := if location.isEmpty then { folder with list := fun t => (.ok [], t) } else folder
    folder.within Prod.fst fun state disk => (disk, state.2)

/-- What answers requests in some surroundings. -/
def historyOf {ω : Type} (s : Surroundings) (send : Http.Transport ω) (c : Config) :
    Except DataError (PriceHistory (FileTree × ω) ω) := do
  let sources ← (Sources.ofConfig c send).mapError .config
  PriceHistory.ofConfig c (storageAt send s.here c.cache.baseLocation) sources
    (s.library c.metadata.roots) s.textOf

/-! ## Commands -/

/-- A computation of a run on its store. -/
abbrev RunM (ω : Type) := ExceptT RunFault (StateM (StoreState (FileTree × ω) ω))

/-- A computation on the store. -/
def ofStore {ω α : Type} (run : StoreM (FileTree × ω) ω α) : RunM ω α := ExceptT.adapt .data run

/-- The day that a text names; without a text, the day `absent`. -/
def dayOr {ω : Type} (absent : Day) : Option String → RunM ω Day
  | none => pure absent
  | some text =>
    match DatePattern.hyphenated.parse? text with
    | some day => pure day
    | none => throw (.date text)

/-- Performs a command: the lines that it prints. A window begins a year back and ends today
unless it is given. -/
def Command.perform {ω : Type} (h : PriceHistory (FileTree × ω) ω) (c : Config) :
    Command → RunM ω (List String)
  | .history symbol exchange first last currency asCsv => do
    let today ← ofStore RollingStore.today
    let first ← dayOr (today.plus (-365)) first
    let last ← dayOr today last
    let bars ← ofStore (h.history ⟨symbol, exchange, ⟨first, last⟩, currency⟩)
    pure <|
      if bars.isEmpty then
        ["No data for " ++ symbol ++ " between " ++ first.text ++ " and " ++ last.text ++ "."]
      else if asCsv then barCsv bars
      else barTable bars
  | .rate currency date => do
    let date ← dayOr (← ofStore RollingStore.today) date
    let rate ← ofStore (h.fx.rateOn currency date)
    pure ["1 " ++ currency ++ " = " ++ Number.fixedText 6 rate ++ " " ++ c.fx.baseCurrency ++
      " on " ++ date.text]
  | .cacheStatus => do
    let series ← ofStore (RollingStore.onStorage h.store.storage.status)
    pure (statusReport c.cache.baseLocation series)

/-- Answers a request: the report, and the files after it. -/
def answer {ω : Type} (s : Surroundings) (send : Http.Transport ω) (outside : ω)
    (request : Request) : Report × FileTree :=
  match s.configuration request.overrides with
  | .error fault => (fault.report, s.disk)
  | .ok c =>
    match historyOf s send c with
    | .error error => ((RunFault.data error).report, s.disk)
    | .ok h =>
      let start := PriceHistory.begin c (s.disk, outside) s.clock outside
      match (request.command.perform h c).run start with
      | (.ok lines, state) => ({ code := 0, output := lines }, state.storage.1)
      | (.error fault, state) => (fault.report, state.storage.1)

/-- Runs a command line: the report, and the files after it. -/
def run {ω : Type} (s : Surroundings) (send : Http.Transport ω) (outside : ω)
    (words : List String) : Report × FileTree :=
  match Request.read words with
  | .error notice => (notice.report, s.disk)
  | .ok request => answer s send outside request

/-! ## What a run needs -/

/-- The file with the configuration that a command line names. -/
def configPath? (words : List String) : Option String :=
  match Request.read words with
  | .ok request => request.overrides.config
  | .error _ => none

/-- The configuration under which a command line runs, if it gets that far. -/
def configOf? (s : Surroundings) (words : List String) : Option Config :=
  match Request.read words with
  | .ok request => (s.configuration request.overrides).toOption
  | .error _ => none

/-- The folder in which series are kept, unless they are at an address. -/
def folderOf? (c : Config) : Option String :=
  if isAddress c.cache.baseLocation then none else some c.cache.baseLocation

/-- The files and folders that a run looks at under its configuration. -/
def placesOf (c : Config) : List String :=
  (folderOf? c).toList ++ c.metadata.roots ++ c.metadata.scalingFile.toList

end DailyBars.Cli
