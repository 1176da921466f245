import DailyBars.Calendar.Day
import DailyBars.Number.Decimal

/-! # What a request can fail with

The failures that callers see, as causes. The wording of each is in one function.
-/

namespace DailyBars

/-- Why a storage could not do what was asked of it. -/
inductive StorageFault where
  | read (name : String)
  | readDirectory
  | create
  | write (name : String)
  | rename (name : String)
  | quarantine (name : String)
  | fetch (name : String)
  | fetchBody (name : String)
  | fetchStatus (name status : String)
  | upload (name : String)
  | uploadStatus (name status : String)
  | listing (location : String)
  | nothingToCache
  | refused (detail : String)
deriving DecidableEq, Repr

/-- Why the contents of a series file are not a series. -/
inductive SeriesFault where
  | unreadable
  | empty
  | missingColumn (name : String)
  | columnType (name : String)
  | nullDate (row : Nat)
  /-- The date of a row lies outside the calendar. This is no fault of the file's form, and
  whoever reads the file stops here. -/
  | dateOutsideCalendar (row : Nat)
deriving DecidableEq, Repr

/-- What is wrong with a configuration. -/
inductive ConfigFault where
  | unreadable
  | invalidToml
  | minCoverage (value : Float)
  | emptyOrder
  | unknownSource (id : String)
  | zeroTimeout (id : String)
  | baseCurrency (text : String)
  | missingApiKey

/-- What is wrong with a document about instruments. -/
inductive MetadataFault where
  | unreadable
  | invalidScaling
  | scalingFactor (exchange ticker : String) (factor : Float)

/-- Why a request failed. -/
inductive DataError where
  | invalidSymbol (symbol reason : String)
  | unresolvableExchange (symbol : String)
  | noCachedData (symbol exchange : String)
  | noFxRate (currency : String) (date : Day)
  | storage (fault : StorageFault)
  | series (fault : SeriesFault)
  | config (fault : ConfigFault)
  | metadata (fault : MetadataFault)
  /-- A date was needed that lies beyond the calendar. No answer can be given; a program
  that meets this ends. -/
  | outsideCalendar

namespace StorageFault

/-- The wording of a storage fault. -/
def message : StorageFault → String
  | read name => "read " ++ name
  | readDirectory => "read dir"
  | create => "create"
  | write name => "write " ++ name ++ ".tmp"
  | rename name => "atomic rename failed for " ++ name
  | quarantine name => "quarantine " ++ name
  | fetch name => "GET " ++ name
  | fetchBody name => "GET " ++ name ++ " body"
  | fetchStatus name status => "GET " ++ name ++ ": HTTP " ++ status
  | upload name => "PUT " ++ name
  | uploadStatus name status => "PUT " ++ name ++ ": HTTP " ++ status
  | listing location => "listing is not supported for object storage at " ++ location
  | nothingToCache => "no bars to cache"
  | refused detail => detail

end StorageFault

namespace SeriesFault

/-- The wording of a fault in a series file. -/
def message : SeriesFault → String
  | unreadable => "read"
  | empty => "empty parquet file"
  | missingColumn name => "missing column '" ++ name ++ "'"
  | columnType name => name ++ " column type"
  | nullDate row => "null date at row " ++ toString row
  | dateOutsideCalendar row => "date outside the calendar at row " ++ toString row

end SeriesFault

namespace ConfigFault

/-- The wording of a fault in a configuration. -/
def message : ConfigFault → String
  | unreadable => "read"
  | invalidToml => "invalid TOML"
  | minCoverage value => "merge.min_coverage must be in (0, 1], got " ++ Number.plainText value
  | emptyOrder => "merge.order must name at least one source"
  | unknownSource id => "unknown source id '" ++ id ++ "'"
  | zeroTimeout id => "sources." ++ id ++ ".timeout_secs must be > 0"
  | baseCurrency text => "fx.base_currency must be a 3-letter code, got '" ++ text ++ "'"
  | missingApiKey => "alpha_vantage requires an api_key"

end ConfigFault

namespace MetadataFault

/-- The wording of a fault in a document. -/
def message : MetadataFault → String
  | unreadable => "read"
  | invalidScaling => "invalid scaling overrides"
  | scalingFactor exchange ticker factor =>
    "scaling factor for " ++ exchange ++ "/" ++ ticker ++ " must be positive, got " ++
      Number.plainText factor

end MetadataFault

namespace DataError

/-- The wording of an error. -/
def message : DataError → String
  | invalidSymbol symbol reason => "invalid symbol '" ++ symbol ++ "': " ++ reason
  | unresolvableExchange symbol =>
    "cannot resolve an exchange for '" ++ symbol ++ "' (no suffix, argument or metadata)"
  | noCachedData symbol exchange =>
    "no cached data for " ++ symbol ++ "_" ++ exchange ++ " and outbound fetches are disabled"
  | noFxRate currency date =>
    "no FX rate for " ++ currency ++ " on " ++ date.text ++ " and no fallback configured"
  | storage fault => "storage error: " ++ fault.message
  | series fault => "parquet I/O error: " ++ fault.message
  | config fault => "configuration error: " ++ fault.message
  | metadata fault => "metadata error: " ++ fault.message
  | outsideCalendar => "date outside the calendar"

end DataError
end DailyBars
