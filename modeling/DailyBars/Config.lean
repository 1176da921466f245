import DailyBars.Calendar.Clock
import DailyBars.Error
import DailyBars.Text.Basic
import DailyBars.Toml.Document

/-! # Configuration

Settings in sections, each with its defaults, so that an empty document is a configuration.
They are read from TOML, a few can be overridden by variables of the environment, and
`Config.validate` says which are usable.
-/

namespace DailyBars

/-- Where series are kept. -/
structure CacheConfig where
  /-- A folder, or an address that begins with `http://` or `https://`. -/
  baseLocation : String := "data/prices"
  offline : Bool := false
  /-- How many requests are remembered; zero for none. -/
  memoCapacity : Nat := 256

/-- How answers of sources are merged. -/
structure MergeConfig where
  minCoverage : Float := 0.95
  order : List String := ["yahoo", "stooq", "alpha_vantage", "ft"]
  isinOrder : List String := ["ft"]
  maxRetryWaitSecs : Nat := 30

/-- The settings of one source. -/
structure SourceConfig where
  enabled : Bool := true
  baseUrl : Option String := none
  timeoutSecs : Nat := 20
  /-- Zero for no limit. -/
  requestsPerMinute : Nat := 0
  apiKey : Option String := none

/-- When failing sources are left alone. -/
structure BreakerConfig where
  failureThreshold : Nat := 3
  cooldownSecs : Nat := 1800

/-- Where documents about instruments are. -/
structure MetadataConfig where
  roots : List String := []
  scalingFile : Option String := none

/-- How currencies are converted. -/
structure FxConfig where
  baseCurrency : String := "GBP"
  windowDays : Nat := 7
  fallbackRates : List (String × Float) := []

/-- All settings. -/
structure Config where
  cache : CacheConfig := {}
  merge : MergeConfig := {}
  /-- The sources that have settings, in order of their ids. -/
  sources : List (String × SourceConfig) := []
  breaker : BreakerConfig := {}
  metadata : MetadataConfig := {}
  fx : FxConfig := {}
  cashPrefix : String := "CASH"

namespace Config

/-! ## Reading -/

open Toml (fieldOr)

/-- A list of texts. -/
def texts? (v : Toml) : Option (List String) := v.list? Toml.toText?

/-- A text that may be absent. -/
def optionalText? : Option Toml → Option (Option String) := fieldOr none fun v => v.toText?.map some

/-- The settings of the cache. -/
def cache? (v : Toml) : Option CacheConfig := do
  let d : CacheConfig := {}
  match ← v.fields? ["base_location", "offline", "memo_capacity"] with
  | [location, offline, capacity] =>
    pure ⟨← fieldOr d.baseLocation Toml.toText? location, ← fieldOr d.offline Toml.toBool? offline,
      ← fieldOr d.memoCapacity (Toml.toNat? UInt64.size) capacity⟩
  | _ => none

/-- The settings of the merge. -/
def merge? (v : Toml) : Option MergeConfig := do
  let d : MergeConfig := {}
  match ← v.fields? ["min_coverage", "order", "isin_order", "max_retry_wait_secs"] with
  | [coverage, order, isinOrder, wait] =>
    pure ⟨← fieldOr d.minCoverage Toml.toFloat? coverage, ← fieldOr d.order texts? order,
      ← fieldOr d.isinOrder texts? isinOrder, ← fieldOr d.maxRetryWaitSecs (Toml.toNat? UInt64.size) wait⟩
  | _ => none

/-- The settings of a source. -/
def source? (v : Toml) : Option SourceConfig := do
  let d : SourceConfig := {}
  match ← v.fields? ["enabled", "base_url", "timeout_secs", "requests_per_minute", "api_key"] with
  | [enabled, baseUrl, timeout, rate, key] =>
    pure ⟨← fieldOr d.enabled Toml.toBool? enabled, ← optionalText? baseUrl,
      ← fieldOr d.timeoutSecs (Toml.toNat? UInt64.size) timeout,
      ← fieldOr d.requestsPerMinute (Toml.toNat? UInt32.size) rate, ← optionalText? key⟩
  | _ => none

/-- Puts the settings of a source in their place in order of id. -/
def setSource (id : String) (s : SourceConfig) :
    List (String × SourceConfig) → List (String × SourceConfig)
  | [] => [(id, s)]
  | e :: rest =>
    if id < e.1 then (id, s) :: e :: rest
    else if id = e.1 then (id, s) :: rest
    else e :: setSource id s rest

/-- The settings of all sources. -/
def sources? (v : Toml) : Option (List (String × SourceConfig)) :=
  (v.entries? source?).map fun entries =>
    entries.foldl (fun table e => setSource e.1 e.2 table) []

/-- The settings of the breaker. -/
def breaker? (v : Toml) : Option BreakerConfig := do
  let d : BreakerConfig := {}
  match ← v.fields? ["failure_threshold", "cooldown_secs"] with
  | [threshold, cooldown] =>
    pure ⟨← fieldOr d.failureThreshold (Toml.toNat? UInt32.size) threshold,
      ← fieldOr d.cooldownSecs (Toml.toNat? UInt64.size) cooldown⟩
  | _ => none

/-- The settings of the documents. -/
def metadata? (v : Toml) : Option MetadataConfig := do
  match ← v.fields? ["roots", "scaling_file"] with
  | [roots, file] => pure ⟨← fieldOr [] texts? roots, ← optionalText? file⟩
  | _ => none

/-- The settings of conversion. -/
def fx? (v : Toml) : Option FxConfig := do
  let d : FxConfig := {}
  match ← v.fields? ["base_currency", "window_days", "fallback_rates"] with
  | [base, days, rates] =>
    pure ⟨← fieldOr d.baseCurrency Toml.toText? base, ← fieldOr d.windowDays (Toml.toNat? UInt32.size) days,
      ← fieldOr d.fallbackRates (Toml.entries? Toml.toFloat?) rates⟩
  | _ => none

/-- The settings of cash. -/
def synthetic? (v : Toml) : Option String := do
  match ← v.fields? ["cash_prefix"] with
  | [marker] => fieldOr "CASH" Toml.toText? marker
  | _ => none

/-- The configuration of a document. -/
def ofToml? (v : Toml) : Option Config := do
  match ← v.fields? ["cache", "merge", "sources", "breaker", "metadata", "fx", "synthetic"] with
  | [cache, merge, sources, breaker, metadata, fx, synthetic] =>
    pure ⟨← fieldOr {} cache? cache, ← fieldOr {} merge? merge, ← fieldOr [] sources? sources,
      ← fieldOr {} breaker? breaker, ← fieldOr {} metadata? metadata, ← fieldOr {} fx? fx,
      ← fieldOr "CASH" synthetic? synthetic⟩
  | _ => none

/-- The configuration that a TOML text describes. -/
def parse (text : String) : Except ConfigFault Config :=
  match (Toml.parse? text).bind ofToml? with
  | some c => .ok c
  | none => .error .invalidToml

/-! ## Use -/

/-- The sources that there are. -/
def knownSources : List String := ["yahoo", "stooq", "alpha_vantage", "ft"]

/-- The settings of a source, its defaults if it has none. -/
def source (c : Config) (id : String) : SourceConfig := (c.sources.lookup id).getD {}

/-- The value of a variable without the blanks around it, unless it is blank. -/
def filled? (var : String → Option String) (name : String) : Option String :=
  ((var name).map Text.trim).filter fun v => !v.isEmpty

/-- The variables of the environment that count. -/
def variableNames : List String := ["PRICEVAULT_OFFLINE", "PRICEVAULT_CACHE", "ALPHAVANTAGE_API_KEY"]

/-- The configuration under the variables of the environment. -/
def withEnvironment (c : Config) (var : String → Option String) : Config :=
  let c := match var "PRICEVAULT_OFFLINE" with
    | some v =>
      let word := Text.lower (Text.trim v)
      { c with cache := { c.cache with offline := word == "1" || word == "true" || word == "yes" } }
    | none => c
  let c := match filled? var "PRICEVAULT_CACHE" with
    | some v => { c with cache := { c.cache with baseLocation := v } }
    | none => c
  match filled? var "ALPHAVANTAGE_API_KEY" with
  | some v =>
    { c with sources :=
      setSource "alpha_vantage" { c.source "alpha_vantage" with apiKey := some v } c.sources }
  | none => c

/-- The first fault of a configuration, if it has one. -/
def validate (c : Config) : Except ConfigFault Unit := do
  let coverage := c.merge.minCoverage
  unless 0 < coverage && coverage ≤ 1 do throw (.minCoverage coverage)
  if c.merge.order.isEmpty then throw .emptyOrder
  let ids := c.merge.order ++ c.merge.isinOrder ++ c.sources.map (·.1)
  match ids.find? fun id => !knownSources.contains id with
  | some id => throw (.unknownSource id)
  | none => pure ()
  match c.sources.find? fun e => e.2.timeoutSecs == 0 with
  | some (id, _) => throw (.zeroTimeout id)
  | none => pure ()
  unless (Text.trim c.fx.baseCurrency).utf8ByteSize == 3 do
    throw (.baseCurrency c.fx.baseCurrency)

/-- The sources that a configuration turns on, in the order in which they are made. One that
needs a key is left out without one, but a blank key is a fault. -/
def enabledSources (c : Config) : Except ConfigFault (List String) := do
  let av := c.source "alpha_vantage"
  let keyed ← match av.apiKey with
    | some key =>
      if !av.enabled then pure []
      else if (Text.trim key).isEmpty then throw .missingApiKey
      else pure ["alpha_vantage"]
    | none => pure []
  let free := fun id => if (c.source id).enabled then [id] else []
  pure (free "yahoo" ++ free "stooq" ++ keyed ++ free "ft")

/-- The configuration in a file: read, put under the environment, and validated. -/
def load (text : Option String) (var : String → Option String) : Except ConfigFault Config := do
  match text with
  | none => throw .unreadable
  | some text =>
    let c := (← parse text).withEnvironment var
    c.validate
    pure c

end Config
end DailyBars
