import DailyBars.Config
import DailyBars.Merge.Engine
import DailyBars.Provider.AlphaVantage
import DailyBars.Provider.Ft
import DailyBars.Provider.Stooq
import DailyBars.Provider.Yahoo
import DailyBars.Store.Objects

/-! # The providers there are

Each provider is asked over one transport, at its own address unless the configuration gives
another.
-/

namespace DailyBars

/-- A provider. -/
inductive Provider where
  | yahoo
  | stooq
  | alphaVantage
  | ft
deriving DecidableEq, Repr

namespace Provider

/-- All providers. -/
def all : List Provider := [yahoo, stooq, alphaVantage, ft]

/-- The name of the source that a provider is. -/
def id : Provider → String
  | yahoo => Yahoo.id
  | stooq => Stooq.id
  | alphaVantage => AlphaVantage.id
  | ft => Ft.id

/-- The provider of a name. -/
def ofId? (id : String) : Option Provider := all.find? fun p => p.id == id

/-- Where a provider is found. -/
def home : Provider → String
  | yahoo => Yahoo.home
  | stooq => Stooq.home
  | alphaVantage => AlphaVantage.home
  | ft => Ft.home

/-- Where a provider is found under some settings. -/
def base (p : Provider) (settings : SourceConfig) : String :=
  Storage.withoutSlashes (settings.baseUrl.getD p.home)

/-- Asks a provider for the bars of a query. -/
def fetch {ω : Type} (p : Provider) (settings : SourceConfig) (send : Http.Transport ω)
    (q : Query) : Http.Asking ω (List Bar) :=
  let base := p.base settings
  let timeout := Duration.ofSeconds settings.timeoutSecs
  match p with
  | yahoo => Yahoo.fetch send base timeout q
  | stooq => Stooq.fetch send base timeout q
  | alphaVantage => AlphaVantage.fetch send base timeout (Text.trim (settings.apiKey.getD "")) q
  | ft => Ft.fetch send base timeout q

end Provider

/-- The sources that a configuration turns on, over a transport. -/
def Sources.ofConfig {ω : Type} (c : Config) (send : Http.Transport ω) :
    Except ConfigFault (Sources ω) := do
  let ids ← c.enabledSources
  pure
    { configured := ids.contains
      ask := fun id q _ world =>
        match Provider.ofId? id with
        | some p => p.fetch (c.source id) send q world
        | none => (.ok [], world) }

end DailyBars
