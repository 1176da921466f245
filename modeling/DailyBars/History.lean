import DailyBars.Config
import DailyBars.Fx.Conversion
import DailyBars.Instrument.Cash
import DailyBars.Instrument.Resolution

/-! # Histories of prices

The way of a request: cash is made, everything else is resolved to an instrument and loaded
from the rolling store, and at the end prices are converted if another currency was asked
for. `PriceHistory.ofConfig` puts together what answers requests.
-/

namespace DailyBars

/-- A request for the bars of an instrument in a window. -/
structure HistoryRequest where
  symbol : String
  exchange : Option String
  window : Window
  /-- The currency that prices are wanted in. -/
  currency : Option String

/-- Everything that answers requests. -/
structure PriceHistory (σ ω : Type) where
  library : MetadataLibrary
  cashPrefix : String
  fx : FxService σ ω

namespace PriceHistory

variable {σ ω : Type}

/-- The store that series come from. -/
def store (h : PriceHistory σ ω) : RollingStore σ ω := h.fx.store

/-- Bars with their prices in the wanted currency. They stay as they are when none is wanted,
when their own is not known, and when the two are the same in the same unit. -/
def inCurrency (h : PriceHistory σ ω) (bars : List Bar) (own wanted : Option String) :
    StoreM σ ω (List Bar) :=
  match own, wanted with
  | some own, some wanted =>
    if Currency.same own wanted then pure bars else h.fx.convert bars own wanted
  | _, _ => pure bars

/-- The bars of a request, ascending and one per date. -/
def history (h : PriceHistory σ ω) (r : HistoryRequest) : StoreM σ ω (List Bar) :=
  match Cash.recognise? h.cashPrefix h.library r.symbol with
  | some cash => h.inCurrency (cash.bars r.window) (some cash.currency) r.currency
  | none => do
    let instrument ← Instrument.resolve h.library r.symbol r.exchange
    let bars ← h.store.load instrument.symbol instrument.storedExchange r.window
    h.inCurrency bars instrument.currency? r.currency

/-! ## From a configuration -/

/-- The engine that a configuration describes. A breaker trips after one failure at the
earliest. -/
def engineOf (c : Config) (sources : Sources ω) (scaling : Scaling) : Engine ω where
  sources
  settings :=
    { minCoverage := c.merge.minCoverage
      order := c.merge.order
      isinOrder := c.merge.isinOrder
      maxRetryWait := .ofSeconds c.merge.maxRetryWaitSecs }
  limits :=
    { breaker :=
        { threshold := max c.breaker.failureThreshold 1
          cooldown := .ofSeconds c.breaker.cooldownSecs }
      budgets := c.sources.map fun s => (s.1, s.2.requestsPerMinute) }
  scaling

/-- What answers requests under a usable configuration, over a storage, sources and documents.
`file` gives the text of a file that can be read; the price factors come from one. -/
def ofConfig (c : Config) (storage : Storage σ) (sources : Sources ω) (library : MetadataLibrary)
    (file : String → Option String) : Except DataError (PriceHistory σ ω) := do
  c.validate.mapError .config
  let scaling ← match c.metadata.scalingFile with
    | some path => (Scaling.load (file path)).mapError .metadata
    | none => pure {}
  pure
    { library
      cashPrefix := c.cashPrefix
      fx :=
        { store := { storage, engine := engineOf c sources scaling, offline := c.cache.offline }
          rules := .of c.fx.baseCurrency c.fx.windowDays c.fx.fallbackRates } }

/-- The state in which work begins: nothing is remembered, and no source has been asked. -/
def begin (c : Config) (storage : σ) (clock : Clock) (outside : ω) : StoreState σ ω where
  storage
  market := { pace := { clock }, outside }
  memo := .empty c.cache.memoCapacity

end PriceHistory
end DailyBars
