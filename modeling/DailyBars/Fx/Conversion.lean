import DailyBars.Fx.Rates
import DailyBars.Instrument.Currency
import DailyBars.Store.Rolling

/-! # Conversion between currencies

A currency pair is an instrument like any other, and its series comes from the rolling store.
Where there is no series, a table of constant rates into the base currency stands in.
-/

namespace DailyBars

/-- The rules of conversion: the base currency, how many days before a date its rate may come
from, and the constant rates. -/
structure FxRules where
  base : String
  windowDays : Nat
  fallback : List (String × Float)

namespace FxRules

/-- The rules with the base reduced to its major currency, a window of at least one day, and
the currencies of the constant rates in upper case. -/
def of (base : String) (windowDays : Nat) (fallback : List (String × Float)) : FxRules where
  base := (Currency.of base).code
  windowDays := max windowDays 1
  fallback := fallback.map fun e => (Text.upper e.1, e.2)

/-- The constant rate from a currency, which exists only into the base. Of several spellings
of a currency the last counts. -/
def fallbackRate? (rules : FxRules) (source target : String) : Option Float :=
  if target = rules.base then rules.fallback.reverse.lookup source else none

/-- The window of rates that may serve for days from `first` to `last`. There is none when it
would begin before the calendar. -/
def window? (rules : FxRules) (first last : Day) : Option Window :=
  (Day.ofNumber? (first.number - rules.windowDays)).map fun first => ⟨first, last⟩

end FxRules

/-- Conversion by the series of a store. -/
structure FxService (σ ω : Type) where
  store : RollingStore σ ω
  rules : FxRules

namespace FxService

variable {σ ω : Type}

/-- The rates of a pair in a window. A series that cannot be loaded has none. -/
def rates (fx : FxService σ ω) (source target : String) (w : Window) : StoreM σ ω Rates :=
  fun s =>
    match fx.store.load (Currency.pair source target) Exchange.pairs w s with
    | (.ok bars, s) => (.ok (Rates.ofBars bars), s)
    | (.error .outsideCalendar, s) => (.error .outsideCalendar, s)
    | (.error _, s) => (.ok ⟨[]⟩, s)

/-- The rates that may serve for days from `first` to `last`. -/
def ratesFor (fx : FxService σ ω) (source target : String) (first last : Day) :
    StoreM σ ω Rates :=
  match fx.rules.window? first last with
  | some w => fx.rates source target w
  | none => throw .outsideCalendar

/-- How many units of `target` one unit of `source` was worth on a date. No rate from after
the date, or from after today, is asked for. -/
def rate (fx : FxService σ ω) (source target : String) (date : Day) : StoreM σ ω Float := do
  let a := Currency.of source
  let b := Currency.of target
  let unit := a.unit / b.unit
  if a.code = b.code then return unit
  let last := min date (← RollingStore.today)
  let rates ← fx.ratesFor a.code b.code last last
  match (rates.asOf date).or (fx.rules.fallbackRate? a.code b.code) with
  | some rate => return rate * unit
  | none => throw (.noFxRate source date)

/-- How many units of the base currency one unit of `currency` was worth on a date. -/
def rateOn (fx : FxService σ ω) (currency : String) (date : Day) : StoreM σ ω Float :=
  fx.rate currency fx.rules.base date

/-- Bars quoted in `source`, in ascending order, with their prices in `target`. Either every
bar is converted or none. -/
def convert (fx : FxService σ ω) (bars : List Bar) (source target : String) :
    StoreM σ ω (List Bar) :=
  match bars.head?, bars.getLast? with
  | some first, some last => do
    let a := Currency.of source
    let b := Currency.of target
    let unit := a.unit / b.unit
    if a.code = b.code then return bars.map (Bar.scale unit)
    let w ← match fx.rules.window? first.date last.date with
      | some w => pure w
      | none => throw .outsideCalendar
    let rates ← fx.rates a.code b.code w
    let rateFor := fun (bar : Bar) =>
      (rates.asOf bar.date).or (fx.rules.fallbackRate? a.code b.code)
    match bars.find? fun bar => (rateFor bar).isNone with
    | some bar => throw (.noFxRate source bar.date)
    | none => return bars.map fun bar => match rateFor bar with
      | some rate => bar.scale (rate * unit)
      | none => bar
  | _, _ => pure bars

end FxService
end DailyBars
