import DailyBars.Bar.Series
import DailyBars.Merge.Scaling
import DailyBars.Source.Query
import DailyBars.Source.Limiter

/-! # Merging the answers of several sources

The engine asks the sources of an order one after another for the same window, lays each
answer onto what it has, and stops when enough business days carry a bar. A source may be
unknown, shut off by its gate, or fail; none of that ends the walk. What the sources answer
is up to the world outside, of which only a state is known.

A walk adds to instants, days and counts. Where a sum has no place the program ends, and the walk
with it.
-/

namespace DailyBars

/-! ## Coverage of a window -/

namespace Series

/-- The number of days in the window on which a bar is dated. -/
def daysIn (bars : List Bar) (w : Window) : Nat := (keepFirst (clip bars w)).length

/-- The days with a bar divided by the business days, at most one. A window without business
days is covered. The business days are counted first. -/
def coverageWith {μ : Type → Type} [Monad μ] (r : Reckoning μ) (bars : List Bar) (w : Window) :
    μ Float := do
  let expected ← w.businessDayCountWith r
  if expected = 0 then pure 1.0
  else
    let share := Float.ofNat (daysIn bars w) / Float.ofNat expected
    pure (if share < 1.0 then share else 1.0)

/-- The share of a window that bars account for. -/
def coverage (bars : List Bar) (w : Window) : Float := Id.run (coverageWith .endless bars w)

/-- A coverage is the share of the business days, at most one. -/
theorem coverage_def (bars : List Bar) (w : Window) :
    coverage bars w =
      if w.businessDayCount = 0 then 1.0
      else
        let share := Float.ofNat (daysIn bars w) / Float.ofNat w.businessDayCount
        if share < 1.0 then share else 1.0 :=
  rfl

/-- The share of a window that bars account for, if its business days can be counted. -/
def coverage? (bars : List Bar) (w : Window) : Option Float := coverageWith .within bars w

end Series

/-! ## The sources and the walk -/

/-- The sources: which are configured, and what a source answers to a query at an instant,
given the state of the world outside. -/
structure Sources (ω : Type) where
  configured : String → Bool
  ask : String → Query → Instant → ω → Except Failure (List Bar) × ω
  /-- How long the answer takes; none at all where nothing is said. -/
  takes : String → Query → Instant → ω → Duration := fun _ _ _ _ => .zero

/-- The rules of the walk. -/
structure MergeSettings where
  /-- The share of business days with a bar at which the walk stops. -/
  minCoverage : Float := 0.95
  /-- The sources in the order in which they are asked. -/
  order : List String := ["yahoo", "stooq", "alpha_vantage", "ft"]
  /-- The order for security identifiers, unless it is empty. -/
  isinOrder : List String := ["ft"]
  /-- The longest time a source may ask to wait before it is asked again at once. -/
  maxRetryWait : Duration := .ofSeconds 30
deriving Repr

/-- What came of one entry of the order. -/
inductive Outcome where
  /-- The source answered with this many usable rows. -/
  | rows (count : Nat)
  | skipped (gate : Gate)
  | failed (failure : Failure)
  | unconfigured
deriving DecidableEq, Repr

/-- One entry of the order and what came of it. -/
structure Attempt where
  source : String
  outcome : Outcome
deriving DecidableEq, Repr

/-- The result of a walk. -/
structure Merged where
  bars : List Bar
  coverage : Float
  attempts : List Attempt

/-- What a walk changes: the time and the standings of the sources, and the world outside. -/
structure Market (ω : Type) where
  pace : Pace
  outside : ω

/-- Everything about the engine that stays the same. -/
structure Engine (ω : Type) where
  sources : Sources ω
  settings : MergeSettings := {}
  limits : Limits := {}
  scaling : Scaling := {}

namespace Outcome

/-- The source was asked. -/
def called : Outcome → Bool
  | rows _ | failed _ => true
  | skipped _ | unconfigured => false

/-- The source answered with rows, if only with none. -/
def answered : Outcome → Bool
  | rows _ => true
  | _ => false

end Outcome

namespace Merged

/-- The number of sources that were asked. -/
def calls (m : Merged) : Nat := m.attempts.countP fun a => a.outcome.called

/-- Some source answered. -/
def answered (m : Merged) : Bool := m.attempts.any fun a => a.outcome.answered

end Merged

namespace Market

variable {ω : Type}

/-- The time now. -/
def now (m : Market ω) : Instant := m.pace.clock.now

/-- The market with its clock and standings changed. -/
def withPace (m : Market ω) (f : Pace → Pace) : Market ω := { m with pace := f m.pace }

/-- The market after a sleep. -/
def sleep (m : Market ω) (wait : Duration) : Market ω :=
  m.withPace fun p => { p with clock := p.clock.sleep wait }

/-- What is noted of a source. -/
def standing (m : Market ω) (source : String) : Standing := m.pace.limiter.standing source

/-- The market with the standing of one source changed. -/
def withStanding (m : Market ω) (source : String) (f : Standing → Standing) : Market ω :=
  m.withPace fun p => { p with limiter := p.limiter.change source f }

/-- The gate of a source. -/
def gate (m : Market ω) (source : String) : Gate × Market ω :=
  let (g, limiter) := m.pace.limiter.gate source m.now
  (g, m.withPace fun p => { p with limiter })

end Market

namespace Engine

variable {ω : Type}

/-- The order in which sources are asked for a ticker. -/
def orderFor (e : Engine ω) (symbol : String) : List String :=
  if Ticker.isIsin symbol && !e.settings.isinOrder.isEmpty then e.settings.isinOrder
  else e.settings.order

/-- The wait after which a refused request is made again at once. -/
def retryWait? (e : Engine ω) (answer : Except Failure (List Bar)) : Option Duration :=
  match answer with
  | .error (.rateLimited (some wait)) => if wait ≤ e.settings.maxRetryWait then some wait else none
  | _ => none

/-- The rows of an answer that count: dated in the window and sane, in the unit that callers
expect. -/
def usable (e : Engine ω) (q : Query) (rows : List Bar) : List Bar :=
  e.scaling.apply q.exchange q.symbol
    (rows.filter fun b => q.window.contains b.date && b.isSane)

section

variable {μ : Type → Type} [Monad μ]

/-- The standing of a source after its last answer. -/
def settleWith (r : Reckoning μ) (e : Engine ω) (answer : Except Failure (List Bar))
    (now : Instant) (s : Standing) : μ Standing :=
  match answer with
  | .ok _ => pure s.succeed
  | .error (.rateLimited none) => s.disableForTodayWith r now
  | .error (.rateLimited (some wait)) => s.blockForWith r now wait
  | .error (.unavailable _) => s.failWith r e.limits.breaker now
  | .error _ => pure s

/-- Waits for the budget of a source and asks it once. Time passes until the answer is there. -/
def askWith (r : Market ω → Reckoning μ) (e : Engine ω) (source : String) (q : Query)
    (m : Market ω) : μ (Except Failure (List Bar) × Market ω) := do
  let pace ← m.pace.awaitBudgetWith (r m) e.limits source
  let m := m.withPace fun _ => pace
  let (answer, outside) := e.sources.ask source q m.now m.outside
  let clock := m.pace.clock.advance (e.sources.takes source q m.now m.outside)
  pure (answer, { pace := { m.pace with clock }, outside })

/-- Asks a source, a second time if it only wants a short wait, and settles its standing. -/
def callWith (r : Market ω → Reckoning μ) (e : Engine ω) (source : String) (q : Query)
    (m : Market ω) : μ (Except Failure (List Bar) × Market ω) := do
  let (first, m) ← e.askWith r source q m
  let (answer, m) ← (match e.retryWait? first with
    | none => pure (first, m)
    | some wait => e.askWith r source q (m.sleep wait))
  let s ← e.settleWith (r m) answer m.now (m.standing source)
  pure (answer, m.withStanding source fun _ => s)

/-- One entry of the order: what comes of it, and the bars and the market after it. -/
def visitWith (r : Market ω → Reckoning μ) (e : Engine ω) (q : Query) (source : String)
    (bars : List Bar) (m : Market ω) : μ (Outcome × List Bar × Market ω) :=
  if e.sources.configured source then
    match m.gate source with
    | (.opened, m) => do
      match ← e.callWith r source q m with
      | (.ok rows, m) =>
        let rows := e.usable q rows
        pure (.rows rows.length, Series.merge bars rows, m)
      | (.error failure, m) => pure (.failed failure, bars, m)
    | (gate, m) => pure (.skipped gate, bars, m)
  else
    pure (.unconfigured, bars, m)

/-- Walks the entries of an order that are left, with the bars so far. The walk ends early
after a source was asked and the bars cover enough. -/
def walkWith (r : Market ω → Reckoning μ) (e : Engine ω) (q : Query) :
    List String → List Bar → Market ω → μ (Merged × Market ω)
  | [], bars, m => pure (⟨bars, Series.coverage bars q.window, []⟩, m)
  | source :: rest, bars, m => do
    let (outcome, bars, m) ← e.visitWith r q source bars m
    let coverage := Series.coverage bars q.window
    if outcome.called && decide (e.settings.minCoverage ≤ coverage) then
      pure (⟨bars, coverage, [⟨source, outcome⟩]⟩, m)
    else
      let (merged, m) ← walkWith r e q rest bars m
      pure ({ merged with attempts := ⟨source, outcome⟩ :: merged.attempts }, m)

/-- The merged answers for a query. A window without business days asks nobody. -/
def fetchWith (r : Market ω → Reckoning μ) (e : Engine ω) (q : Query) (m : Market ω) :
    μ (Merged × Market ω) := do
  let count ← q.window.businessDayCountWith (r m)
  if count = 0 then pure (⟨[], Series.coverage [] q.window, []⟩, m)
  else e.walkWith r q (e.orderFor q.symbol) [] m

end

/-! ## Where the program may end

If it does, the result is the market as it then is. -/

/-- The merged answers for a query. -/
def fetch? (e : Engine ω) (q : Query) (m : Market ω) : Except (Market ω) (Merged × Market ω) :=
  e.fetchWith .ending q m

/-! ## Where every sum has a place -/

/-- The standing of a source after its last answer. -/
def settle (e : Engine ω) (answer : Except Failure (List Bar)) (now : Instant) (s : Standing) :
    Standing :=
  Id.run (e.settleWith .endless answer now s)

/-- Waits for the budget of a source and asks it once. -/
def ask (e : Engine ω) (source : String) (q : Query) (m : Market ω) :
    Except Failure (List Bar) × Market ω :=
  Id.run (e.askWith (fun _ => .endless) source q m)

/-- Asks a source, a second time if it only wants a short wait, and settles its standing. -/
def call (e : Engine ω) (source : String) (q : Query) (m : Market ω) :
    Except Failure (List Bar) × Market ω :=
  Id.run (e.callWith (fun _ => .endless) source q m)

/-- One entry of the order: what comes of it, and the bars and the market after it. -/
def visit (e : Engine ω) (q : Query) (source : String) (bars : List Bar) (m : Market ω) :
    Outcome × List Bar × Market ω :=
  Id.run (e.visitWith (fun _ => .endless) q source bars m)

/-- Walks the entries of an order that are left, with the bars so far. -/
def walk (e : Engine ω) (q : Query) (order : List String) (bars : List Bar) (m : Market ω) :
    Merged × Market ω :=
  Id.run (e.walkWith (fun _ => .endless) q order bars m)

/-- The merged answers for a query. -/
def fetch (e : Engine ω) (q : Query) (m : Market ω) : Merged × Market ω :=
  Id.run (e.fetchWith (fun _ => .endless) q m)

/-- What an answer does to the standing of its source. -/
theorem settle_def (e : Engine ω) (answer : Except Failure (List Bar)) (now : Instant)
    (s : Standing) : e.settle answer now s = match answer with
      | .ok _ => s.succeed
      | .error (.rateLimited none) => s.disableForToday now
      | .error (.rateLimited (some wait)) => s.blockFor now wait
      | .error (.unavailable _) => s.fail e.limits.breaker now
      | .error _ => s :=
  rfl

/-- A request waits for the budget of its source. -/
theorem ask_def (e : Engine ω) (source : String) (q : Query) (m : Market ω) :
    e.ask source q m =
      let m := m.withPace (·.awaitBudget e.limits source)
      let (answer, outside) := e.sources.ask source q m.now m.outside
      let clock := m.pace.clock.advance (e.sources.takes source q m.now m.outside)
      (answer, { pace := { m.pace with clock }, outside }) :=
  rfl

/-- A call is a request, and a second one if the source asks for a short wait. -/
theorem call_def (e : Engine ω) (source : String) (q : Query) (m : Market ω) :
    e.call source q m =
      let (first, m) := e.ask source q m
      let (answer, m) := match e.retryWait? first with
        | none => (first, m)
        | some wait => e.ask source q (m.sleep wait)
      (answer, m.withStanding source (e.settle answer m.now)) :=
  rfl

/-- A visit passes the gate, calls the source and merges what is usable. -/
theorem visit_def (e : Engine ω) (q : Query) (source : String) (bars : List Bar) (m : Market ω) :
    e.visit q source bars m =
      if e.sources.configured source then
        match m.gate source with
        | (.opened, m) =>
          match e.call source q m with
          | (.ok rows, m) =>
            let rows := e.usable q rows
            (.rows rows.length, Series.merge bars rows, m)
          | (.error failure, m) => (.failed failure, bars, m)
        | (gate, m) => (.skipped gate, bars, m)
      else
        (.unconfigured, bars, m) := by
  rfl

/-- A walk past no source keeps its bars. -/
theorem walk_nil (e : Engine ω) (q : Query) (bars : List Bar) (m : Market ω) :
    e.walk q [] bars m = (⟨bars, Series.coverage bars q.window, []⟩, m) :=
  rfl

/-- A walk goes on past a visit unless the bars cover enough. -/
theorem walk_cons_def (e : Engine ω) (q : Query) (source : String) (rest : List String)
    (bars : List Bar) (m : Market ω) :
    e.walk q (source :: rest) bars m =
      let (outcome, bars, m) := e.visit q source bars m
      let coverage := Series.coverage bars q.window
      if outcome.called && decide (e.settings.minCoverage ≤ coverage) then
        (⟨bars, coverage, [⟨source, outcome⟩]⟩, m)
      else
        let (merged, m) := e.walk q rest bars m
        ({ merged with attempts := ⟨source, outcome⟩ :: merged.attempts }, m) :=
  rfl

/-- A fetch of a window without business days asks nobody. -/
theorem fetch_def (e : Engine ω) (q : Query) (m : Market ω) :
    e.fetch q m =
      if q.window.businessDayCount = 0 then (⟨[], Series.coverage [] q.window, []⟩, m)
      else e.walk q (e.orderFor q.symbol) [] m :=
  rfl

end Engine
end DailyBars
