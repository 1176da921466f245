import Std.Data.HashMap
import DailyBars.Calendar.Reckoning
import DailyBars.Number.Binary

/-! # When a source may be asked

Every source has a standing: a day until which its quota is spent, an instant until which it
is blocked, a count of failures in a row, and the time of its last request. Before each call
the gate is read from it; after each call it is brought up to date. Sources do not affect one
another.
-/

namespace DailyBars

/-- Whether a source may be asked now. -/
inductive Gate where
  | opened
  /-- The quota is spent; the source may be asked again on this day. -/
  | disabledUntil (day : Day)
  /-- The source is blocked up to this instant. -/
  | blockedUntil (instant : Instant)
deriving DecidableEq, Repr

/-- What is remembered about one source. -/
structure Standing where
  disabledUntil : Option Day := none
  blockedUntil : Option Instant := none
  /-- Failures since the last success. -/
  failures : Nat := 0
  lastRequest : Option Instant := none
deriving DecidableEq, Repr, Inhabited

/-- When the circuit breaker trips and for how long. -/
structure Breaker where
  threshold : Nat := 3
  cooldown : Duration := .ofSeconds 1800
deriving DecidableEq, Repr

/-- The fixed rules of a limiter: its breaker, and the requests per minute that sources are
allowed. -/
structure Limits where
  breaker : Breaker := {}
  budgets : List (String × Nat) := []
deriving Repr

namespace Limits

/-- The time between two requests at `rate` requests per minute: a minute divided in
floating point and rounded to nanoseconds. -/
def spacingOf (rate : Nat) : Duration :=
  match Number.read (60.0 / Float.ofNat rate) with
  | .finite x => ⟨x.scaled .toEven 1000000000⟩
  | _ => .zero

/-- The least time between two requests to a source. Of several budgets the last counts, and
a budget of zero requests is none. -/
def spacing? (limits : Limits) (source : String) : Option Duration :=
  (limits.budgets.reverse.find? fun b => b.1 == source && b.2 != 0).map fun b => spacingOf b.2

end Limits

namespace Gate

/-- The source may be asked. -/
def isOpen (g : Gate) : Bool := g = .opened

end Gate

namespace Duration

/-- The longest time that counts as it is, about 292 million years. No instant of the calendar is
that far from another. -/
def longest : Duration := ⟨9223372036854775807000000⟩

/-- The time that is added to an instant for this one: longer ones count as a year. -/
def addable (d : Duration) : Duration := if d ≤ longest then d else .ofDays 365

end Duration

namespace Standing

/-- The gate at an instant, and the standing without the restrictions that have run out. A
spent quota is looked at first; while it holds, nothing else is. The end of a block also
clears the failures. -/
def gate (s : Standing) (now : Instant) : Gate × Standing :=
  match s.disabledUntil with
  | some day =>
    if now.day < day then (.disabledUntil day, s)
    else unblock { s with disabledUntil := none }
  | none => unblock s
where
  /-- The gate of a source whose quota is not spent. -/
  unblock (s : Standing) : Gate × Standing :=
    match s.blockedUntil with
    | some release =>
      if now < release then (.blockedUntil release, s)
      else (.opened, { s with blockedUntil := none, failures := 0 })
    | none => (.opened, s)

/-- A call succeeded. -/
def succeed (s : Standing) : Standing := { s with failures := 0 }

section

variable {μ : Type → Type} [Monad μ]

/-- The quota of the day is spent, up to the day after. -/
def disableForTodayWith (r : Reckoning μ) (s : Standing) (now : Instant) : μ Standing := do
  let day ← r.day now.day.next
  pure { s with disabledUntil := some day }

/-- Blocked for `wait` from now; a block that lasts longer stays. -/
def blockForWith (r : Reckoning μ) (s : Standing) (now : Instant) (wait : Duration) :
    μ Standing := do
  let release ← r.instant (now.plus wait.addable)
  pure { s with blockedUntil := some ((s.blockedUntil.map (·.later release)).getD release) }

/-- A call failed. From the threshold of the breaker on, every failure blocks the source. -/
def failWith (r : Reckoning μ) (s : Standing) (breaker : Breaker) (now : Instant) :
    μ Standing := do
  let failures ← r.count (s.failures + 1)
  let s := { s with failures }
  if breaker.threshold ≤ failures then s.blockForWith r now breaker.cooldown else pure s

/-- How long to wait before the next request when requests are `spacing` apart. -/
def pauseWith (r : Reckoning μ) (s : Standing) (spacing : Duration) (now : Instant) : μ Duration :=
  match s.lastRequest with
  | some last => do
    let due ← r.instant (last.plus spacing.addable)
    pure ⟨(due.nanos - now.nanos).toNat⟩
  | none => pure .zero

end

/-- The quota of the day is spent. -/
def disableForToday (s : Standing) (now : Instant) : Standing :=
  Id.run (s.disableForTodayWith .endless now)

/-- Blocked for `wait` from now. -/
def blockFor (s : Standing) (now : Instant) (wait : Duration) : Standing :=
  Id.run (s.blockForWith .endless now wait)

/-- A call failed. -/
def fail (s : Standing) (breaker : Breaker) (now : Instant) : Standing :=
  Id.run (s.failWith .endless breaker now)

/-- How long to wait before the next request. -/
def pause (s : Standing) (spacing : Duration) (now : Instant) : Duration :=
  Id.run (s.pauseWith .endless spacing now)

/-- The quota of the day is spent, if there is a day after it. -/
def disableForToday? (s : Standing) (now : Instant) : Option Standing :=
  s.disableForTodayWith .within now

/-- Blocked for `wait` from now, if the calendar lasts that long. -/
def blockFor? (s : Standing) (now : Instant) (wait : Duration) : Option Standing :=
  s.blockForWith .within now wait

/-- A call failed, if that can be counted and a block that it brings has its end in the calendar. -/
def fail? (s : Standing) (breaker : Breaker) (now : Instant) : Option Standing :=
  s.failWith .within breaker now

/-! ### Where every sum has a place -/

/-- A source whose quota is exhausted is disabled until the next day. -/
theorem disableForToday_def (s : Standing) (now : Instant) :
    s.disableForToday now = { s with disabledUntil := some now.day.next } :=
  rfl

/-- A block is put off to the later of the two ends. -/
theorem blockFor_def (s : Standing) (now : Instant) (wait : Duration) :
    s.blockFor now wait = { s with
      blockedUntil := some ((s.blockedUntil.map (·.later (now.plus wait.addable))).getD
        (now.plus wait.addable)) } :=
  rfl

/-- A failure counts, and blocks the source at the threshold. -/
theorem fail_def (s : Standing) (breaker : Breaker) (now : Instant) :
    s.fail breaker now = if breaker.threshold ≤ s.failures + 1
      then blockFor { s with failures := s.failures + 1 } now breaker.cooldown
      else { s with failures := s.failures + 1 } :=
  rfl

/-- The pause before a request is what is left of the spacing. -/
theorem pause_def (s : Standing) (spacing : Duration) (now : Instant) :
    s.pause spacing now = match s.lastRequest with
      | some last => ⟨((last.plus spacing.addable).nanos - now.nanos).toNat⟩
      | none => .zero :=
  rfl

end Standing

/-- The standings of all sources. -/
structure Limiter where
  standings : Std.HashMap String Standing := {}

namespace Limiter

/-- The standing of a source; a source that was never asked has a clean one. -/
def standing (l : Limiter) (source : String) : Standing := l.standings.getD source {}

/-- The standings with that of one source replaced. -/
def put (l : Limiter) (source : String) (s : Standing) : Limiter := ⟨l.standings.insert source s⟩

/-- The standings with that of one source changed. -/
def change (l : Limiter) (source : String) (f : Standing → Standing) : Limiter :=
  l.put source (f (l.standing source))

/-- The gate of a source. -/
def gate (l : Limiter) (source : String) (now : Instant) : Gate × Limiter :=
  let (g, s) := (l.standing source).gate now
  (g, l.put source s)

/-- The standing of a source is what was put, -/
@[simp] theorem standing_put_self (l : Limiter) (source : String) (s : Standing) :
    (l.put source s).standing source = s := by
  simp [standing, put]

/-- and the others stay. -/
theorem standing_put_of_ne (l : Limiter) {source other : String} (s : Standing)
    (h : other ≠ source) : (l.put source s).standing other = l.standing other := by
  simp [standing, put, Std.HashMap.getD_insert, Ne.symm h]

end Limiter

/-- The state in which sources are asked: the clock and the standings. -/
structure Pace where
  clock : Clock
  limiter : Limiter := {}

namespace Pace

/-- Waits until the budget of a source allows a request, and notes the time of it. A source
without a budget is not delayed. -/
def awaitBudgetWith {μ : Type → Type} [Monad μ] (r : Reckoning μ) (p : Pace) (limits : Limits)
    (source : String) : μ Pace :=
  match limits.spacing? source with
  | none => pure p
  | some spacing => do
    let wait ← (p.limiter.standing source).pauseWith r spacing p.clock.now
    let clock := if wait = .zero then p.clock else p.clock.sleep wait
    pure
      { clock
        limiter := p.limiter.change source fun s => { s with lastRequest := some clock.now } }

/-- Waits until the budget of a source allows a request. -/
def awaitBudget (p : Pace) (limits : Limits) (source : String) : Pace :=
  Id.run (p.awaitBudgetWith .endless limits source)

/-- A source without a budget does not wait. -/
theorem awaitBudget_def (p : Pace) (limits : Limits) (source : String) :
    p.awaitBudget limits source = match limits.spacing? source with
      | none => p
      | some spacing =>
        let wait := (p.limiter.standing source).pause spacing p.clock.now
        let clock := if wait = .zero then p.clock else p.clock.sleep wait
        { clock
          limiter := p.limiter.change source fun s => { s with lastRequest := some clock.now } } :=
  rfl

/-- Waits until the budget of a source allows a request, if the calendar has the time of it. -/
def awaitBudget? (p : Pace) (limits : Limits) (source : String) : Option Pace :=
  p.awaitBudgetWith .within limits source

end Pace
end DailyBars
