import DailyBars.Calendar.Reckoning

/-! # Business days and windows of days

Business days are Monday to Friday. A `Window` holds every day from its first to its last,
both included, and is empty when the first comes after the last. `Window.normalized` moves
both edges inward onto business days, which loses only weekend days.
-/

namespace DailyBars

namespace Day

/-- Monday to Friday. -/
def isBusinessDay (d : Day) : Bool := d.weekdayIndex < 5

section

variable {μ : Type → Type} [Monad μ]

/-- Steps of `n` days until a business day is reached, at most so many of them. -/
def rollBy (r : Reckoning μ) (n : Int) : Nat → Day → μ Day
  | 0, d => pure d
  | steps + 1, d =>
    if d.isBusinessDay then pure d
    else do rollBy r n steps (← r.day (d.plus n))

/-- The day itself if it is a business day, otherwise the Monday after it. A weekend is over after
two steps. -/
def rollForwardWith (r : Reckoning μ) (d : Day) : μ Day := d.rollBy r 1 2

/-- The day itself if it is a business day, otherwise the Friday before it. -/
def rollBackWith (r : Reckoning μ) (d : Day) : μ Day := d.rollBy r (-1) 2

/-- The number of business days among so many days in a row. Each of them is stepped past. -/
def countOn (r : Reckoning μ) : Nat → Day → μ Nat
  | 0, _ => pure 0
  | n + 1, d => do
    let count ← countOn r n (← r.day d.next)
    pure (count + if d.isBusinessDay then 1 else 0)

/-- The number of business days from `first` to `last`, zero when `last` comes first. Any
seven days in a row hold five business days, so only the days after the whole weeks are
looked at. -/
def businessDayCountWith (r : Reckoning μ) (first last : Day) : μ Nat :=
  if last < first then pure 0
  else do
    let total := (last.number - first.number + 1).toNat
    let weeks := total / 7
    let d ← r.day (first.plus (7 * weeks))
    let count ← d.countOn r (total % 7)
    pure (5 * weeks + count)

end

/-- The day itself if it is a business day, otherwise the Monday after it. -/
def rollForward (d : Day) : Day := Id.run (d.rollForwardWith .endless)

/-- The day itself if it is a business day, otherwise the Friday before it. -/
def rollBack (d : Day) : Day := Id.run (d.rollBackWith .endless)

/-- The day itself or the Monday after it, if every step stays in the calendar. -/
def rollForward? (d : Day) : Option Day := d.rollForwardWith .within

/-- The day itself or the Friday before it, if every step stays in the calendar. -/
def rollBack? (d : Day) : Option Day := d.rollBackWith .within

/-- Every day from `first` to `last`, ascending. -/
def upTo (first last : Day) : List Day :=
  (List.range (last.number - first.number + 1).toNat).map fun (n : Nat) => first.plus n

/-- The business days from `first` to `last`, ascending. The last day of the calendar has no
day after it to stop at and is never listed. -/
def businessDays (first last : Day) : List Day :=
  (first.upTo (min last latest.previous)).filter isBusinessDay

/-- The number of business days from `first` to `last`. -/
def businessDayCount (first last : Day) : Nat :=
  Id.run (first.businessDayCountWith .endless last)

/-- The number of business days from `first` to `last`, if every step stays in the calendar. -/
def businessDayCount? (first last : Day) : Option Nat := first.businessDayCountWith .within last

end Day

/-- All days from `first` to `last`, both included. -/
structure Window where
  first : Day
  last : Day
deriving DecidableEq, Hashable, Repr

namespace Window

/-- No day lies in the window. -/
def isEmpty (w : Window) : Bool := w.last < w.first

/-- The day lies in the window. -/
def contains (w : Window) (d : Day) : Bool := w.first ≤ d && d ≤ w.last

section

variable {μ : Type → Type} [Monad μ]

/-- The window between the business days nearest to its edges, on the inside. There is none
when the window holds no business day. -/
def normalizedWith (r : Reckoning μ) (w : Window) : μ (Option Window) := do
  let inner : Window := ⟨← w.first.rollForwardWith r, ← w.last.rollBackWith r⟩
  pure (if inner.isEmpty then none else some inner)

/-- The number of business days in the window. -/
def businessDayCountWith (r : Reckoning μ) (w : Window) : μ Nat :=
  w.first.businessDayCountWith r w.last

end

/-- The window between the business days nearest to its edges. -/
def normalized (w : Window) : Option Window := Id.run (w.normalizedWith .endless)

/-- The same, if every step stays in the calendar. -/
def normalized? (w : Window) : Option (Option Window) := w.normalizedWith .within

/-- The number of business days in the window. -/
def businessDayCount (w : Window) : Nat := Id.run (w.businessDayCountWith .endless)

/-- The number of business days in the window, if every step stays in the calendar. -/
def businessDayCount? (w : Window) : Option Nat := w.businessDayCountWith .within

/-- The smallest window that holds both. -/
def hull (w v : Window) : Window := ⟨min w.first v.first, max w.last v.last⟩

/-- A window written as its two dates with two dots between them. -/
def text (w : Window) : String := w.first.text ++ ".." ++ w.last.text

end Window
end DailyBars
