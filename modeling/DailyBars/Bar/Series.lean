import DailyBars.Bar.Basic

/-! # Series of bars

A series is a list of bars in ascending order of date with at most one bar on a date. Bars
arrive in any order and with repeated dates. `Series.keepLast` makes a series of them in which
the last bar of each date counts, which is how answers that follow one another are merged;
`Series.keepFirst` makes one in which the first counts, which is how the rows of one answer are
read.
-/

namespace DailyBars.Series

/-- Strictly ascending by date, so no two bars share one. -/
def Ascending (bars : List Bar) : Prop := bars.Pairwise fun a b => a.date < b.date

/-- Lays one bar under a series: before the first later bar, unless the series has a bar of
its date. -/
def layUnder (bar : Bar) : List Bar → List Bar
  | [] => [bar]
  | b :: rest =>
    if bar.date < b.date then bar :: b :: rest
    else if b.date < bar.date then b :: layUnder bar rest
    else b :: rest

/-- Laying a bar under a series adds no other. -/
theorem mem_of_mem_layUnder {bar x : Bar} {series : List Bar} (h : x ∈ layUnder bar series) :
    x = bar ∨ x ∈ series := by
  induction series with
  | nil => simpa [layUnder] using h
  | cons b rest ih =>
    rw [layUnder] at h
    split at h
    · simpa using h
    · split at h
      · rcases List.mem_cons.1 h with rfl | h
        · simp
        · rcases ih h with rfl | h <;> simp_all
      · exact Or.inr h

/-- A bar laid under a series leaves a series. -/
theorem ascending_layUnder (bar : Bar) {series : List Bar} (h : Ascending series) :
    Ascending (layUnder bar series) := by
  induction series with
  | nil => simp [layUnder, Ascending]
  | cons b rest ih =>
    obtain ⟨head, tail⟩ := List.pairwise_cons.1 h
    rw [layUnder]
    split
    next before =>
      refine List.pairwise_cons.2 ⟨fun x hx => ?_, h⟩
      rcases List.mem_cons.1 hx with rfl | hx
      · exact before
      · exact Int.lt_trans before (head x hx)
    next =>
      split
      next after =>
        refine List.pairwise_cons.2 ⟨fun x hx => ?_, ih tail⟩
        rcases mem_of_mem_layUnder hx with rfl | hx
        · exact after
        · exact head x hx
      next => exact h

/-- The series of bars in any order, in which the last bar of each date is kept: they are laid
from the last to the first, each under what lies there already. -/
def keepLast (bars : List Bar) : List Bar := bars.foldr layUnder []

/-- Keeping the last bars leaves an ascending series. -/
theorem ascending_keepLast (bars : List Bar) : Ascending (keepLast bars) := by
  induction bars with
  | nil => exact List.Pairwise.nil
  | cons b rest ih => exact ascending_layUnder b ih

/-- The series of all bars of both lists. On a date that both have, the overlay wins, and of
two bars of one list the later wins. -/
def merge (base overlay : List Bar) : List Bar := keepLast (base ++ overlay)

/-- The bars dated within the window. -/
def clip (bars : List Bar) (w : Window) : List Bar := bars.filter fun b => w.contains b.date

/-- Every bar whose date differs from that of the bar before it. -/
def dropRepeats : List Bar → List Bar
  | [] => []
  | b :: rest => b :: dropRepeatsAfter b.date rest
where
  /-- The same, for bars that follow one dated `last`. -/
  dropRepeatsAfter (last : Day) : List Bar → List Bar
    | [] => []
    | b :: rest =>
      if b.date = last then dropRepeatsAfter last rest else b :: dropRepeatsAfter b.date rest

/-- The bars in order of date; bars of one date keep their order. -/
def sortByDate (bars : List Bar) : List Bar := bars.mergeSort fun a b => decide (a.date ≤ b.date)

/-- The series of bars in any order, in which the first bar of each date is kept. -/
def keepFirst (bars : List Bar) : List Bar := dropRepeats (sortByDate bars)

/-- The window from the first to the last bar of a series. -/
def span (bars : List Bar) : Option Window :=
  match bars.head?, bars.getLast? with
  | some first, some last => some ⟨first.date, last.date⟩
  | _, _ => none

end DailyBars.Series
