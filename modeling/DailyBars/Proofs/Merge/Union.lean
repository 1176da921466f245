import DailyBars.Proofs.Bar.Merging
import DailyBars.Proofs.Calendar.CheckedSteps
import DailyBars.Proofs.Merge.Coverage

/-! # Merging and covering

Merging is a union by date in which the last bar counts. It forgets no date, so whatever rows are
merged with a list of bars, over it or under it, the list covers no less of a window. A window has a
coverage if its business days can be counted, and they are counted by stepping past each of them: a
window that ends on the last day of the calendar has none.
-/

namespace DailyBars

namespace Series

/-! ## Merges after merges -/

/-- How merges of lists of bars in any order, with any number of bars of one date, follow each
other. -/
structure MergeLaws (base overlay : List Bar) : Prop where
  /-- The bars of the base and then those of the overlay are put into a series one by one, each in
  place of the one of its date. -/
  inserted : merge base overlay = overlay.foldl put (base.foldl put [])
  /-- What was merged last can be merged again. -/
  again : merge (merge base overlay) overlay = merge base overlay
  /-- Bars that are merged with themselves are merged with nothing, which leaves a series as it
  is. -/
  twice : merge base base = merge base [] ∧ (Ascending base → merge base base = base)
  assoc : ∀ third, merge (merge base overlay) third = merge base (merge overlay third)
  /-- Answers that are merged one after another are merged like one long answer, -/
  answers : ∀ rest, (overlay :: rest).foldl merge base = merge base (overlay :: rest).flatten
  /-- also if there are none and the base is a series. -/
  series : Ascending base → ∀ answers : List (List Bar),
    answers.foldl merge base = merge base answers.flatten

/-- Merging is a union by date. -/
theorem mergeLaws (base overlay : List Bar) : MergeLaws base overlay where
  inserted := merge_eq_foldl_put base overlay
  again := merge_merge_self base overlay
  twice := by
    have hself := merge_self base
    refine ⟨?_, fun h => hself.trans (keepLast_of_ascending h)⟩
    rw [hself, merge, List.append_nil]
  assoc third := merge_assoc base overlay third
  answers rest := foldl_merge_cons base overlay rest
  series h answers := by
    have hchain := foldl_merge base answers
    rwa [keepLast_of_ascending h] at hchain

/-! ## Coverage -/

/-- Counting the business days is all that can fail. -/
theorem coverage?_eq {w : Window} (hw : w.InCalendar) (bars : List Bar) :
    coverage? bars w = if w.last = Day.latest then none else some (coverage bars w) := by
  show w.businessDayCount?.bind _ = _
  rw [Window.businessDayCount?_ite hw]
  split
  next => rfl
  next =>
    rw [Option.bind_some, coverage_def]
    split
    · rfl
    · rfl

/-- Each answer leaves the coverage as it is or makes it larger. -/
theorem coverage_le_foldl_merge {w : Window} (hw : w.InCalendar) (bars : List Bar)
    (answers : List (List Bar)) : coverage bars w ≤ coverage (answers.foldl merge bars) w := by
  refine coverage_le_coverage hw ?_
  induction answers generalizing bars with
  | nil => exact Nat.le_refl _
  | cons answer rest ih => exact Nat.le_trans (daysIn_le_merge bars answer w) (ih _)

/-- What the coverage of a window is, before and after merges. -/
structure CoverageLaws (w : Window) : Prop where
  /-- Only a window that ends on the last day of the calendar has none. -/
  counted : ∀ bars,
    coverage? bars w = if w.last = Day.latest then none else some (coverage bars w)
  bounds : ∀ bars, 0.0 ≤ coverage bars w ∧ coverage bars w ≤ 1.0
  /-- Rows that are merged over the bars or under them take nothing away, -/
  merged : ∀ bars rows, coverage bars w ≤ coverage (merge bars rows) w
    ∧ coverage bars w ≤ coverage (merge rows bars) w
  /-- and neither do any number of answers. -/
  answers : ∀ bars, ∀ answers : List (List Bar),
    coverage bars w ≤ coverage (answers.foldl merge bars) w

/-- What a coverage is, and how it grows. -/
theorem coverageLaws {w : Window} (hw : w.InCalendar) : CoverageLaws w where
  counted := coverage?_eq hw
  bounds := coverage_bounds hw
  merged bars rows := ⟨coverage_le_merge bars rows hw, coverage_le_merge_right rows bars hw⟩
  answers := coverage_le_foldl_merge hw

end Series

/-- **Merging is a union by date in which the last bar counts.** For any two lists of bars there is
one series with the dates of both that has the last bar of the overlay on each, or else the last of
the base, and it is their merge. So merges can be repeated, grouped and drawn together. The coverage
of a window lies between zero and one and never becomes less by merging; it exists unless the window
ends on the last day of the calendar. -/
theorem merge_is_union_by_date (base overlay : List Bar) {w : Window} (hw : w.InCalendar) :
    (∀ merged, Series.IsUnion base overlay merged ↔ merged = Series.merge base overlay)
      ∧ Series.MergeLaws base overlay ∧ Series.CoverageLaws w :=
  ⟨fun _ => Series.isUnion_iff, Series.mergeLaws base overlay, Series.coverageLaws hw⟩

/-! ### A few days -/

/-- A bar of a day in January 2024. -/
def Bar.inJanuary (dayOfMonth : Int) (close : Float) (source : String) : Bar :=
  .flat ⟨19722 + dayOfMonth⟩ close 10 "GSK" "L" source

/-- Two lists with repeated dates, and the union of them. -/
theorem merge_is_union_by_date_in_january :
    (∀ merged,
        Series.IsUnion [.inJanuary 5 1.0 "stooq", .inJanuary 2 2.0 "stooq", .inJanuary 5 3.0 "stooq"]
          [.inJanuary 4 4.0 "yahoo", .inJanuary 2 5.0 "yahoo", .inJanuary 4 6.0 "yahoo"] merged
        ↔ merged = [.inJanuary 2 5.0 "yahoo", .inJanuary 4 6.0 "yahoo", .inJanuary 5 3.0 "stooq"])
      ∧ (Window.mk ⟨19724⟩ ⟨19729⟩).InCalendar ∧ Series.CoverageLaws ⟨⟨19724⟩, ⟨19729⟩⟩ := by
  have hw : (Window.mk ⟨19724⟩ ⟨19729⟩).InCalendar := by decide
  obtain ⟨hunion, -, hcoverage⟩ := merge_is_union_by_date
    [.inJanuary 5 1.0 "stooq", .inJanuary 2 2.0 "stooq", .inJanuary 5 3.0 "stooq"]
    [.inJanuary 4 4.0 "yahoo", .inJanuary 2 5.0 "yahoo", .inJanuary 4 6.0 "yahoo"] hw
  exact ⟨hunion, hw, hcoverage⟩

/-! ### The last day of the calendar -/

/-- The last day is a business day with a bar, and the window that holds just this day has no
coverage. -/
theorem last_day_has_no_coverage :
    Day.ofCivil? ⟨262142, 12, 31⟩ = some Day.latest ∧ Day.latest.isBusinessDay = true
      ∧ (Window.mk Day.latest Day.latest).InCalendar
      ∧ Series.coverage? [.flat Day.latest 1.0 1 "GSK" "L" "yahoo"] ⟨Day.latest, Day.latest⟩ = none :=
  ⟨by decide, by decide, by decide, rfl⟩

end DailyBars
