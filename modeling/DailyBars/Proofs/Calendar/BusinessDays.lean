import DailyBars.Instrument.Cash
import DailyBars.Proofs.Calendar.CheckedSteps

/-! # Business days, listed and counted

The count of business days is a closed form: five for each whole week, and those among the days that
are left. It agrees with the list of business days, which has every day from Monday to Friday and no
other. The days that are left are walked through one by one; the walk is given here with every step
checked, and is over after six of them at the latest.
-/

namespace DailyBars

namespace Day

/-- No days are in a backwards range. -/
theorem upTo_of_lt {first last : Day} (h : last < first) : first.upTo last = [] := by
  rw [← List.length_eq_zero_iff, length_upTo]
  rw [lt_def] at h
  omega

/-- Otherwise the first day is followed by those after it. -/
theorem upTo_of_le {first last : Day} (h : first ≤ last) :
    first.upTo last = first :: first.next.upTo last := by
  rw [le_def] at h
  have hlength : (last.number - first.number + 1).toNat
      = (last.number - first.next.number + 1).toNat + 1 := by
    rw [next_number]
    omega
  rw [upTo, upTo, hlength, List.range_succ_eq_map, List.map_cons, List.map_map]
  refine congrArg₂ List.cons (Day.ext (Int.add_zero _)) (List.map_congr_left fun n _ => ?_)
  apply Day.ext
  simp only [Function.comp_apply, plus_number, next_number]
  omega

/-- The business days are those that are neither a Saturday nor a Sunday. -/
theorem isBusinessDay_iff_weekday {d : Day} :
    d.isBusinessDay = true ↔ d.weekday ≠ .saturday ∧ d.weekday ≠ .sunday := by
  obtain ⟨k, hk⟩ : ∃ k, k = d.weekdayIndex.toNat := ⟨_, rfl⟩
  have hindex : d.isBusinessDay = true ↔ k < 5 := by
    rw [isBusinessDay, decide_eq_true_iff]
    have hnonneg := d.weekdayIndex_nonneg
    omega
  have hlt : k < 7 := by
    have hlt := d.weekdayIndex_lt
    omega
  rw [hindex, weekday, ← hk]
  clear hk hindex
  decide +revert

/-! ## The list -/

/-- A list that ends before the last day of the calendar leaves no day out. -/
theorem businessDays_eq {first last : Day} (hlast : last < latest) :
    first.businessDays last = (first.upTo last).filter isBusinessDay := by
  have hend : min last latest.previous = last := by
    apply Day.ext
    rw [lt_def] at hlast
    rw [min_number, previous_number]
    omega
  rw [businessDays, hend]

/-- The business days of a range are those before the last date of the calendar, -/
theorem mem_businessDays_iff {first last d : Day} :
    d ∈ first.businessDays last ↔ first ≤ d ∧ d ≤ last ∧ d < latest
      ∧ d.weekday ≠ .saturday ∧ d.weekday ≠ .sunday := by
  have hend : d ≤ min last latest.previous ↔ d ≤ last ∧ d < latest := by
    rw [le_def, le_def, lt_def, min_number, previous_number]
    omega
  rw [businessDays, List.mem_filter, mem_upTo, isBusinessDay_iff_weekday, hend, and_assoc, and_assoc]

/-- which are all of them if the range ends before it. -/
theorem mem_businessDays {first last d : Day} (hlast : last < latest) :
    d ∈ first.businessDays last
      ↔ first ≤ d ∧ d ≤ last ∧ d.weekday ≠ .saturday ∧ d.weekday ≠ .sunday := by
  rw [businessDays_eq hlast, List.mem_filter, mem_upTo, isBusinessDay_iff_weekday, and_assoc]

/-- The business days of a range are ascending. -/
theorem pairwise_businessDays (first last : Day) :
    (first.businessDays last).Pairwise (· < ·) :=
  (pairwise_upTo _ _).filter _

/-- There are none in a backwards range. -/
theorem businessDays_of_lt {first last : Day} (h : last < first) :
    first.businessDays last = [] := by
  have hend : min last latest.previous < first := by
    rw [lt_def] at h ⊢
    rw [min_number]
    omega
  rw [businessDays, upTo_of_lt hend, List.filter_nil]

/-! ## The count -/

/-- They are counted one by one. -/
theorem businessDayCount_eq_length {first last : Day} (hlast : last < latest) :
    first.businessDayCount last = (first.businessDays last).length := by
  rw [businessDayCount_eq, businessDays_eq hlast, List.countP_eq_length_filter]

/-- The days of a window are those up to one of its days and those after it. -/
theorem upTo_append {first mid last : Day} (hfirst : first ≤ mid.next) (hlast : mid ≤ last) :
    first.upTo mid ++ mid.next.upTo last = first.upTo last := by
  rw [le_def] at hfirst hlast
  rw [next_number] at hfirst
  have hlength : (last.number - first.number + 1).toNat = (mid.number - first.number + 1).toNat
      + (last.number - mid.next.number + 1).toNat := by
    rw [next_number]
    omega
  rw [upTo, upTo, upTo, hlength, List.range_add, List.map_append, List.map_map]
  refine congrArg (_ ++ ·) (List.map_congr_left fun n _ => ?_)
  apply Day.ext
  simp only [Function.comp_apply, plus_number, next_number]
  omega

/-- The counts of two adjacent ranges add up. -/
theorem businessDayCount_add {first mid last : Day} (hfirst : first ≤ mid.next)
    (hlast : mid ≤ last) : first.businessDayCount mid + mid.next.businessDayCount last
      = first.businessDayCount last := by
  rw [businessDayCount_eq, businessDayCount_eq, businessDayCount_eq, ← List.countP_append,
    upTo_append hfirst hlast]

/-! ## The walk through the days that are left -/

/-- Walks on from `d` until `last` is passed, and adds the business days on the way to `count`. Each
step looks at one day and goes on to the one after it, which the calendar has to have. There is no
result if so many steps are too few. -/
def walk? (last : Day) : Nat → Day → Nat → Option Nat
  | 0, d, count => if last < d then some count else none
  | steps + 1, d, count =>
    if last < d then some count
    else d.next?.bind fun next => walk? last steps next (count + if d.isBusinessDay then 1 else 0)

/-- Whole weeks are counted at once, and the days after them in at most so many steps. -/
def countWithin? (steps : Nat) (first last : Day) : Option Nat :=
  if last < first then some 0
  else
    let weeks := (last.number - first.number + 1).toNat / 7
    (first.plus? (7 * weeks)).bind fun d => walk? last steps d (5 * weeks)

/-- The walk is over when there is a step for each day. -/
theorem walk?_eq {last : Day} (hlast : last < latest) {steps : Nat} {d : Day}
    (hd : d.InCalendar) (hsteps : (last.number - d.number + 1).toNat ≤ steps) (count : Nat) :
    walk? last steps d count = some (count + (d.upTo last).countP isBusinessDay) := by
  induction steps generalizing d count with
  | zero =>
    have hpassed : last < d := by
      rw [lt_def]
      omega
    rw [walk?, if_pos hpassed, upTo_of_lt hpassed]
    rfl
  | succ steps ih =>
    rw [walk?]
    split
    next hpassed =>
      rw [upTo_of_lt hpassed]
      rfl
    next hahead =>
      have hle : d ≤ last := by
        rw [lt_def] at hahead
        rw [le_def]
        omega
      -- the last day of the calendar is still to come
      have hnext : d.next.InCalendar := by
        have hend : last.number < 95026236 := hlast
        rw [inCalendar_iff] at hd ⊢
        rw [le_def] at hle
        rw [next_number]
        omega
      rw [next?, plus?_of_inCalendar hnext, Option.bind_some]
      show walk? last steps d.next _ = _
      rw [ih hnext (by rw [next_number]; omega), upTo_of_le hle, List.countP_cons, Nat.add_assoc]
      congr 2
      exact Nat.add_comm _ _

/-- Fewer than seven days are left after the whole weeks. -/
theorem countWithin?_eq {first last : Day} (hfirst : first.InCalendar) (hlast : last < latest) :
    countWithin? 6 first last = some (first.businessDayCount last) := by
  have hend : last.number < 95026236 := hlast
  unfold countWithin?
  split
  next hlt =>
    rw [businessDayCount_eq, upTo_of_lt hlt]
    rfl
  next hordered =>
    rw [lt_def] at hordered
    rw [inCalendar_iff] at hfirst
    obtain ⟨total, htotal⟩ : ∃ t, t = (last.number - first.number + 1).toNat := ⟨_, rfl⟩
    simp only [← htotal]
    have hstart : (first.plus (7 * (total / 7 : Nat))).InCalendar := by
      rw [inCalendar_iff, plus_number]
      omega
    have hrest : (last.number - (first.plus (7 * (total / 7 : Nat))).number + 1).toNat
        = total % 7 := by
      rw [plus_number]
      omega
    have hweeks := first.countP_weeks (total / 7) (total % 7)
    rw [Nat.div_add_mod] at hweeks
    rw [plus?_of_inCalendar hstart, Option.bind_some, walk?_eq hlast hstart (by omega),
      businessDayCount_eq, upTo, upTo, hrest, ← htotal, List.countP_map, List.countP_map]
    exact congrArg some hweeks.symm

end Day

/-! ## Cash -/

namespace Cash

/-- The bar has the value of one unit of the cash. -/
def IsUnit (c : Cash) (b : Bar) : Prop := b = .flat b.date 1.0 0 c.symbol c.currency source

/-- Cash has a bar on every business day, -/
theorem map_date_bars (c : Cash) (w : Window) :
    (c.bars w).map Bar.date = w.first.businessDays w.last := by
  rw [bars, List.map_map]
  exact List.map_id _

/-- which is one unit. -/
theorem isUnit_of_mem_bars {c : Cash} {w : Window} {b : Bar} (h : b ∈ c.bars w) : c.IsUnit b := by
  obtain ⟨d, -, rfl⟩ := List.mem_map.1 h
  rfl

end Cash

/-- What the count of the business days from `first` to `last` stands for. -/
structure Day.CountsBusinessDays (first last : Day) : Prop where
  /-- The business days are listed in order, -/
  ascending : (first.businessDays last).Pairwise (· < ·)
  /-- and they are the days from Monday to Friday. -/
  weekdays : ∀ d, d ∈ first.businessDays last
    ↔ first ≤ d ∧ d ≤ last ∧ d.weekday ≠ .saturday ∧ d.weekday ≠ .sunday
  empty : last < first → first.businessDays last = []
  /-- The count is their number, -/
  length : first.businessDayCount last = (first.businessDays last).length
  /-- which is found within six steps, and without leaving the calendar. -/
  steps : countWithin? 6 first last = some (first.businessDayCount last)
  /-- Windows that follow each other add up. -/
  additive : ∀ mid, first ≤ mid.next → mid ≤ last →
    first.businessDayCount mid + mid.next.businessDayCount last = first.businessDayCount last
  /-- Cash has one bar for each business day, worth one unit. -/
  cash : ∀ c : Cash, (c.bars ⟨first, last⟩).map Bar.date = first.businessDays last
    ∧ (c.bars ⟨first, last⟩).length = first.businessDayCount last
    ∧ ∀ b ∈ c.bars ⟨first, last⟩, c.IsUnit b

/-- Between any two dates before the last one of the calendar, the count of business days is the
length of the list of all days from Monday to Friday. -/
theorem business_days_are_counted (first last : Day) (hfirst : first.InCalendar)
    (hlast : last < Day.latest) : first.CountsBusinessDays last where
  ascending := first.pairwise_businessDays last
  weekdays _ := Day.mem_businessDays hlast
  empty := Day.businessDays_of_lt
  length := Day.businessDayCount_eq_length hlast
  steps := Day.countWithin?_eq hfirst hlast
  additive _ := Day.businessDayCount_add
  cash c := by
    have hdates := c.map_date_bars ⟨first, last⟩
    refine ⟨hdates, ?_, fun _ => Cash.isUnit_of_mem_bars⟩
    rw [Day.businessDayCount_eq_length hlast, ← List.length_map Bar.date, hdates]

/-- From Friday, 25 February, to Monday, 6 March, of the year 0, which was a leap year. -/
theorem business_days_are_counted_over_leap_day :
    Day.ofCivil? ⟨0, 2, 25⟩ = some ⟨-719473⟩ ∧ Day.ofCivil? ⟨0, 3, 6⟩ = some ⟨-719463⟩
      ∧ (Day.mk (-719473)).CountsBusinessDays ⟨-719463⟩
      ∧ (Day.mk (-719473)).businessDayCount ⟨-719463⟩ = 7 :=
  ⟨by decide, by decide, business_days_are_counted _ _ (by decide) (by decide), by decide⟩

end DailyBars
