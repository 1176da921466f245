import DailyBars.Proofs.Calendar.CheckedSteps
import DailyBars.Proofs.Merge.Order
import DailyBars.Proofs.Number.Value

/-! # What a share of business days counts

The coverage of a window is the number of its days that carry a bar over the number of its business
days, at most one. A weekend day with a bar counts as much as a business day, so the share of the
business days that carry a bar is known from the coverage only if there is no such weekend day, or if
every business day carries a bar in any case.
-/

namespace DailyBars

namespace Series

/-! ## Days with a bar -/

/-- The days of a window that carry a bar. -/
def datedDays (bars : List Bar) (w : Window) : List Day :=
  (w.first.upTo w.last).filter fun d => (at? bars d).isSome

/-- The business days among them. -/
def businessDaysIn (bars : List Bar) (w : Window) : Nat :=
  (datedDays bars w).countP Day.isBusinessDay

/-- The other ones among them. -/
def weekendDaysIn (bars : List Bar) (w : Window) : Nat :=
  (datedDays bars w).countP fun d => ¬ d.isBusinessDay

/-- There is a bar of a date just if some bar has it. -/
theorem isSome_at? {bars : List Bar} {d : Day} :
    (at? bars d).isSome = true ↔ ∃ b ∈ bars, b.date = d := by
  rw [at?, List.find?_isSome]
  simp only [decide_eq_true_eq]

/-- The dated days are those of the window that some bar has. -/
theorem mem_datedDays {bars : List Bar} {w : Window} {d : Day} :
    d ∈ datedDays bars w ↔ w.contains d = true ∧ ∃ b ∈ bars, b.date = d := by
  rw [datedDays, List.mem_filter, Day.mem_upTo, Window.contains_iff, isSome_at?]

/-- The days that are counted are the days that carry a bar. -/
theorem daysIn_eq_length (bars : List Bar) (w : Window) :
    daysIn bars w = (datedDays bars w).length := by
  have hnodup : (datedDays bars w).Nodup := by
    refine ((Day.pairwise_upTo _ _).imp fun {a b} hlt heq => ?_).filter _
    rw [heq] at hlt
    exact Day.lt_irrefl _ hlt
  have hdates : ∀ d, d ∈ (keepFirst (clip bars w)).map Bar.date ↔ d ∈ datedDays bars w := by
    intro d
    -- the first bar of a date is a bar of that date
    have hfirst := at?_keepFirst (clip bars w) d
    rw [List.mem_map, mem_datedDays, ← isSome_at?, hfirst, isSome_at?]
    constructor
    · rintro ⟨b, hb, rfl⟩
      obtain ⟨hmem, hin⟩ := mem_clip.1 hb
      exact ⟨hin, b, hmem, rfl⟩
    · rintro ⟨hin, b, hmem, rfl⟩
      exact ⟨b, mem_clip.2 ⟨hmem, hin⟩, rfl⟩
  have hperm := (List.perm_ext_iff_of_nodup (nodup_dates (ascending_keepFirst _)) hnodup).2 hdates
  rw [daysIn, ← hperm.length_eq, List.length_map]

/-- The dated days are business days or on a weekend. -/
theorem daysIn_eq_add (bars : List Bar) (w : Window) :
    daysIn bars w = businessDaysIn bars w + weekendDaysIn bars w := by
  rw [daysIn_eq_length]
  exact List.length_eq_countP_add_countP Day.isBusinessDay

/-- No more business days are dated than the window has. -/
theorem businessDaysIn_le (bars : List Bar) (w : Window) :
    businessDaysIn bars w ≤ w.businessDayCount := by
  rw [Window.businessDayCount_eq]
  exact List.filter_sublist.countP_le

/-! ## Their share -/

/-- The value of one is one. -/
theorem value_one : Number.value 1.0 = 1 := by
  rw [isNormal_one.value_eq]
  norm_num

section Window

variable {w : Window} (hw : w.InCalendar) (hsome : w.businessDayCount ≠ 0)
include hw hsome

/-- The coverage has a place among the numbers, and says what the days with a bar are out of the
business days, or all of them if there are more. -/
theorem coverage_spec (bars : List Bar) :
    (∃ r, Number.HasRank (coverage bars w) r)
      ∧ Number.IsShare (coverage bars w) (min (daysIn bars w) w.businessDayCount)
        w.businessDayCount := by
  obtain ⟨hfew, hcount⟩ := counts_lt hw hsome bars
  have hpos := Nat.pos_of_ne_zero hsome
  have hshare := Number.isShare_quotient (a := daysIn bars w) (by omega) hpos (by omega)
  obtain ⟨r, -, hr, -⟩ :=
    Number.exists_rank_quotient_le (Nat.le_refl (daysIn bars w)) (by omega) hpos (by omega)
  have hone := hr.lt_iff_value hasRank_one
  rw [value_one] at hone
  rw [coverage_def]
  simp only
  rw [if_neg hsome]
  split
  next hlt =>
    rw [Nat.min_eq_left (hshare.le_of_lt_one hpos hcount (hone.1 hlt))]
    exact ⟨⟨r, hr⟩, hshare⟩
  next hge =>
    have hmany := hshare.le_of_one_le hpos hcount (not_lt.1 fun hlt => hge (hone.2 hlt))
    rw [Nat.min_eq_right hmany]
    exact ⟨⟨_, hasRank_one⟩, Number.isShare_one value_one hpos⟩

end Window

/-- What the coverage of a window says about its business days. -/
structure CountsDays (bars : List Bar) (w : Window) : Prop where
  /-- The expected days are the business days. -/
  expected : w.businessDayCount = (w.first.upTo w.last).countP Day.isBusinessDay
  /-- They are counted by stepping past each, which ends everything at the end of the calendar. -/
  counted : w.businessDayCount? = if w.last = Day.latest then none else some w.businessDayCount
  /-- All days with a bar count, up to the number of expected ones. -/
  share : Number.IsShare (coverage bars w)
    (min (businessDaysIn bars w + weekendDaysIn bars w) w.businessDayCount) w.businessDayCount
  exact : Number.IsShare (coverage bars w) (businessDaysIn bars w) w.businessDayCount
    ↔ weekendDaysIn bars w = 0 ∨ businessDaysIn bars w = w.businessDayCount

/-- A coverage counts the dated days over the business days. -/
theorem countsDays {w : Window} (hw : w.InCalendar) (hsome : w.businessDayCount ≠ 0)
    (bars : List Bar) : CountsDays bars w := by
  obtain ⟨-, hshare⟩ := coverage_spec hw hsome bars
  rw [daysIn_eq_add] at hshare
  refine ⟨w.businessDayCount_eq, Window.businessDayCount?_ite hw, hshare, fun hexact => ?_,
    fun hdays => ?_⟩
  · have hcount := (counts_lt hw hsome bars).2
    have hbusiness := businessDaysIn_le bars w
    have hsame := hexact.unique (Nat.pos_of_ne_zero hsome) hcount hshare hbusiness
      (Nat.min_le_right _ _)
    omega
  · have hbusiness := businessDaysIn_le bars w
    have hsame : min (businessDaysIn bars w + weekendDaysIn bars w) w.businessDayCount
        = businessDaysIn bars w := by
      omega
    rwa [hsame] at hshare

end Series

/-! ## Where a fetch stops -/

variable {ω : Type}

/-- **The coverage of a window counts its days with a bar, those at the weekend too.** Whatever the
bars, it is the number of days of the window on which a bar is dated out of the number of business
days, up to one part in `2 ^ 53` and at most one. It is the share of business days with a bar exactly
where no day of the weekend carries one or every business day does. A fetch that stops before the end
of its order has this much covered, in this sense. -/
theorem coverage_counts_dated_days {w : Window} (hw : w.InCalendar)
    (hsome : ∃ d, w.contains d = true ∧ d.isBusinessDay = true) :
    (∀ bars, Series.CountsDays bars w)
      ∧ ∀ (e : Engine ω) (q : Query) (m : Market ω), q.window = w →
        (e.fetch q m).1.attempts.length < (e.orderFor q.symbol).length →
        e.settings.minCoverage ≤ Series.coverage (e.fetch q m).1.bars w := by
  obtain ⟨d, hd, hb⟩ := hsome
  have hcount := Window.businessDayCount_ne_zero hd hb
  refine ⟨Series.countsDays hw hcount, fun e q m hquery hstop => ?_⟩
  subst hquery
  exact (e.walked_fetch m ⟨d, hd, hb⟩).enough hstop

/-! ### A weekend day in place of a business day -/

/-- From a Friday to the Monday after it. -/
def Window.fridayToMonday : Window := ⟨⟨19727⟩, ⟨19730⟩⟩

/-- A window from a Friday to a Monday. -/
theorem coverage_counts_dated_days_over_weekend :
    Window.fridayToMonday.InCalendar
      ∧ (∃ d, Window.fridayToMonday.contains d = true ∧ d.isBusinessDay = true)
      ∧ (∀ bars, Series.CountsDays bars Window.fridayToMonday)
      ∧ ∀ (e : Engine Unit) (q : Query) (m : Market Unit), q.window = Window.fridayToMonday →
        (e.fetch q m).1.attempts.length < (e.orderFor q.symbol).length →
        e.settings.minCoverage ≤ Series.coverage (e.fetch q m).1.bars Window.fridayToMonday :=
  ⟨by decide, ⟨⟨19727⟩, by decide⟩, coverage_counts_dated_days (by decide) ⟨⟨19727⟩, by decide⟩⟩

/-- A bar of each of the first two of these days. -/
def Bar.fridayAndSaturday : List Bar :=
  [⟨⟨19727⟩, 1.0, 1.0, 1.0, 1.0, 1, "GSK", "L", "yahoo"⟩,
    ⟨⟨19728⟩, 1.0, 1.0, 1.0, 1.0, 1, "GSK", "L", "yahoo"⟩]

/-- An engine whose sources have these two bars. -/
def Engine.fridayAndSaturday : Engine Unit where
  sources := { configured := fun _ => true, ask := fun _ _ _ w => (.ok Bar.fridayAndSaturday, w) }

/-- A query for the weekend. -/
def Query.weekend : Query := ⟨"GSK", "L", Window.fridayToMonday⟩

/-- They are counted as two days out of two. -/
theorem coverage_fridayAndSaturday :
    (∃ r, Number.HasRank (Series.coverage Bar.fridayAndSaturday Window.fridayToMonday) r)
      ∧ Number.IsShare (Series.coverage Bar.fridayAndSaturday Window.fridayToMonday) 2 2 := by
  obtain ⟨hrank, hshare⟩ := Series.coverage_spec (w := Window.fridayToMonday) (by decide)
    (by decide) Bar.fridayAndSaturday
  have hdays : Series.daysIn Bar.fridayAndSaturday Window.fridayToMonday = 2 := by
    rw [Series.daysIn_eq_length]
    decide
  have hcount : Window.fridayToMonday.businessDayCount = 2 := by decide
  rw [hdays, hcount] at hshare
  exact ⟨hrank, hshare⟩

/-- The usual settings want less than everything. -/
theorem isNormal_minCoverage :
    Number.IsNormal ({} : MergeSettings).minCoverage 8556839292003942 (-53) :=
  ⟨⟨by decide, rfl⟩, by decide, by decide, by decide⟩

/-- A Friday and a Saturday cover such a window. -/
theorem minCoverage_le_fridayAndSaturday : ({} : MergeSettings).minCoverage
    ≤ Series.coverage Bar.fridayAndSaturday Window.fridayToMonday := by
  obtain ⟨⟨r, hr⟩, hshare⟩ := coverage_fridayAndSaturday
  obtain ⟨-, hnear⟩ := hshare.mul_near (by decide)
  have husual : Number.HasRank ({} : MergeSettings).minCoverage _ :=
    Or.inr ⟨_, _, isNormal_minCoverage, rfl⟩
  rw [husual.le_iff_value hr, isNormal_minCoverage.value_eq]
  norm_num at hnear ⊢
  linarith

/-- A visit to a source with just these two bars gives both. -/
theorem Engine.visit_fridayAndSaturday {m : Market Unit} (hopen : (m.gate "yahoo").1 = .opened) :
    (Engine.fridayAndSaturday.visit .weekend "yahoo" [] m).1 = .rows 2
      ∧ (Engine.fridayAndSaturday.visit .weekend "yahoo" [] m).2.1 = Bar.fridayAndSaturday := by
  have hconfigured : Engine.fridayAndSaturday.sources.configured "yahoo" = true := rfl
  rw [visit_eq, if_pos hconfigured, if_pos hopen]
  exact ⟨rfl, rfl⟩

/-- The first source is asked, and nobody else. -/
theorem Engine.fetch_fridayAndSaturday :
    (Engine.fridayAndSaturday.fetch .weekend Traffic.noon).1
      = ⟨Bar.fridayAndSaturday, Series.coverage Bar.fridayAndSaturday Window.fridayToMonday,
        [⟨"yahoo", .rows 2⟩]⟩ := by
  obtain ⟨v, hv⟩ : ∃ v : Visit Unit, v = ⟨.fridayAndSaturday, .weekend, "yahoo", [], Traffic.noon⟩ :=
    ⟨_, rfl⟩
  have hopen : (Traffic.noon.gate "yahoo").1 = .opened := by
    apply Market.gate_of_fresh
    simp [Market.standing, Traffic.noon, Limiter.standing]
  obtain ⟨hrows, hbars⟩ := visit_fridayAndSaturday hopen
  have houtcome : v.outcome = .rows 2 := by
    rw [hv]
    exact hrows
  have hafter : v.barsAfter = Bar.fridayAndSaturday := by
    rw [hv]
    exact hbars
  have hcoverage : v.coverage = Series.coverage Bar.fridayAndSaturday Window.fridayToMonday := by
    rw [Visit.coverage, hafter, hv]
    rfl
  have hsufficient : v.Sufficient := by
    constructor
    · rw [houtcome]
      rfl
    · rw [hcoverage, hv]
      exact minCoverage_le_fridayAndSaturday
  have hattempt : v.attempt = ⟨"yahoo", .rows 2⟩ := by
    rw [Visit.attempt, houtcome, hv]
  have hcount : Query.weekend.window.businessDayCount ≠ 0 := by decide
  rw [fetch_def, if_neg hcount]
  show (Engine.fridayAndSaturday.walk .weekend ("yahoo" :: _) [] Traffic.noon).1 = _
  rw [walk_cons _ _ _ _ _ _ v hv, if_pos hsufficient, hafter, hcoverage, hattempt]

/-- A bar for one business day out of two is enough for a fetch to stop. -/
theorem saturday_stands_in_for_monday :
    ∃ merged, (Engine.fridayAndSaturday.fetch .weekend Traffic.noon).1 = merged
      ∧ merged.attempts.length < (Engine.fridayAndSaturday.orderFor Query.weekend.symbol).length
      ∧ Series.businessDaysIn merged.bars Window.fridayToMonday = 1
      ∧ Window.fridayToMonday.businessDayCount = 2
      ∧ ¬ Number.IsShare (Series.coverage merged.bars Window.fridayToMonday) 1 2
      ∧ (1 / 2 : ℚ) < Number.value Engine.fridayAndSaturday.settings.minCoverage := by
  refine ⟨_, Engine.fetch_fridayAndSaturday, ?_, by decide, by decide, fun hone => ?_, ?_⟩
  · show 1 < 4
    decide
  · have hsame := hone.unique (by decide) (by decide) coverage_fridayAndSaturday.2 (by decide)
      (by decide)
    cases hsame
  · show (1 / 2 : ℚ) < Number.value ({} : MergeSettings).minCoverage
    rw [isNormal_minCoverage.value_eq]
    norm_num

end DailyBars
