import DailyBars.Merge.Engine
import Mathlib.Data.List.Perm.Subperm
import DailyBars.Proofs.Bar.Series
import DailyBars.Proofs.Number.Quotient

/-! # Coverage never shrinks

Merging more rows into a series keeps every date of it, so the days of a window that carry a bar
only become more. Their share of the business days is rounded, and is still never smaller than
before.
-/

namespace DailyBars

namespace Series

/-! ## Days with a bar -/

/-- A series whose dates another one has too is no longer. -/
theorem length_le_of_dates {bars others : List Bar} (h : Ascending bars)
    (hdates : ∀ b ∈ bars, ∃ c ∈ others, c.date = b.date) : bars.length ≤ others.length := by
  have hsubset : bars.map Bar.date ⊆ others.map Bar.date := by
    intro d hd
    obtain ⟨b, hb, rfl⟩ := List.mem_map.1 hd
    obtain ⟨c, hc, hdate⟩ := hdates b hb
    exact List.mem_map.2 ⟨c, hc, hdate⟩
  simpa using (List.subperm_of_subset (nodup_dates h) hsubset).length_le

/-- A series that has all dates of some bars has a bar on as many days of a window. -/
theorem daysIn_le_of_dates {bars others : List Bar} (h : Ascending others)
    (hdates : ∀ b ∈ bars, ∃ c ∈ others, c.date = b.date) (w : Window) :
    daysIn bars w ≤ daysIn others w := by
  rw [daysIn, daysIn, keepFirst_of_ascending (ascending_clip h w)]
  refine length_le_of_dates (ascending_keepFirst _) fun b hb => ?_
  obtain ⟨hmem, hin⟩ := mem_clip.1 (mem_of_mem_keepFirst hb)
  obtain ⟨c, hc, hdate⟩ := hdates b hmem
  exact ⟨c, mem_clip.2 ⟨hc, by rwa [hdate]⟩, hdate⟩

/-- Merging keeps the days of a window that carry a bar. -/
theorem daysIn_le_merge (bars rows : List Bar) (w : Window) :
    daysIn bars w ≤ daysIn (merge bars rows) w :=
  daysIn_le_of_dates (ascending_merge bars rows)
    (fun _ hb => exists_mem_keepLast (List.mem_append_left rows hb)) w

/-- A merge has the days of its overlay. -/
theorem daysIn_le_merge_right (rows bars : List Bar) (w : Window) :
    daysIn bars w ≤ daysIn (merge rows bars) w :=
  daysIn_le_of_dates (ascending_merge rows bars)
    (fun _ hb => exists_mem_keepLast (List.mem_append_right rows hb)) w

/-- There are no more days with bars than the window has. -/
theorem daysIn_le (bars : List Bar) {w : Window} (hw : w.first ≤ w.last) :
    (daysIn bars w : Int) ≤ w.last.number - w.first.number + 1 := by
  rw [Day.le_def] at hw
  refine length_le_of_ascending (ascending_keepFirst _) (by omega) fun b hb => ?_
  exact Window.contains_iff.1 (mem_clip.1 (mem_of_mem_keepFirst hb)).2

/-! ## Their share -/

/-- One is a number exactly. -/
theorem isNormal_one : Number.IsNormal 1.0 (2 ^ 52) (-52) :=
  ⟨⟨by decide, rfl⟩, by decide, by decide, by decide⟩

/-- The rank of one, -/
theorem hasRank_one : Number.HasRank 1.0 (Number.rank (2 ^ 52) (-52)) :=
  Or.inr ⟨_, _, isNormal_one, rfl⟩

/-- and that of zero. -/
theorem hasRank_zero : Number.HasRank 0.0 0 := Or.inl ⟨rfl, rfl⟩

/-- A window of the calendar has few enough days for their number to be exact. -/
theorem counts_lt {w : Window} (hw : w.InCalendar) (hsome : w.businessDayCount ≠ 0)
    (bars : List Bar) : daysIn bars w < 2 ^ 52 ∧ w.businessDayCount < 2 ^ 52 := by
  obtain ⟨d, hd, -⟩ := Window.exists_isBusinessDay_of_count hsome
  obtain ⟨hfirst, hlast⟩ := Window.contains_iff.1 hd
  have hdaysLe := daysIn_le bars (Int.le_trans hfirst hlast)
  have hcountLe := w.businessDayCount_le
  have hearliest := hw.1.1
  have hlatest := hw.2.2
  simp only [Day.le_def, Day.earliest, Day.latest] at hearliest hlatest
  omega

/-- More days with a bar are no smaller a share. -/
theorem coverage_le_coverage {bars bars' : List Bar} {w : Window} (hw : w.InCalendar)
    (hdays : daysIn bars w ≤ daysIn bars' w) : coverage bars w ≤ coverage bars' w := by
  rw [coverage_def, coverage_def]
  simp only
  split
  · exact (hasRank_one.le_iff hasRank_one).2 (Int.le_refl _)
  next hsome =>
    obtain ⟨hfew, hcount⟩ := counts_lt hw hsome bars'
    obtain ⟨r, s, hr, hs, hle⟩ := Number.exists_rank_quotient_le hdays (by omega)
      (Nat.pos_of_ne_zero hsome) (by omega)
    -- each of the two may be cut off at one
    split
    next hshare =>
      split
      next => exact (hr.le_iff hs).2 hle
      next => exact (hr.le_iff hasRank_one).2 (Int.le_of_lt ((hr.lt_iff hasRank_one).1 hshare))
    next hshare =>
      split
      next hshare' =>
        rw [hr.lt_iff hasRank_one] at hshare
        rw [hs.lt_iff hasRank_one] at hshare'
        omega
      next => exact (hasRank_one.le_iff hasRank_one).2 (Int.le_refl _)

/-- Merging rows into a series never makes it cover less. -/
theorem coverage_le_merge (bars rows : List Bar) {w : Window} (hw : w.InCalendar) :
    coverage bars w ≤ coverage (merge bars rows) w :=
  coverage_le_coverage hw (daysIn_le_merge bars rows w)

/-- Nor does laying a series over other rows. -/
theorem coverage_le_merge_right (rows bars : List Bar) {w : Window} (hw : w.InCalendar) :
    coverage bars w ≤ coverage (merge rows bars) w :=
  coverage_le_coverage hw (daysIn_le_merge_right rows bars w)

/-- A coverage has its place between those of zero and one. -/
theorem exists_rank_coverage {w : Window} (hw : w.InCalendar) (bars : List Bar) :
    ∃ r, Number.HasRank (coverage bars w) r ∧ 0 ≤ r ∧ r ≤ Number.rank (2 ^ 52) (-52) := by
  have hone : 0 ≤ Number.rank (2 ^ 52) (-52) := hasRank_one.nonneg
  rw [coverage_def]
  simp only
  split
  · exact ⟨_, hasRank_one, hone, Int.le_refl _⟩
  next hsome =>
    obtain ⟨hfew, hcount⟩ := counts_lt hw hsome bars
    obtain ⟨r, -, hr, -⟩ := Number.exists_rank_quotient_le (Nat.le_refl (daysIn bars w)) (by omega)
      (Nat.pos_of_ne_zero hsome) (by omega)
    split
    next hshare => exact ⟨r, hr, hr.nonneg, Int.le_of_lt ((hr.lt_iff hasRank_one).1 hshare)⟩
    next => exact ⟨_, hasRank_one, hone, Int.le_refl _⟩

/-- A coverage is a number from zero to one. -/
theorem coverage_bounds {w : Window} (hw : w.InCalendar) (bars : List Bar) :
    0.0 ≤ coverage bars w ∧ coverage bars w ≤ 1.0 := by
  obtain ⟨r, hr, hnonneg, hle⟩ := exists_rank_coverage hw bars
  exact ⟨(hasRank_zero.le_iff hr).2 hnonneg, (hr.le_iff hasRank_one).2 hle⟩

end Series
end DailyBars
