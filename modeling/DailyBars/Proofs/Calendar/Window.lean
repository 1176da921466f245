import DailyBars.Proofs.Calendar.Reckoning

/-! # Windows and their business days

Narrowing a window onto business days keeps every business day of it, and a window with a business
day has one to count.
-/

namespace DailyBars

namespace Day

/-- The days of a range are those between its ends. -/
theorem mem_upTo {first last d : Day} : d ∈ first.upTo last ↔ first ≤ d ∧ d ≤ last := by
  simp only [upTo, List.mem_map, List.mem_range, le_def]
  constructor
  · rintro ⟨n, hn, rfl⟩
    rw [plus_number]
    omega
  · rintro ⟨hfirst, hlast⟩
    refine ⟨(d.number - first.number).toNat, by omega, ?_⟩
    apply Day.ext
    rw [plus_number]
    omega

/-- The days that are listed are in order. -/
theorem pairwise_upTo (first last : Day) : (first.upTo last).Pairwise (· < ·) := by
  refine List.pairwise_map.2 (List.pairwise_lt_range.imp fun {a b} hlt => ?_)
  have hcast : (a : Int) < b := Int.ofNat_lt.2 hlt
  exact Int.add_lt_add_left hcast first.number

/-- There are as many as the ends are apart, both included. -/
theorem length_upTo (first last : Day) :
    (first.upTo last).length = (last.number - first.number + 1).toNat := by
  rw [upTo, List.length_map, List.length_range]

/-- Rolling forward ends on a business day, -/
theorem isBusinessDay_rollForward (d : Day) : d.rollForward.isBusinessDay = true := by
  rw [rollForward_eq, isBusinessDay_iff]
  split
  next h => exact h
  next h =>
    have hlt := d.weekdayIndex_lt
    simp only [weekdayIndex, plus_number] at h hlt ⊢
    omega

/-- and so does rolling back. -/
theorem isBusinessDay_rollBack (d : Day) : d.rollBack.isBusinessDay = true := by
  rw [rollBack_eq, isBusinessDay_iff]
  split
  next h => exact h
  next h =>
    have hlt := d.weekdayIndex_lt
    simp only [weekdayIndex, plus_number] at h hlt ⊢
    omega

/-- Rolling forward does not go back, -/
theorem le_rollForward (d : Day) : d ≤ d.rollForward := by
  have hlt := d.weekdayIndex_lt
  rw [rollForward_eq, le_def]
  split
  · exact Int.le_refl _
  · rw [plus_number]
    omega

/-- and rolling back not forward. -/
theorem rollBack_le (d : Day) : d.rollBack ≤ d := by
  rw [rollBack_eq, le_def]
  split
  · exact Int.le_refl _
  · rw [plus_number]
    omega

/-- No business day is passed over on the way forward. -/
theorem rollForward_le {d b : Day} (h : d ≤ b) (hb : b.isBusinessDay = true) :
    d.rollForward ≤ b := by
  rw [isBusinessDay_iff] at hb
  rw [rollForward_eq]
  split
  · exact h
  next hweekend =>
    have hlt := d.weekdayIndex_lt
    simp only [le_def, weekdayIndex, plus_number] at h hweekend hlt ⊢
    omega

/-- No business day is passed over on the way back. -/
theorem le_rollBack {d b : Day} (h : b ≤ d) (hb : b.isBusinessDay = true) : b ≤ d.rollBack := by
  rw [isBusinessDay_iff] at hb
  rw [rollBack_eq]
  split
  · exact h
  next hweekend =>
    have hlt := d.weekdayIndex_lt
    simp only [le_def, weekdayIndex, plus_number] at h hweekend hlt ⊢
    omega

end Day

namespace Window

/-- Both ends are days of the calendar. -/
def InCalendar (w : Window) : Prop := w.first.InCalendar ∧ w.last.InCalendar

instance (w : Window) : Decidable w.InCalendar := inferInstanceAs (Decidable (_ ∧ _))

/-- A window has an order if its first day does not come after its last. -/
theorem isEmpty_eq_false {w : Window} : w.isEmpty = false ↔ w.first ≤ w.last := by
  simp only [isEmpty, decide_eq_false_iff_not, Day.lt_def, Day.le_def]
  omega

/-- A window contains the days between its ends, -/
theorem contains_iff {w : Window} {d : Day} : w.contains d = true ↔ w.first ≤ d ∧ d ≤ w.last := by
  simp [contains]

/-- so a backwards one contains none. -/
theorem contains_of_isEmpty {w : Window} (h : w.isEmpty = true) (d : Day) :
    w.contains d = false := by
  rw [Bool.eq_false_iff]
  intro hd
  obtain ⟨hfirst, hlast⟩ := contains_iff.1 hd
  simp only [isEmpty, decide_eq_true_eq, Day.lt_def, Day.le_def] at h hfirst hlast
  omega

/-- The window between the edges that roll inwards, unless they pass each other. -/
theorem normalized_eq (w : Window) : w.normalized
    = if isEmpty ⟨w.first.rollForward, w.last.rollBack⟩ then none
      else some ⟨w.first.rollForward, w.last.rollBack⟩ :=
  rfl

/-- What `normalized` makes of a window: a window within it that begins and ends with a business
day and has all business days. -/
structure Inner (w v : Window) : Prop where
  ordered : v.first ≤ v.last
  first : v.first.isBusinessDay = true
  last : v.last.isBusinessDay = true
  first_le : w.first ≤ v.first
  le_last : v.last ≤ w.last
  all : ∀ d, w.contains d = true → d.isBusinessDay = true → v.contains d = true

/-- A normalized window is inside the one it is made of. -/
theorem inner_of_normalized {w v : Window} (h : w.normalized = some v) : Inner w v := by
  rw [normalized_eq] at h
  split at h
  · cases h
  next hsome =>
    cases h
    exact {
      ordered := isEmpty_eq_false.1 (by simpa using hsome)
      first := w.first.isBusinessDay_rollForward
      last := w.last.isBusinessDay_rollBack
      first_le := w.first.le_rollForward
      le_last := w.last.rollBack_le
      all := fun d hd hb => contains_iff.2
        ⟨Day.rollForward_le (contains_iff.1 hd).1 hb, Day.le_rollBack (contains_iff.1 hd).2 hb⟩ }

/-- A window that is narrowed to nothing has no business day. -/
theorem not_isBusinessDay_of_normalized {w : Window} (h : w.normalized = none) {d : Day}
    (hd : w.contains d = true) : d.isBusinessDay = false := by
  rw [Bool.eq_false_iff]
  intro hb
  rw [normalized_eq] at h
  split at h
  next hempty =>
    have hfirst := Day.rollForward_le (contains_iff.1 hd).1 hb
    have hlast := Day.le_rollBack (contains_iff.1 hd).2 hb
    simp only [isEmpty, decide_eq_true_eq, Day.lt_def, Day.le_def] at hempty hfirst hlast
    omega
  next => cases h

/-- The business days of a window are counted one by one. -/
theorem businessDayCount_eq (w : Window) :
    w.businessDayCount = (w.first.upTo w.last).countP Day.isBusinessDay :=
  w.first.businessDayCount_eq w.last

/-- A window that has a business day has one to count. -/
theorem businessDayCount_ne_zero {w : Window} {d : Day} (hd : w.contains d = true)
    (hb : d.isBusinessDay = true) : w.businessDayCount ≠ 0 := by
  rw [businessDayCount_eq, ← Nat.pos_iff_ne_zero, List.countP_pos_iff]
  exact ⟨d, Day.mem_upTo.2 (contains_iff.1 hd), hb⟩

/-- Only business days are counted. -/
theorem exists_isBusinessDay_of_count {w : Window} (h : w.businessDayCount ≠ 0) :
    ∃ d, w.contains d = true ∧ d.isBusinessDay = true := by
  rw [businessDayCount_eq, ← Nat.pos_iff_ne_zero, List.countP_pos_iff] at h
  obtain ⟨d, hd, hb⟩ := h
  exact ⟨d, contains_iff.2 (Day.mem_upTo.1 hd), hb⟩

/-- There are no more business days than days. -/
theorem businessDayCount_le (w : Window) :
    w.businessDayCount ≤ (w.last.number - w.first.number + 1).toNat := by
  rw [businessDayCount_eq, ← Day.length_upTo]
  exact List.countP_le_length

end Window
end DailyBars
