import DailyBars.Proofs.Calendar.Window

/-! # Steps within the calendar

Where every step stays in the calendar, what is worked out within it is what an endless reckoning
gives. Rolling onto a business day never leaves the calendar, as its first and its last day are
business days. Counting business days steps past the last day that it counts.
-/

namespace DailyBars

namespace Day

/-- A step within the calendar. -/
theorem plus?_of_inCalendar {d : Day} {n : Int} (h : (d.plus n).InCalendar) :
    d.plus? n = some (d.plus n) :=
  if_pos h

/-- A step that leaves it. -/
theorem plus?_of_not_inCalendar {d : Day} {n : Int} (h : ¬ (d.plus n).InCalendar) :
    d.plus? n = none :=
  if_neg h

/-! ## Rolling -/

/-- Rolling forward stays in the calendar, which ends on a Monday. -/
theorem inCalendar_rollForward {d : Day} (h : d.InCalendar) : d.rollForward.InCalendar := by
  rw [inCalendar_iff] at h ⊢
  have hlt := d.weekdayIndex_lt
  rw [rollForward_eq]
  split
  next => exact h
  next hweekend =>
    simp only [weekdayIndex] at hweekend hlt
    rw [plus_number, weekdayIndex]
    omega

/-- Rolling back stays in the calendar, which begins with a Thursday. -/
theorem inCalendar_rollBack {d : Day} (h : d.InCalendar) : d.rollBack.InCalendar := by
  rw [inCalendar_iff] at h ⊢
  have hlt := d.weekdayIndex_lt
  rw [rollBack_eq]
  split
  next => exact h
  next hweekend =>
    simp only [weekdayIndex] at hweekend hlt
    rw [plus_number, weekdayIndex]
    omega

/-- Every day of the calendar rolls forward. -/
theorem rollForward?_eq {d : Day} (h : d.InCalendar) : d.rollForward? = some d.rollForward :=
  rollForwardWith_eq d.rollForward_eq (Reckoning.has_within h (inCalendar_rollForward h))

/-- Every day of the calendar rolls back. -/
theorem rollBack?_eq {d : Day} (h : d.InCalendar) : d.rollBack? = some d.rollBack :=
  rollBackWith_eq d.rollBack_eq (Reckoning.has_within (inCalendar_rollBack h) h)

/-! ## Counting -/

/-- Days are not counted if the one after them has no date. -/
theorem countOn_of_not_inCalendar {n : Nat} (hpos : 0 < n) {d : Day}
    (hn : ¬ (d.plus n).InCalendar) : d.countOn .within n = none := by
  induction n generalizing d with
  | zero => exact absurd hpos (Nat.lt_irrefl 0)
  | succ n ih =>
    rw [countOn]
    show (d.plus? 1).bind _ = none
    by_cases hnext : d.next.InCalendar
    · have hpos' : 0 < n := by
        rcases Nat.eq_zero_or_pos n with rfl | h
        · exact absurd hnext hn
        · exact h
      have hlast : ¬ (d.next.plus n).InCalendar := by
        rw [inCalendar_iff, plus_number] at hn ⊢
        rw [next_number]
        omega
      rw [plus?_of_inCalendar hnext, Option.bind_some]
      show (countOn .within n d.next).bind _ = none
      rw [ih hpos' hlast, Option.bind_none]
    · rw [plus?_of_not_inCalendar hnext, Option.bind_none]

/-- Business days up to a day before the last one of the calendar are counted. -/
theorem businessDayCount?_eq {first last : Day} (hfirst : first.InCalendar) (hlast : last < latest) :
    first.businessDayCount? last = some (first.businessDayCount last) := by
  rw [businessDayCount_eq, businessDayCount?]
  refine businessDayCountWith_eq fun d hd hd' => if_pos ?_
  rw [inCalendar_iff] at hfirst ⊢
  have hend : last.number < 95026236 := hlast
  simp only [le_def, next_number] at hd hd'
  omega

/-- Business days up to the last day of the calendar are not, as it has no day after it. -/
theorem businessDayCount?_latest {first : Day} (hfirst : first.InCalendar) :
    first.businessDayCount? latest = none := by
  rw [inCalendar_iff] at hfirst
  have hlatest : latest.number = 95026236 := rfl
  unfold businessDayCount? businessDayCountWith
  rw [if_neg (by rw [lt_def]; omega)]
  simp only
  show (first.plus? (7 * ((latest.number - first.number + 1).toNat / 7 : Nat))).bind _ = none
  by_cases hstart :
      (first.plus (7 * ((latest.number - first.number + 1).toNat / 7 : Nat))).InCalendar
  · rw [plus?_of_inCalendar hstart, Option.bind_some]
    rw [inCalendar_iff, plus_number] at hstart
    show (countOn .within _ _).bind _ = none
    rw [countOn_of_not_inCalendar, Option.bind_none]
    · omega
    · rw [inCalendar_iff, plus_number, plus_number]
      omega
  -- the days are whole weeks
  · rw [plus?_of_not_inCalendar hstart, Option.bind_none]

/-! ## Counting where the program may end -/

variable {ε : Type} (stop : ε)

/-- The program ends on the day that has no place. -/
theorem comesTo_countOn (n : Nat) (d : Day) :
    Reckoning.ComesTo (· = stop) ((d.countOn .within n).isSome = true)
      (Id.run (d.countOn .endless n)) (d.countOn (.ending stop) n) := by
  induction n generalizing d with
  | zero => exact (Reckoning.ComesTo.pure _).congr ⟨fun _ => rfl, fun _ => trivial⟩
  | succ n ih =>
    refine ((Reckoning.ComesTo.day stop d.next).bind fun _ => (ih d.next).map fun count =>
      count + if d.isBusinessDay then 1 else 0).congr ?_
    have hstep : d.countOn .within (n + 1) = (d.plus? 1).bind fun next =>
        (next.countOn .within n).bind fun count =>
          some (count + if d.isBusinessDay then 1 else 0) := rfl
    rw [hstep]
    by_cases hnext : d.next.InCalendar
    · rw [plus?_of_inCalendar hnext, Option.bind_some]
      show _ ↔ ((d.next.countOn .within n).bind _).isSome = true
      cases d.next.countOn .within n with
      | none => simp
      | some count => simp [hnext]
    · rw [plus?_of_not_inCalendar hnext]
      simp [hnext]

/-- Business days are counted where they can be counted within the calendar. -/
theorem comesTo_businessDayCount (first last : Day) :
    Reckoning.ComesTo (· = stop) ((first.businessDayCount? last).isSome = true)
      (first.businessDayCount last) (first.businessDayCountWith (.ending stop) last) := by
  unfold businessDayCount? businessDayCount businessDayCountWith
  split
  next => exact (Reckoning.ComesTo.pure _).congr ⟨fun _ => rfl, fun _ => trivial⟩
  next =>
    obtain ⟨total, htotal⟩ : ∃ t, t = (last.number - first.number + 1).toNat := ⟨_, rfl⟩
    simp only [← htotal]
    obtain ⟨d, hd⟩ : ∃ d, d = first.plus (7 * (total / 7 : Nat)) := ⟨_, rfl⟩
    simp only [← hd]
    refine ((Reckoning.ComesTo.day stop d).bind fun _ =>
      (comesTo_countOn stop (total % 7) d).map fun count => 5 * (total / 7) + count).congr ?_
    by_cases hin : d.InCalendar
    · have hplace : Reckoning.within.day d = some d := if_pos hin
      rw [hplace]
      show _ ↔ ((d.countOn .within (total % 7)).bind _).isSome = true
      cases d.countOn .within (total % 7) with
      | none => simp
      | some count => simp [hin]
    · have hplace : Reckoning.within.day d = none := if_neg hin
      rw [hplace]
      simp [hin]

end Day

namespace Window

/-- A window of the calendar is narrowed within it. -/
theorem normalized?_eq {w : Window} (h : w.InCalendar) : w.normalized? = some w.normalized := by
  unfold normalized? normalizedWith
  rw [show w.first.rollForwardWith .within = _ from Day.rollForward?_eq h.1,
    show w.last.rollBackWith .within = _ from Day.rollBack?_eq h.2]
  rfl

/-- A window that ends before the last day of the calendar is counted. -/
theorem businessDayCount?_eq {w : Window} (h : w.InCalendar) (hlast : w.last ≠ Day.latest) :
    w.businessDayCount? = some w.businessDayCount := by
  refine Day.businessDayCount?_eq h.1 ?_
  have hle := h.2.2
  have hne : w.last.number ≠ Day.latest.number := fun heq => hlast (Day.ext heq)
  rw [Day.le_def] at hle
  rw [Day.lt_def]
  omega

/-- Counting is a matter of the last day alone. -/
theorem businessDayCount?_ite {w : Window} (h : w.InCalendar) :
    w.businessDayCount? = if w.last = Day.latest then none else some w.businessDayCount := by
  split
  next hlatest =>
    rw [businessDayCount?, businessDayCountWith, hlatest]
    exact Day.businessDayCount?_latest h.1
  next hlast => exact businessDayCount?_eq h hlast

end Window

/-- After a day of waiting it is a later day, unless the calendar is at its end. -/
theorem Clock.day_lt_day_advance (c : Clock) (h : c.now.InCalendar) :
    c.now.day < (c.advance (.ofDays 1)).now.day ∨ c.now.day = Day.latest := by
  have hday : (c.now.plus (.ofDays 1)).day.number = c.now.day.number + 1 := by
    simp only [Instant.day, Instant.plus, Duration.ofDays, Duration.ofSeconds]
    omega
  unfold advance
  split
  next =>
    left
    show c.now.day.number < (c.now.plus (.ofDays 1)).day.number
    omega
  next hend =>
    right
    apply Day.ext
    unfold Instant.InCalendar at h hend
    rw [Day.inCalendar_iff] at h hend
    show c.now.day.number = 95026236
    omega

end DailyBars
