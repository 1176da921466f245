import DailyBars.Proofs.Calendar.BusinessDays
import Mathlib.Data.List.Sort

/-! # Narrowing a window onto its business days

Both edges of a window roll inwards, each onto the nearest business day. A weekend is two days long,
so that rolling takes two steps at most, and as the calendar begins with a Thursday and ends with a
Monday, it never leaves the calendar. No business day is passed over on the way: the edges meet on
the business days of the window, or they pass each other where it has none.
-/

namespace DailyBars

namespace Day

/-! ## Rolling -/

/-- Goes on in steps of `n` days until a business day is reached. There is no result if so many
steps are too few, or if one of them leaves the calendar. -/
def rollWithin? (n : Int) : Nat → Day → Option Day
  | 0, d => if d.isBusinessDay then some d else none
  | steps + 1, d =>
    if d.isBusinessDay then some d else (d.plus? n).bind (rollWithin? n steps)

/-- Steps that lead to a business day are enough. -/
theorem rollWithin?_of_rollBy {n : Int} {steps : Nat} {d b : Day}
    (h : d.rollBy .within n steps = some b) (hb : b.isBusinessDay = true) :
    d.rollWithin? n steps = some b := by
  induction steps generalizing d with
  | zero =>
    cases h
    exact if_pos hb
  | succ steps ih =>
    rw [rollBy] at h
    rw [rollWithin?]
    split at h
    next hbusiness =>
      rw [if_pos hbusiness]
      exact h
    next hweekend =>
      obtain ⟨next, hnext, hrest⟩ : ∃ next, d.plus? n = some next
        ∧ rollBy .within n steps next = some b := Option.bind_eq_some_iff.1 h
      rw [if_neg hweekend, hnext, Option.bind_some, ih hrest]

/-- Two steps suffice to roll forward, -/
theorem rollWithin?_forward {d : Day} (h : d.InCalendar) :
    d.rollWithin? 1 2 = some d.rollForward :=
  rollWithin?_of_rollBy (rollForward?_eq h) d.isBusinessDay_rollForward

/-- and to roll back. -/
theorem rollWithin?_back {d : Day} (h : d.InCalendar) :
    d.rollWithin? (-1) 2 = some d.rollBack :=
  rollWithin?_of_rollBy (rollBack?_eq h) d.isBusinessDay_rollBack

/-- A step that does not leave the calendar ends in it. -/
theorem inCalendar_of_plus? {d e : Day} {n : Int} (h : d.plus? n = some e) : e.InCalendar := by
  by_cases hin : (d.plus n).InCalendar
  · rw [plus?_of_inCalendar hin] at h
    exact Option.some.inj h ▸ hin
  · rw [plus?_of_not_inCalendar hin] at h
    cases h

/-- Whatever is reached from a day of the calendar lies in the calendar. -/
theorem inCalendar_of_rollWithin? {n : Int} {steps : Nat} {d b : Day} (hd : d.InCalendar)
    (h : d.rollWithin? n steps = some b) : b.InCalendar := by
  induction steps generalizing d with
  | zero =>
    rw [rollWithin?] at h
    split at h
    · exact Option.some.inj h ▸ hd
    · cases h
  | succ steps ih =>
    rw [rollWithin?] at h
    split at h
    · exact Option.some.inj h ▸ hd
    · obtain ⟨next, hnext, hrest⟩ := Option.bind_eq_some_iff.1 h
      exact ih (inCalendar_of_plus? hnext) hrest

/-- A business day stays when rolled forward -/
theorem rollForward_of_isBusinessDay {d : Day} (h : d.isBusinessDay = true) : d.rollForward = d :=
  rollBy_of_isBusinessDay (r := .endless) h

/-- and when rolled back. -/
theorem rollBack_of_isBusinessDay {d : Day} (h : d.isBusinessDay = true) : d.rollBack = d :=
  rollBy_of_isBusinessDay (r := .endless) h

/-- What rolling a day onto a business day comes to, in both directions. -/
structure RollsOntoBusinessDays (d : Day) : Prop where
  /-- It ends within two steps, none of which leaves the calendar, -/
  forward : d.rollWithin? 1 2 = some d.rollForward
  back : d.rollWithin? (-1) 2 = some d.rollBack
  forward_inCalendar : d.rollForward.InCalendar
  back_inCalendar : d.rollBack.InCalendar
  /-- on a business day, -/
  forward_business : d.rollForward.isBusinessDay = true
  back_business : d.rollBack.isBusinessDay = true
  /-- which is the first one not before the day, -/
  forward_first : d ≤ d.rollForward
    ∧ ∀ b, d ≤ b → b.isBusinessDay = true → d.rollForward ≤ b
  /-- and the last one not after it. -/
  back_last : d.rollBack ≤ d ∧ ∀ b, b ≤ d → b.isBusinessDay = true → b ≤ d.rollBack

/-- From every day of the calendar both rolls end on the nearest business day. -/
theorem rollsOntoBusinessDays {d : Day} (h : d.InCalendar) : d.RollsOntoBusinessDays where
  forward := rollWithin?_forward h
  back := rollWithin?_back h
  forward_inCalendar := inCalendar_of_rollWithin? h (rollWithin?_forward h)
  back_inCalendar := inCalendar_of_rollWithin? h (rollWithin?_back h)
  forward_business := d.isBusinessDay_rollForward
  back_business := d.isBusinessDay_rollBack
  forward_first := ⟨d.le_rollForward, fun _ => rollForward_le⟩
  back_last := ⟨d.rollBack_le, fun _ => le_rollBack⟩

end Day

/-! ## Windows -/

namespace Window

/-- A window between business days is narrow already. -/
theorem normalized_of_isBusinessDay {w : Window} (hordered : w.first ≤ w.last)
    (hfirst : w.first.isBusinessDay = true) (hlast : w.last.isBusinessDay = true) :
    w.normalized = some w := by
  have hempty : ¬ w.isEmpty = true := by
    rw [isEmpty_eq_false.2 hordered]
    exact Bool.false_ne_true
  rw [normalized_eq, Day.rollForward_of_isBusinessDay hfirst,
    Day.rollBack_of_isBusinessDay hlast]
  exact if_neg hempty

/-- The business days of a window are in it. -/
theorem mem_businessDays {w : Window} (hlast : w.last < Day.latest) {d : Day} :
    d ∈ w.first.businessDays w.last ↔ w.contains d = true ∧ d.isBusinessDay = true := by
  rw [Day.mem_businessDays hlast, Day.isBusinessDay_iff_weekday, contains_iff, and_assoc]

/-- A narrower window has no other days. -/
theorem Inner.contains {w v : Window} (h : w.Inner v) {d : Day} (hd : v.contains d = true) :
    w.contains d = true := by
  obtain ⟨hfirst, hlast⟩ := contains_iff.1 hd
  exact contains_iff.2 ⟨Int.le_trans h.first_le hfirst, Int.le_trans hlast h.le_last⟩

/-- No business day gets lost, and none is gained. -/
theorem Inner.businessDays_eq {w v : Window} (h : w.Inner v) (hlast : w.last < Day.latest) :
    v.first.businessDays v.last = w.first.businessDays w.last := by
  have : Std.Irrefl (α := Day) (· < ·) := ⟨fun d => Int.lt_irrefl d.number⟩
  have : Std.Antisymm (α := Day) (· < ·) :=
    ⟨fun _ _ hab hba => absurd hba (Int.lt_asymm hab)⟩
  have hinner : v.last < Day.latest := Int.lt_of_le_of_lt h.le_last hlast
  refine (Day.pairwise_businessDays _ _).eq_of_mem_iff (Day.pairwise_businessDays _ _) fun d => ?_
  rw [mem_businessDays hinner, mem_businessDays hlast]
  constructor
  · rintro ⟨hd, hb⟩
    exact ⟨h.contains hd, hb⟩
  · rintro ⟨hd, hb⟩
    exact ⟨h.all d hd hb, hb⟩

/-- Nothing is left of a window just when it has no business day. The edges of a reversed window
stay apart, as those of a weekend pass each other. -/
theorem normalized_eq_none_iff {w : Window} (hlast : w.last < Day.latest) :
    w.normalized = none ↔ w.first.businessDays w.last = [] := by
  constructor
  · intro h
    refine List.eq_nil_iff_forall_not_mem.2 fun d hd => ?_
    obtain ⟨hin, hb⟩ := (mem_businessDays hlast).1 hd
    rw [not_isBusinessDay_of_normalized h hin] at hb
    exact Bool.false_ne_true hb
  · intro h
    cases hnarrow : w.normalized with
    | none => rfl
    | some v =>
      -- the first edge of what is left would be a business day of the window
      have hinner := inner_of_normalized hnarrow
      have hedge : v.contains v.first = true :=
        contains_iff.2 ⟨Int.le_refl _, hinner.ordered⟩
      have hmem := (mem_businessDays hlast).2 ⟨hinner.contains hedge, hinner.first⟩
      rw [h] at hmem
      cases hmem

/-- What narrowing a window onto its business days comes to. -/
structure KeepsBusinessDays (w : Window) : Prop where
  /-- Rolling the edges does not leave the calendar. -/
  checked : w.normalized? = some w.normalized
  /-- Nothing is left just when there is no business day. -/
  none_iff : w.normalized = none ↔ w.first.businessDays w.last = []
  /-- Otherwise a window is left that lies within the first one, -/
  inside : ∀ v, w.normalized = some v → w.first ≤ v.first ∧ v.first ≤ v.last ∧ v.last ≤ w.last
  /-- has business days for its edges, -/
  edges : ∀ v, w.normalized = some v →
    v.first.isBusinessDay = true ∧ v.last.isBusinessDay = true
  /-- has the same business days -/
  businessDays : ∀ v, w.normalized = some v →
    v.first.businessDays v.last = w.first.businessDays w.last
  /-- and is not narrowed any further. -/
  settled : ∀ v, w.normalized = some v → v.normalized = some v

/-- Normalizing keeps the business days of every window that ends before the last date. -/
theorem keepsBusinessDays {w : Window} (h : w.InCalendar) (hlast : w.last < Day.latest) :
    w.KeepsBusinessDays where
  checked := normalized?_eq h
  none_iff := normalized_eq_none_iff hlast
  inside _ hv :=
    have hinner := inner_of_normalized hv
    ⟨hinner.first_le, hinner.ordered, hinner.le_last⟩
  edges _ hv := ⟨(inner_of_normalized hv).first, (inner_of_normalized hv).last⟩
  businessDays _ hv := (inner_of_normalized hv).businessDays_eq hlast
  settled _ hv :=
    have hinner := inner_of_normalized hv
    normalized_of_isBusinessDay hinner.ordered hinner.first hinner.last

end Window

/-- Narrowing a window that ends before the last day of the calendar keeps its business days, and
every day of the calendar rolls onto the nearest business day in either direction. -/
theorem normalization_keeps_business_days (w : Window) (hw : w.InCalendar)
    (hlast : w.last < Day.latest) :
    w.KeepsBusinessDays ∧ ∀ d : Day, d.InCalendar → d.RollsOntoBusinessDays :=
  ⟨Window.keepsBusinessDays hw hlast, fun _ => Day.rollsOntoBusinessDays⟩

/-- From Saturday, 6 January, to Sunday, 14 January 2024, the five days in between are left. Of
Saturday and Sunday alone nothing is, nor of the same days the other way round. -/
theorem normalization_of_weekends :
    (Window.mk ⟨19728⟩ ⟨19736⟩).KeepsBusinessDays
      ∧ (Window.mk ⟨19728⟩ ⟨19736⟩).normalized = some ⟨⟨19730⟩, ⟨19734⟩⟩
      ∧ (Window.mk ⟨19728⟩ ⟨19729⟩).KeepsBusinessDays
      ∧ (Window.mk ⟨19728⟩ ⟨19729⟩).normalized = none
      ∧ (Window.mk ⟨19736⟩ ⟨19728⟩).KeepsBusinessDays
      ∧ (Window.mk ⟨19736⟩ ⟨19728⟩).normalized = none :=
  ⟨(normalization_keeps_business_days _ (by decide) (by decide)).1, by decide,
    (normalization_keeps_business_days _ (by decide) (by decide)).1, by decide,
    (normalization_keeps_business_days _ (by decide) (by decide)).1, by decide⟩

end DailyBars
