import DailyBars.Proofs.Bar.Series
import DailyBars.Proofs.Calendar.CheckedSteps
import DailyBars.Store.Coverage

/-! # What is covered and what is missing

A window that may be absent is the set of days it covers. The hull of two of them covers the days
between covered days. What an assessment leaves missing lies outside the covered window but beside
it, so that the hull with any of the missing ranges covers nothing else.
-/

namespace DailyBars

namespace Window

/-- The day lies in the window, if there is one. -/
def Covers (c : Option Window) (d : Day) : Prop := ∃ w, c = some w ∧ w.first ≤ d ∧ d ≤ w.last

/-- The first day of the window does not come after its last, if there is one. -/
def Ordered (c : Option Window) : Prop := ∀ w, c = some w → w.first ≤ w.last

/-- Nothing covers no day, -/
@[simp] theorem not_covers_none (d : Day) : ¬ Covers none d := by
  rintro ⟨w, hw, -⟩
  cases hw

/-- and a window those between its ends. -/
@[simp] theorem covers_some {w : Window} {d : Day} :
    Covers (some w) d ↔ w.first ≤ d ∧ d ≤ w.last := by
  constructor
  · rintro ⟨v, hv, h⟩
    cases hv
    exact h
  · intro h
    exact ⟨w, rfl, h⟩

/-- Days between covered days are covered. -/
theorem covers_between {c : Option Window} {x d y : Day} (hx : Covers c x) (hy : Covers c y)
    (hxd : x ≤ d) (hdy : d ≤ y) : Covers c d := by
  obtain ⟨w, rfl, hfirst, -⟩ := hx
  obtain ⟨v, hv, -, hlast⟩ := hy
  cases hv
  exact ⟨w, rfl, Int.le_trans hfirst hxd, Int.le_trans hdy hlast⟩

/-- Windows of which one comes after the other have no day in common. -/
theorem not_covers_of_last_lt {r u : Window} (h : r.last < u.first) {d : Day}
    (hd : Covers (some r) d) : ¬ Covers (some u) d := by
  simp only [covers_some, Day.le_def, Day.lt_def] at h hd ⊢
  omega

/-- A hull covers what its first part covers, -/
theorem covers_hull?_left {a : Option Window} (b : Option Window) {d : Day} (h : Covers a d) :
    Covers (hull? a b) d := by
  obtain ⟨w, rfl, hfirst, hlast⟩ := h
  cases b with
  | none => exact ⟨w, rfl, hfirst, hlast⟩
  | some v =>
    rw [hull?, covers_some, hull, Day.le_def, Day.le_def, Day.min_number, Day.max_number]
    rw [Day.le_def] at hfirst hlast
    omega

/-- and what its second does. -/
theorem covers_hull?_right (a : Option Window) {b : Option Window} {d : Day} (h : Covers b d) :
    Covers (hull? a b) d := by
  obtain ⟨w, rfl, hfirst, hlast⟩ := h
  cases a with
  | none => exact ⟨w, rfl, hfirst, hlast⟩
  | some v =>
    rw [hull?, covers_some, hull, Day.le_def, Day.le_def, Day.min_number, Day.max_number]
    rw [Day.le_def] at hfirst hlast
    omega

/-- The hull covers the days between covered days and no others. -/
theorem covers_hull? {a b : Option Window} (ha : Ordered a) (hb : Ordered b) {d : Day} :
    Covers (hull? a b) d ↔ (∃ x, (Covers a x ∨ Covers b x) ∧ x ≤ d)
      ∧ ∃ y, (Covers a y ∨ Covers b y) ∧ d ≤ y := by
  constructor
  · intro h
    cases a with
    | none =>
      cases b with
      | none => exact absurd h (not_covers_none d)
      | some v => exact ⟨⟨d, Or.inr h, Int.le_refl _⟩, d, Or.inr h, Int.le_refl _⟩
    | some w =>
      cases b with
      | none => exact ⟨⟨d, Or.inl h, Int.le_refl _⟩, d, Or.inl h, Int.le_refl _⟩
      | some v =>
        have hw : w.first ≤ w.last := ha w rfl
        have hv : v.first ≤ v.last := hb v rfl
        simp only [hull?, covers_some, hull, Day.le_def, Day.min_number, Day.max_number]
          at h hw hv ⊢
        refine ⟨?_, ?_⟩
        · by_cases hle : w.first.number ≤ d.number
          · exact ⟨w.first, Or.inl (by omega), hle⟩
          · exact ⟨v.first, Or.inr (by omega), by omega⟩
        · by_cases hle : d.number ≤ w.last.number
          · exact ⟨w.last, Or.inl (by omega), hle⟩
          · exact ⟨v.last, Or.inr (by omega), by omega⟩
  · rintro ⟨⟨x, hx, hxd⟩, y, hy, hdy⟩
    have hmem : ∀ {z}, Covers a z ∨ Covers b z → Covers (hull? a b) z :=
      fun h => h.elim (covers_hull?_left b) (covers_hull?_right a)
    exact covers_between (hmem hx) (hmem hy) hxd hdy

/-- A hull is not backwards if its parts are not, -/
theorem ordered_hull? {a b : Option Window} (ha : Ordered a) (hb : Ordered b) :
    Ordered (hull? a b) := by
  intro w hw
  cases a with
  | none => exact hb w hw
  | some v =>
    cases b with
    | none => exact ha w hw
    | some u =>
      have hv : v.first ≤ v.last := ha v rfl
      cases hw
      rw [Day.le_def] at hv
      rw [hull, Day.le_def, Day.min_number, Day.max_number]
      omega

/-- No day lies between the two windows. -/
def Touches (w v : Window) : Prop := v.first ≤ w.last.next ∧ w.first ≤ v.last.next

/-- The hull of windows that touch covers no day beyond theirs. -/
theorem covers_hull_of_touches {w v : Window} (h : Touches w v) {d : Day}
    (hd : Covers (some (w.hull v)) d) : Covers (some w) d ∨ Covers (some v) d := by
  obtain ⟨hleft, hright⟩ := h
  simp only [covers_some, hull, Day.le_def, Day.min_number, Day.max_number,
    Day.next_number] at hd hleft hright ⊢
  omega

end Window

namespace Series

/-- nor is the span of an ascending series, -/
theorem ordered_span {rows : List Bar} (h : Ascending rows) : Window.Ordered (span rows) := by
  intro w hw
  obtain ⟨⟨b, hb, hfirst⟩, -⟩ := exists_mem_of_span hw
  have hdate := date_mem_span h hw hb
  exact Int.le_trans hdate.1 hdate.2

/-- The span of a series covers the days between dates of its bars. -/
theorem covers_span {rows : List Bar} (h : Ascending rows) {d : Day} :
    Window.Covers (span rows) d ↔ ∃ a ∈ rows, ∃ b ∈ rows, a.date ≤ d ∧ d ≤ b.date := by
  constructor
  · rintro ⟨w, hw, hfirst, hlast⟩
    obtain ⟨⟨a, ha, haw⟩, b, hb, hbw⟩ := exists_mem_of_span hw
    exact ⟨a, ha, b, hb, haw ▸ hfirst, hbw ▸ hlast⟩
  · rintro ⟨a, ha, b, hb, had, hdb⟩
    obtain ⟨w, hw⟩ := exists_span (List.ne_nil_of_mem ha)
    exact ⟨w, hw, Int.le_trans (date_mem_span h hw ha).1 had,
      Int.le_trans hdb (date_mem_span h hw hb).2⟩

end Series

namespace CheckedSpan

/-- A span counts for its days, but from the day after the check on only for those before the day
of the check. -/
theorem covers_settled {s : CheckedSpan} {today d : Day} :
    Window.Covers (s.settled today) d
      ↔ s.first ≤ d ∧ d ≤ s.last ∧ (s.checkedOn < today → d < s.checkedOn) := by
  simp only [settled_def]
  split
  -- the day of the check and what comes after it no longer count
  next htrimmed =>
    obtain ⟨hpast, hreach⟩ := htrimmed
    split
    next hempty =>
      simp only [Window.isEmpty, decide_eq_true_eq, Day.lt_def, Day.le_def,
        Day.previous_number] at hempty hpast hreach ⊢
      refine iff_of_false (Window.not_covers_none d) ?_
      omega
    next =>
      simp only [Window.covers_some, Day.lt_def, Day.le_def, Day.previous_number] at hpast hreach ⊢
      omega
  -- all of it counts
  next hwhole =>
    split
    next hempty =>
      simp only [Window.isEmpty, decide_eq_true_eq, Day.lt_def, Day.le_def] at hempty hwhole ⊢
      refine iff_of_false (Window.not_covers_none d) ?_
      omega
    next =>
      simp only [Window.covers_some, Day.lt_def, Day.le_def] at hwhole ⊢
      omega

/-- nor the settled part of a check. -/
theorem ordered_settled (s : CheckedSpan) (today : Day) : Window.Ordered (s.settled today) := by
  intro w hw
  simp only [settled_def, Option.ite_none_left_eq_some, Option.some.injEq] at hw
  obtain ⟨hsome, rfl⟩ := hw
  exact Window.isEmpty_eq_false.1 (by simpa using hsome)

/-- A span is trimmed within the calendar, unless the day before the check is not in it. -/
theorem settled?_eq_ite (s : CheckedSpan) (today : Day) : s.settled? today
    = if (s.checkedOn < today ∧ s.checkedOn ≤ s.last) ∧ ¬ s.checkedOn.previous.InCalendar then none
      else some (s.settled today) := by
  rw [settled_def]
  unfold settled? settledWith
  by_cases htrim : s.checkedOn < today ∧ s.checkedOn ≤ s.last
  · by_cases hprevious : s.checkedOn.previous.InCalendar
    · rw [if_pos htrim, if_neg fun h => h.2 hprevious, if_pos htrim]
      show (s.checkedOn.plus? (-1)).bind _ = _
      rw [Day.plus?_of_inCalendar hprevious]
      rfl
    · rw [if_pos htrim, if_pos ⟨htrim, hprevious⟩]
      show (s.checkedOn.plus? (-1)).bind _ = _
      rw [Day.plus?_of_not_inCalendar hprevious]
      rfl
  · rw [if_neg htrim, if_neg fun h => htrim h.1, if_neg htrim]
    rfl

/-- What still counts is the same wherever it can be worked out. -/
theorem eq_of_settledOf? {checked : Option CheckedSpan} {today : Day} {w : Option Window}
    (h : settledOf? checked today = some w) : w = checked.bind (·.settled today) := by
  cases checked with
  | none => exact (Option.some.inj h).symm
  | some s =>
    rw [settledOf?, settled?_eq_ite] at h
    split at h
    · cases h
    · exact (Option.some.inj h).symm

end CheckedSpan

namespace Coverage

/-- Ranges outside a covered window and apart from one another, with no day between it and any of
them. -/
structure Gaps (c : Option Window) (ranges : List Window) : Prop where
  ordered : ∀ r ∈ ranges, r.first ≤ r.last
  outside : ∀ r ∈ ranges, ∀ d, Window.Covers (some r) d → ¬ Window.Covers c d
  apart : ranges.Pairwise fun r v => ∀ d, Window.Covers (some r) d → ¬ Window.Covers (some v) d
  touches : ∀ v, c = some v → ∀ r ∈ ranges, Window.Touches v r
  alone : c = .none → ranges.length ≤ 1

/-- No ranges are gaps of anything. -/
theorem Gaps.nil (c : Option Window) : Gaps c [] where
  ordered _ h := absurd h List.not_mem_nil
  outside _ h := absurd h List.not_mem_nil
  apart := List.Pairwise.nil
  touches _ _ _ h := absurd h List.not_mem_nil
  alone _ := Nat.zero_le 1

/-- What is missing of a window lies before and after the covered one. -/
theorem mem_missing {v w r : Window} : r ∈ (assess (some v) w).missing w ↔
    w.first < v.first ∧ r = ⟨w.first, v.first.previous⟩
      ∨ v.last < w.last ∧ r = ⟨v.last.next, w.last⟩ := by
  simp only [assess_def]
  split
  next hfull =>
    simp only [missing, List.not_mem_nil, false_iff, Day.lt_def]
    simp only [Day.le_def] at hfull
    omega
  next =>
    simp only [missing, List.mem_append]
    refine or_congr ?_ ?_ <;> split <;> simp_all

/-- What is missing before the covered window comes first. -/
theorem pairwise_missing {v : Window} (hv : v.first ≤ v.last) (w : Window) :
    ((assess (some v) w).missing w).Pairwise fun r u => r.last < u.first := by
  rw [Day.le_def] at hv
  simp only [assess_def]
  split
  · exact List.Pairwise.nil
  · refine List.pairwise_append.2 ⟨?_, ?_, ?_⟩
    · split <;> simp
    · split <;> simp
    · intro r hr u hu
      have hr' : r = ⟨w.first, v.first.previous⟩ := by
        split at hr <;> simp_all
      have hu' : u = ⟨v.last.next, w.last⟩ := by
        split at hu <;> simp_all
      rw [hr', hu']
      simp only [Day.lt_def, Day.previous_number, Day.next_number]
      omega

/-- What an assessment asks for are gaps. -/
theorem gaps_assess {c : Option Window} {w : Window} (hc : Window.Ordered c)
    (hw : w.first ≤ w.last) : Gaps c ((assess c w).missing w) := by
  cases c with
  | none =>
    exact {
      ordered := by simpa [assess_def, missing] using hw
      outside := fun r _ d _ => Window.not_covers_none d
      apart := List.pairwise_singleton _ _
      touches := fun v hv => by cases hv
      alone := fun _ => Nat.le_refl 1 }
  | some v =>
    have hv : v.first.number ≤ v.last.number := hc v rfl
    refine { ordered := ?_, outside := ?_, touches := ?_, alone := ?_,
             apart := (pairwise_missing (hc v rfl) w).imp fun h _ => Window.not_covers_of_last_lt h }
    · intro r hr
      rcases mem_missing.1 hr with ⟨hgap, rfl⟩ | ⟨hgap, rfl⟩
      all_goals
        simp only [Day.lt_def, Day.le_def, Day.previous_number, Day.next_number] at hgap ⊢
        omega
    · intro r hr d hd
      rcases mem_missing.1 hr with ⟨-, rfl⟩ | ⟨-, rfl⟩
      all_goals
        simp only [Window.covers_some, Day.le_def, Day.previous_number, Day.next_number] at hd ⊢
        omega
    · intro u hu r hr
      cases hu
      rcases mem_missing.1 hr with ⟨hgap, rfl⟩ | ⟨hgap, rfl⟩
      all_goals
        simp only [Window.Touches, Day.lt_def, Day.le_def, Day.previous_number,
          Day.next_number] at hgap ⊢
        omega
    · intro h
      cases h

/-- The gaps that are missing of a window: with the covered window they cover all of it, each
shares an end with it, and none reaches beyond both. -/
structure Missing (c : Option Window) (w : Window) (ranges : List Window) : Prop
    extends Gaps c ranges where
  complete : ∀ d, Window.Covers (some w) d →
    Window.Covers c d ∨ ∃ r ∈ ranges, Window.Covers (some r) d
  shares : ∀ r ∈ ranges, r.first = w.first ∨ r.last = w.last
  first_le : ∀ r ∈ ranges, w.first ≤ r.first ∨ ∃ x, Window.Covers c x ∧ x ≤ r.first
  le_last : ∀ r ∈ ranges, r.last ≤ w.last ∨ ∃ x, Window.Covers c x ∧ r.last ≤ x

/-- A day of the hull is covered or lies before or after what is covered. -/
theorem covers_or_missing {v w : Window} {d : Day} (hd : Window.Covers (some (v.hull w)) d) :
    Window.Covers (some v) d ∨ ∃ r ∈ (assess (some v) w).missing w, Window.Covers (some r) d := by
  simp only [Window.covers_some, Window.hull, Day.le_def, Day.min_number, Day.max_number] at hd
  by_cases hbefore : d < v.first
  · refine Or.inr ⟨⟨w.first, v.first.previous⟩, mem_missing.2 (Or.inl ⟨?_, rfl⟩), ?_⟩
    all_goals
      simp only [Window.covers_some, Day.lt_def, Day.le_def, Day.previous_number] at hbefore ⊢
      omega
  · by_cases hafter : v.last < d
    · refine Or.inr ⟨⟨v.last.next, w.last⟩, mem_missing.2 (Or.inr ⟨?_, rfl⟩), ?_⟩
      all_goals
        simp only [Window.covers_some, Day.lt_def, Day.le_def, Day.next_number] at hbefore hafter ⊢
        omega
    · left
      simp only [Window.covers_some, Day.lt_def, Day.le_def] at hbefore hafter ⊢
      omega

/-- What an assessment asks for is the missing part of the window. -/
theorem missing_assess {c : Option Window} {w : Window} (hc : Window.Ordered c)
    (hw : w.first ≤ w.last) : Missing c w ((assess c w).missing w) := by
  cases c with
  | none =>
    exact {
      toGaps := gaps_assess hc hw
      complete := fun d hd => Or.inr ⟨w, List.mem_singleton_self w, hd⟩
      shares := fun r hr => Or.inl (by rw [List.mem_singleton.1 hr])
      first_le := fun r hr => Or.inl (by rw [List.mem_singleton.1 hr]; exact Int.le_refl _)
      le_last := fun r hr => Or.inl (by rw [List.mem_singleton.1 hr]; exact Int.le_refl _) }
  | some v =>
    have hv : v.first ≤ v.last := hc v rfl
    refine { toGaps := gaps_assess hc hw, shares := ?_, first_le := ?_, le_last := ?_,
             complete := fun d hd => covers_or_missing (Window.covers_hull?_right (some v) hd) }
    · intro r hr
      rcases mem_missing.1 hr with ⟨-, rfl⟩ | ⟨-, rfl⟩
      · exact Or.inl rfl
      · exact Or.inr rfl
    · intro r hr
      rcases mem_missing.1 hr with ⟨-, rfl⟩ | ⟨-, rfl⟩
      · exact Or.inl (Int.le_refl _)
      · refine Or.inr ⟨v.last, Window.covers_some.2 ⟨hv, Int.le_refl _⟩, ?_⟩
        rw [Day.le_def, Day.next_number]
        omega
    · intro r hr
      rcases mem_missing.1 hr with ⟨-, rfl⟩ | ⟨-, rfl⟩
      · refine Or.inr ⟨v.first, Window.covers_some.2 ⟨Int.le_refl _, hv⟩, ?_⟩
        rw [Day.le_def, Day.previous_number]
        omega
      · exact Or.inl (Int.le_refl _)

/-- Nothing is missing only if all of the window is covered. -/
theorem assess_eq_full {c : Option Window} {w : Window} :
    assess c w = full ↔ ∃ v, c = some v ∧ v.first ≤ w.first ∧ w.last ≤ v.last := by
  cases c with
  | none => simp [assess_def]
  | some v =>
    simp only [assess_def]
    split
    next h => simpa using h
    next h => simpa using h

end Coverage
end DailyBars
