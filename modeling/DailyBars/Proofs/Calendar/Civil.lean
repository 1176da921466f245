import DailyBars.Calendar.Day

/-! # Days and their dates

The date that a day is written as names that day again. Within a cycle of 400 years a day lies in
a century of 36524 days, in a group of four years of 1461 days, and in a year of 365 days; only
the last of each may be one day longer. The formula for the year counts the leap days that come
before, and the cases show that it is off by none of them.
-/

namespace DailyBars.Day

/-- The year within its cycle, and the day within its year, of a day of a cycle. -/
theorem yearOfCycle_spec {n : Int} (hlo : 0 ≤ n) (hhi : n < 146097) :
    ∃ year day, (n - n / 1460 + n / 36524 - n / 146096) / 365 = year
      ∧ n - (365 * year + year / 4 - year / 100) = day ∧ 0 ≤ year ∧ year < 400 ∧ 0 ≤ day
      ∧ (day < 365
        ∨ day = 365 ∧ (year + 1) % 4 = 0 ∧ ((year + 1) % 100 ≠ 0 ∨ (year + 1) % 400 = 0)) := by
  -- the century and the day in it: the last one may have a day more
  obtain ⟨c, r, hn, hc, hr⟩ : ∃ c r, n = 36524 * c + r ∧ (0 ≤ c ∧ c ≤ 3)
      ∧ 0 ≤ r ∧ (r < 36524 ∨ c = 3 ∧ r = 36524) :=
    ⟨min 3 (n / 36524), n - 36524 * min 3 (n / 36524), by omega, by omega, by omega⟩
  -- the group of four years, where only the last group of a century may be a day short
  obtain ⟨q, s, hrs, hq, hs⟩ : ∃ q s, r = 1461 * q + s ∧ (0 ≤ q ∧ q ≤ 24)
      ∧ 0 ≤ s ∧ (s < 1460 ∨ s = 1460 ∧ (q < 24 ∨ c = 3)) :=
    ⟨r / 1461, r % 1461, by omega, by omega, by omega⟩
  -- the year, where only the last of a group may have a day more
  obtain ⟨y, t, hst, hy, ht⟩ : ∃ y t, s = 365 * y + t ∧ (0 ≤ y ∧ y ≤ 3)
      ∧ 0 ≤ t ∧ (t < 365 ∨ y = 3 ∧ t = 365 ∧ (q < 24 ∨ c = 3)) :=
    ⟨min 3 (s / 365), s - 365 * min 3 (s / 365), by omega, by omega, by omega⟩
  have hcenturies : n / 36524 - n / 146096 = c := by
    clear hs hst ht
    rcases hr.2 with h | h <;> omega
  -- late in a group the quotient is one too large, which the last year makes up for
  have hquads : n / 1460 = 25 * c + q ∧ t < 365 ∨ n / 1460 = 25 * c + q + 1 ∧ y = 3 ∧ 0 < t := by
    clear hs hcenturies hr
    omega
  have hyear : (n - n / 1460 + n / 36524 - n / 146096) / 365 = 100 * c + 4 * q + y := by
    clear hs hr
    omega
  have hfour : (100 * c + 4 * q + y) / 4 = 25 * c + q := by omega
  have hhundred : (100 * c + 4 * q + y) / 100 = c := by omega
  have hday : n - (365 * (100 * c + 4 * q + y) + (100 * c + 4 * q + y) / 4
      - (100 * c + 4 * q + y) / 100) = t := by omega
  refine ⟨_, t, hyear, hday, by omega, by omega, ht.1, ?_⟩
  rcases ht.2 with h | ⟨rfl, rfl, h⟩
  · exact Or.inl h
  · exact Or.inr ⟨rfl, by omega, by omega⟩

/-- Months that start in March hold the days of a year, February taking what is left. -/
theorem lastDay_of_month {year : Int} {m t : Int} (hm : (5 * t + 2) / 153 = m) (ht : 0 ≤ t)
    (hlast : t < 365 ∨ t = 365 ∧ isLeapYear (year + 1) = true) :
    (0 ≤ m ∧ m ≤ 11) ∧ 0 ≤ t - (153 * m + 2) / 5
      ∧ t - (153 * m + 2) / 5 + 1 ≤ daysInMonth (if m < 10 then year else year + 1)
          (if m < 10 then m + 3 else m - 9).toNat := by
  have hbounds : 0 ≤ m ∧ m ≤ 11 := by omega
  refine ⟨hbounds, by omega, ?_⟩
  -- February comes last and takes what is left of the year
  obtain h | h : m = 11 ∨ m ≤ 10 := by omega
  · subst h
    show t - (153 * 11 + 2) / 5 + 1 ≤ ((if isLeapYear (year + 1) then 29 else 28 : Nat) : Int)
    split
    next => omega
    next hcommon =>
      have hshort : t < 365 := by
        rcases hlast with h | ⟨-, hleap⟩
        · exact h
        · exact absurd hleap hcommon
      omega
  · have hcases : m = 0 ∨ m = 1 ∨ m = 2 ∨ m = 3 ∨ m = 4 ∨ m = 5 ∨ m = 6 ∨ m = 7 ∨ m = 8 ∨ m = 9
        ∨ m = 10 := by omega
    rcases hcases with rfl | rfl | rfl | rfl | rfl | rfl | rfl | rfl | rfl | rfl | rfl <;>
      simp [daysInMonth] <;> omega

/-- No month has more than 31 days. -/
theorem daysInMonth_le (year : Int) (month : Nat) : daysInMonth year month ≤ 31 := by
  unfold daysInMonth
  repeat' split
  all_goals decide

/-- The date of a day exists, and it names the day. -/
theorem toCivil_spec (d : Day) :
    (1 ≤ d.toCivil.month ∧ d.toCivil.month ≤ 12)
      ∧ (1 ≤ d.toCivil.day ∧ d.toCivil.day ≤ daysInMonth d.toCivil.year d.toCivil.month)
      ∧ ofCivil d.toCivil = d := by
  obtain ⟨k, n, hk, hn, hnumber, hn0, hn1⟩ : ∃ k n, (d.number + 719468) / 146097 = k
      ∧ (d.number + 719468) % 146097 = n ∧ d.number = k * 146097 + n - 719468 ∧ 0 ≤ n
      ∧ n < 146097 := ⟨_, _, rfl, rfl, by omega, by omega, by omega⟩
  obtain ⟨y, t, hyear, hday, hy0, hy1, ht0, ht1⟩ := yearOfCycle_spec hn0 hn1
  have hcycle : (y + k * 400) / 400 = k := by omega
  have hoffset : (y + k * 400) % 400 = y := by omega
  have hleap : t < 365 ∨ t = 365 ∧ isLeapYear (y + k * 400 + 1) = true := by
    rcases ht1 with h | ⟨h, h4, h100⟩
    · exact Or.inl h
    · refine Or.inr ⟨h, ?_⟩
      simp only [isLeapYear, Bool.and_eq_true, Bool.or_eq_true, beq_iff_eq, bne_iff_ne]
      constructor <;> omega
  obtain ⟨m, hm⟩ : ∃ m, (5 * t + 2) / 153 = m := ⟨_, rfl⟩
  obtain ⟨hmonth, hfirst, hlast⟩ := lastDay_of_month hm ht0 hleap
  simp only [toCivil, hk, hn, hyear, hday, hm]
  refine ⟨by split <;> omega, ⟨by omega, by omega⟩, Day.ext ?_⟩
  have hdate : ((t - (153 * m + 2) / 5 + 1).toNat : Int) = t - (153 * m + 2) / 5 + 1 := by omega
  -- January and February belong to the year that follows
  by_cases h10 : m < 10
  · have hlate : ¬ (m + 3).toNat ≤ 2 := by omega
    have hback : ((m + 3).toNat : Int) - 3 = m := by omega
    simp only [ofCivil, if_pos h10, if_neg hlate, hcycle, hoffset, hback, hdate]
    omega
  · have hearly : (m - 9).toNat ≤ 2 := by omega
    have hback : ((m - 9).toNat : Int) + 9 = m := by omega
    have hyear' : y + k * 400 + 1 - 1 = y + k * 400 := by omega
    simp only [ofCivil, if_neg h10, if_pos hearly, hyear', hcycle, hoffset, hback, hdate]
    omega

/-- The date that a day is written as names it. -/
theorem ofCivil?_toCivil {d : Day} (h : d.InCalendar) : ofCivil? d.toCivil = some d := by
  obtain ⟨⟨hm0, hm1⟩, ⟨hd0, hd1⟩, hday⟩ := toCivil_spec d
  rw [ofCivil?, if_pos ⟨hm0, hm1, hd0, hd1⟩]
  simp only [hday, if_pos h]

/-- A date names days of the calendar only. -/
theorem inCalendar_of_ofCivil? {c : Civil} {d : Day} (h : ofCivil? c = some d) :
    d.InCalendar := by
  rw [ofCivil?] at h
  split at h
  · simp only at h
    split at h
    next hin =>
      cases h
      exact hin
    next => cases h
  · cases h

end DailyBars.Day
