import DailyBars.Calendar.Window
import Mathlib.Tactic.Ring

/-! # Rolling and counting in any reckoning

Where a reckoning has a place for every day on the way, rolling and counting come to the same day
and the same number in all of them. So the endless ones are known in closed form, and the others
wherever the calendar lasts long enough.
-/

namespace DailyBars

namespace Reckoning

/-- The reckoning has a place for every day from `first` to `last`. -/
def Has {μ : Type → Type} [Monad μ] (r : Reckoning μ) (first last : Day) : Prop :=
  ∀ d, first ≤ d → d ≤ last → r.day d = pure d

/-- An endless reckoning has a place for any day. -/
theorem has_endless (first last : Day) : endless.Has first last := fun _ _ _ => rfl

/-- The calendar has all days between two of its own. -/
theorem has_within {first last : Day} (hfirst : first.InCalendar) (hlast : last.InCalendar) :
    within.Has first last :=
  fun _ hd hd' => if_pos ⟨Int.le_trans hfirst.1 hd, Int.le_trans hd' hlast.2⟩

/-! ## Where the program may end -/

/-- The work comes to `a` if its sums fit, and otherwise the program ends, where `ends` allows it. -/
structure ComesTo {ε α : Type} (ends : ε → Prop) (fits : Prop) (a : α) (x : Except ε α) :
    Prop where
  ok : fits → x = .ok a
  error : ¬ fits → ∃ s, x = .error s ∧ ends s

namespace ComesTo

variable {ε α β : Type} {ends ends' : ε → Prop} {p q : Prop} {a : α} {b : β} {x : Except ε α}

/-- A value that is there already. -/
theorem pure (a : α) : ComesTo ends True a (Pure.pure a) :=
  ⟨fun _ => rfl, fun h => absurd trivial h⟩

/-- A value that may not fit. -/
theorem place (s : ε) (fits : Prop) [Decidable fits] (a : α) :
    ComesTo (· = s) fits a ((ending s).place fits a) :=
  ⟨fun h => if_pos h, fun h => ⟨s, if_neg h, rfl⟩⟩

/-- A day that the calendar may not have. -/
theorem day (s : ε) (d : Day) : ComesTo (· = s) d.InCalendar d ((ending s).day d) :=
  place s _ d

/-- An instant that the calendar may not have. -/
theorem instant (s : ε) (t : Instant) : ComesTo (· = s) t.InCalendar t ((ending s).instant t) :=
  place s _ t

/-- A count that may need more than 32 bits. -/
theorem count (s : ε) (n : Nat) : ComesTo (· = s) (n < UInt32.size) n ((ending s).count n) :=
  place s _ n

/-- One part of the work after the other. -/
theorem bind {f : α → Except ε β} (hx : ComesTo ends p a x) (hf : p → ComesTo ends q b (f a)) :
    ComesTo ends (p ∧ q) b (x >>= f) where
  ok h := by
    rw [hx.ok h.1]
    exact (hf h.1).ok h.2
  error h := by
    by_cases hp : p
    · rw [hx.ok hp]
      exact (hf hp).error fun hq => h ⟨hp, hq⟩
    · obtain ⟨s, hs, hends⟩ := hx.error hp
      rw [hs]
      exact ⟨s, rfl, hends⟩

/-- What is made of a value adds no sum. -/
theorem map (hx : ComesTo ends p a x) (f : α → β) :
    ComesTo ends p (f a) (x >>= fun a => Pure.pure (f a)) where
  ok h := by
    rw [hx.ok h]
    rfl
  error h := by
    obtain ⟨s, hs, hends⟩ := hx.error h
    exact ⟨s, by rw [hs]; rfl, hends⟩

/-- The program may end in more ways. -/
theorem mono (hx : ComesTo ends p a x) (h : ∀ s, ends s → ends' s) : ComesTo ends' p a x :=
  ⟨hx.ok, fun hp => (hx.error hp).imp fun s hs => ⟨hs.1, h s hs.2⟩⟩

/-- The sums that fit may be said in another way. -/
theorem congr (hx : ComesTo ends p a x) (h : p ↔ q) : ComesTo ends q a x :=
  ⟨fun hq => hx.ok (h.2 hq), fun hq => hx.error fun hp => hq (h.1 hp)⟩

/-- There is a result just when every sum fits, and then it is this one. -/
theorem eq_ok_iff (hx : ComesTo ends p a x) {a' : α} : x = .ok a' ↔ p ∧ a' = a := by
  constructor
  · intro h
    by_cases hp : p
    · rw [hx.ok hp, Except.ok.injEq] at h
      exact ⟨hp, h.symm⟩
    · obtain ⟨s, hs, -⟩ := hx.error hp
      rw [hs] at h
      cases h
  · rintro ⟨hp, rfl⟩
    exact hx.ok hp

/-- Where the program ends, some sum does not fit. -/
theorem of_eq_error (hx : ComesTo ends p a x) {s : ε} (h : x = .error s) : ¬ p ∧ ends s := by
  have hp : ¬ p := by
    intro hp
    rw [hx.ok hp] at h
    cases h
  obtain ⟨s', hs, hends⟩ := hx.error hp
  rw [h, Except.error.injEq] at hs
  exact ⟨hp, hs ▸ hends⟩

end ComesTo

end Reckoning

namespace Day

variable {μ : Type → Type} [Monad μ] {r : Reckoning μ}

/-- Monday to Friday, by the number of the day. -/
theorem isBusinessDay_iff {d : Day} : d.isBusinessDay = true ↔ (d.number + 3) % 7 < 5 :=
  decide_eq_true_iff

/-- The calendar, by the numbers of its days. -/
theorem inCalendar_iff {d : Day} :
    d.InCalendar ↔ -96465292 ≤ d.number ∧ d.number ≤ 95026236 :=
  Iff.rfl

/-! ## Rolling -/

/-- A business day is where rolling ends. -/
theorem rollBy_of_isBusinessDay {n : Int} {steps : Nat} {d : Day} (h : d.isBusinessDay = true) :
    d.rollBy r n steps = pure d := by
  cases steps with
  | zero => rfl
  | succ steps => exact if_pos h

variable [LawfulMonad μ]

/-- The first business day on the way is reached if all days up to it have a place. -/
theorem rollBy_eq {n : Int} {k steps : Nat} {d : Day} (hk : k ≤ steps)
    (hreached : (d.plus (n * k)).isBusinessDay = true)
    (hbefore : ∀ j : Nat, j < k → (d.plus (n * j)).isBusinessDay = false)
    (hplace : ∀ j : Nat, 0 < j → j ≤ k → r.day (d.plus (n * j)) = pure (d.plus (n * j))) :
    d.rollBy r n steps = pure (d.plus (n * k)) := by
  induction k generalizing d steps with
  | zero =>
    have hzero : d.plus (n * (0 : Nat)) = d := Day.ext (by simp)
    rw [hzero] at hreached ⊢
    exact rollBy_of_isBusinessDay hreached
  | succ k ih =>
    obtain ⟨steps, rfl⟩ : ∃ m, steps = m + 1 := ⟨steps - 1, by omega⟩
    have hshift : ∀ j : Nat, (d.plus n).plus (n * j) = d.plus (n * (j + 1 : Nat)) := by
      intro j
      apply Day.ext
      simp only [plus_number, Nat.cast_add, Nat.cast_one]
      ring
    have hone : d.plus (n * (1 : Nat)) = d.plus n := Day.ext (by simp)
    have hweekend : d.isBusinessDay = false := by
      have hnow := hbefore 0 (Nat.succ_pos k)
      rwa [show d.plus (n * (0 : Nat)) = d from Day.ext (by simp)] at hnow
    have hnext : r.day (d.plus n) = pure (d.plus n) := by
      have hstep := hplace 1 Nat.one_pos (by omega)
      rwa [hone] at hstep
    rw [rollBy, if_neg (by simp [hweekend]), hnext, pure_bind,
      ih (by omega) ((hshift k).symm ▸ hreached) (fun j hj => ?_) (fun j _ hj => ?_), hshift]
    · rw [hshift]
      exact hbefore (j + 1) (by omega)
    · rw [hshift]
      exact hplace (j + 1) (by omega) (by omega)

/-- Rolling forward ends after the days of the weekend that are left. -/
theorem rollForwardWith_eq {d e : Day}
    (he : e = if d.weekdayIndex < 5 then d else d.plus (7 - d.weekdayIndex)) (h : r.Has d e) :
    d.rollForwardWith r = pure e := by
  split at he
  next hbusiness =>
    rw [he]
    exact rollBy_of_isBusinessDay (decide_eq_true hbusiness)
  next hweekend =>
    have hlt := d.weekdayIndex_lt
    have htarget : e = d.plus (1 * (7 - d.weekdayIndex).toNat) := by
      apply Day.ext
      rw [he, plus_number, plus_number]
      omega
    rw [htarget] at h ⊢
    simp only [weekdayIndex] at hweekend hlt
    rw [rollForwardWith, rollBy_eq]
    · rw [weekdayIndex]
      omega
    · rw [isBusinessDay_iff, plus_number, weekdayIndex]
      omega
    · intro j hj
      rw [weekdayIndex] at hj
      rw [← Bool.not_eq_true, isBusinessDay_iff, plus_number]
      omega
    · intro j _ hj
      refine h _ ?_ ?_ <;> simp only [le_def, plus_number] <;> omega

/-- Rolling back ends after the days of the weekend that are over. -/
theorem rollBackWith_eq {d e : Day}
    (he : e = if d.weekdayIndex < 5 then d else d.plus (4 - d.weekdayIndex)) (h : r.Has e d) :
    d.rollBackWith r = pure e := by
  split at he
  next hbusiness =>
    rw [he]
    exact rollBy_of_isBusinessDay (decide_eq_true hbusiness)
  next hweekend =>
    have hlt := d.weekdayIndex_lt
    have htarget : e = d.plus (-1 * (d.weekdayIndex - 4).toNat) := by
      apply Day.ext
      rw [he, plus_number, plus_number]
      omega
    rw [htarget] at h ⊢
    simp only [weekdayIndex] at hweekend hlt
    rw [rollBackWith, rollBy_eq]
    · rw [weekdayIndex]
      omega
    · rw [isBusinessDay_iff, plus_number, weekdayIndex]
      omega
    · intro j hj
      rw [weekdayIndex] at hj
      rw [← Bool.not_eq_true, isBusinessDay_iff, plus_number]
      omega
    · intro j _ hj
      refine h _ ?_ ?_ <;> simp only [le_def, plus_number] <;> omega

/-- The day itself or the Monday after it. -/
theorem rollForward_eq (d : Day) :
    d.rollForward = if d.weekdayIndex < 5 then d else d.plus (7 - d.weekdayIndex) :=
  rollForwardWith_eq (r := .endless) rfl (Reckoning.has_endless _ _)

/-- The day itself or the Friday before it. -/
theorem rollBack_eq (d : Day) :
    d.rollBack = if d.weekdayIndex < 5 then d else d.plus (4 - d.weekdayIndex) :=
  rollBackWith_eq (r := .endless) rfl (Reckoning.has_endless _ _)

/-! ## Counting -/

/-- Any seven days in a row hold five business days. -/
theorem countP_week (first : Day) :
    (List.range 7).countP (fun n => (first.plus (n : Nat)).isBusinessDay) = 5 := by
  have hweekday : ∀ r < 7, (List.range 7).countP (fun n => decide ((r + n) % 7 < 5)) = 5 := by decide
  obtain ⟨r, hr⟩ : ∃ r : Nat, r = ((first.number + 3) % 7).toNat := ⟨_, rfl⟩
  rw [← hweekday r (by omega)]
  refine List.countP_congr fun n _ => ?_
  rw [isBusinessDay_iff, plus_number, decide_eq_true_iff]
  omega

/-- Whole weeks count by themselves. -/
theorem countP_weeks (first : Day) (weeks rest : Nat) :
    (List.range (7 * weeks + rest)).countP (fun n => (first.plus (n : Nat)).isBusinessDay)
      = 5 * weeks + (List.range rest).countP
        fun n => ((first.plus (7 * weeks)).plus (n : Nat)).isBusinessDay := by
  induction weeks generalizing first with
  | zero =>
    have hstart : first.plus (7 * (0 : Nat)) = first := Day.ext (by simp)
    rw [hstart]
    simp
  | succ weeks ih =>
    have hsplit : 7 * (weeks + 1) + rest = 7 + (7 * weeks + rest) := by omega
    have hnext : ∀ n : Nat, first.plus ((7 + n : Nat) : Int) = (first.plus 7).plus n := by
      intro n
      apply Day.ext
      simp only [plus_number]
      omega
    have hstart : (first.plus 7).plus (7 * weeks) = first.plus (7 * (weeks + 1 : Nat)) := by
      apply Day.ext
      simp only [plus_number]
      omega
    rw [hsplit, List.range_add, List.countP_append, List.countP_map, countP_week]
    simp only [Function.comp_def, hnext]
    rw [ih, hstart]
    omega

/-- The days are counted if each of them and the one after them have a place. -/
theorem countOn_eq {n : Nat} {d : Day} (h : r.Has d (d.plus n)) :
    d.countOn r n = pure ((List.range n).countP fun (k : Nat) => (d.plus k).isBusinessDay) := by
  induction n generalizing d with
  | zero => rfl
  | succ n ih =>
    have hnext : r.day d.next = pure d.next :=
      h _ (by rw [le_def, next_number]; omega) (by rw [le_def, next_number, plus_number]; omega)
    have hrest : r.Has d.next (d.next.plus n) := by
      intro e he he'
      simp only [le_def, next_number, plus_number] at he he'
      refine h e ?_ ?_ <;> simp only [le_def, plus_number] <;> omega
    have hshift : ((fun (k : Nat) => (d.plus k).isBusinessDay) ∘ Nat.succ)
        = fun (k : Nat) => (d.next.plus k).isBusinessDay := by
      funext k
      refine congrArg isBusinessDay (Day.ext ?_)
      simp only [plus_number, next_number]
      omega
    have hzero : d.plus (0 : Nat) = d := Day.ext (by simp)
    rw [countOn, hnext, pure_bind, ih hrest, pure_bind, List.range_succ_eq_map, List.countP_cons,
      List.countP_map, hshift, hzero]

/-- The count is that of the business days in the list of days, if each of them and the one after
them have a place. -/
theorem businessDayCountWith_eq {first last : Day} (h : r.Has first last.next) :
    first.businessDayCountWith r last = pure ((first.upTo last).countP isBusinessDay) := by
  unfold businessDayCountWith
  obtain ⟨total, htotal⟩ : ∃ t, t = (last.number - first.number + 1).toNat := ⟨_, rfl⟩
  rw [upTo, ← htotal, List.countP_map]
  split
  next hlt =>
    have hnone : total = 0 := by
      rw [lt_def] at hlt
      omega
    rw [hnone]
    rfl
  next hle =>
    rw [lt_def] at hle
    have hstart : r.day (first.plus (7 * (total / 7 : Nat)))
        = pure (first.plus (7 * (total / 7 : Nat))) := by
      refine h _ ?_ ?_ <;> simp only [le_def, plus_number, next_number] <;> omega
    have hrest : r.Has (first.plus (7 * (total / 7 : Nat)))
        ((first.plus (7 * (total / 7 : Nat))).plus (total % 7 : Nat)) := by
      intro e he he'
      simp only [le_def, plus_number] at he he'
      refine h e ?_ ?_ <;> simp only [le_def, next_number] <;> omega
    have hweeks := first.countP_weeks (total / 7) (total % 7)
    rw [Nat.div_add_mod] at hweeks
    simp only
    rw [hstart, pure_bind, countOn_eq hrest, pure_bind, ← hweeks]
    rfl

/-- The business days are counted. -/
theorem businessDayCount_eq (first last : Day) :
    first.businessDayCount last = (first.upTo last).countP isBusinessDay :=
  businessDayCountWith_eq (r := .endless) (Reckoning.has_endless _ _)

end Day
end DailyBars
