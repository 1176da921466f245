import DailyBars.Merge.Engine
import DailyBars.Proofs.Bar.Series

/-! # What a walk produces

Whatever the sources answer, the bars of a walk form a series, and each of them was a sane row of
some answer, dated in the window that was asked for. A walk that no source answers has no bars.
Time only moves forward meanwhile.
-/

namespace DailyBars

/-! ## Time -/

namespace Instant

/-- Instants are compared by their nanoseconds. -/
theorem le_def {a b : Instant} : a ≤ b ↔ a.nanos ≤ b.nanos := Iff.rfl

/-- A later instant is not on an earlier day. -/
theorem day_le_day {a b : Instant} (h : a ≤ b) : a.day ≤ b.day :=
  Int.ediv_le_ediv (by decide) h

end Instant

/-! ## Units -/

namespace Scaling

/-- The bar in the unit that callers expect. -/
def rescale (s : Scaling) (exchange symbol : String) (b : Bar) : Bar :=
  match s.factor? exchange symbol with
  | some factor => if factor == 1.0 then b else b.scale factor
  | none => b

/-- Scaling works on each bar by itself. -/
theorem apply_eq_map (s : Scaling) (exchange symbol : String) (bars : List Bar) :
    s.apply exchange symbol bars = bars.map (s.rescale exchange symbol) := by
  cases hfactor : s.factor? exchange symbol with
  | none =>
    have hid : s.rescale exchange symbol = id := by
      funext b
      simp only [rescale, hfactor]
      rfl
    simp only [apply, hfactor, hid, List.map_id]
  | some factor =>
    by_cases hone : (factor == 1.0) = true
    · have hid : s.rescale exchange symbol = id := by
        funext b
        simp only [rescale, hfactor, hone, if_true]
        rfl
      simp only [apply, hfactor, hone, if_true, hid, List.map_id]
    · have hscale : s.rescale exchange symbol = Bar.scale factor := by
        funext b
        simp only [rescale, hfactor, if_neg hone]
      simp only [apply, hfactor, if_neg hone, hscale]

/-- Scaling leaves the date. -/
@[simp] theorem rescale_date (s : Scaling) (exchange symbol : String) (b : Bar) :
    (s.rescale exchange symbol b).date = b.date := by
  unfold rescale
  split
  · split <;> rfl
  · rfl

end Scaling

variable {ω : Type}

namespace Market

/-- The second market comes after the first: its clock shows no earlier time, and a time of the
calendar if that of the first was. -/
structure Before (m m' : Market ω) : Prop where
  now_le : m.now ≤ m'.now
  inCalendar : m.now.InCalendar → m'.now.InCalendar

/-- A market is not before itself in time. -/
theorem Before.refl (m : Market ω) : Before m m := ⟨Int.le_refl _, id⟩

/-- Time that does not go backwards twice does not go backwards. -/
theorem Before.trans {m₁ m₂ m₃ : Market ω} (h : Before m₁ m₂) (h' : Before m₂ m₃) : Before m₁ m₃ :=
  ⟨Int.le_trans h.now_le h'.now_le, fun hin => h'.inCalendar (h.inCalendar hin)⟩

/-- Where the clock stays, time does not go backwards, -/
theorem before_of_now_eq {m m' : Market ω} (h : m'.now = m.now) : Before m m' :=
  ⟨by rw [h]; exact Int.le_refl _, fun hin => by rwa [h]⟩

/-- Time that passes takes a market to a later one. -/
theorem before_of_advance {m m' : Market ω} {d : Duration}
    (h : m'.now = (m.pace.clock.advance d).now) : Before m m' := by
  have hadvance : m.now ≤ (m.pace.clock.advance d).now
      ∧ (m.now.InCalendar → (m.pace.clock.advance d).now.InCalendar) := by
    rw [Clock.advance]
    split
    next hin =>
      refine ⟨?_, fun _ => hin⟩
      have hpos : m.now.nanos ≤ m.now.nanos + (d.nanos : Int) := by omega
      exact hpos
    next => exact ⟨Int.le_refl _, id⟩
  exact ⟨h ▸ hadvance.1, fun hin => h ▸ hadvance.2 hin⟩

/-- nor does it in a sleep, -/
theorem before_sleep (m : Market ω) (wait : Duration) : m.Before (m.sleep wait) :=
  before_of_advance rfl

end Market

namespace Engine

/-- in the wait for a budget, -/
theorem before_awaitBudget (m : Market ω) (limits : Limits) (source : String) :
    m.Before (m.withPace (·.awaitBudget limits source)) := by
  cases hspacing : limits.spacing? source with
  | none =>
    apply Market.before_of_now_eq
    simp [Market.now, Market.withPace, Pace.awaitBudget_def, hspacing]
  | some spacing =>
    by_cases hwait : (m.pace.limiter.standing source).pause spacing m.pace.clock.now = .zero
    · apply Market.before_of_now_eq
      simp [Market.now, Market.withPace, Pace.awaitBudget_def, hspacing, hwait]
    · have hnow : (m.withPace (·.awaitBudget limits source)).now = (m.pace.clock.advance
          ((m.pace.limiter.standing source).pause spacing m.pace.clock.now)).now := by
        simp [Market.now, Market.withPace, Pace.awaitBudget_def, hspacing, hwait, Clock.sleep]
      exact Market.before_of_advance hnow

/-- while a source is asked, -/
theorem before_ask (e : Engine ω) (source : String) (q : Query) (m : Market ω) :
    m.Before (e.ask source q m).2 :=
  (before_awaitBudget m e.limits source).trans (Market.before_of_advance rfl)

/-- during a call, -/
theorem before_call (e : Engine ω) (source : String) (q : Query) (m : Market ω) :
    m.Before (e.call source q m).2 := by
  have hsettle : ∀ (m : Market ω) f, m.Before (m.withStanding source f) :=
    fun m f => Market.before_of_now_eq rfl
  have hfirst := before_ask e source q m
  rw [call_def]
  simp only
  split
  next => exact hfirst.trans (hsettle _ _)
  -- a second request, after a sleep
  next wait hwait =>
    have hslept := hfirst.trans (Market.before_sleep _ wait)
    exact (hslept.trans (before_ask e source q _)).trans (hsettle _ _)

/-- a visit, -/
theorem before_visit (e : Engine ω) (q : Query) (source : String) (bars : List Bar) (m : Market ω) :
    m.Before (e.visit q source bars m).2.2 := by
  have hgate : m.Before (m.gate source).2 := Market.before_of_now_eq rfl
  have hcall := before_call e source q (m.gate source).2
  rw [visit_def]
  split
  · split
    next m' heq =>
      rw [heq] at hgate hcall
      split
      next rows m'' hanswer =>
        rw [hanswer] at hcall
        exact hgate.trans hcall
      next failure m'' hanswer =>
        rw [hanswer] at hcall
        exact hgate.trans hcall
    next g m' hclosed heq =>
      rw [heq] at hgate
      exact hgate
  · exact Market.Before.refl m

/-- or a walk. -/
theorem before_walk (e : Engine ω) (q : Query) (order : List String) (bars : List Bar)
    (m : Market ω) : m.Before (e.walk q order bars m).2 := by
  induction order generalizing bars m with
  | nil => exact Market.Before.refl m
  | cons source rest ih =>
    have hvisit := before_visit e q source bars m
    rw [walk_cons_def]
    simp only
    split
    · exact hvisit
    · exact hvisit.trans (ih _ _)

/-- Asking takes a market to a later one. -/
theorem before_fetch (e : Engine ω) (q : Query) (m : Market ω) : m.Before (e.fetch q m).2 := by
  rw [fetch_def]
  split
  · exact Market.Before.refl m
  · exact before_walk e q _ _ m

/-! ## Bars -/

/-- The row is a sane row of an answer to the query, dated in its window. -/
structure Offered (e : Engine ω) (q : Query) (raw : Bar) : Prop where
  sane : raw.isSane = true
  inWindow : q.window.contains raw.date = true
  answer : ∃ source now outside rows, e.sources.configured source = true
    ∧ (e.sources.ask source q now outside).1 = .ok rows ∧ raw ∈ rows

/-- The bar is an offered row in the unit that callers expect. -/
def Yields (e : Engine ω) (q : Query) (b : Bar) : Prop :=
  ∃ raw, e.Offered q raw ∧ e.scaling.rescale q.exchange q.symbol raw = b

/-- What a source yields is dated in the window. -/
theorem Yields.inWindow {e : Engine ω} {q : Query} {b : Bar} (h : e.Yields q b) :
    q.window.contains b.date = true := by
  obtain ⟨raw, hraw, rfl⟩ := h
  rw [Scaling.rescale_date]
  exact hraw.inWindow

/-- The usable rows are the sane ones of the window, scaled. -/
theorem mem_usable {e : Engine ω} {q : Query} {rows : List Bar} {b : Bar} :
    b ∈ e.usable q rows ↔ ∃ raw ∈ rows, (q.window.contains raw.date = true ∧ raw.isSane = true)
      ∧ e.scaling.rescale q.exchange q.symbol raw = b := by
  simp only [usable, Scaling.apply_eq_map, List.mem_map, List.mem_filter, Bool.and_eq_true,
    and_assoc]

/-- The answer of a call is the answer to one of its requests. -/
theorem exists_ask_of_call {e : Engine ω} {source : String} {q : Query} {m : Market ω}
    {rows : List Bar} (h : (e.call source q m).1 = .ok rows) :
    ∃ now outside, (e.sources.ask source q now outside).1 = .ok rows := by
  rw [call_def] at h
  simp only at h
  split at h
  · exact ⟨_, _, h⟩
  · exact ⟨_, _, h⟩

/-- A series of bars that the sources offer. -/
structure Sound (e : Engine ω) (q : Query) (bars : List Bar) : Prop where
  ascending : Series.Ascending bars
  yields : ∀ b ∈ bars, e.Yields q b

/-- No bars are sound. -/
theorem Sound.nil (e : Engine ω) (q : Query) : e.Sound q [] :=
  ⟨List.Pairwise.nil, fun _ h => absurd h List.not_mem_nil⟩

/-- Laying rows onto sound bars keeps them sound, -/
theorem Sound.merge {e : Engine ω} {q : Query} {bars rows : List Bar} (h : e.Sound q bars)
    (hrows : ∀ b ∈ rows, e.Yields q b) : e.Sound q (Series.merge bars rows) :=
  ⟨Series.ascending_merge _ _, fun b hb =>
    (Series.mem_of_mem_merge hb).elim (h.yields b) (hrows b)⟩

/-- A visit either adds the usable rows of an answer or leaves the bars alone. -/
theorem visit_cases (e : Engine ω) (q : Query) (source : String) (bars : List Bar) (m : Market ω) :
    (∃ rows m', e.sources.configured source = true ∧ (m.gate source).1 = .opened
      ∧ e.call source q (m.gate source).2 = (.ok rows, m')
      ∧ e.visit q source bars m
        = (.rows (e.usable q rows).length, Series.merge bars (e.usable q rows), m'))
    ∨ (e.visit q source bars m).1.answered = false ∧ (e.visit q source bars m).2.1 = bars := by
  rw [visit_def]
  split
  next hconfigured =>
    split
    next m' hgate =>
      rw [hgate]
      split
      next rows m'' hcall => exact Or.inl ⟨rows, m'', hconfigured, rfl, hcall, rfl⟩
      next => exact Or.inr ⟨rfl, rfl⟩
    next => exact Or.inr ⟨rfl, rfl⟩
  next => exact Or.inr ⟨rfl, rfl⟩

/-- so a visit does, -/
theorem sound_visit {e : Engine ω} {q : Query} {source : String} {bars : List Bar} {m : Market ω}
    (h : e.Sound q bars) : e.Sound q (e.visit q source bars m).2.1 := by
  rcases visit_cases e q source bars m with ⟨rows, m', hconfigured, -, hcall, hvisit⟩ | ⟨-, hbars⟩
  · rw [hvisit]
    obtain ⟨now, outside, hask⟩ := exists_ask_of_call (congrArg Prod.fst hcall)
    refine h.merge fun b hb => ?_
    obtain ⟨raw, hraw, ⟨hin, hsane⟩, heq⟩ := mem_usable.1 hb
    exact ⟨raw, ⟨hsane, hin, source, now, outside, rows, hconfigured, hask, hraw⟩, heq⟩
  · rw [hbars]
    exact h

/-- and a walk. -/
theorem sound_walk {e : Engine ω} {q : Query} (order : List String) {bars : List Bar}
    (m : Market ω) (h : e.Sound q bars) : e.Sound q (e.walk q order bars m).1.bars := by
  induction order generalizing bars m with
  | nil => exact h
  | cons source rest ih =>
    have hvisit : e.Sound q (e.visit q source bars m).2.1 := sound_visit h
    rw [walk_cons_def]
    simp only
    split
    · exact hvisit
    · exact ih _ hvisit

/-- Whatever the sources answer, what was fetched is a series of offered rows. -/
theorem sound_fetch (e : Engine ω) (q : Query) (m : Market ω) : e.Sound q (e.fetch q m).1.bars := by
  rw [fetch_def]
  split
  · exact Sound.nil e q
  · exact sound_walk _ m (Sound.nil e q)

/-- A walk in which nobody answers leaves the bars as they were. -/
theorem walk_bars_of_not_answered {e : Engine ω} {q : Query} (order : List String)
    (bars : List Bar) (m : Market ω) (h : (e.walk q order bars m).1.answered = false) :
    (e.walk q order bars m).1.bars = bars := by
  induction order generalizing bars m with
  | nil => rfl
  | cons source rest ih =>
    have hcases := visit_cases e q source bars m
    rw [walk_cons_def] at h ⊢
    simp only at h ⊢
    split at h
    next hstop =>
      rw [if_pos hstop]
      rcases hcases with ⟨rows, m', -, -, -, hvisit⟩ | ⟨-, hbars⟩
      · rw [hvisit] at h
        cases h
      · exact hbars
    next hstop =>
      rw [if_neg hstop]
      -- neither this entry nor a later one was answered
      rw [Merged.answered, List.any_cons, Bool.or_eq_false_iff] at h
      rcases hcases with ⟨rows, m', -, -, -, hvisit⟩ | ⟨-, hbars⟩
      · rw [hvisit] at h
        cases h.1
      · rw [ih _ _ h.2, hbars]

/-- No answer, no bars. -/
theorem fetch_bars_of_not_answered {e : Engine ω} {q : Query} {m : Market ω}
    (h : (e.fetch q m).1.answered = false) : (e.fetch q m).1.bars = [] := by
  rw [fetch_def] at h ⊢
  split at h
  next hnone => rw [if_pos hnone]
  next hsome =>
    rw [if_neg hsome]
    exact walk_bars_of_not_answered _ _ _ h

end Engine
end DailyBars
