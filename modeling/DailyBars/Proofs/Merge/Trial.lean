import DailyBars.Proofs.Merge.Calls
import DailyBars.Proofs.Merge.Settlement

/-! # Attempts

An attempt on a source is read off the record of its calls: which they were, what was slept through
between them, and how the attempt ended.
-/

namespace DailyBars

variable {ω : Type}

/-- One attempt on a source: the calls it made and how it ended. -/
structure Trial where
  calls : List Call
  /-- The time that was slept in it. -/
  slept : Duration
  /-- The longest wait that it would have slept through. -/
  patience : Duration
  ended : Settlement

/-- An attempt calls its own source, and calls it again only after a wait that the source asked for
and that was slept through. -/
structure Trial.Orderly (t : Trial) : Prop where
  own : ∀ c ∈ t.calls, c.source = t.ended.source
  atMostTwo : t.calls.length ≤ 2
  again : ∀ first second, t.calls = [first, second] → ∃ wait,
    first.answer = .error (.rateLimited (some wait)) ∧ wait ≤ t.patience ∧ wait ≤ t.slept
      ∧ ((second.instant.plus wait).InCalendar → first.instant.plus wait ≤ second.instant)
  answered : ∃ last ∈ t.calls.getLast?, last.answer = t.ended.answer
    ∧ last.instant ≤ t.ended.instant

namespace Trial.Orderly

variable {slept patience : Duration} {now : Instant} {inRow : Nat}

/-- A trial of one call is orderly, -/
theorem of_one {c : Call} (hnow : c.instant ≤ now) :
    Orderly ⟨[c], slept, patience, ⟨c.source, c.answer, now, inRow⟩⟩ where
  own b hb := by rw [List.mem_singleton.1 hb]
  atMostTwo := by simp
  again c₁ c₂ htwo := by simp at htwo
  answered := ⟨c, rfl, rfl, hnow⟩

/-- and so is one of two calls with the wait between them. -/
theorem of_two {c₁ c₂ : Call} {wait : Duration} (hsource : c₁.source = c₂.source)
    (hrefused : c₁.answer = .error (.rateLimited (some wait))) (hpatience : wait ≤ patience)
    (hslept : wait ≤ slept)
    (hwaited : (c₂.instant.plus wait).InCalendar → c₁.instant.plus wait ≤ c₂.instant)
    (hnow : c₂.instant ≤ now) :
    Orderly ⟨[c₁, c₂], slept, patience, ⟨c₂.source, c₂.answer, now, inRow⟩⟩ where
  own c hc := by
    simp only [List.mem_cons, List.not_mem_nil, or_false] at hc
    rcases hc with rfl | rfl
    · exact hsource
    · rfl
  atMostTwo := by simp
  again first second htwo := by
    cases htwo
    exact ⟨wait, hrefused, hpatience, hslept, hwaited⟩
  answered := ⟨c₂, rfl, rfl, hnow⟩

end Trial.Orderly

namespace Engine

/-- The attempt that a call makes. -/
def trial (e : Engine ω) (source : String) (q : Query) (m : Market (Recorded ω)) : Trial :=
  let (answer, m') := e.recorded.call source q m
  { calls := m'.outside.calls.drop m.outside.calls.length
    slept := ⟨m'.pace.clock.slept.nanos - m.pace.clock.slept.nanos⟩
    patience := e.settings.maxRetryWait
    ended := ⟨source, answer, m'.now, (m'.standing source).failures⟩ }

/-- A call is repeated after a short wait that the source asked for. -/
theorem retryWait?_eq_some {e : Engine ω} {answer : Except Failure (List Bar)} {wait : Duration}
    (h : e.retryWait? answer = some wait) :
    answer = .error (.rateLimited (some wait)) ∧ wait ≤ e.settings.maxRetryWait := by
  unfold retryWait? at h
  split at h
  next asked =>
    split at h
    next hshort =>
      cases h
      exact ⟨rfl, hshort⟩
    · cases h
  · cases h

/-- Time that passes by itself is not slept. -/
theorem slept_advance (c : Clock) (d : Duration) : (c.advance d).slept = c.slept := by
  unfold Clock.advance
  split
  · rfl
  · rfl

/-- A request may be slept for, and takes nothing from what was slept before. -/
theorem slept_le_ask (e : Engine ω) (source : String) (q : Query) (m : Market ω) :
    m.pace.clock.slept.nanos ≤ (e.ask source q m).2.pace.clock.slept.nanos := by
  have hasked : (e.ask source q m).2.pace.clock.slept
      = (m.pace.awaitBudget e.limits source).clock.slept := slept_advance _ _
  rw [hasked]
  rw [Pace.awaitBudget_def]
  cases e.limits.spacing? source with
  | none => exact Nat.le_refl _
  | some spacing =>
    simp only
    split
    · exact Nat.le_refl _
    · exact Nat.le_add_right _ _

/-- A sleep takes its time unless the calendar ends first. -/
theorem le_now_sleep (m : Market ω) (wait : Duration) {u : Instant} (hm : m.now.InCalendar)
    (hu : (u.plus wait).InCalendar) (h : (m.sleep wait).now ≤ u) : m.now.plus wait ≤ u := by
  have hends : (m.pace.clock.now.plus wait).InCalendar := by
    have hlast := Instant.le_trans (m.before_sleep wait).now_le h
    refine ⟨Int.le_trans hm.1 (Instant.day_le_day ?_),
      Int.le_trans (Instant.day_le_day ?_) hu.2⟩
    · simp only [Instant.le_def, Instant.plus, Market.now]
      omega
    · simp only [Instant.le_def, Instant.plus, Market.now] at hlast ⊢
      omega
  have hwoken : (m.sleep wait).now = m.now.plus wait := by
    simp only [Market.now, Market.sleep, Market.withPace, Clock.sleep, Clock.advance, if_pos hends]
  rwa [hwoken] at h

/-- The attempt of a call that is known, with what the call added to the record. -/
theorem trial_eq {e : Engine ω} {source : String} {q : Query} {m m' : Market (Recorded ω)}
    {answer : Except Failure (List Bar)} {calls : List Call}
    (hcall : e.recorded.call source q m = (answer, m'))
    (hcalls : m'.outside.calls = m.outside.calls ++ calls) :
    e.trial source q m = ⟨calls, ⟨m'.pace.clock.slept.nanos - m.pace.clock.slept.nanos⟩,
      e.settings.maxRetryWait, ⟨source, answer, m'.now, (m'.standing source).failures⟩⟩ := by
  unfold trial
  rw [hcall]
  simp only [hcalls, List.drop_left]

/-- A call leaves the calls of its attempt on the record. -/
structure Leaves (e : Engine ω) (source : String) (q : Query) (m : Market (Recorded ω)) : Prop where
  calls : (e.recorded.call source q m).2.outside.calls
    = m.outside.calls ++ (e.trial source q m).calls
  orderly : (e.trial source q m).Orderly
  later : ∀ c ∈ (e.trial source q m).calls, m.now ≤ c.instant

/-- A call that is not repeated leaves an orderly trial, -/
theorem leaves_of_answered {e : Engine ω} {source : String} {q : Query}
    {m m₁ : Market (Recorded ω)} {answer : Except Failure (List Bar)}
    (hask : e.recorded.ask source q m = (answer, m₁))
    (hcall : e.recorded.call source q m
      = (answer, m₁.withStanding source (e.recorded.settle answer m₁.now))) :
    e.Leaves source q m := by
  obtain ⟨instant, hrecord, hlater, hanswered⟩ := recorded_ask e source q m
  rw [hask] at hrecord hanswered
  have htrial := trial_eq hcall hrecord
  refine ⟨?_, ?_, ?_⟩
  · rw [htrial, hcall]
    exact hrecord
  · rw [htrial]
    exact .of_one hanswered
  · intro c hc
    rw [htrial, List.mem_singleton] at hc
    rw [hc]
    exact hlater

/-- and so does one that is. -/
theorem leaves_of_retried {e : Engine ω} {source : String} {q : Query}
    {m m₁ m₂ : Market (Recorded ω)} {first answer : Except Failure (List Bar)} {wait : Duration}
    (hm : m.now.InCalendar) (hask : e.recorded.ask source q m = (first, m₁))
    (hretry : e.retryWait? first = some wait)
    (hsecond : e.recorded.ask source q (m₁.sleep wait) = (answer, m₂))
    (hcall : e.recorded.call source q m
      = (answer, m₂.withStanding source (e.recorded.settle answer m₂.now))) :
    e.Leaves source q m := by
  obtain ⟨instant₁, hrecord₁, hlater₁, hanswered₁⟩ := recorded_ask e source q m
  obtain ⟨instant₂, hrecord₂, hlater₂, hanswered₂⟩ := recorded_ask e source q (m₁.sleep wait)
  have hbefore := before_ask e.recorded source q m
  have hslept₁ := slept_le_ask e.recorded source q m
  have hslept₂ := slept_le_ask e.recorded source q (m₁.sleep wait)
  rw [hask] at hrecord₁ hanswered₁ hbefore hslept₁
  rw [hsecond] at hrecord₂ hanswered₂ hslept₂
  have hrecord : m₂.outside.calls = m.outside.calls
      ++ [⟨source, q, instant₁, first⟩, ⟨source, q, instant₂, answer⟩] := by
    have hkept : (m₁.sleep wait).outside.calls
        = m.outside.calls ++ [⟨source, q, instant₁, first⟩] := hrecord₁
    rw [hrecord₂, hkept, List.append_assoc]
    rfl
  have htrial := trial_eq hcall hrecord
  obtain ⟨hrefused, hpatience⟩ := retryWait?_eq_some hretry
  have hslept : wait.nanos ≤ m₂.pace.clock.slept.nanos - m.pace.clock.slept.nanos := by
    have hadds : (m₁.sleep wait).pace.clock.slept.nanos
        = m₁.pace.clock.slept.nanos + wait.nanos := rfl
    simp only at hslept₁ hslept₂
    omega
  have hwaited : (instant₂.plus wait).InCalendar → instant₁.plus wait ≤ instant₂ := by
    intro hin
    have hwoken := le_now_sleep m₁ wait (hbefore.inCalendar hm) hin hlater₂
    have hfirst : instant₁.nanos ≤ m₁.now.nanos := hanswered₁
    simp only [Instant.le_def, Instant.plus] at hwoken ⊢
    omega
  refine ⟨?_, ?_, ?_⟩
  · rw [htrial, hcall]
    exact hrecord
  · rw [htrial]
    exact .of_two rfl hrefused hpatience hslept hwaited hanswered₂
  · intro c hc
    rw [htrial] at hc
    simp only [List.mem_cons, List.not_mem_nil, or_false] at hc
    rcases hc with rfl | rfl
    · exact hlater₁
    · have hwoken := (hbefore.trans (m₁.before_sleep wait)).now_le
      exact Instant.le_trans hwoken hlater₂

/-- Every call leaves an orderly trial. -/
theorem leaves_call (e : Engine ω) (source : String) (q : Query) {m : Market (Recorded ω)}
    (hm : m.now.InCalendar) : e.Leaves source q m := by
  rcases call_cases e.recorded source q m with
    ⟨answer, m₁, hask, -, hcall⟩ | ⟨first, m₁, wait, answer, m₂, hask, hretry, hsecond, hcall⟩
  · exact leaves_of_answered hask hcall
  · exact leaves_of_retried hm hask hretry hsecond hcall

/-- The end of the attempt is added to what counts. -/
theorem remembers_call (e : Engine ω) (source : String) (q : Query) {m : Market (Recorded ω)}
    {past : List Settlement} (h : m.Remembers e.limits.breaker past) :
    (e.recorded.call source q m).2.Remembers e.limits.breaker
      (past ++ [(e.trial source q m).ended]) := by
  have hasked : (e.recorded.ask source q m).2.Remembers e.limits.breaker past :=
    h.ask e.recorded source q
  unfold trial
  rcases call_cases e.recorded source q m with
    ⟨answer, m₁, hask, -, hcall⟩ | ⟨first, m₁, wait, answer, m₂, hask, -, hsecond, hcall⟩
  · rw [hask] at hasked
    rw [hcall]
    exact hasked.settle e.recorded rfl source answer
  · rw [hask] at hasked
    have hagain := (hasked.sleep wait).ask e.recorded source q
    rw [hsecond] at hagain
    rw [hcall]
    exact hagain.settle e.recorded rfl source answer

end Engine

end DailyBars
