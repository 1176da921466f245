import DailyBars.Proofs.Merge.Breaker

/-! # What requests leave of the standings

The failures that are counted of a source stay below those that trip the breaker for as long as it is
not blocked, and a source that is asked is not blocked. So whatever the sources answer, a limiter that
has only been used for requests never counts more failures than trip its breaker. The time that is
noted of a request is a time of the calendar, and not a later one than now.
-/

namespace DailyBars

variable {ω : Type}

/-! ## Standings -/

/-- What is always so between two requests. A breaker with a threshold of zero trips on the first
failure. -/
structure Standing.Steady (s : Standing) (breaker : Breaker) (now : Instant) : Prop where
  bounded : s.failures ≤ max breaker.threshold 1
  unblocked : s.blockedUntil = none → s.failures < max breaker.threshold 1
  stamped : ∀ last, s.lastRequest = some last → last.InCalendar ∧ last ≤ now

namespace Standing

variable {s : Standing} {breaker : Breaker} {now : Instant}

/-- A source of which nothing is known is steady. -/
theorem steady_clean (breaker : Breaker) (now : Instant) : ({} : Standing).Steady breaker now where
  bounded := Nat.zero_le _
  unblocked _ := Nat.lt_of_lt_of_le Nat.zero_lt_one (Nat.le_max_right _ _)
  stamped := nofun

/-- What is steady at an instant is steady later. -/
theorem Steady.mono {later : Instant} (h : s.Steady breaker now) (hle : now ≤ later) :
    s.Steady breaker later where
  bounded := h.bounded
  unblocked := h.unblocked
  stamped last hlast :=
    ⟨(h.stamped last hlast).1, Instant.le_trans (h.stamped last hlast).2 hle⟩

/-- Reading the gate leaves a steady standing, and fewer failures than trip the breaker if it is
open. -/
theorem Steady.gate (h : s.Steady breaker now) : (s.gate now).2.Steady breaker now
    ∧ ((s.gate now).1 = .opened → (s.gate now).2.failures < max breaker.threshold 1) := by
  have hstamped : ∀ last, (s.gate now).2.lastRequest = some last → last.InCalendar ∧ last ≤ now := by
    rw [lastRequest_gate]
    exact h.stamped
  rcases s.reads_gate now with ⟨-, hblock, hfailures⟩ | ⟨hclosed, hblock, hfailures⟩
  · have hless : (s.gate now).2.failures < max breaker.threshold 1 := by
      rw [hfailures]
      cases hsome : s.blockedUntil with
      | none => exact h.unblocked hsome
      | some release => exact Nat.lt_of_lt_of_le Nat.zero_lt_one (Nat.le_max_right _ _)
    exact ⟨⟨Nat.le_of_lt hless, fun _ => hless, hstamped⟩, fun _ => hless⟩
  · refine ⟨⟨?_, fun hnone => ?_, hstamped⟩, fun hopen => absurd hopen hclosed⟩
    · rw [hfailures]
      exact h.bounded
    · rw [hblock] at hnone
      rw [hfailures]
      exact h.unblocked hnone

end Standing

namespace Engine

variable {e : Engine ω} {answer : Except Failure (List Bar)} {s : Standing} {now : Instant}

/-- The end of an attempt leaves a steady standing: a failure too many is a block. -/
theorem steady_settle (h : s.Steady e.limits.breaker now)
    (hless : s.failures < max e.limits.breaker.threshold 1) :
    (e.settle answer now s).Steady e.limits.breaker now := by
  have hblocked : ∀ wait, (s.blockFor now wait).Steady e.limits.breaker now :=
    fun wait => ⟨h.bounded, nofun, h.stamped⟩
  cases answer with
  | ok rows => exact ⟨Nat.zero_le _, fun _ => Nat.zero_lt_of_lt hless, h.stamped⟩
  | error failure =>
    cases failure with
    | rateLimited retryAfter =>
      cases retryAfter with
      | none => exact ⟨h.bounded, h.unblocked, h.stamped⟩
      | some wait => exact hblocked wait
    | unavailable detail =>
      show (s.fail e.limits.breaker now).Steady e.limits.breaker now
      rw [Standing.fail_def]
      split
      · exact ⟨hless, nofun, h.stamped⟩
      next htrips =>
        have hmax : s.failures + 1 < max e.limits.breaker.threshold 1 :=
          Nat.lt_of_lt_of_le (Nat.not_le.1 htrips) (Nat.le_max_left _ _)
        exact ⟨hless, fun _ => hmax, h.stamped⟩
    | notFound symbol => exact h
    | malformed detail => exact h
    | invalidSymbol symbol reason => exact h

end Engine

/-! ## Markets -/

/-- All standings are steady, at a time of the calendar. -/
structure Market.Steady (m : Market ω) (breaker : Breaker) : Prop where
  inCalendar : m.now.InCalendar
  standings : ∀ source, (m.standing source).Steady breaker m.now

/-- The gate of a source was found open. -/
structure Market.Ready (m : Market ω) (breaker : Breaker) (source : String) : Prop extends
    m.Steady breaker where
  below : (m.standing source).failures < max breaker.threshold 1

namespace Market

variable {m m' : Market ω} {breaker : Breaker} {source : String}

/-- A fresh market is steady. -/
theorem steady_fresh (hfresh : m.pace.limiter = {}) (hm : m.now.InCalendar) (breaker : Breaker) :
    m.Steady breaker where
  inCalendar := hm
  standings source := by
    have hclean : m.standing source = {} := by
      rw [standing, hfresh]
      exact Std.HashMap.getD_emptyWithCapacity
    rw [hclean]
    exact Standing.steady_clean _ _

/-- A market stays steady while time passes. -/
theorem Steady.later (h : m.Steady breaker) (hbefore : m.Before m')
    (hsame : ∀ source, m'.standing source = m.standing source) : m'.Steady breaker where
  inCalendar := hbefore.inCalendar h.inCalendar
  standings source := by
    rw [hsame]
    exact (h.standings source).mono hbefore.now_le

/-- Only one standing has to be looked at when the others are left alone. -/
theorem Steady.withStanding (h : m.Steady breaker) {f : Standing → Standing}
    (hf : (f (m.standing source)).Steady breaker m.now) :
    (m.withStanding source f).Steady breaker where
  inCalendar := h.inCalendar
  standings other := by
    by_cases heq : other = source
    · rw [heq, standing_withStanding_self]
      exact hf
    · rw [standing_withStanding_of_ne m f heq]
      exact h.standings other

/-- The gate keeps a market steady, -/
theorem Steady.gate (h : m.Steady breaker) (source : String) : (m.gate source).2.Steady breaker :=
  h.withStanding (f := fun s => (s.gate m.now).2) (h.standings source).gate.1

/-- and a source it opens for ready. -/
theorem Steady.ready (h : m.Steady breaker) (hopen : (m.gate source).1 = .opened) :
    (m.gate source).2.Ready breaker source where
  toSteady := h.gate source
  below := by
    rw [standing_gate_self]
    exact (h.standings source).gate.2 hopen

/-- A source stays ready over a sleep -/
theorem Ready.sleep (h : m.Ready breaker source) (wait : Duration) :
    (m.sleep wait).Ready breaker source where
  toSteady := h.toSteady.later (m.before_sleep wait) fun _ => rfl
  below := h.below

/-- Waiting for a budget notes a time of the calendar, and no failure. -/
theorem Ready.awaitBudget (h : m.Ready breaker source) (limits : Limits) :
    (m.withPace (·.awaitBudget limits source)).Ready breaker source := by
  have hbefore := Engine.before_awaitBudget m limits source
  have hin := hbefore.inCalendar h.inCalendar
  refine ⟨⟨hin, fun other => ?_⟩, ?_⟩
  · have hold := (h.standings other).mono hbefore.now_le
    rw [standing_awaitBudget]
    split
    · refine ⟨hold.bounded, hold.unblocked, fun last hlast => ?_⟩
      rw [← Option.some.inj hlast]
      exact ⟨hin, Int.le_refl _⟩
    · exact hold
  · rw [standing_awaitBudget]
    split
    · exact h.below
    · exact h.below

end Market

namespace Engine

variable {e : Engine ω} {q : Query} {source : String} {m : Market ω}

/-- and over a request. -/
theorem ready_ask (h : m.Ready e.limits.breaker source) :
    (e.ask source q m).2.Ready e.limits.breaker source := by
  have hnoted := h.awaitBudget e.limits
  exact ⟨hnoted.toSteady.later (Market.before_of_advance rfl) fun _ => rfl, hnoted.below⟩

/-- A call to a ready source leaves a steady market. -/
theorem steady_call (h : m.Ready e.limits.breaker source) :
    (e.call source q m).2.Steady e.limits.breaker := by
  have hsettled : ∀ {m : Market ω} answer, m.Ready e.limits.breaker source →
      (m.withStanding source (e.settle answer m.now)).Steady e.limits.breaker :=
    fun answer hm => hm.toSteady.withStanding (steady_settle (hm.standings source) hm.below)
  have hfirst := e.ready_ask (q := q) h
  rcases call_cases e source q m with
    ⟨answer, m₁, hask, -, hcall⟩ | ⟨first, m₁, wait, answer, m₂, hask, -, hagain, hcall⟩
  · rw [hask] at hfirst
    rw [hcall]
    exact hsettled answer hfirst
  · rw [hask] at hfirst
    have hsecond := e.ready_ask (q := q) (hfirst.sleep wait)
    rw [hagain] at hsecond
    rw [hcall]
    exact hsettled answer hsecond

end Engine

/-- A visit leaves a steady market. -/
theorem Visit.steady_after (v : Visit ω) (h : v.market.Steady v.engine.limits.breaker) :
    v.after.Steady v.engine.limits.breaker := by
  by_cases hcalled : v.outcome.called = true
  · rw [v.after_of_called hcalled]
    exact Engine.steady_call (h.ready (v.outcome_called.1 hcalled).2)
  · rcases v.after_of_not_called (Bool.eq_false_iff.2 hcalled) with hafter | ⟨hafter, -⟩
    · rw [hafter]
      exact h
    · rw [hafter]
      exact h.gate v.source

/-- An undisturbed run keeps a market steady. -/
theorem Traffic.steady_run {limits : Limits} {events : List (Traffic ω)} {m : Market ω}
    (hevents : ∀ t ∈ events, t.Undisturbed) (h : m.Steady limits.breaker) :
    (run limits events m).Steady limits.breaker := by
  have hkept : Kept (fun _ m => m.Steady limits.breaker) [] (visitLog limits events m)
      (run limits events m) := by
    refine kept_run (fun t ht => ?_) h
    cases t with
    | fetch e q =>
      exact fun past source bars m hm => Visit.steady_after ⟨{ e with limits }, q, source, bars, m⟩ hm
    | wait d => exact fun past m hm => hm.later (Market.before_of_advance rfl) fun _ => rfl
    | turn f => exact fun past m hm => hm.later (Market.before_of_now_eq rfl) fun _ => rfl
    | report e source answer => exact (hevents _ ht).elim
    | gate source => exact (hevents _ ht).elim
  exact hkept.ends

end DailyBars
