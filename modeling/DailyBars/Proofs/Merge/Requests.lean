import DailyBars.Proofs.Merge.Visits
import DailyBars.Proofs.Source.Spacing

/-! # Requests within a budget

Before each request to a source with a budget there is a pause that lasts exactly as long as the time
since the last one falls short of the spacing. This holds across fetches and for the second request of
an attempt, because the time of a request is noted when it is made.
-/

namespace DailyBars

variable {ω : Type}

/-! ## Pauses -/

/-- Sleeping for no time leaves the clock. -/
theorem Clock.sleep_zero (c : Clock) : c.sleep .zero = c := by
  have hnow : c.now.plus .zero = c.now := by
    simp [Instant.plus, Duration.zero]
  have hslept : c.slept + .zero = c.slept := rfl
  rw [sleep, advance, hnow, hslept]
  split
  · rfl
  · rfl

/-- Waiting for a budget is to sleep through the pause. -/
theorem Pace.clock_awaitBudget (p : Pace) {limits : Limits} {source : String} {spacing : Duration}
    (h : limits.spacing? source = some spacing) :
    (p.awaitBudget limits source).clock
      = p.clock.sleep ((p.limiter.standing source).pause spacing p.clock.now) := by
  simp only [awaitBudget_def, h]
  split
  next hzero => rw [hzero, Clock.sleep_zero]
  next => rfl

/-- A sleep up to a time of the calendar does not end before it. -/
theorem Clock.le_now_sleep (c : Clock) {u : Instant} (hu : u.InCalendar) :
    u ≤ (c.sleep ⟨(u.nanos - c.now.nanos).toNat⟩).now := by
  show u ≤ (c.advance ⟨(u.nanos - c.now.nanos).toNat⟩).now
  rw [advance]
  by_cases hpast : u ≤ c.now
  · split
    · simp only [Instant.le_def, Instant.plus] at hpast ⊢
      omega
    · exact hpast
  · have hends : c.now.plus ⟨(u.nanos - c.now.nanos).toNat⟩ = u := by
      simp only [Instant.le_def] at hpast
      show Instant.mk (c.now.nanos + ((u.nanos - c.now.nanos).toNat : Int)) = Instant.mk u.nanos
      congr 1
      omega
    rw [hends, if_pos hu]
    exact Int.le_refl _

/-! ## Requests -/

/-- A request that is about to be made to a source, and may have to wait for its budget. -/
structure Request (ω : Type) where
  limits : Limits
  source : String
  market : Market ω

namespace Request

/-- The market in which the request is made. -/
def made (r : Request ω) : Market ω := r.market.withPace (·.awaitBudget r.limits r.source)

/-- When the request is made. -/
def instant (r : Request ω) : Instant := r.made.now

/-- How long was slept for the budget. -/
def paused (r : Request ω) : Nat :=
  r.made.pace.clock.slept.nanos - r.market.pace.clock.slept.nanos

/-- The source and the time of the request. -/
def mark (r : Request ω) : String × Instant := (r.source, r.instant)

end Request

/-- The source and the time of the call. -/
def Call.mark (c : Call) : String × Instant := (c.source, c.instant)

namespace Engine

/-- The requests of a call: one, and another if the source only wants a short wait. -/
def callRequests (e : Engine ω) (source : String) (q : Query) (m : Market ω) : List (Request ω) :=
  let (answer, m') := e.ask source q m
  ⟨e.limits, source, m⟩ :: match e.retryWait? answer with
    | none => []
    | some wait => [⟨e.limits, source, m'.sleep wait⟩]

end Engine

/-- The requests of a visit. -/
def Visit.requests (v : Visit ω) : List (Request ω) :=
  if v.outcome.called then v.engine.callRequests v.source v.query (v.market.gate v.source).2 else []

/-- Those of the requests that are made to a source. -/
def requestsTo (source : String) (requests : List (Request ω)) : List (Request ω) :=
  requests.filter fun r => r.source == source

/-- The last of the requests that are made to a source. -/
def lastRequest? (source : String) (requests : List (Request ω)) : Option (Request ω) :=
  (requestsTo source requests).getLast?

/-- The request is paced by those before it: there is a pause only if its source has a budget and was
asked before, and then it is as long as the time since the last request to the source falls short of
the spacing. -/
structure Request.PacedBy (r : Request ω) (past : List (Request ω)) : Prop where
  free : r.limits.spacing? r.source = none → r.made = r.market
  paused : ∀ spacing, r.limits.spacing? r.source = some spacing →
    r.paused = match lastRequest? r.source past with
      | none => 0
      | some last => (last.instant.nanos + spacing.addable.nanos - r.market.now.nanos).toNat
  spaced : ∀ spacing, r.limits.spacing? r.source = some spacing →
    ∀ last ∈ lastRequest? r.source past, (last.instant.plus spacing.addable).InCalendar →
      last.instant.plus spacing.addable ≤ r.instant

/-- The standing of a source knows when the last request to it was made. -/
def Market.Notes (m : Market ω) (limits : Limits) (requests : List (Request ω)) : Prop :=
  ∀ source, limits.spacing? source ≠ none →
    (m.standing source).lastRequest = (lastRequest? source requests).map Request.instant

/-- A request is one more to its source, -/
theorem requestsTo_append_self (past : List (Request ω)) (r : Request ω) :
    requestsTo r.source (past ++ [r]) = requestsTo r.source past ++ [r] := by
  simp [requestsTo]

/-- and none to another. -/
theorem requestsTo_append_of_ne {source : String} (past : List (Request ω)) {r : Request ω}
    (h : r.source ≠ source) : requestsTo source (past ++ [r]) = requestsTo source past := by
  simp [requestsTo, h]

/-- The last request to a source is the newest, -/
theorem lastRequest?_append_self (past : List (Request ω)) (r : Request ω) :
    lastRequest? r.source (past ++ [r]) = some r := by
  rw [lastRequest?, requestsTo_append_self, List.getLast?_concat]

/-- which leaves the last one to another. -/
theorem lastRequest?_append_of_ne {source : String} (past : List (Request ω)) {r : Request ω}
    (h : r.source ≠ source) : lastRequest? source (past ++ [r]) = lastRequest? source past := by
  rw [lastRequest?, requestsTo_append_of_ne past h, lastRequest?]

/-- How long the next request to a source has to wait for its budget. -/
theorem Market.Notes.pause_eq {m : Market ω} {limits : Limits} {past : List (Request ω)}
    (h : m.Notes limits past) {source : String} {spacing : Duration}
    (hspacing : limits.spacing? source = some spacing) :
    ((m.standing source).pause spacing m.now).nanos
      = match lastRequest? source past with
        | none => 0
        | some last => (last.instant.nanos + spacing.addable.nanos - m.now.nanos).toNat := by
  have hnoted := h source (by rw [hspacing]; nofun)
  rw [Standing.pause_def, hnoted]
  cases lastRequest? source past with
  | none => rfl
  | some last => rfl

/-- What is noted paces the next request. -/
theorem Market.Notes.pacedBy {r : Request ω} {past : List (Request ω)}
    (h : r.market.Notes r.limits past) : r.PacedBy past := by
  refine ⟨fun hnone => ?_, fun spacing hspacing => ?_, fun spacing hspacing last hlast hin => ?_⟩
  · rw [Request.made, Market.withPace]
    simp only [Pace.awaitBudget_def, hnone]
  · rw [← h.pause_eq hspacing]
    have hclock := r.market.pace.clock_awaitBudget hspacing
    show (r.market.pace.awaitBudget r.limits r.source).clock.slept.nanos - _ = _
    rw [hclock]
    show r.market.pace.clock.slept.nanos + _ - r.market.pace.clock.slept.nanos = _
    rw [Nat.add_sub_cancel_left]
    rfl
  · have hclock := r.market.pace.clock_awaitBudget hspacing
    have hpause := h.pause_eq hspacing
    rw [Option.mem_def.1 hlast] at hpause
    show _ ≤ (r.market.pace.awaitBudget r.limits r.source).clock.now
    have hwait : (r.market.pace.limiter.standing r.source).pause spacing r.market.pace.clock.now
        = ⟨((last.instant.plus spacing.addable).nanos - r.market.pace.clock.now.nanos).toNat⟩ :=
      congrArg Duration.mk hpause
    rw [hclock, hwait]
    exact Clock.le_now_sleep _ hin

/-- A request that is spaced from the last one to its source is spaced from all before it. -/
theorem Request.PacedBy.pairwise {r : Request ω} {past : List (Request ω)} (h : r.PacedBy past)
    {spacing : Duration} (hspacing : r.limits.spacing? r.source = some spacing)
    (hpast : (requestsTo r.source past).Pairwise fun x y =>
      (x.instant.plus spacing.addable).InCalendar → x.instant.plus spacing.addable ≤ y.instant)
    (hlater : ∀ x ∈ past, x.instant ≤ r.instant) :
    (requestsTo r.source past ++ [r]).Pairwise fun x y =>
      (x.instant.plus spacing.addable).InCalendar → x.instant.plus spacing.addable ≤ y.instant := by
  refine List.pairwise_append.2 ⟨hpast, List.pairwise_singleton _ r, fun x hx y hy hin => ?_⟩
  rw [List.mem_singleton.1 hy]
  have hlast := h.spaced spacing hspacing
  rw [lastRequest?] at hlast
  have hmem : ∀ z ∈ requestsTo r.source past, z ∈ past := fun z hz => (List.mem_filter.1 hz).1
  rcases List.eq_nil_or_concat (requestsTo r.source past) with hnone | ⟨front, last, hsplit⟩
  · rw [hnone] at hx
    cases hx
  · rw [List.concat_eq_append] at hsplit
    rw [hsplit] at hpast hx hlast hmem
    rw [List.getLast?_concat] at hlast
    rcases List.mem_append.1 hx with hfront | hx
    · -- the last one before it is spaced from those before that
      have hbetween := (List.pairwise_append.1 hpast).2.2 x hfront last (by simp) hin
      exact Instant.le_trans hbetween (hlater last (hmem last (by simp)))
    · rw [List.mem_singleton.1 hx] at hin ⊢
      exact hlast last rfl hin

/-! ## What is noted -/

namespace Market.Notes

variable {m m' : Market ω} {limits : Limits} {past : List (Request ω)}

/-- The notes depend only on when each source was asked last. -/
theorem of_standing (h : m.Notes limits past)
    (hsame : ∀ source, (m'.standing source).lastRequest = (m.standing source).lastRequest) :
    m'.Notes limits past := by
  intro source hbudget
  rw [hsame]
  exact h source hbudget

/-- A request is noted when it is made. -/
theorem made {r : Request ω} (h : r.market.Notes r.limits past) :
    r.made.Notes r.limits (past ++ [r]) := by
  intro source hbudget
  have hstanding := r.market.standing_awaitBudget r.limits r.source source
  by_cases hsource : source = r.source
  · rw [hsource] at hbudget hstanding ⊢
    rw [if_pos ⟨rfl, hbudget⟩] at hstanding
    rw [lastRequest?_append_self]
    show ((r.market.withPace (·.awaitBudget r.limits r.source)).standing r.source).lastRequest = _
    rw [hstanding]
    rfl
  · rw [if_neg fun hown => hsource hown.1] at hstanding
    rw [lastRequest?_append_of_ne past fun hown => hsource hown.symm, ← h source hbudget]
    exact congrArg Standing.lastRequest hstanding

end Market.Notes

/-- Nor does the end of an attempt change when the last request was made. -/
theorem Engine.settle_lastRequest (e : Engine ω) (answer : Except Failure (List Bar))
    (now : Instant) (s : Standing) : (e.settle answer now s).lastRequest = s.lastRequest := by
  have hfail : (s.fail e.limits.breaker now).lastRequest = s.lastRequest := by
    rw [Standing.fail_def]
    split
    · rfl
    · rfl
  rw [settle_def]
  split
  · rfl
  · rfl
  · rfl
  · exact hfail
  · rfl

namespace Market

/-- The gate does not change when a source was asked last, -/
theorem lastRequest_gate (m : Market ω) (source other : String) :
    ((m.gate source).2.standing other).lastRequest = (m.standing other).lastRequest := by
  by_cases hother : other = source
  · rw [hother, standing_gate_self]
    exact Standing.lastRequest_gate _ _
  · rw [m.standing_gate_of_ne hother]

/-- and neither does settling an answer. -/
theorem lastRequest_settle (m : Market ω) (e : Engine ω) (answer : Except Failure (List Bar))
    (source other : String) :
    ((m.withStanding source (e.settle answer m.now)).standing other).lastRequest
      = (m.standing other).lastRequest := by
  by_cases hother : other = source
  · rw [hother, standing_withStanding_self]
    exact e.settle_lastRequest _ _ _
  · rw [m.standing_withStanding_of_ne _ hother]

end Market

/-! ## Runs of requests -/

/-- The requests were made one after another, each paced by those before it. -/
structure Requested (limits : Limits) (requests : List (Request (Recorded ω)))
    (m : Market (Recorded ω)) : Prop where
  shared : ∀ r ∈ requests, r.limits = limits
  paced : ∀ past r later, requests = past ++ r :: later → r.PacedBy past
  spaced : ∀ source spacing, limits.spacing? source = some spacing →
    (requestsTo source requests).Pairwise fun r r' =>
      (r.instant.plus spacing.addable).InCalendar → r.instant.plus spacing.addable ≤ r'.instant
  past : ∀ r ∈ requests, r.instant ≤ m.now
  notes : m.Notes limits requests
  record : m.outside.calls.map Call.mark = requests.map Request.mark

namespace Requested

variable {limits : Limits} {requests : List (Request (Recorded ω))} {m m' : Market (Recorded ω)}

/-- A fresh market has asked for nothing. -/
theorem fresh (m : Market ω) (h : m.pace.limiter = {}) :
    Requested limits [] m.recording where
  shared := nofun
  paced past r later hsplit := by simp at hsplit
  spaced _ _ _ := List.Pairwise.nil
  past := nofun
  notes source _ := by
    have hclean : m.recording.standing source = {} := by
      show m.pace.limiter.standing source = {}
      rw [h]
      exact Std.HashMap.getD_emptyWithCapacity
    rw [hclean]
    rfl
  record := rfl

/-- Nothing is requested meanwhile. -/
theorem later (h : Requested limits requests m) (hle : m.now ≤ m'.now)
    (hsame : ∀ source, (m'.standing source).lastRequest = (m.standing source).lastRequest)
    (hrecord : m'.outside.calls = m.outside.calls) : Requested limits requests m' where
  shared := h.shared
  paced := h.paced
  spaced := h.spaced
  past r hr := Instant.le_trans (h.past r hr) hle
  notes := h.notes.of_standing hsame
  record := by
    rw [hrecord]
    exact h.record

section Append

variable {r : Request (Recorded ω)}

/-- One more request that is paced by those before it. -/
theorem paced_append (h : Requested limits requests m) (hr : r.PacedBy requests) :
    ∀ past r' later, requests ++ [r] = past ++ r' :: later → r'.PacedBy past := by
  intro past r' later hsplit
  rcases List.eq_nil_or_concat later with rfl | ⟨between, x, rfl⟩
  · obtain ⟨rfl, hlast⟩ := List.append_inj' hsplit rfl
    rw [List.cons.injEq] at hlast
    rw [← hlast.1]
    exact hr
  · rw [List.concat_eq_append, ← List.cons_append, ← List.append_assoc] at hsplit
    exact h.paced past r' between (List.append_inj' hsplit rfl).1

/-- One that is made after those before it. -/
theorem spaced_append (h : Requested limits requests m) (hr : r.PacedBy requests)
    (hlimits : r.limits = limits) (hlater : ∀ x ∈ requests, x.instant ≤ r.instant) :
    ∀ source spacing, limits.spacing? source = some spacing →
      (requestsTo source (requests ++ [r])).Pairwise fun x y =>
        (x.instant.plus spacing.addable).InCalendar →
          x.instant.plus spacing.addable ≤ y.instant := by
  intro source spacing hspacing
  by_cases hsource : r.source = source
  · subst hsource
    rw [requestsTo_append_self]
    exact hr.pairwise (hlimits ▸ hspacing) (h.spaced _ _ hspacing) hlater
  · rw [requestsTo_append_of_ne requests hsource]
    exact h.spaced source spacing hspacing

end Append

/-- One more request. -/
theorem ask (h : Requested limits requests m) (e : Engine ω) (he : e.limits = limits)
    (source : String) (q : Query) :
    Requested limits (requests ++ [⟨limits, source, m⟩]) (e.recorded.ask source q m).2 := by
  obtain ⟨r, hr⟩ : ∃ r : Request (Recorded ω), r = ⟨limits, source, m⟩ := ⟨_, rfl⟩
  have hlimits : r.limits = limits := by rw [hr]
  have hmade : r.made = m.withPace (·.awaitBudget limits source) := by
    rw [hr]
    rfl
  have hstart : m.now ≤ r.instant := by
    rw [Request.instant, hmade]
    exact (Engine.before_awaitBudget m limits source).now_le
  have hend : r.instant ≤ (e.recorded.ask source q m).2.now := by
    rw [Request.instant, hmade, ← he]
    exact (Market.before_of_advance rfl).now_le
  have hlater : ∀ x ∈ requests, x.instant ≤ r.instant :=
    fun x hx => Instant.le_trans (h.past x hx) hstart
  have hnotes : r.market.Notes r.limits requests := by
    rw [hr]
    exact h.notes
  rw [← hr]
  refine ⟨fun r' hr' => ?_, h.paced_append hnotes.pacedBy,
    h.spaced_append hnotes.pacedBy hlimits hlater, fun r' hr' => ?_, ?_, ?_⟩
  · rcases List.mem_append.1 hr' with hr' | hr'
    · exact h.shared r' hr'
    · rw [List.mem_singleton.1 hr', hlimits]
  · rcases List.mem_append.1 hr' with hr' | hr'
    · exact Instant.le_trans (hlater r' hr') hend
    · rw [List.mem_singleton.1 hr']
      exact hend
  · have hnoted := hnotes.made
    rw [hlimits, hmade, ← he] at hnoted
    rw [← he]
    exact hnoted.of_standing fun _ => rfl
  · have hcall : (e.recorded.ask source q m).2.outside.calls
        = m.outside.calls ++ [⟨source, q, (m.withPace (·.awaitBudget e.limits source)).now,
          (e.recorded.ask source q m).1⟩] := rfl
    have hmark : r.mark = (source, (m.withPace (·.awaitBudget e.limits source)).now) := by
      rw [hr, he]
      rfl
    rw [hcall, List.map_append, List.map_append, h.record, List.map_singleton, List.map_singleton,
      hmark]
    rfl

/-- The requests of a call. -/
theorem call (h : Requested limits requests m) (e : Engine ω) (he : e.limits = limits)
    (source : String) (q : Query) :
    Requested limits (requests ++ e.recorded.callRequests source q m)
      (e.recorded.call source q m).2 := by
  have hlimits : e.recorded.limits = limits := he
  have hsettle : ∀ {rs : List (Request (Recorded ω))} {m : Market (Recorded ω)} {answer},
      Requested limits rs m →
        Requested limits rs (m.withStanding source (e.recorded.settle answer m.now)) := by
    intro rs m answer hm
    exact hm.later (Int.le_refl _) (m.lastRequest_settle e.recorded answer source) rfl
  have hfirst := h.ask e he source q
  unfold Engine.callRequests
  rcases Engine.call_cases e.recorded source q m with
    ⟨answer, m₁, hask, hretry, hcall⟩ | ⟨first, m₁, wait, answer, m₂, hask, hretry, hsecond, hcall⟩
  · rw [hask] at hfirst
    rw [hask, hcall]
    simp only [hretry, hlimits]
    exact hsettle hfirst
  · rw [hask] at hfirst
    rw [hask, hcall]
    simp only [hretry, hlimits]
    have hslept : Requested limits (requests ++ [⟨limits, source, m⟩]) (m₁.sleep wait) :=
      hfirst.later (m₁.before_sleep wait).now_le (fun _ => rfl) rfl
    have hagain := hslept.ask e he source q
    rw [hsecond, List.append_assoc] at hagain
    exact hsettle hagain

/-- The requests of a visit. -/
theorem visit (h : Requested limits requests m) (e : Engine ω) (he : e.limits = limits)
    (q : Query) (source : String) (bars : List Bar) :
    Requested limits (requests ++ Visit.requests ⟨e.recorded, q, source, bars, m⟩)
      (Visit.after ⟨e.recorded, q, source, bars, m⟩) := by
  obtain ⟨v, hv⟩ : ∃ v : Visit (Recorded ω), v = ⟨e.recorded, q, source, bars, m⟩ := ⟨_, rfl⟩
  have hgate : Requested limits requests (m.gate source).2 :=
    h.later (Int.le_refl _) (m.lastRequest_gate source) rfl
  rw [← hv, Visit.requests]
  by_cases hcalled : v.outcome.called = true
  · rw [if_pos hcalled, v.after_of_called hcalled, hv]
    exact hgate.call e he source q
  · rw [if_neg hcalled, List.append_nil]
    rw [Bool.not_eq_true] at hcalled
    rcases v.after_of_not_called hcalled with hafter | ⟨hafter, -⟩
    · rw [hafter, hv]
      exact h
    · rw [hafter, hv]
      exact hgate

end Requested

namespace Traffic

/-- The requests of a run. -/
def requests (limits : Limits) (events : List (Traffic ω)) (m : Market ω) : List (Request ω) :=
  (visitLog limits events m).flatMap Visit.requests

/-- Any traffic keeps the record of the requests, -/
theorem keeps_requested (limits : Limits) (t : Traffic ω) :
    t.recorded.Keeps limits fun past m => Requested limits (past.flatMap Visit.requests) m := by
  cases t with
  | fetch e q =>
    intro past source bars m hm
    rw [List.flatMap_append, List.flatMap_singleton]
    exact hm.visit { e with limits } rfl q source bars
  | report e source answer =>
    intro past m hm
    exact hm.later (Int.le_refl _)
      (m.lastRequest_settle { e.recorded with limits } answer source) rfl
  | gate source =>
    intro past m hm
    exact hm.later (Int.le_refl _) (m.lastRequest_gate source) rfl
  | wait d =>
    intro past m hm
    exact hm.later (Market.before_of_advance rfl).now_le (fun _ => rfl) rfl
  | turn f =>
    intro past m hm
    exact hm.later (Int.le_refl _) (fun _ => rfl) rfl

/-- hence so does any run of it. -/
theorem requested_run (limits : Limits) (events : List (Traffic ω)) (m : Market ω)
    (hfresh : m.pace.limiter = {}) :
    Requested limits (requests limits (events.map recorded) m.recording)
      (run limits (events.map recorded) m.recording) := by
  have hkept : Kept (fun past m => Requested limits (past.flatMap Visit.requests) m) []
      (visitLog limits (events.map recorded) m.recording)
      (run limits (events.map recorded) m.recording) := by
    refine kept_run (fun t ht => ?_) (.fresh m hfresh)
    obtain ⟨u, -, rfl⟩ := List.mem_map.1 ht
    exact keeps_requested limits u
  exact hkept.ends

end Traffic

/-- Requests to a source with a budget are a minute over its rate apart, and pause for exactly what is
missing of that. Those to a source without a budget are not delayed. -/
structure WithinBudgets (limits : Limits) (requests : List (Request ω)) : Prop where
  spaced : ∀ source rate, limits.Allots source rate →
    (Limits.spacingOf rate).IsMinuteOver rate
      ∧ (requestsTo source requests).Pairwise fun r r' =>
        (r.instant.plus (Limits.spacingOf rate)).InCalendar →
          r.instant.plus (Limits.spacingOf rate) ≤ r'.instant
  paused : ∀ past r later, requests = past ++ r :: later → ∀ rate, limits.Allots r.source rate →
    r.paused = match lastRequest? r.source past with
      | none => 0
      | some last =>
        (last.instant.nanos + (Limits.spacingOf rate).nanos - r.market.now.nanos).toNat
  free : ∀ r ∈ requests, limits.Unlimited r.source → r.made = r.market

/-- Recorded requests keep the budgets. -/
theorem Requested.withinBudgets {limits : Limits} {requests : List (Request (Recorded ω))}
    {m : Market (Recorded ω)} (h : Requested limits requests m)
    (hrates : ∀ b ∈ limits.budgets, b.2 < 2 ^ 32) : WithinBudgets limits requests := by
  have hbound : ∀ source rate, limits.Allots source rate → rate < 2 ^ 32 := by
    rintro source rate ⟨-, before, after, hbudgets, -⟩
    exact hrates (source, rate) (by rw [hbudgets]; simp)
  refine ⟨fun source rate hallots => ?_, fun past r later hsplit rate hallots => ?_,
    fun r hr hunlimited => ?_⟩
  · have hspaced := h.spaced source _ (Limits.spacing?_of_allots hallots)
    rw [Limits.addable_spacingOf hallots.1 (hbound source rate hallots)] at hspaced
    exact ⟨Limits.isMinuteOver_spacingOf hallots.1 (hbound source rate hallots), hspaced⟩
  · have hshared := h.shared r (by rw [hsplit]; simp)
    have hpaused := (h.paced past r later hsplit).paused (Limits.spacingOf rate)
      (by rw [hshared]; exact Limits.spacing?_of_allots hallots)
    rwa [Limits.addable_spacingOf hallots.1 (hbound r.source rate hallots)] at hpaused
  · obtain ⟨past, later, hsplit⟩ := List.append_of_mem hr
    exact (h.paced past r later hsplit).free
      (by rw [h.shared r hr]; exact Limits.spacing?_of_unlimited hunlimited)

/-- **Requests keep to their budget.** Engines share a limiter from its start, whatever else is done
with it, and time passes. Any two requests to a source are at least the spacing of its budget apart,
be they of one attempt or of several fetches; the pause before a request is what is missing of that
and no longer, and without a budget there is none. -/
theorem requests_keep_budgets (limits : Limits) (events : List (Traffic ω)) (m : Market ω)
    (hfresh : m.pace.limiter = {}) (hrates : ∀ b ∈ limits.budgets, b.2 < 2 ^ 32) :
    WithinBudgets limits (Traffic.requests limits (events.map .recorded) m.recording)
      ∧ (Traffic.run limits (events.map .recorded) m.recording).outside.calls.map Call.mark
        = (Traffic.requests limits (events.map .recorded) m.recording).map Request.mark
      ∧ (Traffic.run limits (events.map .recorded) m.recording).plain
        = Traffic.run limits events m := by
  have hrequested := Traffic.requested_run limits events m hfresh
  exact ⟨hrequested.withinBudgets hrates, hrequested.record,
    Traffic.run_recorded limits events m.recording⟩

/-- Rules with a budget of two requests per minute. -/
def Limits.twoPerMinute : Limits where
  budgets := [("yahoo", 2)]

/-- The source is asked twice at once. -/
def Traffic.atOnce : List (Traffic Unit) := [.fetch .down .week, .fetch .down .week]

/-- Two fetches at once, with a budget of two a minute. -/
theorem requests_keep_budgets_two_per_minute :
    Traffic.noon.pace.limiter = {} ∧ (∀ b ∈ Limits.twoPerMinute.budgets, b.2 < 2 ^ 32)
      ∧ WithinBudgets .twoPerMinute (Traffic.requests .twoPerMinute
        (Traffic.atOnce.map .recorded) Traffic.noon.recording)
      ∧ (Traffic.run .twoPerMinute (Traffic.atOnce.map .recorded)
          Traffic.noon.recording).outside.calls.map Call.mark
        = (Traffic.requests .twoPerMinute (Traffic.atOnce.map .recorded)
          Traffic.noon.recording).map Request.mark
      ∧ (Traffic.run .twoPerMinute (Traffic.atOnce.map .recorded)
          Traffic.noon.recording).plain
        = Traffic.run .twoPerMinute Traffic.atOnce Traffic.noon :=
  ⟨rfl, by decide,
    requests_keep_budgets .twoPerMinute Traffic.atOnce Traffic.noon rfl (by decide)⟩

end DailyBars
