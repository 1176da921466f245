import DailyBars.Http.Status
import DailyBars.Proofs.Merge.CheckedVisits
import DailyBars.Proofs.Merge.Order
import DailyBars.Proofs.Merge.SteadyMarket
import DailyBars.Proofs.Provider.ChartSums

/-! # Requests that come to their end

A source may answer with anything. What comes of its answer is noted by adding to a time, a day or a
count. The counts always have room for that, and where the calendar has, nothing that a source
answers keeps the walk from going on to the next one and to its end.
-/

namespace DailyBars

variable {ω : Type}

/-- The calendar has room for what is noted of a source after its last answer, at the time `now` of
it. Of the failures in a row this one counts. -/
structure Outcome.HasRoom (o : Outcome) (limits : Limits) (source : String) (now : Instant)
    (failures : Nat) : Prop where
  /-- There is a day after a quota that is spent. -/
  quota : o = .failed (.rateLimited none) → now.day.next.InCalendar
  wait : ∀ wait, o = .failed (.rateLimited (some wait)) → (now.plus wait.addable).InCalendar
  cooldown : o.isOutage = true → limits.breaker.threshold ≤ failures →
    (now.plus limits.breaker.cooldown.addable).InCalendar
  /-- The next request may come so much later. -/
  spacing : ∀ spacing, limits.spacing? source = some spacing → (now.plus spacing.addable).InCalendar

/-! ## One call -/

/-- A request has a time if there is room for the spacing now or later. -/
theorem Market.Steady.hasTime {m : Market ω} {breaker : Breaker} (h : m.Steady breaker)
    {limits : Limits} {source : String} {t : Instant} (ht : m.now ≤ t)
    (hspacing : ∀ spacing, limits.spacing? source = some spacing →
      (t.plus spacing.addable).InCalendar) : m.pace.limiter.HasTime limits source := by
  intro spacing hsome last hlast
  obtain ⟨hin, hle⟩ := (h.standings source).stamped last hlast
  exact Instant.inCalendar_of_between hin (hspacing spacing hsome) (last.le_plus _)
    (Instant.plus_le_plus (Instant.le_trans hle ht) (Nat.le_refl _))

namespace Engine

variable {e : Engine ω} {q : Query} {source : String} {m : Market ω}

/-- Failures that do not trip the breaker can be counted. -/
theorem notesFit_of_hasRoom {answer : Except Failure (List Bar)} {s : Standing} {now : Instant}
    (hthreshold : e.limits.breaker.threshold < UInt32.size)
    (hbelow : s.failures < max e.limits.breaker.threshold 1)
    (hroom : (e.outcomeOf q answer).HasRoom e.limits source now (e.settle answer now s).failures) :
    e.NotesFit answer now s.failures where
  quota h := by
    subst h
    exact hroom.quota rfl
  wait wait h := by
    subst h
    exact hroom.wait wait rfl
  count _ _ := by
    have hone : 1 < UInt32.size := by decide
    omega
  cooldown detail h htrips := by
    subst h
    refine hroom.cooldown rfl ?_
    rw [e.settle_failures q]
    exact htrips

/-- A call comes to its end if there is room for what is noted after it. -/
theorem callFits_of_hasRoom (h : m.Ready e.limits.breaker source)
    (hthreshold : e.limits.breaker.threshold < UInt32.size)
    (hroom : (e.outcomeOf q (e.call source q m).1).HasRoom e.limits source (e.call source q m).2.now
      ((e.call source q m).2.standing source).failures) :
    e.CallFits source q m := by
  have hrequest := h.toSteady.hasTime (before_call e source q m).now_le hroom.spacing
  have hasked := ready_ask (q := q) h
  have hbelow := h.below
  have hfailures := e.failures_ask source q m
  rcases call_cases e source q m with
    ⟨answer, m₁, hask, hretry, hcall⟩ | ⟨first, m₁, wait, answer, m₂, hask, hretry, hagain, hcall⟩
  · rw [hask] at hfailures
    rw [hcall, Market.standing_withStanding_self] at hroom
    refine ⟨hrequest, fun wait hwait => ?_, ?_⟩
    · rw [hask, hretry] at hwait
      cases hwait
    · rw [hcall]
      rw [← hfailures] at hbelow ⊢
      exact notesFit_of_hasRoom hthreshold hbelow hroom
  -- the second request is made before the time for which there is room
  · have hagain' := e.failures_ask source q (m₁.sleep wait)
    have hlater := (m₁.before_sleep wait).trans (before_ask e source q (m₁.sleep wait))
    rw [hask] at hfailures hasked
    rw [hagain] at hagain' hlater
    have hsame : (m₂.standing source).failures = (m.standing source).failures :=
      hagain'.trans hfailures
    rw [hcall, Market.standing_withStanding_self] at hroom
    refine ⟨hrequest, fun _ _ => ?_, ?_⟩
    · rw [hask]
      exact hasked.toSteady.hasTime hlater.now_le hroom.spacing
    · rw [hcall]
      rw [← hsame] at hbelow ⊢
      exact notesFit_of_hasRoom hthreshold hbelow hroom

end Engine

/-! ## A walk -/

/-- The calendar has room for what is noted of a visit. -/
def Visit.HasRoom (v : Visit ω) : Prop :=
  v.outcome.called = true →
    v.outcome.HasRoom v.engine.limits v.source v.after.now v.settled.failures

/-- What is noted of a visit fits, whatever its source answers. -/
theorem Visit.fits_of_hasRoom (v : Visit ω) (h : v.market.Steady v.engine.limits.breaker)
    (hthreshold : v.engine.limits.breaker.threshold < UInt32.size) (hroom : v.HasRoom) :
    v.Fits := by
  intro hcalled
  have hopen := (v.outcome_called.1 hcalled).2
  have hnoted := hroom hcalled
  rw [settled, v.outcome_of_called hcalled, v.after_of_called hcalled] at hnoted
  exact Engine.callFits_of_hasRoom (h.ready hopen) hthreshold hnoted

namespace Engine

variable {e : Engine ω} {q : Query} {m : Market ω}

/-- A walk leaves the standings steady from visit to visit, so each of them fits. -/
theorem fits_of_mem_walkVisits (hthreshold : e.limits.breaker.threshold < UInt32.size)
    (order : List String) (bars : List Bar) (h : m.Steady e.limits.breaker)
    (hroom : ∀ v ∈ e.walkVisits q order bars m, v.HasRoom) :
    ∀ v ∈ e.walkVisits q order bars m, v.Fits := by
  induction order generalizing bars m with
  | nil => exact fun v hv => absurd hv List.not_mem_nil
  | cons source rest ih =>
    have hfirst := Visit.fits_of_hasRoom ⟨e, q, source, bars, m⟩ h hthreshold
      (hroom _ List.mem_cons_self)
    have hafter := Visit.steady_after ⟨e, q, source, bars, m⟩ h
    rw [walkVisits] at hroom ⊢
    refine List.forall_mem_cons.2 ⟨hfirst, ?_⟩
    by_cases hends : Visit.Sufficient ⟨e, q, source, bars, m⟩
    · rw [if_pos hends]
      simp only [List.not_mem_nil, false_implies, implies_true]
    · rw [if_neg hends] at hroom ⊢
      exact ih _ hafter fun v hv => hroom v (List.mem_cons_of_mem _ hv)

/-- A request comes to its end if its window can be counted. -/
theorem fetch?_eq (hthreshold : e.limits.breaker.threshold < UInt32.size)
    (hw : q.window.InCalendar) (hlast : q.window.last ≠ .latest) (h : m.Steady e.limits.breaker)
    (hroom : ∀ v ∈ e.fetchVisits q m, v.HasRoom) : e.fetch? q m = .ok (e.fetch q m) := by
  refine (e.comesTo_fetch q m).ok ⟨?_, ?_⟩
  · rw [Window.businessDayCount?_eq hw hlast]
    rfl
  · rw [fetchVisits] at hroom ⊢
    by_cases hcount : q.window.businessDayCount = 0
    · rw [if_pos hcount]
      simp only [List.not_mem_nil, false_implies, implies_true]
    · rw [if_neg hcount] at hroom ⊢
      exact fits_of_mem_walkVisits hthreshold _ _ h hroom

end Engine

/-! ## What a provider can answer -/

/-- What is made of a status. -/
structure Http.Status.Classifies (s : Status) (retryAfter : Option String) (symbol : String) :
    Prop where
  served : s.failure? retryAfter symbol = none ↔ s.isSuccess = true
  /-- A wait is a number of seconds of 64 bits. -/
  wait : ∀ wait, s.failure? retryAfter symbol = some (.rateLimited (some wait)) →
    ∃ seconds, seconds < UInt64.size ∧ wait = .ofSeconds seconds

/-- A number that is read is at most the largest. -/
theorem Number.readNat?_le {most n : Nat} {text : String} (h : readNat? most text = some n) :
    n ≤ most := by
  unfold readNat? at h
  extract_lets digits at h
  split at h
  next => cases h
  next =>
    obtain ⟨hle, hn⟩ := Option.ite_none_right_eq_some.1 h
    rw [← Option.some.inj hn]
    exact hle

/-- Every status is classified. -/
theorem Http.Status.classifies (s : Status) (retryAfter : Option String) (symbol : String) :
    s.Classifies retryAfter symbol where
  served := by
    unfold failure?
    cases s.isSuccess with
    | true => simp
    | false =>
      simp only [Bool.false_eq_true, if_false, iff_false]
      repeat' split
      all_goals nofun
  wait wait h := by
    have hread : ∃ value, retryAfter? value = some wait := by
      unfold failure? at h
      split at h
      next => cases h
      next =>
        split at h
        next =>
          simp only [Option.some.injEq, Failure.rateLimited.injEq] at h
          obtain ⟨value, -, hvalue⟩ := Option.bind_eq_some_iff.1 h
          exact ⟨value, hvalue⟩
        next =>
          -- no other status comes with a wait
          split at h
          · cases h
          · split at h <;> cases h
    obtain ⟨value, hvalue⟩ := hread
    obtain ⟨seconds, hseconds, rfl⟩ := Option.map_eq_some_iff.1 hvalue
    have hle := Number.readNat?_le hseconds
    have hsize : UInt64.size = 18446744073709551616 := rfl
    exact ⟨seconds, by omega, rfl⟩

/-- How a request ends. -/
structure Engine.Finishes (e : Engine ω) (q : Query) (m : Market ω) : Prop where
  /-- All that is formed on the way has a place in its type, so there is an outcome. -/
  outcome : e.fetch? q m = .ok (e.fetch q m)
  /-- The walk takes one entry of the order after another, whatever came of those before, -/
  goesOn : (∃ d, q.window.contains d = true ∧ d.isBusinessDay = true) →
    Walked e q (e.orderFor q.symbol) [] m (e.fetchVisits q m) (e.fetch q m).1 (e.fetch q m).2
  /-- and only that enough is covered keeps it from the next one. -/
  stops : (∃ d, q.window.contains d = true ∧ d.isBusinessDay = true) →
    (e.fetch q m).1.attempts.length < (e.orderFor q.symbol).length →
    e.settings.minCoverage ≤ (e.fetch q m).1.coverage

/-- **No answer ends a request.** A status is served or says what is wrong, with a wait of 64 bits at
most. A chart text has an answer if its sums fit in 64 bits. A block ends within the calendar, not
before now, and up to the longest time that can be added to an instant not before a shorter wait
would have made it end; where the calendar has room for what is noted of the answers, a request goes
on to the next source and has an outcome. -/
theorem answers_do_not_end_requests (limits : Limits) (events : List (Traffic ω)) (start : Market ω)
    (hfresh : start.pace.limiter = {}) (hstart : start.now.InCalendar)
    (hevents : ∀ t ∈ events, t.Undisturbed) (hthreshold : limits.breaker.threshold < UInt32.size)
    (e : Engine ω) (q : Query) (hw : q.window.InCalendar) (hlast : q.window.last ≠ .latest)
    (hroom : ∀ v ∈ { e with limits }.fetchVisits q (Traffic.run limits events start), v.HasRoom) :
    (∀ status retryAfter symbol, Http.Status.Classifies status retryAfter symbol)
      ∧ (∀ text symbol exchange, Yahoo.TextSumsFit text →
        Yahoo.parse? text symbol exchange = some (Yahoo.parse text symbol exchange))
      ∧ (∀ (s : Standing) now wait, now.InCalendar → (now.plus wait.addable).InCalendar →
        s.Blocks now wait)
      ∧ { e with limits }.Finishes q (Traffic.run limits events start) := by
  have hsteady : (Traffic.run limits events start).Steady limits.breaker :=
    Traffic.steady_run hevents (Market.steady_fresh hfresh hstart _)
  refine ⟨Http.Status.classifies, fun text symbol exchange htext =>
    Yahoo.parse?_of_sumsFit htext symbol exchange, fun s now wait hnow hin =>
    Standing.blocks_of_inCalendar hnow hin, ?_, Engine.walked_fetch _ _, fun hsome hshort => ?_⟩
  · exact Engine.fetch?_eq hthreshold hw hlast hsteady hroom
  · have hwalked := Engine.walked_fetch { e with limits } (Traffic.run limits events start) hsome
    rw [hwalked.coverage]
    exact hwalked.enough hshort

/-- A source that wants to be left alone for longer than a year. -/
def Sources.busy : Sources Unit where
  configured _ := true
  ask _ _ _ world := (.error (.rateLimited (some (.ofDays 400))), world)

/-- An engine whose only source is busy. -/
def Engine.busy : Engine Unit where
  sources := .busy
  settings := { order := ["yahoo"], isinOrder := [] }

/-- The busy source is visited once, -/
theorem Engine.fetchVisits_busy :
    Engine.busy.fetchVisits .week Traffic.noon = [⟨.busy, .week, "yahoo", [], Traffic.noon⟩] := by
  have horder : Engine.busy.orderFor Query.week.symbol = ["yahoo"] := by decide
  rw [fetchVisits, if_neg (by decide), horder, walkVisits, walkVisits, ite_self]

/-- and there is room for its wait. -/
theorem Engine.hasRoom_busy (v : Visit Unit) (hv : v ∈ Engine.busy.fetchVisits .week Traffic.noon) :
    v.HasRoom := by
  rw [fetchVisits_busy, List.mem_singleton] at hv
  intro hcalled
  have houtcome : v.outcome = .failed (.rateLimited (some (.ofDays 400))) := by
    rw [v.outcome_of_called hcalled, hv]
    rfl
  have hnow : v.after.now = Traffic.noon.now := by
    rw [v.after_of_called hcalled, hv]
    rfl
  rw [houtcome, hnow, hv]
  refine ⟨nofun, fun wait hwait => ?_, nofun, nofun⟩
  cases hwait
  decide

/-- A chart with one timestamp. -/
def Yahoo.oneStamp : String :=
  "\x7b\"chart\": \x7b\"result\": [\x7b\"meta\": \x7b\"gmtoffset\": 39600\x7d, " ++
  "\"timestamp\": [1704668400], \"indicators\": \x7b\"quote\": [\x7b" ++
  "\"open\": [], \"high\": [], \"low\": [], \"close\": [7.15], \"volume\": []\x7d]\x7d\x7d], " ++
  "\"error\": null\x7d\x7d"

/-- The sums of a text with one stamp fit. -/
theorem Yahoo.textSumsFit_oneStamp : TextSumsFit oneStamp := by
  have hread : ((Json.parse? oneStamp).bind Chart.ofJson?).bind
      (fun c => c.series.map fun series => series.map fun s => (s.offset, s.timestamps))
        = some [(some 39600, some [1704668400])] := by
    decide +kernel
  intro c s rest timestamps quote quotes hchart hseries htimestamps _
  rw [hchart, Option.bind_some, hseries, Option.map_some, List.map_cons, htimestamps,
    Option.some.injEq, List.cons.injEq, Prod.mk.injEq, Option.some.injEq] at hread
  obtain ⟨⟨hoffset, rfl⟩, -⟩ := hread
  rw [hoffset]
  exact sumsFit_of_forall (by decide)

/-- A busy source does not end the request. -/
theorem answers_do_not_end_requests_busy :
    Traffic.noon.pace.limiter = {} ∧ Traffic.noon.now.InCalendar
      ∧ ({} : Limits).breaker.threshold < UInt32.size
      ∧ Query.week.window.InCalendar ∧ Query.week.window.last ≠ .latest
      ∧ (∀ v ∈ Engine.busy.fetchVisits .week Traffic.noon, v.HasRoom)
      ∧ Http.Status.Classifies ⟨429⟩ (some "34560000") "GSK"
      ∧ Yahoo.parse? Yahoo.oneStamp "BHP" "AX" = some (Yahoo.parse Yahoo.oneStamp "BHP" "AX")
      ∧ Standing.Blocks {} Traffic.noon.now (.ofDays 400)
      ∧ Engine.busy.Finishes .week Traffic.noon := by
  obtain ⟨hclassified, hparsed, hblocked, hfinished⟩ :=
    answers_do_not_end_requests {} [] Traffic.noon rfl (by decide) nofun (by decide)
      Engine.busy .week (by decide) (by decide) Engine.hasRoom_busy
  exact ⟨rfl, by decide, by decide, by decide, by decide, Engine.hasRoom_busy, hclassified _ _ _,
    hparsed _ _ _ Yahoo.textSumsFit_oneStamp, hblocked {} _ _ (by decide) (by decide), hfinished⟩

/-- The longest wait of 64 bits gives a block that ends before that of a wait of 400 days, and a wait
in between gives none. -/
theorem longest_wait_ends_sooner :
    Duration.ofDays 400 ≤ .ofSeconds 18446744073709551615
      ∧ Standing.blockEnd? {} Traffic.noon.now (.ofDays 400) = some (.ofDay ⟨20132⟩ 43200)
      ∧ Standing.blockEnd? {} Traffic.noon.now (.ofSeconds 18446744073709551615)
        = some (.ofDay ⟨20097⟩ 43200)
      ∧ Standing.blockEnd? {} Traffic.noon.now (.ofSeconds 10000000000000) = none :=
  ⟨by decide, by decide, by decide, by decide⟩

end DailyBars
