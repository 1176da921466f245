import DailyBars.Proofs.Merge.Visits
import DailyBars.Proofs.Source.CheckedStandings

/-! # Where a walk may end the program

A call works out when its source may be asked and what is noted of it afterwards. As long as all of
this has a place, a call, a visit and a walk come to what they come to in an endless calendar. At the
first sum without a place the program ends, at a time that is no earlier than that of the start.
-/

namespace DailyBars

open Reckoning

variable {ω : Type}

/-- What is noted of a source has a place after this answer at this time. The failures are those
before the answer. -/
structure Engine.NotesFit (e : Engine ω) (answer : Except Failure (List Bar)) (now : Instant)
    (failures : Nat) : Prop where
  /-- There is a day after a quota that is spent. -/
  quota : answer = .error (.rateLimited none) → now.day.next.InCalendar
  wait : ∀ wait, answer = .error (.rateLimited (some wait)) → (now.plus wait.addable).InCalendar
  count : ∀ detail, answer = .error (.unavailable detail) → failures + 1 < UInt32.size
  cooldown : ∀ detail, answer = .error (.unavailable detail) →
    e.limits.breaker.threshold ≤ failures + 1 →
    (now.plus e.limits.breaker.cooldown.addable).InCalendar

/-- Every sum of a call has a place: the time of its request, that of a second one after a short
wait, and what is noted after the last answer. -/
structure Engine.CallFits (e : Engine ω) (source : String) (q : Query) (m : Market ω) : Prop where
  request : m.pace.limiter.HasTime e.limits source
  retry : ∀ wait, e.retryWait? (e.ask source q m).1 = some wait →
    (e.ask source q m).2.pace.limiter.HasTime e.limits source
  notes : e.NotesFit (e.call source q m).1 (e.call source q m).2.now (m.standing source).failures

namespace Engine

variable (e : Engine ω) (source : String) (q : Query) (m : Market ω)

/-! ## One call -/

/-- What is noted after an answer is noted in full, or the program ends on the spot. -/
theorem comesTo_settle {ε : Type} (stop : ε) (answer : Except Failure (List Bar)) (now : Instant)
    (s : Standing) : ComesTo (· = stop) (e.NotesFit answer now s.failures)
      (e.settle answer now s) (e.settleWith (.ending stop) answer now s) := by
  have hquiet : (∀ retry, answer ≠ .error (.rateLimited retry)) →
      (∀ detail, answer ≠ .error (.unavailable detail)) → (True ↔ e.NotesFit answer now s.failures) :=
    fun hlimited hunavailable => iff_of_true trivial
      ⟨fun h => absurd h (hlimited _), fun _ h => absurd h (hlimited _),
        fun _ h => absurd h (hunavailable _), fun _ h => absurd h (hunavailable _)⟩
  cases answer with
  | ok rows => exact (ComesTo.pure _).congr (hquiet (fun _ => nofun) fun _ => nofun)
  | error failure =>
    cases failure with
    | rateLimited retryAfter =>
      cases retryAfter with
      | none =>
        exact (s.comesTo_disableForToday stop now).congr
          ⟨fun h => ⟨fun _ => h, nofun, nofun, nofun⟩, fun h => h.quota rfl⟩
      | some wait =>
        refine (s.comesTo_blockFor stop now wait).congr
          ⟨fun h => ⟨nofun, fun _ heq => ?_, nofun, nofun⟩, fun h => h.wait wait rfl⟩
        cases heq
        exact h
    | unavailable detail =>
      exact (s.comesTo_fail stop now e.limits.breaker).congr
        ⟨fun h => ⟨nofun, nofun, fun _ _ => h.1, fun _ _ => h.2⟩,
          fun h => ⟨h.count detail rfl, h.cooldown detail rfl⟩⟩
    | notFound symbol => exact (ComesTo.pure _).congr (hquiet (fun _ => nofun) fun _ => nofun)
    | malformed detail => exact (ComesTo.pure _).congr (hquiet (fun _ => nofun) fun _ => nofun)
    | invalidSymbol symbol reason =>
      exact (ComesTo.pure _).congr (hquiet (fun _ => nofun) fun _ => nofun)

/-- A source is asked if its request has a time, and otherwise the program ends on the spot. -/
theorem comesTo_ask : ComesTo (· = m) (m.pace.limiter.HasTime e.limits source)
    (e.ask source q m) (e.askWith .ending source q m) :=
  (Pace.comesTo_awaitBudget m m.pace e.limits source).map fun pace =>
    let m := m.withPace fun _ => pace
    let asked := e.sources.ask source q m.now m.outside
    let clock := m.pace.clock.advance (e.sources.takes source q m.now m.outside)
    (asked.1, ({ pace := { m.pace with clock }, outside := asked.2 } : Market ω))

/-- Asking a source does not change what failures are counted of it. -/
theorem failures_ask : ((e.ask source q m).2.standing source).failures
    = (m.standing source).failures := by
  rw [standing_ask, Market.standing_awaitBudget]
  split
  · rfl
  · rfl

/-- A call comes to its end if every sum fits. -/
theorem comesTo_call : ComesTo m.Before (e.CallFits source q m) (e.call source q m)
    (e.callWith .ending source q m) := by
  -- what is noted at a later market with the same failures
  have hnoted : ∀ (m' : Market ω) answer, m.Before m' →
      (m'.standing source).failures = (m.standing source).failures →
      ComesTo m.Before (e.NotesFit answer m'.now (m.standing source).failures)
        (answer, m'.withStanding source (e.settle answer m'.now))
        (e.settleWith (.ending m') answer m'.now (m'.standing source) >>= fun s =>
          pure (answer, m'.withStanding source fun _ => s)) := by
    intro m' answer hbefore hfailures
    have hsettle := e.comesTo_settle m' answer m'.now (m'.standing source)
    rw [hfailures] at hsettle
    exact (hsettle.map fun s => (answer, m'.withStanding source fun _ => s)).mono
      fun _ hstop => hstop ▸ hbefore
  have hasked : ComesTo m.Before (m.pace.limiter.HasTime e.limits source) _ _ :=
    (e.comesTo_ask source q m).mono fun _ h => h ▸ Market.Before.refl m
  have hbefore := before_ask e source q m
  have hfailures := e.failures_ask source q m
  unfold callWith
  rcases call_cases e source q m with
    ⟨answer, m₁, hask, hretry, hcall⟩ | ⟨first, m₁, wait, answer, m₂, hask, hretry, hagain, hcall⟩
  · rw [hask] at hasked hbefore hfailures
    refine (hasked.bind (q := e.NotesFit answer m₁.now (m.standing source).failures)
      fun _ => ?_).congr ⟨fun h => ⟨h.1, fun wait hwait => ?_, ?_⟩, fun h => ⟨h.request, ?_⟩⟩
    · simp only [hretry, pure_bind]
      rw [hcall]
      exact hnoted m₁ answer hbefore hfailures
    · rw [hask, hretry] at hwait
      cases hwait
    · rw [hcall]
      exact h.2
    · have hnotes := h.notes
      rw [hcall] at hnotes
      exact hnotes
  -- the source is asked a second time after a sleep
  · rw [hask] at hasked hbefore hfailures
    have hslept := hbefore.trans (m₁.before_sleep wait)
    have hasked' : ComesTo m.Before (m₁.pace.limiter.HasTime e.limits source) _ _ :=
      (e.comesTo_ask source q (m₁.sleep wait)).mono fun _ h => h ▸ hslept
    have hbefore' := hslept.trans (before_ask e source q (m₁.sleep wait))
    have hfailures' : _ = (m₁.standing source).failures := e.failures_ask source q (m₁.sleep wait)
    rw [hagain] at hasked' hbefore' hfailures'
    refine (hasked.bind (q := m₁.pace.limiter.HasTime e.limits source
        ∧ e.NotesFit answer m₂.now (m.standing source).failures) fun _ => ?_).congr
      ⟨fun h => ⟨h.1, fun _ _ => ?_, ?_⟩, fun h => ⟨h.request, ?_, ?_⟩⟩
    · simp only [hretry]
      rw [hcall]
      exact hasked'.bind fun _ => hnoted m₂ answer hbefore' (hfailures'.trans hfailures)
    · rw [hask]
      exact h.2.1
    · rw [hcall]
      exact h.2.2
    · have hagain := h.retry wait
      rw [hask] at hagain
      exact hagain hretry
    · have hnotes := h.notes
      rw [hcall] at hnotes
      exact hnotes

/-- A source that answers with rows is not asked again. -/
theorem call_of_ok {rows : List Bar} (hanswer : (e.ask source q m).1 = .ok rows) :
    (e.call source q m).1 = .ok rows := by
  rcases call_cases e source q m with
    ⟨answer, m₁, hask, -, hcall⟩ | ⟨first, m₁, wait, -, -, hask, hagain, -⟩
  · rw [hask] at hanswer
    rw [hcall]
    exact hanswer
  · rw [hask] at hanswer
    obtain rfl : first = .ok rows := hanswer
    cases hagain

/-- After an answer with rows there is nothing to wait for and nothing to add up, so only the time
of the request may have no place. -/
theorem comesTo_call_of_ok {rows : List Bar} (hanswer : (e.ask source q m).1 = .ok rows) :
    ComesTo (· = m) (m.pace.limiter.HasTime e.limits source) (e.call source q m)
      (e.callWith .ending source q m) := by
  have hasked := e.comesTo_ask source q m
  unfold callWith
  rcases call_cases e source q m with
    ⟨answer, m₁, hask, hretry, hcall⟩ | ⟨first, m₁, wait, -, -, hask, hagain, -⟩
  · rw [hask] at hasked hanswer
    obtain rfl : answer = .ok rows := hanswer
    refine (hasked.bind (q := True) fun _ => ?_).congr (and_true _ ▸ Iff.rfl)
    simp only [hretry, pure_bind]
    rw [hcall]
    exact ComesTo.pure _
  · rw [hask] at hanswer
    obtain rfl : first = .ok rows := hanswer
    cases hagain

end Engine

/-! ## A visit and a walk -/

/-- Every sum of a visit has a place, if its source is asked. -/
def Visit.Fits (v : Visit ω) : Prop :=
  v.outcome.called = true → v.engine.CallFits v.source v.query (v.market.gate v.source).2

namespace Visit

/-- A visit ends the program where its call does, and not at all if its source is not asked. -/
theorem comesTo_of_call (v : Visit ω) {ends : Market ω → Prop} {fits : Prop}
    (hcall : v.outcome.called = true → ComesTo ends fits
      (v.engine.call v.source v.query (v.market.gate v.source).2)
      (v.engine.callWith .ending v.source v.query (v.market.gate v.source).2)) :
    ComesTo ends (v.outcome.called = true → fits) (v.outcome, v.barsAfter, v.after)
      (v.engine.visitWith .ending v.query v.source v.bars v.market) := by
  show ComesTo _ _ (v.engine.visit v.query v.source v.bars v.market) _
  have hasked := v.outcome_called
  rw [Engine.visit_def]
  unfold Engine.visitWith
  by_cases hconfigured : v.engine.sources.configured v.source = true
  · rw [if_pos hconfigured, if_pos hconfigured]
    obtain ⟨gate, m, hgate⟩ : ∃ gate m, v.market.gate v.source = (gate, m) := ⟨_, _, rfl⟩
    rw [hgate] at hasked hcall ⊢
    have hclosed : gate ≠ .opened → (True ↔ (v.outcome.called = true → fits)) :=
      fun hne => iff_of_true trivial fun hcalled => absurd (hasked.1 hcalled).2 hne
    cases gate with
    | disabledUntil day => exact (ComesTo.pure _).congr (hclosed nofun)
    | blockedUntil instant => exact (ComesTo.pure _).congr (hclosed nofun)
    | opened =>
      have hcalled := hasked.2 ⟨hconfigured, rfl⟩
      replace hcall := hcall hcalled
      obtain ⟨answer, m', heq⟩ : ∃ answer m', v.engine.call v.source v.query m = (answer, m') :=
        ⟨_, _, rfl⟩
      simp only
      rw [heq] at hcall ⊢
      refine (hcall.bind (q := True) fun _ => ?_).congr
        ⟨fun h _ => h.1, fun h => ⟨h hcalled, trivial⟩⟩
      cases answer with
      | ok rows => exact ComesTo.pure _
      | error failure => exact ComesTo.pure _
  · rw [if_neg hconfigured, if_neg hconfigured]
    exact (ComesTo.pure _).congr
      (iff_of_true trivial fun hcalled => absurd (hasked.1 hcalled).1 hconfigured)

/-- A visit comes to its end if it fits. -/
theorem comesTo (v : Visit ω) : ComesTo v.market.Before v.Fits
    (v.outcome, v.barsAfter, v.after)
    (v.engine.visitWith .ending v.query v.source v.bars v.market) := by
  have hgated : v.market.Before (v.market.gate v.source).2 := Market.before_of_now_eq rfl
  exact v.comesTo_of_call fun _ =>
    (v.engine.comesTo_call v.source v.query _).mono fun _ h => hgated.trans h

end Visit

namespace Engine

/-- The visits of a query to sources of an order end the program where they do not fit, and what is
so before them is so when they or the program end. -/
def VisitsCome (e : Engine ω) (q : Query) (order : List String) (P : Market ω → Prop)
    (fits : Visit ω → Prop) : Prop :=
  ∀ source ∈ order, ∀ bars m, P m →
    ComesTo P (fits ⟨e, q, source, bars, m⟩) (e.visit q source bars m)
        (e.visitWith .ending q source bars m)
      ∧ P (e.visit q source bars m).2.2

namespace VisitsCome

variable {e : Engine ω} {q : Query} {order : List String} {P : Market ω → Prop}
  {fits : Visit ω → Prop} {m : Market ω}

/-- A walk ends the program at the first visit that does. -/
theorem walk (h : e.VisitsCome q order P fits) (bars : List Bar) (hm : P m) :
    ComesTo P (∀ v ∈ e.walkVisits q order bars m, fits v) (e.walk q order bars m)
      (e.walkWith .ending q order bars m) := by
  induction order generalizing bars m with
  | nil => exact (ComesTo.pure _).congr (iff_of_true trivial nofun)
  | cons source rest ih =>
    obtain ⟨hcomes, hlater⟩ := h source List.mem_cons_self bars m hm
    obtain ⟨outcome, bars', m', hvisit⟩ : ∃ outcome bars' m',
        e.visit q source bars m = (outcome, bars', m') := ⟨_, _, _, rfl⟩
    have hsufficient : Visit.Sufficient ⟨e, q, source, bars, m⟩ ↔ (outcome.called
        && decide (e.settings.minCoverage ≤ Series.coverage bars' q.window)) = true := by
      unfold Visit.Sufficient Visit.outcome Visit.coverage Visit.barsAfter
      rw [hvisit, Bool.and_eq_true, decide_eq_true_eq]
    have hafter : Visit.after ⟨e, q, source, bars, m⟩ = m' := congrArg (·.2.2) hvisit
    have hbars : Visit.barsAfter ⟨e, q, source, bars, m⟩ = bars' := congrArg (·.2.1) hvisit
    rw [hvisit] at hcomes hlater
    rw [walk_cons_def, hvisit, walkVisits, walkWith]
    simp only [hsufficient, hafter, hbars]
    by_cases hends : (outcome.called
        && decide (e.settings.minCoverage ≤ Series.coverage bars' q.window)) = true
    · rw [if_pos hends, if_pos hends]
      refine (hcomes.bind (q := True) fun _ => ?_).congr ?_
      · simp only
        rw [if_pos hends]
        exact ComesTo.pure _
      · simp only [and_true, List.mem_singleton, forall_eq]
    · rw [if_neg hends, if_neg hends]
      have hrest := ih (fun s hs => h s (List.mem_cons_of_mem _ hs)) bars' hlater
      refine (hcomes.bind (q := ∀ v ∈ e.walkVisits q rest bars' m', fits v) fun _ => ?_).congr ?_
      · simp only
        rw [if_neg hends]
        exact hrest.map fun walked =>
          ({ walked.1 with attempts := ⟨source, outcome⟩ :: walked.1.attempts }, walked.2)
      · rw [List.forall_mem_cons]

/-- A fetch ends the program if the business days of its window cannot be counted, or else at the
first visit that does. -/
theorem fetch (h : e.VisitsCome q (e.orderFor q.symbol) P fits) (hm : P m) :
    ComesTo P (q.window.businessDayCount?.isSome = true ∧ ∀ v ∈ e.fetchVisits q m, fits v)
      (e.fetch q m) (e.fetch? q m) := by
  have hcount : ComesTo P _ _ _ :=
    (Day.comesTo_businessDayCount m q.window.first q.window.last).mono fun _ heq => heq ▸ hm
  refine hcount.bind fun _ => ?_
  show ComesTo _ _ (e.fetch q m) (if q.window.businessDayCount = 0 then _ else _)
  rw [fetch_def, fetchVisits]
  split
  next => exact (ComesTo.pure _).congr (iff_of_true trivial nofun)
  next => exact h.walk [] hm

end VisitsCome

variable (e : Engine ω) (q : Query) (m : Market ω)

/-- A fetch comes to its end if its business days can be counted and every visit fits. -/
theorem comesTo_fetch : ComesTo m.Before
    (q.window.businessDayCount?.isSome = true ∧ ∀ v ∈ e.fetchVisits q m, v.Fits)
    (e.fetch q m) (e.fetch? q m) := by
  refine VisitsCome.fetch (fun source _ bars m' hbefore => ⟨?_, ?_⟩) (Market.Before.refl m)
  · exact (Visit.comesTo ⟨e, q, source, bars, m'⟩).mono fun _ h => hbefore.trans h
  · exact hbefore.trans (before_visit e q source bars m')

/-- The program ends on the spot if the business days of the window cannot be counted. -/
theorem fetch?_of_uncounted (h : q.window.businessDayCount? = none) : e.fetch? q m = .error m := by
  have hnone : ¬ (q.window.first.businessDayCount? q.window.last).isSome = true := by
    rw [show q.window.first.businessDayCount? q.window.last = none from h]
    exact Bool.false_ne_true
  obtain ⟨_, hends, rfl⟩ :=
    (Day.comesTo_businessDayCount m q.window.first q.window.last).error hnone
  unfold fetch? fetchWith Window.businessDayCountWith
  rw [hends]
  rfl

/-- A fetch from sources without budgets that always answer with rows comes to its end. -/
theorem fetch?_of_answers (hanswers : ∀ source ∈ e.orderFor q.symbol, ∀ now world, ∃ rows,
      (e.sources.ask source q now world).1 = .ok rows)
    (hbudgets : e.limits.budgets = []) (hcount : q.window.businessDayCount?.isSome = true) :
    e.fetch? q m = .ok (e.fetch q m) := by
  have hvisits : e.VisitsCome q (e.orderFor q.symbol) (fun _ => True) fun _ => True := by
    refine fun source hsource bars m _ => ⟨?_, trivial⟩
    obtain ⟨rows, hrows⟩ := hanswers source hsource
      ((m.gate source).2.withPace (·.awaitBudget e.limits source)).now
      ((m.gate source).2.withPace (·.awaitBudget e.limits source)).outside
    have hcall := e.comesTo_call_of_ok source q (m.gate source).2 hrows
    refine ((Visit.comesTo_of_call ⟨e, q, source, bars, m⟩ fun _ => hcall).mono
      fun _ _ => trivial).congr (iff_of_true (fun _ spacing hspacing => ?_) trivial)
    rw [Limits.spacing?, hbudgets] at hspacing
    cases hspacing
  exact (hvisits.fetch trivial).ok ⟨hcount, fun _ _ => trivial⟩

/-- Whatever a fetch comes to, time does not go backwards. -/
theorem before_fetch? {e : Engine ω} {q : Query} {m m' : Market ω} :
    (∀ merged, e.fetch? q m = .ok (merged, m') → m.Before m')
      ∧ (e.fetch? q m = .error m' → m.Before m') := by
  have hcomes := e.comesTo_fetch q m
  refine ⟨fun merged h => ?_, fun h => (hcomes.of_eq_error h).2⟩
  have hbefore := before_fetch e q m
  rw [← (hcomes.eq_ok_iff.1 h).2] at hbefore
  exact hbefore

/-- A source without a budget that is asked alone and answers with rows leaves nothing behind that
would keep it from being asked. -/
theorem fetch?_of_answer {e : Engine ω} {source : String} {q : Query} {m : Market ω}
    (horder : e.orderFor q.symbol = [source]) (hconfigured : e.sources.configured source = true)
    (hbudgets : e.limits.budgets = [])
    (hanswers : ∀ now world, ∃ rows, (e.sources.ask source q now world).1 = .ok rows)
    (hcount : q.window.businessDayCount?.isSome = true) (hsome : q.window.businessDayCount ≠ 0)
    (hfree : (m.standing source).Free) : ∃ merged m', e.fetch? q m = .ok (merged, m')
      ∧ merged.answered = true ∧ (m'.standing source).Free ∧ m.Before m' := by
  have hfetch := e.fetch?_of_answers q m (fun s hs => by
    rw [horder, List.mem_singleton] at hs
    exact hs ▸ hanswers) hbudgets hcount
  have hbefore := before_fetch e q m
  obtain ⟨v, hv⟩ : ∃ v : Visit ω, v = ⟨e, q, source, [], m⟩ := ⟨_, rfl⟩
  have hwalk : (e.fetch q m).2 = v.after ∧ v.attempt ∈ (e.fetch q m).1.attempts := by
    rw [fetch_def, if_neg hsome, horder, e.walk_cons q source [] [] m v hv]
    split
    · exact ⟨rfl, List.mem_singleton_self _⟩
    · exact ⟨rfl, List.mem_cons_self⟩
  have hcalled : v.outcome.called = true := by
    rw [Visit.outcome_called, hv]
    exact ⟨hconfigured, congrArg Prod.fst (Standing.gate_of_free hfree m.now)⟩
  subst hv
  obtain ⟨rows, hrows⟩ : ∃ rows, (e.call source q (m.gate source).2).1 = .ok rows := by
    obtain ⟨rows, hask⟩ := hanswers ((m.gate source).2.withPace (·.awaitBudget e.limits source)).now
      ((m.gate source).2.withPace (·.awaitBudget e.limits source)).outside
    exact ⟨rows, e.call_of_ok source q _ hask⟩
  have hanswered := Visit.outcome_of_called _ hcalled
  rw [show (e.call source q (m.gate source).2).1 = _ from hrows] at hanswered
  refine ⟨(e.fetch q m).1, (e.fetch q m).2, hfetch, ?_, ?_, hbefore⟩
  · exact List.any_eq_true.2 ⟨_, hwalk.2, by rw [Visit.attempt, hanswered]; rfl⟩
  · -- the standing is settled after an answer with rows
    obtain ⟨answer, last, houtcome, hsettled⟩ := Visit.exists_settle _ hcalled
    rw [hwalk.1]
    show (Visit.settled _).Free
    rw [hsettled]
    cases answer with
    | ok rows =>
      have hgated : Visit.gated ⟨e, q, source, [], m⟩ = m.standing source :=
        congrArg Prod.snd (Standing.gate_of_free hfree m.now)
      rw [hgated]
      exact ⟨hfree.enabled, hfree.unblocked⟩
    | error failure =>
      rw [hanswered] at houtcome
      cases houtcome

end Engine

/-! ## Waits that are too long -/

/-- A visit does not fit if its source wants to be left alone beyond the calendar. -/
theorem Visit.not_fits_of_wait {v : Visit ω} (hcalled : v.outcome.called = true) {wait : Duration}
    (hanswer : (v.engine.call v.source v.query (v.market.gate v.source).2).1
      = .error (.rateLimited (some wait)))
    (hlong : ¬ ((v.engine.call v.source v.query (v.market.gate v.source).2).2.now.plus
      wait.addable).InCalendar) : ¬ v.Fits :=
  fun h => hlong ((h hcalled).notes.wait wait hanswer)

/-- A source answers with these rows or else wants to be left alone for some 300,000 years. -/
def Sources.insisting (rows? : String → Query → Option (List Bar)) : Sources Unit where
  configured _ := true
  ask source q _ world :=
    ((rows? source q).elim (.error (.rateLimited (some (.ofSeconds 10000000000000)))) .ok, world)

/-- An engine that asks such sources in turn. -/
def Engine.insisting (order : List String) (rows? : String → Query → Option (List Bar)) :
    Engine Unit where
  sources := .insisting rows?
  settings := { order, isinOrder := [] }

/-- The wait of such a source ends after the calendar. -/
theorem Instant.not_inCalendar_of_insisting {t : Instant} (h : ⟨0⟩ ≤ t) :
    ¬ (t.plus (Duration.addable (.ofSeconds 10000000000000))).InCalendar := by
  intro hin
  have hlast : (t.nanos + 10000000000000000000000) / 86400000000000 ≤ 95026236 := hin.2
  have hstart : 0 ≤ t.nanos := h
  omega

namespace Engine

variable {source : String} {rest : List String} {rows? : String → Query → Option (List Bar)}
  {q : Query} {m : Market Unit}

/-- A call of a source that insists on a wait is not made again, and is answered with the wait. -/
theorem call_insisting (hrows : rows? source q = none) :
    ((insisting (source :: rest) rows?).call source q m).1
        = .error (.rateLimited (some (.ofSeconds 10000000000000)))
      ∧ m.now ≤ ((insisting (source :: rest) rows?).call source q m).2.now := by
  obtain ⟨e, he⟩ : ∃ e, e = insisting (source :: rest) rows? := ⟨_, rfl⟩
  have hanswer : (e.ask source q m).1 = .error (.rateLimited (some (.ofSeconds 10000000000000))) := by
    rw [he, ask_def]
    simp only [insisting, Sources.insisting, hrows, Option.elim_none]
  have hbefore := before_ask e source q m
  rw [← he]
  rcases call_cases e source q m with
    ⟨answer, m₁, hask, -, hcall⟩ | ⟨first, m₁, wait, -, -, hask, hretry, -⟩
  · rw [hask] at hanswer hbefore
    rw [hcall]
    exact ⟨hanswer, hbefore.now_le⟩
  · -- the wait is longer than what is slept through at once
    have hnone : e.retryWait? (.error (.rateLimited (some (.ofSeconds 10000000000000)))) = none := by
      rw [he]
      rfl
    rw [hask] at hanswer
    rw [show first = _ from hanswer, hnone] at hretry
    cases hretry

/-- The program ends if the first source of the order insists on a wait. -/
theorem fetch?_of_insisting (hrows : rows? source q = none) (hcount : q.window.businessDayCount ≠ 0)
    (hfree : (m.standing source).Free) (hnow : ⟨0⟩ ≤ m.now) :
    ∃ m', (insisting (source :: rest) rows?).fetch? q m = .error m' := by
  obtain ⟨e, he⟩ : ∃ e, e = insisting (source :: rest) rows? := ⟨_, rfl⟩
  have hopened : (m.gate source).1 = .opened :=
    congrArg Prod.fst (Standing.gate_of_free hfree m.now)
  have hcalled : (Visit.outcome ⟨e, q, source, [], m⟩).called = true := by
    rw [Visit.outcome_called, he]
    exact ⟨rfl, hopened⟩
  have hfits : ¬ (⟨e, q, source, [], m⟩ : Visit Unit).Fits := by
    obtain ⟨hanswer, hlater⟩ : (e.call source q (m.gate source).2).1
          = .error (.rateLimited (some (.ofSeconds 10000000000000)))
        ∧ (m.gate source).2.now ≤ (e.call source q (m.gate source).2).2.now := by
      rw [he]
      exact call_insisting hrows
    exact Visit.not_fits_of_wait hcalled hanswer
      (Instant.not_inCalendar_of_insisting (Instant.le_trans hnow hlater))
  have hfirst : ⟨e, q, source, [], m⟩ ∈ e.fetchVisits q m := by
    have horder : e.orderFor q.symbol = source :: rest := by
      rw [he]
      simp [orderFor, insisting]
    rw [fetchVisits, if_neg hcount, horder, walkVisits]
    exact List.mem_cons_self
  rw [← he]
  obtain ⟨m', hends, -⟩ := (e.comesTo_fetch q m).error fun h => hfits (h.2 _ hfirst)
  exact ⟨m', hends⟩

end Engine
end DailyBars
