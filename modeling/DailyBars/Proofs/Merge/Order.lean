import DailyBars.Proofs.Merge.CheckedVisits
import DailyBars.Proofs.Merge.Coverage

/-! # How an order is walked

A walk takes the entries of its order one after another. An entry whose source is unknown or shut off
asks nobody, every other one asks its own source and nobody else, and the walk stops where a source
was asked and enough is covered, or else at the end of the order. It comes to an outcome as long as
what is worked out on the way has a place.
-/

namespace DailyBars

variable {ω : Type}

/-! ## The order for a ticker -/

/-- Two capital letters, nine capital letters or digits, and a digit. -/
def Ticker.IsSecurityIdentifier (id : String) : Prop :=
  ∃ country number check, id.toList = country ++ number ++ [check]
    ∧ (country.length = 2 ∧ ∀ c ∈ country, c.isUpper = true)
    ∧ (number.length = 9 ∧ ∀ c ∈ number, c.isUpper = true ∨ c.isDigit = true)
    ∧ check.isDigit = true

/-- The check recognises security identifiers. -/
theorem Ticker.isIsin_iff (id : String) : isIsin id = true ↔ IsSecurityIdentifier id := by
  simp only [isIsin, Bool.and_eq_true, beq_iff_eq, List.all_eq_true, Bool.or_eq_true]
  constructor
  · rintro ⟨⟨⟨hlength, hcountry⟩, hnumber⟩, hcheck⟩
    obtain ⟨check, hlast⟩ : ∃ check, id.toList.drop 11 = [check] := by
      apply List.length_eq_one_iff.1
      rw [List.length_drop, hlength]
    refine ⟨id.toList.take 2, (id.toList.drop 2).take 9, check, ?_, ⟨?_, hcountry⟩,
      ⟨?_, hnumber⟩, ?_⟩
    · rw [← hlast, List.append_assoc]
      have hrest : id.toList.drop 11 = (id.toList.drop 2).drop 9 := by rw [List.drop_drop]
      rw [hrest, List.take_append_drop, List.take_append_drop]
    · rw [List.length_take, hlength]
      rfl
    · rw [List.length_take, List.length_drop, hlength]
      rfl
    · exact hcheck check (by rw [hlast]; exact List.mem_singleton_self check)
  · rintro ⟨country, number, check, hid, ⟨hcountry, hupper⟩, ⟨hnumber, halphanumeric⟩, hdigit⟩
    rw [hid]
    obtain ⟨c₀, c₁, rfl⟩ := List.length_eq_two.1 hcountry
    refine ⟨⟨⟨?_, ?_⟩, ?_⟩, ?_⟩
    · simp [hnumber]
    · simpa using hupper
    · have htake : (([c₀, c₁] ++ number ++ [check]).drop 2).take 9 = number := by
        simp [← hnumber]
      rw [htake]
      exact halphanumeric
    · have hdrop : ([c₀, c₁] ++ number ++ [check]).drop 11 = [check] := by
        simp [← hnumber]
      rw [hdrop]
      simpa using hdigit

namespace Engine

/-- Security identifiers have an order of their own unless it is empty. -/
theorem orderFor_eq (e : Engine ω) (symbol : String) :
    (Ticker.IsSecurityIdentifier symbol ∧ e.settings.isinOrder ≠ []
        ∧ e.orderFor symbol = e.settings.isinOrder)
      ∨ (¬ (Ticker.IsSecurityIdentifier symbol ∧ e.settings.isinOrder ≠ [])
        ∧ e.orderFor symbol = e.settings.order) := by
  rw [orderFor, ← Ticker.isIsin_iff]
  by_cases hroute : Ticker.isIsin symbol = true ∧ e.settings.isinOrder ≠ []
  · rw [if_pos (by simpa using hroute)]
    exact Or.inl ⟨hroute.1, hroute.2, rfl⟩
  · rw [if_neg (by simpa using hroute)]
    exact Or.inr ⟨hroute, rfl⟩

end Engine

/-! ## One entry -/

/-- The calls that were put on record during a visit are one or two, to its own source and for its
own query, and this is the last of them. -/
structure Visit.Asks (v : Visit (Recorded ω)) (last : Call) : Prop where
  configured : v.engine.sources.configured v.source = true
  opened : (v.market.gate v.source).1 = .opened
  calls : ∃ calls, v.after.outside.calls = v.market.outside.calls ++ calls ∧ calls.length ≤ 2
    ∧ (∀ c ∈ calls, c.source = v.source ∧ c.query = v.query) ∧ last ∈ calls.getLast?

/-- What comes of an entry. -/
inductive Visit.Comes (v : Visit (Recorded ω)) : Prop where
  | unconfigured (unknown : v.engine.sources.configured v.source = false)
      (outcome : v.outcome = .unconfigured) (bars : v.barsAfter = v.bars)
      (market : v.after = v.market)
  | skipped (configured : v.engine.sources.configured v.source = true)
      (closed : (v.market.gate v.source).1 ≠ .opened)
      (outcome : v.outcome = .skipped (v.market.gate v.source).1) (bars : v.barsAfter = v.bars)
      (outside : v.after.outside = v.market.outside)
  | answered (last : Call) (rows : List Bar) (asks : v.Asks last) (answer : last.answer = .ok rows)
      (outcome : v.outcome = .rows (v.engine.usable v.query rows).length)
      (bars : v.barsAfter = Series.merge v.bars (v.engine.usable v.query rows))
  | failed (last : Call) (failure : Failure) (asks : v.Asks last)
      (answer : last.answer = .error failure) (outcome : v.outcome = .failed failure)
      (bars : v.barsAfter = v.bars)

namespace Engine

/-- A call puts one or two requests on record, and its answer is that to the last of them. -/
theorem exists_calls_of_call (e : Engine ω) (source : String) (q : Query)
    (m : Market (Recorded ω)) :
    ∃ calls last, (e.recorded.call source q m).2.outside.calls = m.outside.calls ++ calls
      ∧ calls.length ≤ 2 ∧ (∀ c ∈ calls, c.source = source ∧ c.query = q)
      ∧ last ∈ calls.getLast? ∧ last.answer = (e.recorded.call source q m).1 := by
  obtain ⟨instant₁, hrecord₁, -, -⟩ := recorded_ask e source q m
  rcases call_cases e.recorded source q m with
    ⟨answer, m₁, hask, -, hcall⟩ | ⟨first, m₁, wait, answer, m₂, hask, -, hsecond, hcall⟩
  · rw [hask] at hrecord₁
    rw [hcall]
    refine ⟨[⟨source, q, instant₁, answer⟩], _, hrecord₁, ?_, ?_, rfl, rfl⟩
    · simp
    · simp
  · obtain ⟨instant₂, hrecord₂, -, -⟩ := recorded_ask e source q (m₁.sleep wait)
    rw [hask] at hrecord₁
    rw [hsecond] at hrecord₂
    have hslept : (m₁.sleep wait).outside.calls
        = m.outside.calls ++ [⟨source, q, instant₁, first⟩] := hrecord₁
    rw [hcall]
    refine ⟨[⟨source, q, instant₁, first⟩, ⟨source, q, instant₂, answer⟩], _, ?_, ?_, ?_, rfl, rfl⟩
    · show m₂.outside.calls = _
      rw [hrecord₂, hslept, List.append_assoc]
      rfl
    · simp
    · simp

end Engine

/-- Every entry comes to one of these. -/
theorem Visit.comes (e : Engine ω) (q : Query) (source : String) (bars : List Bar)
    (m : Market (Recorded ω)) : Visit.Comes ⟨e.recorded, q, source, bars, m⟩ := by
  have hvisit := e.recorded.visit_eq q source bars m
  by_cases hconfigured : e.recorded.sources.configured source = true
  · rw [if_pos hconfigured] at hvisit
    by_cases hopen : (m.gate source).1 = .opened
    · rw [if_pos hopen] at hvisit
      obtain ⟨calls, last, hrecord, hlength, hown, hlast, hanswer⟩ :=
        e.exists_calls_of_call source q (m.gate source).2
      obtain ⟨answer, m', hcall⟩ : ∃ answer m', e.recorded.call source q (m.gate source).2
        = (answer, m') := ⟨_, _, rfl⟩
      rw [hcall] at hrecord hanswer hvisit
      cases answer with
      | ok rows =>
        refine .answered last rows ⟨hconfigured, hopen, calls, ?_, hlength, hown, hlast⟩ hanswer
          (congrArg Prod.fst hvisit) (congrArg (·.2.1) hvisit)
        show (e.recorded.visit q source bars m).2.2.outside.calls = _
        rw [hvisit]
        exact hrecord
      | error failure =>
        refine .failed last failure ⟨hconfigured, hopen, calls, ?_, hlength, hown, hlast⟩ hanswer
          (congrArg Prod.fst hvisit) (congrArg (·.2.1) hvisit)
        show (e.recorded.visit q source bars m).2.2.outside.calls = _
        rw [hvisit]
        exact hrecord
    · rw [if_neg hopen] at hvisit
      refine .skipped hconfigured hopen (congrArg Prod.fst hvisit) (congrArg (·.2.1) hvisit) ?_
      show (e.recorded.visit q source bars m).2.2.outside = _
      rw [hvisit]
      rfl
  · rw [if_neg hconfigured] at hvisit
    exact .unconfigured (by simpa using hconfigured) (congrArg Prod.fst hvisit)
      (congrArg (·.2.1) hvisit) (congrArg (·.2.2) hvisit)

/-- No entry makes the bars cover less. -/
theorem Visit.Comes.coverage_le {v : Visit (Recorded ω)} (h : v.Comes)
    (hw : v.query.window.InCalendar) : Series.coverage v.bars v.query.window ≤ v.coverage := by
  rw [coverage]
  cases h with
  | answered last rows asks answer outcome bars =>
    rw [bars]
    exact Series.coverage_le_merge _ _ hw
  | unconfigured unknown outcome bars market =>
    rw [bars]
    exact Series.coverage_le_coverage hw (Nat.le_refl _)
  | skipped configured closed outcome bars outside =>
    rw [bars]
    exact Series.coverage_le_coverage hw (Nat.le_refl _)
  | failed last failure asks answer outcome bars =>
    rw [bars]
    exact Series.coverage_le_coverage hw (Nat.le_refl _)

/-! ## The whole order -/

/-- The visits follow one another: each begins with the bars and the market that the one before it
left. -/
def Linked : List Bar → Market ω → List (Visit ω) → List Bar → Market ω → Prop
  | bars, m, [], bars', m' => bars' = bars ∧ m' = m
  | bars, m, v :: rest, bars', m' =>
    v.bars = bars ∧ v.market = m ∧ Linked v.barsAfter v.after rest bars' m'

/-- The last of the visits leaves the bars that there are in the end. -/
theorem Linked.bars_eq {bars bars' : List Bar} {m m' : Market ω} {before : List (Visit ω)}
    {v : Visit ω} (h : Linked bars m (before ++ [v]) bars' m') : bars' = v.barsAfter := by
  induction before generalizing bars m with
  | nil =>
    obtain ⟨-, -, hbars, -⟩ := h
    exact hbars
  | cons first before ih =>
    obtain ⟨-, -, hrest⟩ := h
    exact ih hrest

/-- The visits are a walk over an order, from its front to where it has to stop. -/
structure Walked (e : Engine ω) (q : Query) (order : List String) (bars : List Bar) (m : Market ω)
    (visits : List (Visit ω)) (merged : Merged) (m' : Market ω) : Prop where
  looks : ∀ v ∈ visits, v.engine = e ∧ v.query = q
  linked : Linked bars m visits merged.bars m'
  attempts : merged.attempts = visits.map Visit.attempt
  front : visits.map Visit.source <+: order
  stops : ∀ before v after, visits = before ++ v :: after → v.Sufficient → after = []
  whole : (∀ v ∈ visits, ¬ v.Sufficient) → visits.map Visit.source = order
  coverage : merged.coverage = Series.coverage merged.bars q.window

namespace Walked

variable {e : Engine ω} {q : Query} {source : String} {rest : List String} {bars : List Bar}
variable {m m' : Market ω} {visits : List (Visit ω)} {merged : Merged} {v : Visit ω}

/-- A walk past no source is over. -/
theorem nil : Walked e q [] bars m [] ⟨bars, Series.coverage bars q.window, []⟩ m where
  looks := nofun
  linked := ⟨rfl, rfl⟩
  attempts := rfl
  front := List.nil_prefix
  stops before v after hsplit := by simp at hsplit
  whole _ := rfl
  coverage := rfl

/-- The walk ends with this entry. -/
theorem stop (hv : v = ⟨e, q, source, bars, m⟩) (h : v.Sufficient) :
    Walked e q (source :: rest) bars m [v] ⟨v.barsAfter, v.coverage, [v.attempt]⟩ v.after := by
  subst hv
  refine ⟨?_, ⟨rfl, rfl, rfl, rfl⟩, rfl, ⟨rest, rfl⟩, fun before w after hsplit _ => ?_,
    fun hnone => absurd h (hnone _ List.mem_cons_self), rfl⟩
  · simp
  · rw [List.singleton_eq_append_iff] at hsplit
    rcases hsplit with ⟨-, hsplit⟩ | ⟨-, hsplit⟩
    · rw [List.cons.injEq] at hsplit
      exact hsplit.2
    · simp at hsplit

/-- The walk goes on after this entry. -/
theorem cons (hv : v = ⟨e, q, source, bars, m⟩) (h : ¬ v.Sufficient)
    (hrest : Walked e q rest v.barsAfter v.after visits merged m') :
    Walked e q (source :: rest) bars m (v :: visits)
      { merged with attempts := v.attempt :: merged.attempts } m' := by
  have hsource : v.source = source := by rw [hv]
  refine ⟨?_, ⟨by rw [hv], by rw [hv], hrest.linked⟩, ?_, ?_, fun before w after hsplit hw => ?_,
    fun hnone => ?_, hrest.coverage⟩
  · intro w hw
    rcases List.mem_cons.1 hw with rfl | hw
    · rw [hv]
      exact ⟨rfl, rfl⟩
    · exact hrest.looks w hw
  · rw [List.map_cons, ← hrest.attempts]
  · rw [List.map_cons, hsource, List.cons_prefix_cons]
    exact ⟨rfl, hrest.front⟩
  · cases before with
    | nil =>
      rw [List.nil_append, List.cons.injEq] at hsplit
      rw [← hsplit.1] at hw
      exact absurd hw h
    | cons first before =>
      rw [List.cons_append, List.cons.injEq] at hsplit
      exact hrest.stops before w after hsplit.2 hw
  · rw [List.map_cons, hsource, hrest.whole fun w hw => hnone w (List.mem_cons_of_mem v hw)]

/-- A walk that does not come to the end of its order has covered enough. -/
theorem enough {order : List String} (h : Walked e q order bars m visits merged m')
    (hstop : merged.attempts.length < order.length) :
    e.settings.minCoverage ≤ Series.coverage merged.bars q.window := by
  by_cases hnone : ∀ v ∈ visits, ¬ v.Sufficient
  · rw [h.attempts, List.length_map, ← h.whole hnone, List.length_map] at hstop
    exact absurd hstop (Nat.lt_irrefl _)
  · simp only [not_forall, not_not] at hnone
    obtain ⟨v, hv, hsufficient⟩ := hnone
    obtain ⟨rfl, rfl⟩ := h.looks v hv
    obtain ⟨before, after, rfl⟩ := List.append_of_mem hv
    obtain rfl := h.stops before v after rfl hsufficient
    rw [h.linked.bars_eq]
    exact hsufficient.2

end Walked

/-- Every walk goes as described. -/
theorem walked_walk (e : Engine ω) (q : Query) (order : List String) (bars : List Bar)
    (m : Market ω) :
    Walked e q order bars m (e.walkVisits q order bars m) (e.walk q order bars m).1
      (e.walk q order bars m).2 := by
  induction order generalizing bars m with
  | nil => exact .nil
  | cons source rest ih =>
    rw [e.walk_cons q source rest bars m _ rfl, Engine.walkVisits]
    simp only
    by_cases hends : Visit.Sufficient ⟨e, q, source, bars, m⟩
    · rw [if_pos hends, if_pos hends]
      exact .stop rfl hends
    · rw [if_neg hends, if_neg hends]
      exact .cons rfl hends (ih _ _)

/-! ## A fetch -/

/-- The outcome of a fetch: the order is walked, each entry comes to what it should, and what is
covered is what the bars cover and never becomes less. -/
structure Engine.Walks (e : Engine ω) (q : Query) (m : Market (Recorded ω)) (merged : Merged)
    (m' : Market (Recorded ω)) : Prop where
  walk : (∃ d, q.window.contains d = true ∧ d.isBusinessDay = true) →
    Walked e.recorded q (e.orderFor q.symbol) [] m (e.recorded.fetchVisits q m) merged m'
  entries : ∀ v ∈ e.recorded.fetchVisits q m, v.Comes
  grows : ∀ v ∈ e.recorded.fetchVisits q m, Series.coverage v.bars q.window ≤ v.coverage
  coverage : merged.coverage = Series.coverage merged.bars q.window

/-- How a fetch goes through the order for its ticker. -/
structure WalksOrder (e : Engine ω) (q : Query) (m : Market (Recorded ω)) : Prop where
  route : Ticker.IsSecurityIdentifier q.symbol ∧ e.settings.isinOrder ≠ []
      ∧ e.orderFor q.symbol = e.settings.isinOrder
    ∨ ¬ (Ticker.IsSecurityIdentifier q.symbol ∧ e.settings.isinOrder ≠ [])
      ∧ e.orderFor q.symbol = e.settings.order
  /-- Nobody is asked for a window without business days. -/
  idle : (∀ d, q.window.contains d = true → d.isBusinessDay = false) →
    e.recorded.fetch? q m = .ok (⟨[], Series.coverage [] q.window, []⟩, m)
      ∨ e.recorded.fetch? q m = .error m
  /-- There is an outcome just where the business days can be counted and what is worked out at each
  visit has a place. -/
  returns : (∃ outcome, e.recorded.fetch? q m = .ok outcome)
    ↔ q.window.businessDayCount?.isSome = true ∧ ∀ v ∈ e.recorded.fetchVisits q m, v.Fits
  outcome : ∀ merged m', e.recorded.fetch? q m = .ok (merged, m') → e.Walks q m merged m'
  /-- The record of the calls changes nothing else. -/
  unseen : ((e.recorded.fetch? q m).map (Prod.map id Market.plain)).mapError Market.plain
    = e.fetch? q m.plain

/-- Where there is no business day, none is counted. -/
theorem Window.businessDayCount_of_no_business_day {w : Window}
    (h : ∀ d, w.contains d = true → d.isBusinessDay = false) : w.businessDayCount = 0 := by
  by_contra hcount
  obtain ⟨d, hd, hb⟩ := exists_isBusinessDay_of_count hcount
  rw [h d hd] at hb
  cases hb

namespace Engine

/-- Every visit of a walk comes from its source. -/
theorem comes_of_mem_walkVisits {e : Engine ω} {q : Query} {order : List String} {bars : List Bar}
    {m : Market (Recorded ω)} {v : Visit (Recorded ω)}
    (hv : v ∈ e.recorded.walkVisits q order bars m) : v.Comes := by
  obtain ⟨hengine, -⟩ := (walked_walk e.recorded q order bars m).looks v hv
  have hcomes := Visit.comes e v.query v.source v.bars v.market
  rwa [← hengine] at hcomes

/-- Nobody is asked for a window without business days. -/
theorem fetch_of_no_business_day (e : Engine ω) {q : Query} (m : Market ω)
    (h : ∀ d, q.window.contains d = true → d.isBusinessDay = false) :
    e.fetch q m = (⟨[], Series.coverage [] q.window, []⟩, m) := by
  rw [fetch_def, if_pos (Window.businessDayCount_of_no_business_day h)]

/-- A window without business days is not walked, -/
theorem fetchVisits_of_no_business_day (e : Engine ω) {q : Query} (m : Market ω)
    (h : ∀ d, q.window.contains d = true → d.isBusinessDay = false) : e.fetchVisits q m = [] := by
  rw [fetchVisits, if_pos (Window.businessDayCount_of_no_business_day h)]

/-- and any other one is walked in order. -/
theorem walked_fetch (e : Engine ω) {q : Query} (m : Market ω)
    (h : ∃ d, q.window.contains d = true ∧ d.isBusinessDay = true) :
    Walked e q (e.orderFor q.symbol) [] m (e.fetchVisits q m) (e.fetch q m).1 (e.fetch q m).2 := by
  obtain ⟨d, hd, hb⟩ := h
  have hcount := Window.businessDayCount_ne_zero hd hb
  rw [fetch_def, fetchVisits, if_neg hcount, if_neg hcount]
  exact walked_walk e q _ [] m

/-- What is covered is what the bars cover. -/
theorem coverage_fetch (e : Engine ω) (q : Query) (m : Market ω) :
    (e.fetch q m).1.coverage = Series.coverage (e.fetch q m).1.bars q.window := by
  rw [fetch_def]
  split
  · rfl
  · exact (walked_walk e q _ [] m).coverage

end Engine

/-- **An order is walked as it is written.** Whatever the order, the limiter and the answers: a window
without business days asks nobody. Otherwise the entries of the order come up one by one; an unknown
source and one whose gate is shut are not asked, and any other entry asks its own source once or twice
and nobody else. The walk stops after the first source that was asked when enough is covered, and at
the end of the order if none was. Only a sum without a place ends the program before. -/
theorem fetch_walks_order (e : Engine ω) (q : Query) (m : Market (Recorded ω))
    (hw : q.window.InCalendar) : WalksOrder e q m := by
  have hcomes := e.recorded.comesTo_fetch q m
  have hentries : ∀ v ∈ e.recorded.fetchVisits q m, v.Comes ∧ v.query = q := by
    intro v hv
    rw [Engine.fetchVisits] at hv
    split at hv
    · cases hv
    · exact ⟨Engine.comes_of_mem_walkVisits hv, ((walked_walk _ _ _ _ _).looks v hv).2⟩
  have hreturns : (∃ outcome, e.recorded.fetch? q m = .ok outcome)
      ↔ q.window.businessDayCount?.isSome = true ∧ ∀ v ∈ e.recorded.fetchVisits q m, v.Fits := by
    constructor
    · rintro ⟨outcome, h⟩
      exact (hcomes.eq_ok_iff.1 h).1
    · exact fun h => ⟨_, hcomes.ok h⟩
  refine ⟨e.orderFor_eq q.symbol, fun hnone => ?_, hreturns, fun merged m' h => ?_,
    Engine.fetch?_recorded e q m⟩
  · cases hcount : q.window.businessDayCount? with
    | none => exact Or.inr (Engine.fetch?_of_uncounted _ _ _ hcount)
    | some count =>
      left
      have hidle := e.recorded.fetchVisits_of_no_business_day m hnone
      have hfits : ∀ v ∈ e.recorded.fetchVisits q m, v.Fits := by
        rw [hidle]
        exact fun _ hv => (List.not_mem_nil hv).elim
      rw [hcomes.ok ⟨congrArg Option.isSome hcount, hfits⟩,
        e.recorded.fetch_of_no_business_day m hnone]
  · have hfetch : (merged, m') = e.recorded.fetch q m := (hcomes.eq_ok_iff.1 h).2
    refine ⟨fun hsome => ?_, fun v hv => (hentries v hv).1, fun v hv => ?_, ?_⟩
    · have hwalked := e.recorded.walked_fetch m hsome
      rwa [← hfetch] at hwalked
    · obtain ⟨hcomes, hquery⟩ := hentries v hv
      rw [← hquery] at hw ⊢
      exact hcomes.coverage_le hw
    · have hcoverage := e.recorded.coverage_fetch q m
      rwa [← hfetch] at hcoverage

/-- A walk over a source that is down comes to its outcome. -/
theorem fetch_walks_order_down :
    Query.week.window.InCalendar ∧ WalksOrder .down .week Traffic.noon.recording :=
  ⟨by decide, fetch_walks_order .down .week Traffic.noon.recording (by decide)⟩

/-- The second source of the order is not asked, and there is no outcome, if the first one insists on
too long a wait. Nor is there one for a window that ends with the calendar. -/
theorem insisting_source_ends_walk :
    (∃ d, Query.week.window.contains d = true ∧ d.isBusinessDay = true)
      ∧ (¬ ∃ outcome, (Engine.insisting ["yahoo", "stooq"] fun source _ =>
          if source = "yahoo" then none else some []).fetch? .week Traffic.noon = .ok outcome)
      ∧ ∀ rows?, ¬ ∃ outcome, (Engine.insisting ["yahoo", "stooq"] rows?).fetch?
          ⟨"GSK", "L", ⟨Day.latest, Day.latest⟩⟩ Traffic.noon = .ok outcome := by
  refine ⟨⟨⟨19723⟩, by decide, by decide⟩, ?_, fun rows? => ?_⟩
  · rintro ⟨outcome, houtcome⟩
    obtain ⟨m', hends⟩ : ∃ m', (Engine.insisting ("yahoo" :: ["stooq"]) fun source _ =>
        if source = "yahoo" then none else some []).fetch? .week Traffic.noon = .error m' :=
      Engine.fetch?_of_insisting rfl (by decide) (Limiter.free_empty "yahoo") (by decide)
    rw [hends] at houtcome
    cases houtcome
  · rintro ⟨outcome, houtcome⟩
    have hends : (Engine.insisting ["yahoo", "stooq"] rows?).fetch?
        ⟨"GSK", "L", ⟨Day.latest, Day.latest⟩⟩ Traffic.noon = .error Traffic.noon :=
      Engine.fetch?_of_uncounted _ _ _ (Day.businessDayCount?_latest (by decide))
    rw [hends] at houtcome
    cases houtcome

end DailyBars
