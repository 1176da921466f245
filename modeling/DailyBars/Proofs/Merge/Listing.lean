import DailyBars.Proofs.Merge.CheckedVisits

/-! # Sources that answer from a listing

A listing is a fixed table of bars, each of which is out by the day after its own. If one source of
an order answers from it and no other is configured, a walk produces bars of the listing, and every
bar of the window that was out when the walk began. The program can then only end where the calendar
does.
-/

namespace DailyBars

/-- Sane bars of business days, and the day on which each of them comes out. -/
structure Listing where
  bar? : Day → Option Bar
  out : Day → Day
  date : ∀ d b, bar? d = some b → b.date = d
  sane : ∀ d b, bar? d = some b → b.isSane = true
  business : ∀ d b, bar? d = some b → d.isBusinessDay = true
  prompt : ∀ d b, bar? d = some b → out d ≤ d.next

namespace Listing

/-- The bar is the one of its day. -/
def Lists (l : Listing) (b : Bar) : Prop := l.bar? b.date = some b

/-- The bar is dated in the window and has come out by this day. -/
structure Shows (l : Listing) (w : Window) (today : Day) (b : Bar) : Prop where
  lists : l.Lists b
  inWindow : w.contains b.date = true
  out : l.out b.date ≤ today

/-- What a listing shows on a day it shows later. -/
theorem Shows.mono {l : Listing} {w : Window} {today later : Day} {b : Bar}
    (h : l.Shows w today b) (hle : today ≤ later) : l.Shows w later b :=
  ⟨h.lists, h.inWindow, Int.le_trans h.out hle⟩

/-- A listing has one bar for a date. -/
theorem eq_of_date_eq {l : Listing} {a b : Bar} (ha : l.Lists a) (hb : l.Lists b)
    (hdate : a.date = b.date) : a = b := by
  rw [Lists, hdate, hb, Option.some.injEq] at ha
  exact ha.symm

/-- Listed bars have one bar for each date. -/
theorem onePerDate {l : Listing} {bars : List Bar} (h : ∀ b ∈ bars, l.Lists b) :
    Series.OnePerDate bars := fun a ha b hb hdate => eq_of_date_eq (h a ha) (h b hb) hdate

/-- Merging bars of a listing adds them. -/
theorem mem_merge {l : Listing} {bars rows : List Bar} (hbars : ∀ b ∈ bars, l.Lists b)
    (hrows : ∀ b ∈ rows, l.Lists b) {b : Bar} :
    b ∈ Series.merge bars rows ↔ b ∈ bars ∨ b ∈ rows :=
  Series.mem_merge (onePerDate hbars) (onePerDate hrows) fun x hx y hy hdate =>
    eq_of_date_eq (hbars x hx) (hrows y hy) hdate

end Listing

/-! ## Sources that were never refused -/

variable {ω : Type}

/-- Nothing keeps the source from being asked. -/
def Market.Free (m : Market ω) (source : String) : Prop :=
  (m.pace.limiter.standing source).Free

/-- The gate lets a free source through and leaves it free. -/
theorem Market.gate_of_free {m : Market ω} {source : String} (h : m.Free source) :
    (m.gate source).1 = .opened ∧ (m.gate source).2.Free source := by
  simp only [gate, Limiter.gate, Standing.gate_of_free h, Free, withPace, Limiter.standing_put_self,
    true_and]
  exact h

/-- Reading a gate does not change when the next request is due. -/
theorem Market.hasTime_gate (m : Market ω) (limits : Limits) (source : String) :
    (m.gate source).2.pace.limiter.HasTime limits source
      ↔ m.pace.limiter.HasTime limits source := by
  have hlast : ((m.gate source).2.pace.limiter.standing source).lastRequest
      = (m.pace.limiter.standing source).lastRequest := by
    refine (congrArg Standing.lastRequest (m.standing_gate_self source)).trans ?_
    exact Standing.lastRequest_gate _ _
  unfold Limiter.HasTime
  rw [hlast]

/-- A change that keeps the source free keeps the market free for it. -/
theorem Market.free_withStanding {m : Market ω} {source : String} {f : Standing → Standing}
    (h : m.Free source) (hf : ∀ s : Standing, s.Free → (f s).Free) :
    (m.withStanding source f).Free source := by
  simp only [Free, withStanding, withPace, Limiter.change, Limiter.standing_put_self]
  exact hf _ h

/-- Waiting for a budget leaves a source free. -/
theorem Market.free_awaitBudget {m : Market ω} {source : String} (h : m.Free source)
    (limits : Limits) : (m.withPace (·.awaitBudget limits source)).Free source := by
  unfold Free withPace
  simp only [Pace.awaitBudget_def]
  cases hspacing : limits.spacing? source with
  | none => exact h
  | some spacing =>
    simp only [Limiter.change, Limiter.standing_put_self]
    exact ⟨h.enabled, h.unblocked⟩

/-! ## Walks -/

namespace Engine

/-- Of the order for a ticker just this source is configured. It always answers with the bars of the
listing that are out, in whatever order, and they are in the unit that callers expect. -/
structure Serves (e : Engine ω) (symbol exchange : String) (l : Listing) (source : String) :
    Prop where
  ordered : source ∈ e.orderFor symbol
  alone : ∀ s ∈ e.orderFor symbol, e.sources.configured s = true ↔ s = source
  unscaled : e.scaling.factor? exchange symbol = none
  answers : ∀ w now outside, ∃ rows,
    (e.sources.ask source ⟨symbol, exchange, w⟩ now outside).1 = .ok rows
      ∧ ∀ b, b ∈ rows ↔ l.Shows w now.day b

/-- What asking makes of bars of the listing. -/
structure Gathers (l : Listing) (source : String) (bars : List Bar) (m : Market ω)
    (bars' : List Bar) (m' : Market ω) : Prop where
  lists : ∀ b ∈ bars', l.Lists b
  kept : ∀ b ∈ bars, b ∈ bars'
  free : m'.Free source
  before : m.Before m'

variable {e : Engine ω} {symbol exchange : String} {l : Listing} {source : String}

/-- Nothing was asked, and nothing is gathered. -/
theorem Gathers.refl {bars : List Bar} {m : Market ω} (hbars : ∀ b ∈ bars, l.Lists b)
    (hfree : m.Free source) : Gathers l source bars m bars m :=
  ⟨hbars, fun _ hb => hb, hfree, Market.Before.refl m⟩

/-- What is gathered in two parts is gathered. -/
theorem Gathers.trans {bars₁ bars₂ bars₃ : List Bar} {m₁ m₂ m₃ : Market ω}
    (h : Gathers l source bars₁ m₁ bars₂ m₂) (h' : Gathers l source bars₂ m₂ bars₃ m₃) :
    Gathers l source bars₁ m₁ bars₃ m₃ :=
  ⟨h'.lists, fun b hb => h'.kept b (h.kept b hb), h'.free, h.before.trans h'.before⟩

/-- A call of the source is answered at once, with the bars that are out by then. -/
theorem call_of_serves (h : e.Serves symbol exchange l source) (w : Window) {m : Market ω}
    (hfree : m.Free source) : ∃ rows today, (e.call source ⟨symbol, exchange, w⟩ m).1 = .ok rows
      ∧ (e.call source ⟨symbol, exchange, w⟩ m).2.Free source
      ∧ m.now.day ≤ today ∧ ∀ b, b ∈ rows ↔ l.Shows w today b := by
  have hwaited := Market.free_awaitBudget hfree e.limits
  have hbefore := before_awaitBudget m e.limits source
  obtain ⟨rows, hask, hrows⟩ := h.answers w (m.withPace (·.awaitBudget e.limits source)).now
    (m.withPace (·.awaitBudget e.limits source)).outside
  have hanswer : (e.ask source ⟨symbol, exchange, w⟩ m).1 = .ok rows := hask
  have hasked : (e.ask source ⟨symbol, exchange, w⟩ m).2.Free source := hwaited
  -- the first answer is a success, so no second request is made
  have hcall : e.call source ⟨symbol, exchange, w⟩ m = (.ok rows,
      (e.ask source ⟨symbol, exchange, w⟩ m).2.withStanding source Standing.succeed) := by
    rw [call_def]
    simp only [hanswer, retryWait?]
    rfl
  rw [hcall]
  exact ⟨rows, _, rfl, Market.free_withStanding hasked fun s hs => ⟨hs.enabled, hs.unblocked⟩,
    Instant.day_le_day hbefore.now_le, hrows⟩

/-- Of the rows of a window, the usable ones are those the listing shows. -/
theorem mem_usable_of_serves (h : e.Serves symbol exchange l source) {w : Window} {today : Day}
    {rows : List Bar} (hrows : ∀ b, b ∈ rows ↔ l.Shows w today b) {b : Bar} :
    b ∈ e.usable ⟨symbol, exchange, w⟩ rows ↔ l.Shows w today b := by
  have hscale : e.scaling.rescale exchange symbol = id := by
    funext b
    simp only [Scaling.rescale, h.unscaled]
    rfl
  rw [mem_usable, hscale]
  constructor
  · rintro ⟨raw, hraw, -, rfl⟩
    exact (hrows raw).1 hraw
  · intro hb
    exact ⟨b, (hrows b).2 hb, ⟨hb.inWindow, l.sane _ _ hb.lists⟩, rfl⟩

/-- A visit of the source is answered, with the bars that are out by then. -/
theorem visit_eq_of_serves (h : e.Serves symbol exchange l source) (w : Window) (bars : List Bar)
    {m : Market ω} (hfree : m.Free source) : ∃ rows today m',
    e.visit ⟨symbol, exchange, w⟩ source bars m
        = (.rows (e.usable ⟨symbol, exchange, w⟩ rows).length,
          Series.merge bars (e.usable ⟨symbol, exchange, w⟩ rows), m')
      ∧ m'.Free source ∧ m.now.day ≤ today ∧ ∀ b, b ∈ rows ↔ l.Shows w today b := by
  obtain ⟨hopened, hgate⟩ := Market.gate_of_free hfree
  obtain ⟨rows, today, hanswer, hcalled, htoday, hrows⟩ := call_of_serves h w hgate
  refine ⟨rows, today, (e.call source ⟨symbol, exchange, w⟩ (m.gate source).2).2, ?_, hcalled,
    htoday, hrows⟩
  rw [visit_def]
  rw [if_pos ((h.alone source h.ordered).2 rfl)]
  generalize m.gate source = g at hopened hanswer ⊢
  obtain ⟨gate, m₁⟩ := g
  subst hopened
  simp only
  generalize e.call source ⟨symbol, exchange, w⟩ m₁ = c at hanswer ⊢
  obtain ⟨answer, m₂⟩ := c
  subst hanswer
  rfl

/-- A visit of another source of the order does nothing. -/
theorem visit_of_ne (h : e.Serves symbol exchange l source) (w : Window) {s : String}
    (hs : s ∈ e.orderFor symbol) (hne : s ≠ source) (bars : List Bar) (m : Market ω) :
    e.visit ⟨symbol, exchange, w⟩ s bars m = (.unconfigured, bars, m) := by
  rw [visit_def]
  rw [if_neg (mt (h.alone s hs).1 hne)]

/-- A visit of the source adds the bars that are out, and a visit of another one does nothing. -/
theorem visit_of_serves (h : e.Serves symbol exchange l source) (w : Window) {s : String}
    (hs : s ∈ e.orderFor symbol) {bars : List Bar} (hbars : ∀ b ∈ bars, l.Lists b) {m : Market ω}
    (hfree : m.Free source) :
    Gathers l source bars m (e.visit ⟨symbol, exchange, w⟩ s bars m).2.1
        (e.visit ⟨symbol, exchange, w⟩ s bars m).2.2
      ∧ (s = source → ∀ b, l.Shows w m.now.day b →
        b ∈ (e.visit ⟨symbol, exchange, w⟩ s bars m).2.1)
      ∧ (s ≠ source → (e.visit ⟨symbol, exchange, w⟩ s bars m).1 = .unconfigured) := by
  have hbefore := before_visit e ⟨symbol, exchange, w⟩ s bars m
  by_cases hsource : s = source
  · subst hsource
    obtain ⟨rows, today, m', hvisit, hcalled, htoday, hrows⟩ := visit_eq_of_serves h w bars hfree
    have husable : ∀ b ∈ e.usable ⟨symbol, exchange, w⟩ rows, l.Lists b :=
      fun b hb => ((mem_usable_of_serves h hrows).1 hb).lists
    rw [hvisit] at hbefore ⊢
    refine ⟨⟨?_, ?_, hcalled, hbefore⟩, fun _ b hb => ?_, fun hne => absurd rfl hne⟩
    · exact fun b hb => ((Listing.mem_merge hbars husable).1 hb).elim (hbars b) (husable b)
    · exact fun b hb => (Listing.mem_merge hbars husable).2 (Or.inl hb)
    · exact (Listing.mem_merge hbars husable).2
        (Or.inr ((mem_usable_of_serves h hrows).2 (hb.mono htoday)))
  · rw [visit_of_ne h w hs hsource]
    exact ⟨Gathers.refl hbars hfree, fun heq => absurd heq hsource, fun _ => rfl⟩

/-- A walk gathers the rows of the listing, if the source is among those it asks. -/
theorem walk_of_serves (h : e.Serves symbol exchange l source) (w : Window) {order : List String}
    (horder : ∀ s ∈ order, s ∈ e.orderFor symbol) {bars : List Bar}
    (hbars : ∀ b ∈ bars, l.Lists b) {m : Market ω} (hfree : m.Free source) :
    Gathers l source bars m (e.walk ⟨symbol, exchange, w⟩ order bars m).1.bars
        (e.walk ⟨symbol, exchange, w⟩ order bars m).2
      ∧ (source ∈ order → ∀ b, l.Shows w m.now.day b →
        b ∈ (e.walk ⟨symbol, exchange, w⟩ order bars m).1.bars) := by
  -- what was shown when the walk began is still shown at every later entry
  induction order generalizing bars m with
  | nil => exact ⟨Gathers.refl hbars hfree, fun hnone => absurd hnone List.not_mem_nil⟩
  | cons s rest ih =>
    obtain ⟨hvisit, hshown, hother⟩ := visit_of_serves h w (horder s (by simp)) hbars hfree
    obtain ⟨hwalk, hrest⟩ := ih (fun s' hs' => horder s' (by simp [hs'])) hvisit.lists hvisit.free
    rw [walk_cons_def]
    simp only
    split
    next hstop =>
      -- the walk only ends early after a source was asked
      refine ⟨hvisit, fun _ => hshown ?_⟩
      by_cases hsource : s = source
      · exact hsource
      · rw [hother hsource] at hstop
        cases hstop
    next =>
      refine ⟨hvisit.trans hwalk, fun hmem b hb => ?_⟩
      rcases List.mem_cons.1 hmem with rfl | hmem
      · exact hwalk.kept b (hshown rfl b hb)
      · exact hrest hmem b (hb.mono (Instant.day_le_day hvisit.before.now_le))

/-- What is fetched are bars of the listing, among them all of the window that were out. -/
theorem fetch_of_serves (h : e.Serves symbol exchange l source) (w : Window) {m : Market ω}
    (hfree : m.Free source) :
    Gathers l source [] m (e.fetch ⟨symbol, exchange, w⟩ m).1.bars
        (e.fetch ⟨symbol, exchange, w⟩ m).2
      ∧ ∀ b, l.Shows w m.now.day b → b ∈ (e.fetch ⟨symbol, exchange, w⟩ m).1.bars := by
  have hnone : ∀ b ∈ ([] : List Bar), l.Lists b := fun b hb => absurd hb List.not_mem_nil
  rw [fetch_def]
  split
  next hcount =>
    refine ⟨Gathers.refl hnone hfree, fun b hb => ?_⟩
    exact absurd hcount (Window.businessDayCount_ne_zero hb.inWindow (l.business _ _ hb.lists))
  next =>
    obtain ⟨hwalk, hshown⟩ := walk_of_serves h w (fun s hs => hs) hnone hfree
    exact ⟨hwalk, hshown h.ordered⟩

/-- A walk that comes to the source is answered. -/
theorem answered_walk_of_serves (h : e.Serves symbol exchange l source) (w : Window)
    {order : List String} (horder : ∀ s ∈ order, s ∈ e.orderFor symbol) (hmem : source ∈ order)
    (bars : List Bar) {m : Market ω} (hfree : m.Free source) :
    (e.walk ⟨symbol, exchange, w⟩ order bars m).1.answered = true := by
  induction order with
  | nil => cases hmem
  | cons s rest ih =>
    rw [walk_cons_def]
    by_cases hsource : s = source
    · subst hsource
      obtain ⟨rows, today, m', hvisit, -⟩ := visit_eq_of_serves h w bars hfree
      simp only [hvisit]
      split <;> rfl
    · have hrest : source ∈ rest := (List.mem_cons.1 hmem).resolve_left (Ne.symm hsource)
      have hanswered := ih (fun s' hs' => horder s' (List.mem_cons_of_mem s hs')) hrest
      simp only [visit_of_ne h w (horder s List.mem_cons_self) hsource, Outcome.called,
        Bool.false_and, Bool.false_eq_true, if_false]
      rw [Merged.answered, List.any_cons, ← Merged.answered, hanswered, Bool.or_true]

/-- What is asked for a window with a business day is answered. -/
theorem answered_fetch_of_serves (h : e.Serves symbol exchange l source) {w : Window}
    (hcount : w.businessDayCount ≠ 0) {m : Market ω} (hfree : m.Free source) :
    (e.fetch ⟨symbol, exchange, w⟩ m).1.answered = true := by
  rw [fetch_def]
  rw [if_neg hcount]
  exact answered_walk_of_serves h w (fun s hs => hs) h.ordered [] hfree

/-! ## Where the calendar ends -/

/-- The calendar has no time for the request of a source that is asked. -/
def LacksTime (e : Engine ω) (q : Query) (m : Market ω) : Prop :=
  ∃ v ∈ e.fetchVisits q m,
    v.outcome.called = true ∧ ¬ v.market.pace.limiter.HasTime e.limits v.source

/-- A source without a budget is asked at once. -/
theorem not_lacksTime {e : Engine ω} (h : e.limits.budgets = []) (q : Query) (m : Market ω) :
    ¬ e.LacksTime q m := by
  rintro ⟨v, -, -, htime⟩
  refine htime fun spacing hspacing => ?_
  rw [Limits.spacing?, h] at hspacing
  cases hspacing

/-- As long as requests have a time, what is asked of such sources comes to its end. -/
theorem visitsCome_of_serves (h : e.Serves symbol exchange l source) (w : Window) :
    e.VisitsCome ⟨symbol, exchange, w⟩ (e.orderFor symbol) (Market.Free · source) fun v =>
      v.outcome.called = true → v.market.pace.limiter.HasTime e.limits v.source := by
  intro s hs bars m hfree
  by_cases hsource : s = source
  · subst hsource
    obtain ⟨_, _, m', hvisit, hcalled, -⟩ := visit_eq_of_serves h w bars hfree
    have hgate := (Market.gate_of_free hfree).2
    obtain ⟨rows, hrows, -⟩ := h.answers w
      ((m.gate s).2.withPace (·.awaitBudget e.limits s)).now
      ((m.gate s).2.withPace (·.awaitBudget e.limits s)).outside
    have hcall := e.comesTo_call_of_ok s ⟨symbol, exchange, w⟩ (m.gate s).2 hrows
    refine ⟨(Visit.comesTo_of_call ⟨e, ⟨symbol, exchange, w⟩, s, bars, m⟩ fun _ => ?_), ?_⟩
    · exact (hcall.congr (m.hasTime_gate e.limits s)).mono fun _ heq => heq ▸ hgate
    · rw [hvisit]
      exact hcalled
  · have hvisit := visit_of_ne h w hs hsource bars m
    refine ⟨Visit.comesTo_of_call ⟨e, ⟨symbol, exchange, w⟩, s, bars, m⟩ fun hcalled => ?_, ?_⟩
    · rw [Visit.outcome, hvisit] at hcalled
      cases hcalled
    · rw [hvisit]
      exact hfree

/-- What is asked of such sources comes to its end, unless the calendar ends before. -/
theorem fetch?_of_serves (h : e.Serves symbol exchange l source) {w : Window} (hw : w.InCalendar)
    {m : Market ω} (hfree : m.Free source) :
    e.fetch? ⟨symbol, exchange, w⟩ m = .ok (e.fetch ⟨symbol, exchange, w⟩ m)
      ∨ ∃ m', e.fetch? ⟨symbol, exchange, w⟩ m = .error m' ∧ m'.Free source
        ∧ (w.last = Day.latest ∨ e.LacksTime ⟨symbol, exchange, w⟩ m) := by
  have hcomes := (visitsCome_of_serves h w).fetch hfree
  cases hfetch : e.fetch? ⟨symbol, exchange, w⟩ m with
  | ok result => exact Or.inl (congrArg Except.ok (hcomes.eq_ok_iff.1 hfetch).2)
  | error m' =>
    obtain ⟨hends, hfree'⟩ := hcomes.of_eq_error hfetch
    refine Or.inr ⟨m', rfl, hfree', ?_⟩
    by_cases hlast : w.last = Day.latest
    · exact Or.inl hlast
    · have hcount : w.businessDayCount?.isSome = true := by
        rw [Window.businessDayCount?_eq hw hlast]
        rfl
      simp only [not_and, not_forall] at hends
      obtain ⟨v, hv, hcalled, htime⟩ := hends hcount
      exact Or.inr ⟨v, hv, hcalled, htime⟩

end Engine

/-! ## Listings of given bars -/

namespace Listing

/-- The sane bars among these that are dated on business days, each of them out on the next day. -/
def ofBars (bars : List Bar) : Listing where
  bar? d := (Series.at? bars d).filter fun b => b.isSane && d.isBusinessDay
  out := Day.next
  date d b h := by
    have hfound := List.find?_some (Option.filter_eq_some_iff.1 h).1
    simpa using hfound
  sane d b h := (Bool.and_eq_true_iff.1 (Option.filter_eq_some_iff.1 h).2).1
  business d b h := (Bool.and_eq_true_iff.1 (Option.filter_eq_some_iff.1 h).2).2
  prompt _ _ _ := Int.le_refl _

/-- What a source that has the listing answers on a day. -/
def rows (l : Listing) (w : Window) (today : Day) : List Bar :=
  (w.first.upTo w.last).filterMap fun d => (l.bar? d).filter fun _ => l.out d ≤ today

/-- The rows of a window are those the listing shows. -/
theorem mem_rows {l : Listing} {w : Window} {today : Day} {b : Bar} :
    b ∈ l.rows w today ↔ l.Shows w today b := by
  simp only [rows, List.mem_filterMap, Day.mem_upTo, Option.filter_eq_some_iff, decide_eq_true_eq]
  constructor
  · rintro ⟨d, hd, hlisted, hout⟩
    have hdate := l.date d b hlisted
    subst hdate
    exact ⟨hlisted, Window.contains_iff.2 hd, hout⟩
  · intro h
    exact ⟨b.date, Window.contains_iff.1 h.inWindow, h.lists, h.out⟩

/-- An engine that asks one source, which has the listing. -/
def engine (l : Listing) (source : String) : Engine Unit where
  sources :=
    { configured := fun s => s == source
      ask := fun _ q now outside => (.ok (l.rows q.window now.day), outside) }
  settings := { order := [source], isinOrder := [] }

/-- The engine of a listing serves it. -/
theorem serves_engine (l : Listing) (source symbol exchange : String) :
    (l.engine source).Serves symbol exchange l source where
  ordered := by simp [Engine.orderFor, engine]
  alone := by simp [Engine.orderFor, engine]
  unscaled := rfl
  answers w now _ := ⟨l.rows w now.day, rfl, fun _ => mem_rows⟩

end Listing
end DailyBars
