import DailyBars.Proofs.Store.Session

/-! # Every listed bar is found

A bar may be asked for before it is out. Its day is then covered only until the next one, unless
there is a row beyond it: `Held.Follows` says that whatever is covered before a day has its listed
bars, and every load keeps it. So no bar is missing for good.
-/

namespace DailyBars

/-! ## What a request is answered with -/

/-- The row is a listed bar, maybe with the ticker and the exchange of the key. -/
def Listing.Gives (l : Listing) (key : SeriesKey) (b r : Bar) : Prop :=
  l.Lists b ∧ (r = b ∨ r = b.tagged key.symbol key.exchange)

/-- A row that a listing gives has the date of its bar. -/
theorem Listing.Gives.date {l : Listing} {key : SeriesKey} {b r : Bar} (h : l.Gives key b r) :
    r.date = b.date := by
  rcases h.2 with rfl | rfl <;> rfl

/-- The rows for a request on a day: all listed bars of the window from before the day, and no
others of the window but one of the day itself. -/
structure Listing.Exact (l : Listing) (key : SeriesKey) (rows : List Bar) (requested : Window)
    (today : Day) : Prop where
  ascending : Series.Ascending rows
  complete : ∀ b, l.Lists b → requested.contains b.date = true → b.date < today →
    ∃ r ∈ rows, l.Gives key b r
  sound : ∀ r ∈ rows, requested.contains r.date = true ∧ r.date ≤ today ∧ ∃ b, l.Gives key b r

/-- Nothing is returned for a window whose end comes first. -/
theorem Listing.exact_of_isEmpty (l : Listing) (key : SeriesKey) {requested : Window}
    (h : requested.isEmpty = true) (today : Day) : l.Exact key [] requested today where
  ascending := List.Pairwise.nil
  complete := by
    intro b _ hin _
    rw [Window.contains_of_isEmpty h] at hin
    cases hin
  sound := fun r hr => absurd hr List.not_mem_nil

/-! ## What is held and what is fetched -/

/-- What is held are listed bars, nothing counts beyond today, and a covered day has its listed bar
once it is over. -/
structure Held.Follows (h : Held) (l : Listing) (key : SeriesKey) (today : Day) : Prop where
  lists : ∀ r ∈ h.rows, ∃ b, l.Lists b ∧ b.tagged key.symbol key.exchange = r
  within : ∀ d, Window.Covers (h.covered today) d → d ≤ today
  checked : ∀ span, h.span = some span → span.checkedOn ≤ today
  found : ∀ t, today ≤ t → ∀ b, l.Lists b → b.date < t → Window.Covers (h.covered t) b.date →
    b.tagged key.symbol key.exchange ∈ h.rows

/-- The bars that came are listed, and all that are dated before today came. -/
structure Delta.Follows (d : Delta) (l : Listing) (today : Day) : Prop where
  lists : ∀ f ∈ d.fetched, ∀ b ∈ f.merged.bars, l.Lists b
  shown : ∀ f ∈ d.fetched, ∀ b, l.Lists b → f.range.contains b.date = true → b.date < today →
    b ∈ f.merged.bars

namespace Held.Follows

variable {h : Held} {l : Listing} {key : SeriesKey} {today t : Day}

/-- What follows a listing is tagged, -/
theorem tagged (hf : h.Follows l key today) : h.Tagged key := by
  intro r hr
  obtain ⟨b, -, rfl⟩ := hf.lists r hr
  rfl

/-- and follows it on every later day. -/
theorem mono (hf : h.Follows l key today) (ht : today ≤ t) : h.Follows l key t where
  lists := hf.lists
  within := fun d hd => Int.le_trans (hf.within d (h.covers_mono ht hd)) ht
  checked := fun span hspan => Int.le_trans (hf.checked span hspan) ht
  found := fun u hu => hf.found u (Int.le_trans ht hu)

end Held.Follows

namespace Grown

variable {key : SeriesKey} {today : Day} {h h' : Held} {d : Delta} {stored : Bool} {l : Listing}

/-- A stored cycle follows the listing if what it found and what it fetched does. -/
theorem follows (g : Grown key today h d true h') (hf : h.Follows l key today)
    (hd : d.Follows l today)
    (hranges : ∀ f ∈ d.fetched, ∀ x, f.range.contains x = true → x ≤ today) :
    h'.Follows l key today := by
  have hlists : ∀ r ∈ h'.rows, ∃ b, l.Lists b ∧ b.tagged key.symbol key.exchange = r := by
    intro r hr
    obtain ⟨a, ha | ⟨-, ha⟩, rfl⟩ := (g.mem_rows_of_tagged hf.tagged).1 hr
    · obtain ⟨b, hb, rfl⟩ := hf.lists a ha
      exact ⟨b, hb, rfl⟩
    · obtain ⟨f, hmem, haf⟩ := Delta.mem_bars.1 ha
      exact ⟨a, hd.lists f hmem a haf, rfl⟩
  have hchecked : ∀ span, h'.span = some span → span.checkedOn ≤ today := by
    intro span hspan
    rcases g.span with hsame | ⟨-, w, -, hwritten⟩
    · exact hf.checked span (hsame ▸ hspan)
    · rw [hwritten, Option.some.injEq] at hspan
      subst hspan
      exact Int.le_refl _
  refine ⟨hlists, fun x hx => g.le_today hf.within hranges (Int.le_refl _) hx, hchecked, ?_⟩
  intro t ht b hb hpast hcovers
  by_cases hbefore : b.date < today
  · rcases g.sound.covers_answered.1 (g.covers_answered ht hcovers) with hx | ⟨f, hmem, -, hfx⟩
    · exact g.mem_of_mem hf.tagged
        (hf.found today (Int.le_refl _) b hb hbefore (g.covered ▸ hx))
    · refine (g.mem_rows_of_tagged hf.tagged).2 ⟨b, Or.inr ⟨rfl, ?_⟩, rfl⟩
      exact Delta.mem_bars.2 ⟨f, hmem, hd.shown f hmem b hb hfx hbefore⟩
  · -- the day is today, so on a later day it is covered only if there is a row of it
    obtain ⟨-, y, hy, hby⟩ := h'.covers_covered.1 hcovers
    have hyt : y ≤ today := g.le_today hf.within hranges ht (h'.covers_of_marks hy)
    rcases hy with ⟨r, hr, rfl⟩ | ⟨span, hspan, -, -, hcheck⟩
    · obtain ⟨c, hc, rfl⟩ := hlists r hr
      have hdate : b.date = c.date := by
        apply Day.ext
        simp only [Bar.tagged_date, Day.lt_def, Day.le_def] at hbefore hby hyt
        omega
      rw [Listing.eq_of_date_eq hb hc hdate]
      exact hr
    · have hon := hchecked span hspan
      simp only [Day.lt_def, Day.le_def] at hbefore hby hyt hon hpast hcheck
      omega

end Grown

/-! ## Asking a source that answers from the listing -/

section

variable {σ ω : Type} {storage : Storage σ} {view : storage.View} {l : Listing} {key : SeriesKey}
  {source : String}

/-- What such a source is asked for is answered with its bars, as far as the program comes. -/
theorem RollingStore.askFor_of_serves {e : Engine ω}
    (h : e.Serves key.symbol key.exchange l source) {ranges : List Window}
    (hranges : ∀ r ∈ ranges, r.InCalendar) {m : Market ω} (hfree : m.Free source) :
    (askFor e key ranges m).market.Free source
      ∧ ∀ f ∈ (askFor e key ranges m).fetched, (∀ b ∈ f.merged.bars, l.Lists b)
        ∧ (∀ b, l.Shows f.range m.now.day b → b ∈ f.merged.bars)
        ∧ (f.range.businessDayCount ≠ 0 → f.merged.answered = true) := by
  induction ranges generalizing m with
  | nil => exact ⟨hfree, fun f hf => absurd hf List.not_mem_nil⟩
  | cons range rest ih =>
    rcases Engine.fetch?_of_serves h (hranges range List.mem_cons_self) hfree with
      hfetch | ⟨m', hfetch, hfree', -⟩
    · obtain ⟨hgathers, hshown⟩ := Engine.fetch_of_serves h range hfree
      obtain ⟨hlater, hrest⟩ :=
        ih (fun r hr => hranges r (List.mem_cons_of_mem range hr)) hgathers.free
      rw [askFor_cons_of_ok hfetch]
      refine ⟨hlater, fun f hf => ?_⟩
      rcases List.mem_cons.1 hf with rfl | hf
      · exact ⟨hgathers.lists, hshown, fun hcount => Engine.answered_fetch_of_serves h hcount hfree⟩
      · obtain ⟨hlists, hlater, hanswered⟩ := hrest f hf
        refine ⟨hlists, fun b hb => hlater b ?_, hanswered⟩
        exact hb.mono (Instant.day_le_day hgathers.before.now_le)
    · rw [askFor_cons_of_error hfetch]
      exact ⟨hfree', fun f hf => absurd hf List.not_mem_nil⟩

/-- The program ends at a range of such a source only where the calendar does. -/
theorem RollingStore.runsOut_of_serves {e : Engine ω}
    (h : e.Serves key.symbol key.exchange l source) {ranges : List Window}
    (hranges : ∀ r ∈ ranges, r.InCalendar) {m : Market ω} (hfree : m.Free source) {range : Window}
    (hended : (askFor e key ranges m).endedAt = some range) :
    range.last = Day.latest
      ∨ ∃ m', askFor e key ((askFor e key ranges m).fetched.map Fetched.range) m
          = { fetched := (askFor e key ranges m).fetched, endedAt := none, market := m' }
        ∧ e.LacksTime ⟨key.symbol, key.exchange, range⟩ m' := by
  obtain ⟨m', hasked, hends⟩ := askFor_of_endedAt hended
  have hpassed := (passed_askFor e key ranges m).1.subset
  have hfetched : ∀ r ∈ (askFor e key ranges m).fetched.map Fetched.range, r.InCalendar :=
    fun r hr => hranges r (hpassed (List.mem_append_left _ hr))
  have hrange : range.InCalendar := by
    refine hranges range (hpassed (List.mem_append_right _ ?_))
    rw [hended]
    exact List.mem_singleton_self range
  have hfree' := (askFor_of_serves h hfetched hfree).1
  rw [hasked] at hfree'
  rcases Engine.fetch?_of_serves h hrange hfree' with hok | ⟨-, -, -, hlast | hlacks⟩
  · rw [hok] at hends
    cases hends
  · exact Or.inl hlast
  · exact Or.inr ⟨m', hasked, hlacks⟩

namespace Cycle

variable {store : RollingStore σ ω} {view : store.storage.View} {requested : Window} {t : Texts}
  {s s' : StoreState σ ω} {report : Report}

/-- What a cycle fetches from such a source follows the listing. -/
theorem follows_delta (h : Cycle store view key requested s.today t s s' report)
    (hrequested : requested.InCalendar)
    (hserves : store.engine.Serves key.symbol key.exchange l source)
    (hfree : s.market.Free source) : s'.market.Free source
      ∧ (t.delta key s.today report.fetched).Follows l s.today := by
  obtain ⟨hlater, hfetched⟩ := RollingStore.askFor_of_serves hserves
    ((t.held key).inCalendar_wanted hrequested s.today) hfree
  rw [h.asked] at hlater hfetched
  refine ⟨hlater, fun f hf => (hfetched f hf).1, fun f hf b hb hin hpast => ?_⟩
  refine (hfetched f hf).2.1 b ⟨hb, hin, ?_⟩
  have hprompt : l.out b.date ≤ b.date.next := l.prompt _ _ hb
  show l.out b.date ≤ s.today
  simp only [Day.lt_def, Day.le_def, Day.next_number] at hpast hprompt ⊢
  omega

/-- What such a source is asked for is recorded, with the day of the load. -/
theorem span_of_serves (h : Cycle store view key requested s.today t s s' report)
    (hrequested : requested.InCalendar) (htoday : s.today.InCalendar) (hreliable : view.Reliable)
    (hserves : store.engine.Serves key.symbol key.exchange l source) (hfree : s.market.Free source)
    (hsome : report.fetched ≠ []) :
    ∃ w, ((view.texts s'.storage).held key).span = some (.of w s.today) := by
  have hfetched := (RollingStore.askFor_of_serves hserves
    ((t.held key).inCalendar_wanted hrequested s.today) hfree).2
  rw [h.asked] at hfetched
  obtain ⟨f, hf⟩ := List.exists_mem_of_ne_nil _ hsome
  have hwanted : f.range ∈ Window.wanted ((t.held key).covered s.today) requested s.today := by
    rw [← h.map_range]
    exact List.mem_map_of_mem hf
  have hanswered := (hfetched f hf).2.2
    (Window.businessDayCount_wanted ((t.held key).ordered_covered s.today) hwanted)
  -- the first day of the range is accounted for now and was not before
  have hfirst : f.range.contains f.range.first = true :=
    Window.contains_iff.2 ⟨Int.le_refl _, h.sound.gaps.ordered _ (List.mem_map_of_mem hf)⟩
  obtain ⟨w, hw, hin⟩ := h.sound.covers_answered.2 (Or.inr ⟨f, hf, hanswered, hfirst⟩)
  refine ⟨w, (h.recorded hrequested htoday hreliable).2 w hw fun hsame => ?_⟩
  exact h.sound.not_covers hf hfirst ⟨w, hsame.symm.trans hw, hin⟩

/-- A business day of the request that is not after today is covered or fetched. -/
theorem covers_or_fetched {today : Day}
    (h : Cycle store view key requested today t s s' report) {x : Day}
    (hx : requested.contains x = true) (hbusiness : x.isBusinessDay = true) (htoday : x ≤ today) :
    Window.Covers ((t.held key).covered today) x
      ∨ ∃ f ∈ report.fetched, f.range.contains x = true := by
  have hin : (⟨requested.first, min requested.last today⟩ : Window).contains x = true := by
    rw [Window.contains_iff] at hx ⊢
    simp only [Day.le_def, Day.min_number] at hx htoday ⊢
    omega
  rcases Window.wanted_cases ((t.held key).ordered_covered today) requested today with
    ⟨-, hnone⟩ | ⟨window, -, hinner, -, hmissing⟩
  · rw [Window.not_isBusinessDay_of_normalized hnone hin] at hbusiness
    cases hbusiness
  · have hwindow := Window.covers_some_iff.2 (hinner.all x hin hbusiness)
    refine (hmissing.complete x hwindow).imp_right ?_
    rw [← h.map_range]
    rintro ⟨r, hr, hxr⟩
    obtain ⟨f, hf, rfl⟩ := List.mem_map.1 hr
    exact ⟨f, hf, Window.covers_some_iff.1 hxr⟩

/-- A load that goes through a cycle returns what the listing has for its request. -/
theorem exact {today : Day} (h : Cycle store view key requested today t s s' report)
    (hgrown : Grown key today (t.held key) (t.delta key today report.fetched) report.stored
      ((view.texts s'.storage).held key))
    (hheld : (t.held key).Follows l key today)
    (hdelta : (t.delta key today report.fetched).Follows l today) :
    l.Exact key report.rows requested today := by
  rw [h.rows, Delta.extended_eq_merge (t.held key).ascending]
  have hmem : ∀ {r}, r ∈ Series.clip (Series.merge (t.held key).rows
      (t.delta key today report.fetched).bars) requested
        ↔ (r ∈ (t.held key).rows ∨ r ∈ (t.delta key today report.fetched).bars)
          ∧ requested.contains r.date = true := fun {r} => by
    rw [Series.mem_clip, hgrown.mem_merge]
  refine ⟨Series.ascending_clip (Series.ascending_merge _ _) _, ?_, ?_⟩
  · intro b hb hin hpast
    rcases h.covers_or_fetched hin (l.business _ _ hb) (Int.le_of_lt hpast) with hx | ⟨f, hf, hfx⟩
    · exact ⟨_, hmem.2 ⟨Or.inl (hheld.found today (Int.le_refl _) b hb hpast hx), hin⟩, hb,
        Or.inr rfl⟩
    · have hbf := hdelta.shown f hf b hb hfx hpast
      exact ⟨b, hmem.2 ⟨Or.inr (Delta.mem_bars.2 ⟨f, hf, hbf⟩), hin⟩, hb, Or.inl rfl⟩
  · intro r hr
    obtain ⟨hr | hr, hin⟩ := hmem.1 hr
    · obtain ⟨b, hb, rfl⟩ := hheld.lists r hr
      exact ⟨hin, hheld.within _ (Held.covers_of_marks _ (Or.inl ⟨_, hr, rfl⟩)), b, hb, Or.inr rfl⟩
    · obtain ⟨f, hf, hrf⟩ := Delta.mem_bars.1 hr
      exact ⟨hin, h.le_today_of_fetched hheld.within hf (h.sound.inRange f hf r hrf), r,
        hdelta.lists f hf r hrf, Or.inl rfl⟩

end Cycle

/-! ## Runs -/

/-- The store asks a source that answers from the listing, and nothing keeps it from asking. -/
structure Session.Served (l : Listing) (key : SeriesKey) (source : String) (s : Session σ ω) :
    Prop where
  serves : s.engine.Serves key.symbol key.exchange l source
  online : s.offline = false
  free : s.state.market.Free source

/-- The step is a load of the key, lets time pass, or builds the store again with a source that
answers from the listing. -/
def Step.Follows (l : Listing) (key : SeriesKey) : Step ω → Prop
  | load symbol exchange _ _ => SeriesKey.of symbol exchange = key
  | wait _ => True
  | setClock _ _ => False
  | turn _ => True
  | reopen engine offline _ limiter => offline = false ∧ ∃ source,
    engine.Serves key.symbol key.exchange l source ∧ (limiter.standing source).Free

/-- What is held and what is remembered follows the listing. -/
structure Session.Follows (view : storage.View) (l : Listing) (key : SeriesKey)
    (s : Session σ ω) : Prop where
  clean : s.Clean view key
  served : ∃ source, s.Served l key source
  held : ((view.texts s.state.storage).held key).Follows l key s.state.today
  remembered : ∀ requested today rows, s.state.memo.Gives (key.memoKey requested today) rows →
    l.Exact key rows requested today

/-- On an empty storage a session follows every listing that it is served from, -/
theorem Session.follows_of_empty {s : Session σ ω} (hempty : view.Empty s.state.storage)
    (hnow : s.state.market.now.InCalendar) (hserved : ∃ source, s.Served l key source)
    (hforgotten : s.state.Forgotten key) : s.Follows view l key where
  clean := clean_of_empty hempty hnow key
  served := hserved
  held := by
    have hrows : ((view.texts s.state.storage).held key).rows = [] :=
      Texts.rows_of_none (hempty.texts _)
    have hspan : ((view.texts s.state.storage).held key).span = none :=
      Texts.span?_of_none (hempty.texts _)
    have hcovered : ∀ t d,
        ¬ Window.Covers (((view.texts s.state.storage).held key).covered t) d := by
      intro t d
      rw [Texts.covered_of_none (hempty.texts _) (hempty.texts _)]
      exact Window.not_covers_none d
    exact {
      lists := fun r hr => by
        rw [hrows] at hr
        cases hr
      within := fun d hd => absurd hd (hcovered _ d)
      checked := fun span h => by
        rw [hspan] at h
        cases h
      found := fun t _ b _ _ hd => absurd hd (hcovered t _) }
  remembered := fun _ _ _ hgives => absurd ⟨rfl, rfl⟩ (hforgotten _ _ hgives)

/-- What leaves the texts alone keeps what follows the listing. -/
theorem Session.Follows.of_same_texts {s s' : Session σ ω} (h : s.Follows view l key)
    (hclean : s'.Clean view key) (hserved : ∃ source, s'.Served l key source)
    (htexts : view.texts s'.state.storage = view.texts s.state.storage)
    (hlater : s.state.today ≤ s'.state.today)
    (hmemo : ∀ k rows, s'.state.memo.Gives k rows → s.state.memo.Gives k rows) :
    s'.Follows view l key where
  clean := hclean
  served := hserved
  held := by
    rw [htexts]
    exact h.held.mono hlater
  remembered := fun requested today rows hgives => h.remembered _ _ _ (hmemo _ _ hgives)

namespace Entry

variable {e : Entry σ ω}

/-- A cycle of a reliable storage keeps what follows the listing. -/
theorem held_after (hreliable : view.Reliable) (h : e.before.Follows view l e.key)
    {report : Report} {s' : StoreState σ ω}
    (hcycle : Cycle (e.before.store storage) view e.key e.requested e.today
      (view.texts e.before.state.storage) e.before.state s' report)
    (hdelta : ((view.texts e.before.state.storage).delta e.key e.today report.fetched).Follows l
      e.today) : ((view.texts s'.storage).held e.key).Follows l e.key e.today := by
  have hgrown := hcycle.grown e.inCalendar h.clean.inCalendar
  rw [(hcycle.recorded e.inCalendar h.clean.inCalendar hreliable).1] at hgrown
  exact hgrown.follows h.held hdelta fun f hf x hx => hcycle.le_today_of_fetched h.held.within hf hx

/-- The load is made on the last day of the calendar, or comes upon a span from the first one, or
the calendar has no time for a request that the load makes. -/
def RunsOut (storage : Storage σ) (e : Entry σ ω) : Prop :=
  e.today = Day.latest ∨ e.FromFirstDay storage ∨ ∃ fetched range market,
    RollingStore.askFor e.before.engine e.key (fetched.map Fetched.range) e.before.state.market
        = { fetched, endedAt := none, market }
      ∧ e.passed storage = fetched.map Fetched.range ++ [range]
      ∧ e.before.engine.LacksTime ⟨e.key.symbol, e.key.exchange, range⟩ market

/-- The program ends in a load from such a source only where the calendar does. -/
theorem runsOut_of_ended (hkey : e.key.Valid) (h : e.before.Follows view l e.key)
    (htrims : ((view.texts e.before.state.storage).held e.key).Trims e.today)
    (hended : e.answer storage = .error .outsideCalendar)
    (hasked : Ended (e.before.store storage) e.key e.requested e.today
      (view.texts e.before.state.storage) e.before.state (e.after storage).state) :
    e.RunsOut storage := by
  obtain ⟨source, hserved⟩ := h.served
  obtain ⟨fetched, range, hasked⟩ := hasked
  have hends := RollingStore.runsOut_of_serves hserved.serves
    (Held.inCalendar_wanted _ e.inCalendar e.today) hserved.free (congrArg Asked.endedAt hasked)
  have hpassed : e.passed storage = fetched.map Fetched.range ++ [range] := by
    rw [passed, asked_of_clean_of_ended hkey h.clean htrims hended]
    exact congrArg Asked.passed hasked
  rcases hends with hlast | ⟨market, hmarket, hlacks⟩
  · -- no range ends after today, and today is a day of the calendar
    left
    have hrange : range ∈ Window.wanted
        (((view.texts e.before.state.storage).held e.key).covered e.today) e.requested e.today := by
      refine (RollingStore.passed_askFor e.before.engine e.key _ e.before.state.market).1.subset ?_
      rw [← asked_of_clean_of_ended hkey h.clean htrims hended]
      show range ∈ e.passed storage
      rw [hpassed]
      exact List.mem_append_right _ (List.mem_singleton_self range)
    have hordered := (Window.gaps_wanted (Held.ordered_covered _ e.today) e.requested e.today).ordered
      range hrange
    have htoday := Window.le_today_of_wanted (Held.ordered_covered _ e.today) h.held.within hrange
      (Window.contains_iff.2 ⟨hordered, Int.le_refl _⟩)
    rw [hlast] at htoday
    exact Day.ext (Int.le_antisymm h.clean.inCalendar.2 htoday)
  · refine Or.inr (Or.inr ⟨_, range, market, hmarket, ?_, hlacks⟩)
    rw [hpassed]
    exact congrArg (fun a => Asked.fetched a |>.map Fetched.range |>.append [range]) hasked.symm

/-- A load returns what the listing has for its request unless the calendar ends, and keeps what
follows the listing. -/
theorem follows_after (hreliable : view.Reliable) (hkey : e.key.Valid)
    (h : e.before.Follows view l e.key) :
    ((∃ a, e.answer storage = .ok a ∧ l.Exact e.key a.rows e.requested e.today)
        ∨ e.answer storage = .error .outsideCalendar ∧ e.RunsOut storage)
      ∧ (e.after storage).Follows view l e.key := by
  have hclean : (e.after storage).Clean view e.key := clean_after hkey h.clean
  have hlater := e.today_le_after view h.clean.toSound
  obtain ⟨source, hserved⟩ := h.served
  obtain ⟨r, s', hr, hs', hloaded⟩ : ∃ r s', e.answer storage = r
      ∧ (e.after storage).state = s' ∧ Loaded (e.before.store storage) view e.key e.requested
        e.before.state r s' := ⟨_, _, rfl, rfl, e.loaded view h.clean.toSound⟩
  cases hloaded with
  | nothing hempty =>
    refine ⟨Or.inl ⟨_, hr, l.exact_of_isEmpty e.key hempty e.today⟩, ?_⟩
    exact h.of_same_texts hclean ⟨source, hserved.serves, hserved.online, hs' ▸ hserved.free⟩
      (by rw [hs']) hlater fun k rows hgives => hs' ▸ hgives
  | invalid err hinvalid => exact absurd hkey hinvalid
  | remembered rows _ _ hgives hstorage hmarket hmemo =>
    refine ⟨Or.inl ⟨_, hr, h.remembered _ _ _ hgives⟩, ?_⟩
    have hfree : (e.after storage).state.market.Free source := by
      rw [hs', hmarket]
      exact hserved.free
    exact h.of_same_texts hclean ⟨source, hserved.serves, hserved.online, hfree⟩
      (by rw [hs', hstorage]) hlater fun k rows hgives => hmemo k rows (hs' ▸ hgives)
  | refused err _ _ hrefused =>
    cases hrefused.reason with
    | offline hoffline _ =>
      have honline := hserved.online
      rw [Session.store, honline] at hoffline
      cases hoffline
    | unreadable hunreadable _ => exact absurd h.clean.readable hunreadable
    | untrimmed huntrimmed hmarket =>
      have htexts := hrefused.cleared.readable h.clean.readable
      rw [htexts] at huntrimmed
      refine ⟨Or.inr ⟨hr, Or.inr (Or.inl ?_)⟩, ?_⟩
      · exact (fromFirstDay_iff hkey h.clean.toSound).2 huntrimmed
      have hfree : (e.after storage).state.market.Free source := by
        rw [hs', hmarket]
        exact hserved.free
      exact h.of_same_texts hclean ⟨source, hserved.serves, hserved.online, hfree⟩
        (by rw [hs', htexts]) hlater fun k rows hgives => hrefused.memo ▸ hs' ▸ hgives
    | ended _ hended =>
      have htexts := hrefused.cleared.readable h.clean.readable
      rw [htexts] at hended
      have hends : Ended (e.before.store storage) e.key e.requested e.today
        (view.texts e.before.state.storage) e.before.state (e.after storage).state := hs' ▸ hended
      obtain ⟨fetched, range, hasked⟩ := hends
      refine ⟨Or.inr ⟨hr, ?_⟩, ?_⟩
      · by_cases htrims : ((view.texts e.before.state.storage).held e.key).Trims e.today
        · exact runsOut_of_ended hkey h htrims hr ⟨fetched, range, hasked⟩
        · exact Or.inr (Or.inl ((fromFirstDay_iff hkey h.clean.toSound).2 htrims))
      have hfree : (e.after storage).state.market.Free source := by
        have hfree := (RollingStore.askFor_of_serves hserved.serves (Held.inCalendar_wanted
          ((view.texts e.before.state.storage).held e.key) e.inCalendar e.today) hserved.free).1
        unfold Session.store at hasked
        rwa [hasked] at hfree
      exact h.of_same_texts hclean ⟨source, hserved.serves, hserved.online, hfree⟩
        (by rw [hs', htexts]) hlater fun k rows hgives => hrefused.memo ▸ hs' ▸ hgives
  | fresh t report _ _ _ hcycle hmemo _ =>
    -- a clean series is never put out of the way
    have ht := hcycle.cleared.readable h.clean.readable
    subst ht
    obtain ⟨hfree, hdelta⟩ := hcycle.follows_delta e.inCalendar hserved.serves hserved.free
    have hexact := hcycle.exact (hcycle.grown e.inCalendar h.clean.inCalendar) h.held hdelta
    have hheld := held_after hreliable h hcycle hdelta
    refine ⟨Or.inl ⟨_, hr, hexact⟩, hclean,
      ⟨source, hserved.serves, hserved.online, hs' ▸ hfree⟩, ?_, ?_⟩
    · rw [hs'] at hlater ⊢
      exact hheld.mono hlater
    · rw [hs']
      intro requested today rows hgives
      rcases hmemo _ _ hgives with hbefore | ⟨-, hsame, rfl⟩
      · exact h.remembered _ _ _ hbefore
      · simp only [SeriesKey.memoKey, MemoKey.mk.injEq, true_and] at hsame
        rw [hsame.1, hsame.2]
        exact hexact

end Entry

/-- and every step keeps it so. -/
theorem Session.follows_step (hreliable : view.Reliable) (hkey : key.Valid) {s : Session σ ω}
    (h : s.Follows view l key) {a : Step ω} (ha : a.Follows l key) :
    (s.step storage a).Follows view l key := by
  have hclean := clean_step hkey h.clean a
  obtain ⟨source, hserved⟩ := h.served
  cases a with
  | load symbol exchange requested hrequested =>
    have hke : SeriesKey.of symbol exchange = key := ha
    subst hke
    exact (Entry.follows_after (e := ⟨s, symbol, exchange, requested, hrequested⟩) hreliable hkey
      h).2
  | wait d =>
    exact h.of_same_texts hclean ⟨source, hserved.serves, hserved.online, hserved.free⟩ rfl
      (today_le_step h.clean.toSound trivial) fun _ _ hgives => hgives
  | setClock => exact absurd ha id
  | turn =>
    exact h.of_same_texts hclean ⟨source, hserved.serves, hserved.online, hserved.free⟩ rfl
      (Int.le_refl _) fun _ _ hgives => hgives
  | reopen engine offline capacity limiter =>
    obtain ⟨honline, source', hserves, hfree⟩ := ha
    exact h.of_same_texts hclean ⟨source', hserves, honline, hfree⟩ rfl (Int.le_refl _)
      fun _ _ hgives => absurd hgives Memo.gives_empty

/-- Over a storage that never fails and is empty at first, with a source that answers from a
listing, every load of the key returns all listed bars of its window from before its day, no others
but one of the day itself, and each day once, whatever loads, waits and restarts came before. Only
where the calendar ends the program may end in the load instead. -/
theorem listed_bars_are_found (storage : Storage σ) (view : storage.View)
    (hreliable : view.Reliable) (l : Listing) (key : SeriesKey) (hkey : key.Valid)
    (s : Session σ ω) (hempty : view.Empty s.state.storage)
    (hnow : s.state.market.now.InCalendar) (hforgotten : s.state.Forgotten key)
    (hserved : ∃ source, s.Served l key source) (steps : List (Step ω))
    (hsteps : ∀ a ∈ steps, a.Follows l key) : ∀ e ∈ s.log storage steps,
      (∃ rows, e.result storage = .ok rows ∧ l.Exact key rows e.requested e.today)
        ∨ e.result storage = .error .outsideCalendar ∧ e.RunsOut storage := by
  have hfollows := Session.follows_of_empty hempty hnow hserved hforgotten
  have hinvariant := Session.invariant storage hfollows fun s a ha h =>
    Session.follows_step hreliable hkey h (hsteps a ha)
  intro e he
  obtain ⟨a, ha, hentry⟩ := Session.exists_step_of_mem_log storage he
  have hke : e.key = key := by
    have hstep := hsteps a ha
    cases a with
    | load symbol exchange requested hrequested =>
      rw [Session.entry?, Option.some.injEq] at hentry
      rw [← hentry]
      exact hstep
    | wait => cases hentry
    | setClock => cases hentry
    | turn => cases hentry
    | reopen => cases hentry
  subst hke
  rcases (Entry.follows_after hreliable hkey (hinvariant.2 e he)).1 with
    ⟨answer, hanswer, hexact⟩ | ⟨hended, hrunsOut⟩
  · refine Or.inl ⟨answer.rows, ?_, hexact⟩
    rw [Entry.result_eq, hanswer]
    rfl
  · refine Or.inr ⟨?_, hrunsOut⟩
    rw [Entry.result_eq, hended]
    rfl

end

/-- On the Tuesday the bar of the day before is found. -/
theorem listed_bars_are_found_in_memory :
    ∃ rows, (Entry.firstWeek false).result Storage.memory = .ok rows
      ∧ (Listing.ofBars [.flat ⟨19996⟩ 10 100 "AAPL" "NYSE" "yahoo"]).Exact ⟨"AAPL", "NYSE"⟩ rows
        ⟨⟨19996⟩, ⟨20000⟩⟩ ⟨19997⟩ := by
  have hfound := listed_bars_are_found Storage.memory Storage.memoryView Storage.memoryView_reliable
    _ ⟨"AAPL", "NYSE"⟩ rfl (Session.ofOneBar {}) Storage.memoryView_empty (by decide)
    (fun _ _ hgives => absurd hgives Memo.gives_empty)
    ⟨"yahoo", Listing.serves_engine _ _ _ _, rfl, Limiter.free_empty "yahoo"⟩
    [.load "AAPL" "NYSE" ⟨⟨19996⟩, ⟨20000⟩⟩ Window.week_inCalendar]
    (fun a ha => by rw [List.mem_singleton.1 ha]; rfl) (Entry.firstWeek false)
    (List.mem_singleton_self _)
  have hsound : (Entry.firstWeek false).before.Sound Storage.memoryView := ⟨trivial, by decide⟩
  have hkey : (Entry.firstWeek false).key.Valid := rfl
  have htrims : ((Storage.memoryView.texts (Entry.firstWeek false).before.state.storage).held
      (Entry.firstWeek false).key).Trims (Entry.firstWeek false).today :=
    Texts.trims_of_none (Storage.memoryView_empty.texts _) _
  rcases hfound with hrows | ⟨-, hlast | hfirst | ⟨_, _, market, -, -, hlacks⟩⟩
  · exact hrows
  · exact absurd hlast (by decide)
  · exact absurd htrims ((Entry.fromFirstDay_iff hkey hsound).1 hfirst)
  · exact absurd hlacks (Engine.not_lacksTime rfl _ market)

/-- On the last day of the calendar the same load from an empty storage gives no rows, although its
source has answers for it. -/
theorem last_day_is_not_loaded :
    Storage.memoryView.Empty Entry.lastDay.before.state.storage
      ∧ Entry.lastDay.before.Served (Listing.ofBars []) Entry.lastDay.key "yahoo"
      ∧ Entry.lastDay.result Storage.memory = .error .outsideCalendar
      ∧ ¬ ∃ rows, Entry.lastDay.result Storage.memory = .ok rows
        ∧ (Listing.ofBars []).Exact Entry.lastDay.key rows Entry.lastDay.requested
          Entry.lastDay.today := by
  have hresult : Entry.lastDay.result Storage.memory = .error .outsideCalendar := by
    rw [Entry.result_eq, Entry.ended_lastDay.1]
    rfl
  refine ⟨Storage.memoryView_empty, ?_, hresult, ?_⟩
  · exact ⟨Listing.serves_engine _ _ _ _, rfl, Limiter.free_empty "yahoo"⟩
  · rintro ⟨rows, hrows, -⟩
    rw [hresult] at hrows
    cases hrows

end DailyBars
