import DailyBars.History
import DailyBars.Proofs.Store.Ledger
import DailyBars.Proofs.Store.ServedRows

/-! # Every served series is well formed

A request is answered with cash, with a series of the store, or with either of them converted. Every
way leads to ascending bars within the window, so the property holds of each request of a run, in
whatever state the earlier ones left the store and whatever else happened in between.
-/

namespace DailyBars

variable {σ ω : Type}

/-! ## Cash and conversion -/

/-- The bars of cash fit their window. -/
theorem Cash.fits_bars (c : Cash) (w : Window) : Series.Fits (c.bars w) w where
  ascending := by
    have hdays : (w.first.businessDays w.last).Pairwise (· < ·) :=
      (Day.pairwise_upTo _ _).sublist List.filter_sublist
    exact List.pairwise_map.2 hdays
  inWindow := by
    intro b hb
    obtain ⟨d, hd, rfl⟩ := List.mem_map.1 hb
    obtain ⟨hfirst, hlast⟩ := Day.mem_upTo.1 (List.mem_filter.1 hd).1
    have hmin := Day.min_number w.last Day.latest.previous
    refine Window.contains_iff.2 ⟨hfirst, ?_⟩
    change d.number ≤ (min w.last Day.latest.previous).number at hlast
    change d.number ≤ w.last.number
    omega

namespace FxService

variable (fx : FxService σ ω)

/-- Loading rates keeps the store tidy, -/
theorem tidy_rates (source target : String) (w : Window) :
    Keeps StoreState.Tidy (fx.rates source target w) fun _ => True := by
  intro s hs
  have hstate := (fx.store.tidy_load (Currency.pair source target) Exchange.pairs w s hs).1
  refine ⟨?_, fun _ _ => True.intro⟩
  unfold rates
  split
  all_goals
    next h =>
      rw [h] at hstate
      exact hstate

/-- for a range -/
theorem tidy_ratesFor (source target : String) (first last : Day) :
    Keeps StoreState.Tidy (fx.ratesFor source target first last) fun _ => True := by
  unfold ratesFor
  cases fx.rules.window? first last with
  | none => exact Keeps.throw _
  | some w => exact fx.tidy_rates source target w

/-- and for a date. -/
theorem tidy_rate (source target : String) (date : Day) :
    Keeps StoreState.Tidy (fx.rate source target date) fun _ => True := by
  unfold rate
  refine Keeps.ite (fun _ => Keeps.pure True.intro) fun _ => ?_
  refine RollingStore.tidy_today.bind fun today _ => ?_
  refine (fx.tidy_ratesFor _ _ _ _).bind fun rates _ => ?_
  split
  · exact Keeps.pure True.intro
  · exact Keeps.throw _

/-- Conversion keeps what a change of prices alone keeps. -/
theorem tidy_convert (bars : List Bar) {Q : List Bar → Prop} (hbars : Q bars)
    (hmap : ∀ f : Bar → Bar, (∀ b, (f b).date = b.date) → Q (bars.map f))
    (source target : String) : Keeps StoreState.Tidy (fx.convert bars source target) Q := by
  unfold convert
  split
  · refine Keeps.ite (fun _ => Keeps.pure (hmap _ fun _ => rfl)) fun _ => ?_
    simp only
    split
    next w _ =>
      refine (Keeps.pure (P := fun _ => True) True.intro).bind fun w _ => ?_
      refine (fx.tidy_rates _ _ w).bind fun rates _ => ?_
      split
      · exact Keeps.throw _
      · refine Keeps.pure (hmap _ fun b => ?_)
        split <;> rfl
    next => exact (Keeps.throw (P := fun _ => False) _).bind fun _ hnone => hnone.elim
  · exact Keeps.pure hbars

end FxService

namespace PriceHistory

variable (h : PriceHistory σ ω)

/-- A conversion keeps the dates, and so the fit. -/
theorem tidy_inCurrency {bars : List Bar} {w : Window} (hbars : Series.Fits bars w)
    (own wanted : Option String) :
    Keeps StoreState.Tidy (h.inCurrency bars own wanted) fun converted =>
      Series.Fits converted w := by
  unfold inCurrency
  split
  · exact Keeps.ite (fun _ => Keeps.pure hbars) fun _ => h.fx.tidy_convert bars hbars
      (fun _ hf => hbars.map hf) _ _
  · exact Keeps.pure hbars

/-- A request is answered with bars that fit its window. -/
theorem tidy_history (r : HistoryRequest) :
    Keeps StoreState.Tidy (h.history r) fun bars => Series.Fits bars r.window := by
  unfold history
  split
  next cash _ => exact h.tidy_inCurrency (cash.fits_bars r.window) _ _
  next =>
    refine (Keeps.lift _).bind fun instrument _ => ?_
    refine (h.store.tidy_load _ _ _).bind fun bars hbars => ?_
    exact h.tidy_inCurrency hbars _ _

/-- Cash is served as it is unless another currency is wanted. -/
theorem history_of_cash {r : HistoryRequest} {cash : Cash}
    (hcash : Cash.recognise? h.cashPrefix h.library r.symbol = some cash)
    (hcurrency : r.currency = none) (s : StoreState σ ω) :
    h.history r s = (.ok (cash.bars r.window), s) := by
  unfold history inCurrency
  rw [hcash, hcurrency]
  rfl

/-- What is neither cash nor wanted in another currency is served as it is loaded. -/
theorem history_of_load {r : HistoryRequest} {instrument : Instrument}
    (hcash : Cash.recognise? h.cashPrefix h.library r.symbol = none)
    (hresolve : Instrument.resolve h.library r.symbol r.exchange = .ok instrument)
    (hcurrency : r.currency = none) {s : StoreState σ ω} {bars : List Bar}
    (hload : (h.store.load instrument.symbol instrument.storedExchange r.window s).1 = .ok bars) :
    (h.history r s).1 = .ok bars := by
  obtain ⟨s', hload'⟩ : ∃ s', h.store.load instrument.symbol instrument.storedExchange r.window s
      = (.ok bars, s') := ⟨_, Prod.ext hload rfl⟩
  have hresolve' : (liftM (Instrument.resolve h.library r.symbol r.exchange) : StoreM σ ω _) s
      = (.ok instrument, s) := by
    rw [hresolve]
    rfl
  unfold history
  simp only [hcash]
  rw [bind_of_ok hresolve', bind_of_ok hload', hcurrency]
  unfold inCurrency
  cases instrument.currency? <;> rfl

end PriceHistory

/-! ## Runs of a service -/

/-- What answers requests, with the state of its store. -/
structure Service (σ ω : Type) where
  history : PriceHistory σ ω
  state : StoreState σ ω

/-- What can happen to a service. -/
inductive Service.Event (σ ω : Type) where
  | history (r : HistoryRequest)
  | load (symbol exchange : String) (requested : Window)
  | rate (source target : String) (date : Day)
  | convert (bars : List Bar) (source target : String)
  /-- Others change the documents, the storage, the clock, the standings and the world outside. -/
  | change (library : MetadataLibrary) (storage : σ) (market : Market ω)
  /-- The service is built again, perhaps in another way. -/
  | rebuild (history : PriceHistory σ ω) (capacity : Nat)

namespace Service

/-- A service over some storage, with nothing remembered yet. -/
def opened (history : PriceHistory σ ω) (storage : σ) (market : Market ω) (capacity : Nat) :
    Service σ ω :=
  ⟨history, ⟨storage, market, .empty capacity⟩⟩

/-- What a request is answered with. -/
def answer (s : Service σ ω) (r : HistoryRequest) : Except DataError (List Bar) :=
  (s.history.history r s.state).1

/-- The service after an event. -/
def after (s : Service σ ω) : Event σ ω → Service σ ω
  | .history r => { s with state := (s.history.history r s.state).2 }
  | .load symbol exchange requested =>
    { s with state := (s.history.store.load symbol exchange requested s.state).2 }
  | .rate source target date =>
    { s with state := (s.history.fx.rate source target date s.state).2 }
  | .convert bars source target =>
    { s with state := (s.history.fx.convert bars source target s.state).2 }
  | .change library storage market =>
    { history := { s.history with library }, state := ⟨storage, market, s.state.memo⟩ }
  | .rebuild history capacity => ⟨history, ⟨s.state.storage, s.state.market, .empty capacity⟩⟩

/-- The service after a run. -/
def run (s : Service σ ω) (events : List (Event σ ω)) : Service σ ω := events.foldl after s

/-- An event keeps the store tidy. -/
theorem tidy_after {s : Service σ ω} (hs : s.state.Tidy) (e : Event σ ω) :
    (s.after e).state.Tidy := by
  cases e with simp only [after]
  | history r => exact (s.history.tidy_history r s.state hs).1
  | load symbol exchange requested =>
    exact (s.history.store.tidy_load symbol exchange requested s.state hs).1
  | rate source target date => exact (s.history.fx.tidy_rate source target date s.state hs).1
  | convert bars source target =>
    -- the bars may be any, since none of them is remembered
    have hany := s.history.fx.tidy_convert bars (Q := fun _ => True) True.intro
      (fun _ _ => True.intro) source target
    exact (hany s.state hs).1
  | change library storage market => exact hs
  | rebuild history capacity =>
    exact StoreState.tidy_of_empty s.state.storage s.state.market capacity

/-- From a tidy store, bars that are served fit the window asked for. -/
theorem fits_answer {s : Service σ ω} (hs : s.state.Tidy) {r : HistoryRequest} {bars : List Bar}
    (h : s.answer r = .ok bars) : Series.Fits bars r.window :=
  (s.history.tidy_history r s.state hs).2 bars h

/-- A run of events keeps the store tidy. -/
theorem tidy_run {s : Service σ ω} (hs : s.state.Tidy) (events : List (Event σ ω)) :
    (s.run events).state.Tidy := by
  induction events generalizing s with
  | nil => exact hs
  | cons e rest ih => exact ih (tidy_after hs e)

end Service

/-- A service that starts with an empty memo serves only well-formed series, whatever its storage
holds, whatever was asked before and whatever the sources answer. -/
theorem served_series_are_well_formed (history : PriceHistory σ ω) (storage : σ) (market : Market ω)
    (capacity : Nat) (events : List (Service.Event σ ω)) (r : HistoryRequest) (bars : List Bar)
    (hbars : ((Service.opened history storage market capacity).run events).answer r = .ok bars) :
    Series.Ascending bars ∧ (∀ a ∈ bars, ∀ b ∈ bars, a.date = b.date → a = b)
      ∧ ∀ b ∈ bars, r.window.first ≤ b.date ∧ b.date ≤ r.window.last := by
  have htidy : ((Service.opened history storage market capacity).run events).state.Tidy :=
    Service.tidy_run (StoreState.tidy_of_empty storage market capacity) events
  have hfits := Service.fits_answer htidy hbars
  exact ⟨hfits.ascending, Series.onePerDate_of_ascending hfits.ascending,
    fun b hb => Window.contains_iff.1 (hfits.inWindow b hb)⟩

/-- A service with a source that has one bar. -/
def PriceHistory.ofOneBar : PriceHistory Memory Unit :=
  ⟨{}, "CASH", (Session.ofOneBar {}).store Storage.memory, .of "GBP" 7 []⟩

/-- Two bars of one date, after one from the week before. -/
def Series.ofRepeats : List Bar :=
  [.flat ⟨19993⟩ 9 100 "AAPL" "NYSE" "yahoo", .flat ⟨19996⟩ 10 100 "AAPL" "NYSE" "yahoo",
    .flat ⟨19996⟩ 11 100 "AAPL" "NYSE" "yahoo", .flat ⟨19997⟩ 12 100 "AAPL" "NYSE" "yahoo"]

/-- In memory, others have stored them as a series. -/
def Memory.ofRepeats : Memory :=
  (Storage.memory.write (SeriesKey.of "AAPL" "NYSE").seriesName
    (Series.encode Series.ofRepeats "AAPL") {}).2

/-- Of two bars of a date, the first is kept. -/
theorem Series.keepFirst_ofRepeats : keepFirst ofRepeats
    = [.flat ⟨19993⟩ 9 100 "AAPL" "NYSE" "yahoo", .flat ⟨19996⟩ 10 100 "AAPL" "NYSE" "yahoo",
      .flat ⟨19997⟩ 12 100 "AAPL" "NYSE" "yahoo"] := by
  have hsorted : sortByDate ofRepeats = ofRepeats :=
    List.mergeSort_of_pairwise (by decide)
  rw [keepFirst, hsorted]
  rfl

/-- A repeated date is read once. -/
theorem Memory.rows_ofRepeats :
    (Storage.memoryView.texts ofRepeats).rows (.of "AAPL" "NYSE")
        = [.flat ⟨19993⟩ 9 100 "AAPL" "NYSE" "yahoo", .flat ⟨19996⟩ 10 100 "AAPL" "NYSE" "yahoo",
          .flat ⟨19997⟩ 12 100 "AAPL" "NYSE" "yahoo"]
      ∧ (Storage.memoryView.texts ofRepeats).Readable (.of "AAPL" "NYSE") := by
  have htext : Storage.memoryView.texts ofRepeats (SeriesKey.of "AAPL" "NYSE").seriesName
      = some (Series.encode Series.ofRepeats "AAPL") := by
    rw [ofRepeats, Storage.memoryView_texts_write, Texts.put_self]
  have hne : Series.ofRepeats ≠ [] := List.cons_ne_nil _ _
  have hin : ∀ b ∈ Series.ofRepeats, b.date.InCalendar := by decide
  have hdecode := Series.decode_encode hne hin "AAPL" "NYSE"
  have hrows := Texts.rows_of_ok htext hdecode
  have htagged : Series.ofRepeats.map (Bar.tagged "AAPL" "NYSE") = Series.ofRepeats := rfl
  rwa [htagged, Series.keepFirst_ofRepeats] at hrows

/-- There is no record of what was checked. -/
theorem Memory.span_ofRepeats :
    Storage.memoryView.texts ofRepeats (SeriesKey.of "AAPL" "NYSE").spanName = none := by
  rw [ofRepeats, Storage.memoryView_texts_write,
    Texts.put_of_ne _ _ (SeriesKey.seriesName_ne_spanName _ _).symm]

/-- Days between the first and the last of its dates are not missing. -/
theorem Memory.missing_ofRepeats :
    (Storage.memoryView.texts ofRepeats).missing (.of "AAPL" "NYSE") ⟨⟨19996⟩, ⟨19997⟩⟩ ⟨19997⟩
      = [] := by
  rw [Texts.missing, Texts.covered_of_no_span span_ofRepeats, rows_ofRepeats.1]
  decide

/-- A request for the two last days of the series, on the last of them. -/
theorem PriceHistory.history_ofRepeats {s : StoreState Memory Unit}
    (hstorage : s.storage = .ofRepeats) (htoday : s.today = ⟨19997⟩)
    (hmissed : s.memo.entries[(SeriesKey.of "AAPL" "NYSE").memoKey ⟨⟨19996⟩, ⟨19997⟩⟩ s.today]?
      = none) :
    (ofOneBar.history ⟨"aapl", some "nyse", ⟨⟨19996⟩, ⟨19997⟩⟩, none⟩ s).1
      = .ok [.flat ⟨19996⟩ 10 100 "AAPL" "NYSE" "yahoo",
        .flat ⟨19997⟩ 12 100 "AAPL" "NYSE" "yahoo"] := by
  have hkey : (SeriesKey.of "AAPL" "NYSE").Valid := rfl
  obtain ⟨hrows, hreadable⟩ := Memory.rows_ofRepeats
  have hmissing : (Storage.memoryView.texts s.storage).missing (.of "AAPL" "NYSE")
      ⟨⟨19996⟩, ⟨19997⟩⟩ s.today = [] := by
    rw [hstorage, htoday]
    exact Memory.missing_ofRepeats
  have htrims : ((Storage.memoryView.texts s.storage).held (.of "AAPL" "NYSE")).Trims s.today := by
    rw [hstorage]
    exact Texts.trims_of_none Memory.span_ofRepeats s.today
  rw [← hstorage] at hreadable hrows
  have hload := ofOneBar.store.load_of_held Storage.memoryView hkey rfl hmissed trivial hreadable
    htrims hmissing
  rw [hrows] at hload
  have hcash : Cash.recognise? ofOneBar.cashPrefix ofOneBar.library "aapl" = none := by decide
  have hresolve : Instrument.resolve ofOneBar.library "aapl" (some "nyse")
      = .ok ⟨"AAPL", "NYSE", .caller, none, none⟩ := rfl
  exact ofOneBar.history_of_load (r := ⟨"aapl", some "nyse", ⟨⟨19996⟩, ⟨19997⟩⟩, none⟩) hcash hresolve
    rfl hload

/-- A service that had nothing stored is asked for two days of that series, once others have put it
there. It serves one bar of each of them. -/
theorem repeated_rows_are_served_once :
    ∃ bars, ((Service.opened .ofOneBar {} (Session.ofOneBar ()).state.market 8).run
        [.change {} .ofRepeats (Session.ofOneBar ()).state.market]).answer
        ⟨"aapl", some "nyse", ⟨⟨19996⟩, ⟨19997⟩⟩, none⟩ = .ok bars ∧ bars.length = 2
      ∧ Series.Ascending bars ∧ (∀ a ∈ bars, ∀ b ∈ bars, a.date = b.date → a = b)
      ∧ ∀ b ∈ bars, (⟨19996⟩ : Day) ≤ b.date ∧ b.date ≤ ⟨19997⟩ := by
  have hanswer : ((Service.opened .ofOneBar {} (Session.ofOneBar ()).state.market 8).run
      [.change {} .ofRepeats (Session.ofOneBar ()).state.market]).answer
        ⟨"aapl", some "nyse", ⟨⟨19996⟩, ⟨19997⟩⟩, none⟩
      = .ok [.flat ⟨19996⟩ 10 100 "AAPL" "NYSE" "yahoo",
        .flat ⟨19997⟩ 12 100 "AAPL" "NYSE" "yahoo"] :=
    PriceHistory.history_ofRepeats rfl rfl Std.HashMap.getElem?_empty
  have hformed := served_series_are_well_formed _ _ _ _ _ _ _ hanswer
  exact ⟨_, hanswer, rfl, hformed⟩

end DailyBars
