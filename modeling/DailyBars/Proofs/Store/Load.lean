import DailyBars.Proofs.Store.Memo
import DailyBars.Proofs.Store.Persist

/-! # What one load does

A load is taken apart once, and everything it can do is said in `Loaded`: which texts it finds, what
it asks for, what it writes, what it gives back and what it remembers. Nothing after this module
looks into the store's computations.
-/

namespace DailyBars

/-- What came of asking for ranges when these texts were found. -/
def Texts.delta (t : Texts) (key : SeriesKey) (today : Day) (fetched : List Fetched) : Delta :=
  ⟨(t.held key).covered today, fetched⟩

/-- What a load does that finds the texts `t`: it asks for what they leave missing of the request,
stores what came of it, and gives back the rows of the window. -/
structure Cycle {σ ω : Type} (store : RollingStore σ ω) (view : store.storage.View)
    (key : SeriesKey) (requested : Window) (today : Day) (t : Texts) (s s' : StoreState σ ω)
    (report : Report) : Prop where
  cleared : Cleared view key (view.texts s.storage) t
  readable : view.Reliable → view.keeps = false → t.Readable key
  trims : (t.held key).Trims today
  asked : RollingStore.askFor store.engine key
    (Window.wanted ((t.held key).covered today) requested today) s.market
      = { fetched := report.fetched, endedAt := none, market := s'.market }
  written : Written view key (t.held key).rows (t.delta key today report.fetched) today
    report.stored t (view.texts s'.storage)
  works : view.Works s'.storage
  rows : report.rows
    = Series.clip ((t.delta key today report.fetched).extended (t.held key).rows) requested
  settled : report.settled = true → report.stored = true ∧ ∀ window,
    Window.normalized ⟨requested.first, min requested.last today⟩ = some window →
      Coverage.assess (t.delta key today report.fetched).answered window = .full

/-- A load for which everything is held asks for nothing and returns what is held. -/
theorem Cycle.of_full {σ ω : Type} {store : RollingStore σ ω}
    {view : store.storage.View} {key : SeriesKey} {requested : Window} {today : Day}
    {s : StoreState σ ω} {st : σ} (hs : view.Works st)
    (hcleared : Cleared view key (view.texts s.storage) (view.texts st))
    (hreadable : view.Reliable → view.keeps = false → (view.texts st).Readable key)
    (htrims : ((view.texts st).held key).Trims today)
    (hfull : ∀ window, Window.normalized ⟨requested.first, min requested.last today⟩ = some window →
      Coverage.assess (((view.texts st).held key).covered today) window = .full) :
    Cycle store view key requested today (view.texts st) s { s with storage := st }
      { rows := Series.clip ((view.texts st).held key).rows requested } where
  cleared := hcleared
  readable := hreadable
  trims := htrims
  asked := by
    have hnothing :
        Window.wanted (((view.texts st).held key).covered today) requested today = [] := by
      unfold Window.wanted
      split
      · rfl
      next window hwindow =>
        rw [hfull window hwindow]
        rfl
    rw [hnothing]
    rfl
  written := {
    series := Or.inl ⟨rfl, rfl, rfl⟩
    span := Or.inl rfl
    others := fun _ _ => rfl
    reliable := fun _ => ⟨rfl, fun _ _ h => absurd rfl h⟩ }
  works := hs
  rows := rfl
  settled := fun _ => ⟨rfl, hfull⟩

/-- The program ended when it asked for what the texts leave missing of the request. -/
def Ended {σ ω : Type} (store : RollingStore σ ω) (key : SeriesKey) (requested : Window)
    (today : Day) (t : Texts) (s s' : StoreState σ ω) : Prop :=
  ∃ fetched range, RollingStore.askFor store.engine key
    (Window.wanted ((t.held key).covered today) requested today) s.market
      = { fetched, endedAt := some range, market := s'.market }

/-- Why a load has no rows to give, and how it then ends. -/
inductive Refusal {σ ω : Type} (store : RollingStore σ ω) (view : store.storage.View)
    (key : SeriesKey) (requested : Window) (today : Day) (s s' : StoreState σ ω) :
    DataError → Prop where
  | offline (hoffline : store.offline = true) (hmarket : s'.market = s.market) :
    Refusal store view key requested today s s' (.noCachedData key.symbol key.exchange)
  | unreadable (hunreadable : ¬ (view.texts s.storage).Readable key)
    (hmarket : s'.market = s.market) :
    Refusal store view key requested today s s' .outsideCalendar
  | untrimmed (htrims : ¬ ((view.texts s'.storage).held key).Trims today)
    (hmarket : s'.market = s.market) :
    Refusal store view key requested today s s' .outsideCalendar
  | ended (honline : store.offline = false)
    (hended : Ended store key requested today (view.texts s'.storage) s s') :
    Refusal store view key requested today s s' .outsideCalendar

/-- What a load that is refused leaves as it was. -/
structure Refused {σ ω : Type} (store : RollingStore σ ω) (view : store.storage.View)
    (key : SeriesKey) (requested : Window) (today : Day) (e : DataError) (s s' : StoreState σ ω) :
    Prop where
  reason : Refusal store view key requested today s s' e
  cleared : Cleared view key (view.texts s.storage) (view.texts s'.storage)
  works : view.Works s'.storage
  memo : s'.memo = s.memo

/-- Time does not go backwards in a load that is refused. -/
theorem Refused.before {σ ω : Type} {store : RollingStore σ ω} {view : store.storage.View}
    {key : SeriesKey} {requested : Window} {today : Day} {e : DataError} {s s' : StoreState σ ω}
    (h : Refused store view key requested today e s s') : s.market.Before s'.market := by
  cases h.reason with
  | offline _ hmarket =>
    rw [hmarket]
    exact Market.Before.refl _
  | unreadable _ hmarket =>
    rw [hmarket]
    exact Market.Before.refl _
  | untrimmed _ hmarket =>
    rw [hmarket]
    exact Market.Before.refl _
  | ended _ hended =>
    obtain ⟨fetched, range, hasked⟩ := hended
    have hbefore := RollingStore.before_askFor store.engine key
      (Window.wanted (((view.texts s'.storage).held key).covered today) requested today) s.market
    rwa [hasked] at hbefore

/-- The memo holds nothing for the key. -/
def StoreState.Forgotten {σ ω : Type} (s : StoreState σ ω) (key : SeriesKey) : Prop :=
  ∀ k rows, s.memo.Gives k rows → ¬ (k.symbol = key.symbol ∧ k.exchange = key.exchange)

namespace RollingStore

variable {σ ω : Type} (store : RollingStore σ ω) (view : store.storage.View)

/-- If the program does not end, there is something of each range. -/
theorem fetchRanges_of_askFor {key : SeriesKey} {ranges : List Window} {s : StoreState σ ω}
    {fetched : List Fetched} {market : Market ω}
    (h : askFor store.engine key ranges s.market = { fetched, endedAt := none, market }) :
    store.fetchRanges key ranges s = (.ok fetched, { s with market }) := by
  unfold fetchRanges
  rw [h]
  rfl

/-- Where the program ends, nothing is made of what was fetched. -/
theorem extend_of_ended {key : SeriesKey} {account : Account} {window : Window}
    {s : StoreState σ ω} {fetched : List Fetched} {range : Window} {market : Market ω}
    (h : askFor store.engine key ((Coverage.assess account.covered window).missing window) s.market
      = { fetched, endedAt := some range, market }) (requested : Window) (today : Day) :
    store.extend key account window requested today s
      = (.error .outsideCalendar, { s with market }) := by
  have hended : store.fetchRanges key ((Coverage.assess account.covered window).missing window) s
      = (.error .outsideCalendar, { s with market }) := by
    unfold fetchRanges
    rw [h]
    rfl
  unfold extend
  exact bind_of_error hended

/-- What an account leaves missing of a window is asked for. -/
theorem extend_asks (key : SeriesKey) (account : Account) (window requested : Window) (today : Day)
    (s : StoreState σ ω) : ∃ r s',
    store.extend key account window requested today s = (r, s')
      ∧ ((∃ report, r = .ok report ∧ askFor store.engine key
            ((Coverage.assess account.covered window).missing window) s.market
          = { fetched := report.fetched, endedAt := none, market := s'.market })
        ∨ r = .error .outsideCalendar ∧ ∃ fetched range, askFor store.engine key
            ((Coverage.assess account.covered window).missing window) s.market
          = { fetched, endedAt := some range, market := s'.market }) := by
  obtain ⟨⟨fetched, endedAt, market⟩, hasked⟩ : ∃ asked, askFor store.engine key
      ((Coverage.assess account.covered window).missing window) s.market = asked := ⟨_, rfl⟩
  cases endedAt with
  | some range =>
    exact ⟨_, _, extend_of_ended store hasked requested today, Or.inr ⟨rfl, _, _, hasked⟩⟩
  | none =>
    obtain ⟨⟨rows, stored⟩, s₁, hpersist, hmarket⟩ :=
      persist_ok store key account.rows ⟨account.covered, fetched⟩ today { s with market }
    unfold extend
    rw [bind_of_ok (fetchRanges_of_askFor store hasked), bind_of_ok hpersist]
    have hsame : market = s₁.market := hmarket.symm
    refine ⟨_, _, rfl, Or.inl ⟨_, rfl, ?_⟩⟩
    rw [hasked, hsame]

/-- Extending an account asks for what is missing and writes what was gained. -/
theorem extend_spec {key : SeriesKey} (hkey : key.Valid) (rows : List Bar) (covered : Option Window)
    (window requested : Window) (today : Day) {s : StoreState σ ω} (hs : view.Works s.storage)
    {fetched : List Fetched} {market : Market ω}
    (hasked : askFor store.engine key ((Coverage.assess covered window).missing window) s.market
      = { fetched, endedAt := none, market }) : ∃ stored s',
    store.extend key ⟨rows, covered⟩ window requested today s
        = (.ok ⟨Series.clip (Delta.extended ⟨covered, fetched⟩ rows) requested, fetched, stored,
          stored && decide (Coverage.assess (Delta.answered ⟨covered, fetched⟩) window = .full)⟩,
          s')
      ∧ s'.market = market
      ∧ Written view key rows ⟨covered, fetched⟩ today stored (view.texts s.storage)
        (view.texts s'.storage)
      ∧ view.Works s'.storage
      ∧ (∀ k v, s'.memo.Gives k v → s.memo.Gives k v)
      ∧ s'.Forgotten key := by
  obtain ⟨stored, st, hpersist, hworks, hwritten⟩ :=
    persist_spec store view hkey rows ⟨covered, fetched⟩ today (s := { s with market }) hs
  have hretained : ∀ k v, (s.memo.retain fun k =>
      !(k.symbol == key.symbol && k.exchange == key.exchange)).Gives k v →
        s.memo.Gives k v ∧ ¬ (k.symbol = key.symbol ∧ k.exchange = key.exchange) := by
    intro k v hgives
    obtain ⟨hkeep, hgives'⟩ := Memo.gives_retain hgives
    refine ⟨hgives', fun hsame => ?_⟩
    rw [hsame.1, hsame.2] at hkeep
    simp at hkeep
  unfold extend
  rw [bind_of_ok (fetchRanges_of_askFor store hasked), bind_of_ok hpersist]
  exact ⟨stored, _, rfl, rfl, hwritten, hworks, fun k v h => (hretained k v h).1,
    fun k v h => (hretained k v h).2⟩

/-- Asking for what is missing of the request is a cycle, unless the program ends. -/
theorem cycle_of_extend {key : SeriesKey} (hkey : key.Valid) {requested window : Window}
    {today : Day} {s : StoreState σ ω} {st : σ} (hs : view.Works st)
    (hcleared : Cleared view key (view.texts s.storage) (view.texts st))
    (hreadable : view.Reliable → view.keeps = false → (view.texts st).Readable key)
    (htrims : ((view.texts st).held key).Trims today)
    (hwindow : Window.normalized ⟨requested.first, min requested.last today⟩ = some window) :
    (∃ market, store.extend key
        ⟨((view.texts st).held key).rows, ((view.texts st).held key).covered today⟩ window requested
        today { s with storage := st } = (.error .outsideCalendar, { s with storage := st, market })
      ∧ Ended store key requested today (view.texts st) s { s with storage := st, market })
    ∨ ∃ report s', store.extend key
        ⟨((view.texts st).held key).rows, ((view.texts st).held key).covered today⟩ window requested
        today { s with storage := st } = (.ok report, s')
      ∧ Cycle store view key requested today (view.texts st) s s' report
      ∧ (∀ k v, s'.memo.Gives k v → s.memo.Gives k v)
      ∧ s'.Forgotten key := by
  have hwanted : Window.wanted (((view.texts st).held key).covered today) requested today
      = (Coverage.assess (((view.texts st).held key).covered today) window).missing window := by
    rw [Window.wanted, hwindow]
  obtain ⟨⟨fetched, endedAt, market⟩, hasked⟩ : ∃ asked, askFor store.engine key
      ((Coverage.assess (((view.texts st).held key).covered today) window).missing window)
      s.market = asked := ⟨_, rfl⟩
  cases endedAt with
  | some range =>
    refine Or.inl ⟨market, extend_of_ended store (s := { s with storage := st }) hasked _ _,
      fetched, range, ?_⟩
    rw [hwanted, hasked]
  | none =>
    obtain ⟨stored, s', hextend, hmarket, hwritten, hworks, hmemo, hforgotten⟩ :=
      extend_spec store view hkey ((view.texts st).held key).rows
        (((view.texts st).held key).covered today) window requested today
        (s := { s with storage := st }) hs hasked
    refine Or.inr ⟨_, s', hextend, ?_, hmemo, hforgotten⟩
    exact {
      cleared := hcleared
      readable := hreadable
      trims := htrims
      asked := by rw [hwanted, hasked, hmarket]
      written := hwritten
      works := hworks
      rows := rfl
      settled := fun hsettled => by
        simp only [Bool.and_eq_true, decide_eq_true_eq] at hsettled
        refine ⟨hsettled.1, fun w hw => ?_⟩
        rw [hwindow, Option.some.injEq] at hw
        rw [← hw]
        exact hsettled.2 }

/-- Once what is stored is read, an online load asks for what it leaves missing. It has a report,
unless the program ends. -/
theorem loadFresh_asks (honline : store.offline = false) {key : SeriesKey} {today : Day}
    {s s' : StoreState σ ω} {account : Account}
    (haccount : store.account key today s = (.ok account, s')) (requested : Window) : ∃ r s₂,
    store.loadFresh key requested today s = (r, s₂)
      ∧ ((∃ report, r = .ok report ∧ askFor store.engine key
            (Window.wanted account.covered requested today) s.market
          = { fetched := report.fetched, endedAt := none, market := s₂.market })
        ∨ r = .error .outsideCalendar ∧ ∃ fetched range, askFor store.engine key
            (Window.wanted account.covered requested today) s.market
          = { fetched, endedAt := some range, market := s₂.market }) := by
  have hmarket := (ordered_of_account store haccount).2
  unfold loadFresh Window.wanted
  rw [bind_of_ok haccount]
  cases hnormalized : Window.normalized ⟨requested.first, min requested.last today⟩ with
  | none =>
    refine ⟨_, s', rfl, Or.inl ⟨_, rfl, ?_⟩⟩
    rw [hmarket]
    rfl
  | some window =>
    simp only
    by_cases hfull : Coverage.assess account.covered window = .full
    · rw [if_pos hfull, hfull]
      refine ⟨_, s', rfl, Or.inl ⟨_, rfl, ?_⟩⟩
      rw [hmarket]
      rfl
    · rw [if_neg hfull, if_neg (by simp [honline]), ← hmarket]
      exact extend_asks store key account window requested today s'

/-- An offline load fails where an account leaves something missing. -/
theorem loadFresh_refuses (hoffline : store.offline = true) {key : SeriesKey} {today : Day}
    {s s' : StoreState σ ω} {account : Account}
    (haccount : store.account key today s = (.ok account, s')) {requested window : Window}
    (hwindow : Window.normalized ⟨requested.first, min requested.last today⟩ = some window)
    (hmissing : Coverage.assess account.covered window ≠ .full) :
    store.loadFresh key requested today s = (.error (.noCachedData key.symbol key.exchange), s') := by
  unfold loadFresh
  rw [bind_of_ok haccount, hwindow]
  simp only
  rw [if_neg hmissing, if_pos hoffline]
  rfl

/-- Once the texts are read, a load is refused or goes through a cycle. -/
theorem loadFresh_of_read {key : SeriesKey} (hkey : key.Valid) (requested : Window) {today : Day}
    {s : StoreState σ ω} {st : σ} (hs : view.Works st)
    (hcleared : Cleared view key (view.texts s.storage) (view.texts st))
    (hreadable : view.Reliable → view.keeps = false → (view.texts st).Readable key)
    (htrims : ((view.texts st).held key).Trims today)
    (haccount : store.account key today s = (.ok ⟨((view.texts st).held key).rows,
      ((view.texts st).held key).covered today⟩, { s with storage := st })) : ∃ r s',
    store.loadFresh key requested today s = (r, s')
      ∧ ((∃ e, r = .error e ∧ Refused store view key requested today e s s')
        ∨ ∃ t report, r = .ok report ∧ Cycle store view key requested today t s s' report
          ∧ (∀ k v, s'.memo.Gives k v → s.memo.Gives k v)
          ∧ (report.stored = false → s'.Forgotten key)) := by
  unfold loadFresh
  rw [bind_of_ok haccount]
  cases hnormalized : Window.normalized ⟨requested.first, min requested.last today⟩ with
  -- no business day of the request has come yet
  | none =>
    refine ⟨_, _, rfl, Or.inr ⟨_, _, rfl,
      Cycle.of_full hs hcleared hreadable htrims fun window hwindow => ?_, fun _ _ h => h, nofun⟩⟩
    rw [hnormalized] at hwindow
    cases hwindow
  | some window =>
    simp only
    by_cases hfull : Coverage.assess (((view.texts st).held key).covered today) window = .full
    · rw [if_pos hfull]
      refine ⟨_, _, rfl, Or.inr ⟨_, _, rfl,
        Cycle.of_full hs hcleared hreadable htrims fun w hwindow => ?_, fun _ _ h => h, nofun⟩⟩
      rw [hnormalized, Option.some.injEq] at hwindow
      rw [← hwindow]
      exact hfull
    · rw [if_neg hfull]
      -- offline, nobody is asked
      by_cases hoffline : store.offline = true
      · rw [if_pos hoffline]
        exact ⟨_, _, rfl, Or.inl ⟨_, rfl, .offline hoffline rfl, hcleared, hs, rfl⟩⟩
      · rw [if_neg hoffline]
        rcases cycle_of_extend store view hkey hs hcleared hreadable htrims hnormalized with
          ⟨market, hextend, hended⟩ | ⟨report, s', hextend, hcycle, hmemo, hforgotten⟩
        · exact ⟨_, _, hextend, Or.inl ⟨_, rfl, .ended (Bool.eq_false_iff.2 hoffline) hended,
            hcleared, hs, rfl⟩⟩
        · exact ⟨_, s', hextend,
            Or.inr ⟨view.texts st, report, rfl, hcycle, hmemo, fun _ => hforgotten⟩⟩

/-- A load that does not look into the memo is refused or goes through a cycle. -/
theorem loadFresh_spec {key : SeriesKey} (hkey : key.Valid) (requested : Window) (today : Day)
    {s : StoreState σ ω} (hs : view.Works s.storage) : ∃ r s',
    store.loadFresh key requested today s = (r, s')
      ∧ ((∃ e, r = .error e ∧ Refused store view key requested today e s s')
        ∨ ∃ t report, r = .ok report ∧ Cycle store view key requested today t s s' report
          ∧ (∀ k v, s'.memo.Gives k v → s.memo.Gives k v)
          ∧ (report.stored = false → s'.Forgotten key)) := by
  obtain ⟨r, st, haccount, hworks, ⟨rfl, hunreadable, htexts⟩ | ⟨hcleared, hreadable, rfl⟩⟩ :=
    account_spec store view hkey today hs
  · have hcleared : Cleared view key (view.texts s.storage) (view.texts st) := by
      rw [htexts]
      exact Cleared.refl _
    exact ⟨_, _, bind_of_error haccount, Or.inl ⟨_, rfl, .unreadable hunreadable rfl, hcleared,
      hworks, rfl⟩⟩
  · by_cases htrims : ((view.texts st).held key).Trims today
    · rw [if_pos htrims] at haccount
      exact loadFresh_of_read store view hkey requested hworks hcleared hreadable htrims haccount
    · -- the program ends where the span cannot be trimmed
      rw [if_neg htrims] at haccount
      exact ⟨_, _, bind_of_error haccount, Or.inl ⟨_, rfl, .untrimmed htrims rfl, hcleared, hworks,
        rfl⟩⟩

end RollingStore

/-- The request of a key on a day, as the memo keeps it. -/
def SeriesKey.memoKey (key : SeriesKey) (requested : Window) (today : Day) : MemoKey :=
  ⟨key.symbol, key.exchange, requested, today⟩

/-- Everything that a load can come to. -/
inductive Loaded {σ ω : Type} (store : RollingStore σ ω) (view : store.storage.View)
    (key : SeriesKey) (requested : Window) (s : StoreState σ ω) :
    Except DataError Answer → StoreState σ ω → Prop
  | nothing (hempty : requested.isEmpty = true) :
    Loaded store view key requested s (.ok .nothing) s
  | invalid (reason : String) (hinvalid : ¬ key.Valid) :
    Loaded store view key requested s (.error (.invalidSymbol key.symbol reason)) s
  | remembered (rows : List Bar) (s' : StoreState σ ω) (hkey : key.Valid)
    (hgives : s.memo.Gives (key.memoKey requested s.today) rows) (hstorage : s'.storage = s.storage)
    (hmarket : s'.market = s.market) (hmemo : ∀ k v, s'.memo.Gives k v → s.memo.Gives k v) :
    Loaded store view key requested s (.ok (.remembered rows)) s'
  | refused (e : DataError) (s' : StoreState σ ω) (hkey : key.Valid)
    (hrefused : Refused store view key requested s.today e s s') :
    Loaded store view key requested s (.error e) s'
  | fresh (t : Texts) (report : Report) (s' : StoreState σ ω) (hkey : key.Valid)
    (hrequested : requested.isEmpty = false)
    (hcycle : Cycle store view key requested s.today t s s' report)
    (hmemo : ∀ k v, s'.memo.Gives k v → s.memo.Gives k v
      ∨ report.settled = true ∧ k = key.memoKey requested s.today ∧ v = report.rows)
    (hforgotten : report.stored = false → s'.Forgotten key) :
    Loaded store view key requested s (.ok (.fresh report)) s'

namespace Cycle

variable {σ ω : Type} {store : RollingStore σ ω} {view : store.storage.View} {key : SeriesKey}
  {requested : Window} {today : Day} {t : Texts} {s s' : StoreState σ ω} {report : Report}

/-- What is remembered afterwards is no part of a cycle. -/
theorem withMemo (h : Cycle store view key requested today t s s' report)
    (memo : Memo MemoKey (List Bar)) :
    Cycle store view key requested today t s { s' with memo } report :=
  { cleared := h.cleared, readable := h.readable, trims := h.trims, asked := h.asked,
    written := h.written, works := h.works, rows := h.rows, settled := h.settled }

end Cycle

namespace RollingStore

variable {σ ω : Type} (store : RollingStore σ ω) (view : store.storage.View)

/-- The memo is looked up, which touches the key. -/
theorem remembered_apply (k : MemoKey) (s : StoreState σ ω) : remembered k s
    = (.ok s.memo.entries[k]?, { s with memo := (s.memo.get k).2 }) := by
  unfold remembered
  rw [← Memo.get_fst]

/-- A backwards window is answered with nothing. -/
theorem answer_of_isEmpty (symbol exchange : String) {requested : Window}
    (h : requested.isEmpty = true) (s : StoreState σ ω) :
    store.answer symbol exchange requested s = (.ok .nothing, s) := by
  unfold answer
  rw [if_pos h]
  rfl

/-- An invalid key is refused. -/
theorem answer_of_invalid {symbol exchange : String} {requested : Window}
    (hrequested : requested.isEmpty = false) {fault : CodeFault}
    (hcheck : (SeriesKey.of symbol exchange).check = .error fault) (s : StoreState σ ω) :
    store.answer symbol exchange requested s
      = (.error (.invalidSymbol (SeriesKey.of symbol exchange).symbol fault.message), s) := by
  unfold answer
  rw [if_neg (by simp [hrequested])]
  simp only [hcheck]
  rfl

/-- A request that is remembered is answered with what is remembered. -/
theorem answer_of_remembered {symbol exchange : String} {requested : Window}
    {s : StoreState σ ω} {rows : List Bar} (hkey : (SeriesKey.of symbol exchange).Valid)
    (hrequested : requested.isEmpty = false)
    (hgives : s.memo.Gives ((SeriesKey.of symbol exchange).memoKey requested s.today) rows) :
    store.answer symbol exchange requested s = (.ok (.remembered rows),
      { s with memo := (s.memo.get ((SeriesKey.of symbol exchange).memoKey requested s.today)).2 }) := by
  have hcheck : (SeriesKey.of symbol exchange).check = .ok () := hkey
  have htoday : (today : StoreM σ ω Day) s = (.ok s.today, s) := rfl
  have hlookup := remembered_apply ((SeriesKey.of symbol exchange).memoKey requested s.today) s
  rw [hgives] at hlookup
  unfold answer
  rw [if_neg (by simp [hrequested])]
  simp only [hcheck]
  rw [bind_of_ok htoday]
  exact bind_of_ok hlookup

/-- A request that is not remembered is answered from the storage and the sources. -/
theorem answer_of_missed {symbol exchange : String} {requested : Window} {s : StoreState σ ω}
    (hkey : (SeriesKey.of symbol exchange).Valid) (hrequested : requested.isEmpty = false)
    (hmissed : s.memo.entries[(SeriesKey.of symbol exchange).memoKey requested s.today]? = none) :
    store.answer symbol exchange requested s
      = (do
          let report ← store.loadFresh (SeriesKey.of symbol exchange) requested s.today
          if report.settled then
            remember ((SeriesKey.of symbol exchange).memoKey requested s.today) report.rows
          pure (.fresh report) : StoreM σ ω Answer) s := by
  have hcheck : (SeriesKey.of symbol exchange).check = .ok () := hkey
  have htoday : (today : StoreM σ ω Day) s = (.ok s.today, s) := rfl
  have hlookup := remembered_apply ((SeriesKey.of symbol exchange).memoKey requested s.today) s
  rw [hmissed, Memo.get_of_none hmissed] at hlookup
  unfold answer
  rw [if_neg (by simp [hrequested])]
  simp only [hcheck]
  rw [bind_of_ok htoday]
  exact bind_of_ok hlookup

/-- A load comes to one of these. -/
theorem loaded_answer (symbol exchange : String) (requested : Window) {s : StoreState σ ω}
    (hs : view.Works s.storage) :
    Loaded store view (SeriesKey.of symbol exchange) requested s
      (store.answer symbol exchange requested s).1
      (store.answer symbol exchange requested s).2 := by
  by_cases hempty : requested.isEmpty = true
  · rw [answer_of_isEmpty store symbol exchange hempty s]
    exact .nothing hempty
  · have hordered : requested.isEmpty = false := by simpa using hempty
    cases hcheck : (SeriesKey.of symbol exchange).check with
    | error fault =>
      rw [answer_of_invalid store hordered hcheck s]
      refine .invalid _ fun hvalid => ?_
      rw [SeriesKey.Valid, hcheck] at hvalid
      cases hvalid
    | ok u =>
      have hkey : (SeriesKey.of symbol exchange).Valid := hcheck
      cases hhit : s.memo.entries[(SeriesKey.of symbol exchange).memoKey requested s.today]? with
      -- a request that is remembered is not answered anew
      | some rows =>
        rw [answer_of_remembered store hkey hordered hhit]
        exact .remembered rows _ hkey hhit rfl rfl fun k v h => Memo.gives_get.1 h
      | none =>
        rw [answer_of_missed store hkey hordered hhit]
        obtain ⟨r, s', hload, hcases⟩ := loadFresh_spec store view hkey requested s.today hs
        rcases hcases with ⟨e, rfl, hrefused⟩ | ⟨t, report, rfl, hcycle, hmemo, hforgotten⟩
        · rw [bind_of_error hload]
          exact .refused e s' hkey hrefused
        · rw [bind_of_ok hload]
          -- only an answer that accounts for the whole window is remembered
          by_cases hsettled : report.settled = true
          · rw [if_pos hsettled]
            refine .fresh t report _ hkey hordered (hcycle.withMemo _) (fun k v h => ?_)
              fun hlost => ?_
            · rcases Memo.gives_insert h with ⟨hk, hv⟩ | h'
              · exact Or.inr ⟨hsettled, hk, hv⟩
              · exact Or.inl (hmemo k v h')
            · rw [(hcycle.settled hsettled).1] at hlost
              cases hlost
          · rw [if_neg hsettled]
            exact .fresh t report s' hkey hordered hcycle (fun k v h => Or.inl (hmemo k v h))
              hforgotten

/-- The rows that a caller gets are those of the answer. -/
theorem load_eq_answer (symbol exchange : String) (requested : Window) (s : StoreState σ ω) :
    store.load symbol exchange requested s
      = ((store.answer symbol exchange requested s).1.map Answer.rows,
        (store.answer symbol exchange requested s).2) := by
  obtain ⟨r, s', h⟩ : ∃ r s', store.answer symbol exchange requested s = (r, s') := ⟨_, _, rfl⟩
  unfold load
  rw [h]
  cases r with
  | error e => rw [bind_of_error h]; rfl
  | ok a => rw [bind_of_ok h]; rfl

/-- What a load comes to that is not remembered. -/
theorem load_of_missed {symbol exchange : String} {requested : Window} {s : StoreState σ ω}
    (hkey : (SeriesKey.of symbol exchange).Valid) (hordered : requested.isEmpty = false)
    (hmissed : s.memo.entries[(SeriesKey.of symbol exchange).memoKey requested s.today]? = none) :
    (store.load symbol exchange requested s).1
      = (store.loadFresh (.of symbol exchange) requested s.today s).1.map Report.rows := by
  rw [load_eq_answer, answer_of_missed store hkey hordered hmissed]
  obtain ⟨r, s', hfresh⟩ : ∃ r s',
      store.loadFresh (.of symbol exchange) requested s.today s = (r, s') := ⟨_, _, rfl⟩
  rw [hfresh]
  cases r with
  | error e =>
    rw [bind_of_error hfresh]
    rfl
  | ok report =>
    rw [bind_of_ok hfresh]
    split
    · rfl
    · rfl

end RollingStore
end DailyBars
