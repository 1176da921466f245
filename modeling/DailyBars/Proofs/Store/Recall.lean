import DailyBars.Proofs.Store.Ledger

/-! # What is remembered makes no difference

A remembered answer is what would be read again: the rows of the window from the stored series,
with nothing missing. It stays so because a store forgets a key whenever its files change, and
because what is stored is read back as it was returned. A load therefore comes to what the ledger
says, whether or not its answer was remembered.
-/

namespace DailyBars

variable {σ ω : Type}

/-! ## Rows of the sources -/

/-- Configured sources give rows of the ticker and the exchange that they are asked for. -/
def Sources.Faithful (s : Sources ω) : Prop :=
  ∀ source, s.configured source = true → ∀ q now outside rows,
    (s.ask source q now outside).1 = .ok rows → ∀ b ∈ rows, b.tagged q.symbol q.exchange = b

/-- Rescaling commutes with tagging. -/
theorem Scaling.rescale_tagged (s : Scaling) (exchange symbol x y : String) (b : Bar) :
    (s.rescale exchange symbol b).tagged x y = s.rescale exchange symbol (b.tagged x y) := by
  unfold rescale
  split
  · split
    · rfl
    · rfl
  · rfl

/-- What an engine with faithful sources yields is tagged as asked for, -/
theorem Engine.Yields.tagged {e : Engine ω} {q : Query} {b : Bar} (hfaithful : e.sources.Faithful)
    (h : e.Yields q b) : b.tagged q.symbol q.exchange = b := by
  obtain ⟨raw, hraw, rfl⟩ := h
  obtain ⟨source, now, outside, rows, hconfigured, hask, hmem⟩ := hraw.answer
  rw [Scaling.rescale_tagged, hfaithful source hconfigured q now outside rows hask raw hmem]

namespace Cycle

variable {store : RollingStore σ ω} {view : store.storage.View} {key : SeriesKey}
variable {requested : Window} {today : Day} {t : Texts} {s s' : StoreState σ ω} {report : Report}

/-- and so are the bars of a load. -/
theorem tagged_bars (h : Cycle store view key requested today t s s' report)
    (hfaithful : store.engine.sources.Faithful) {b : Bar}
    (hb : b ∈ (t.delta key today report.fetched).bars) : b.tagged key.symbol key.exchange = b := by
  obtain ⟨f, hf, hbf⟩ := Delta.mem_bars.1 hb
  have hmem : f ∈ (RollingStore.askFor store.engine key
      (Window.wanted ((t.held key).covered today) requested today) s.market).fetched := by
    rw [h.asked]
    exact hf
  obtain ⟨m, -, hmerged⟩ := RollingStore.exists_fetch_of_mem_askFor hmem
  rw [hmerged] at hbf
  exact ((Engine.sound_fetch _ _ m).yields b hbf).tagged hfaithful

/-- The rows that are returned are those that are read afterwards. -/
theorem rows_eq_held (h : Cycle store view key requested today t s s' report)
    (hrequested : requested.InCalendar) (htoday : today.InCalendar) (hreliable : view.Reliable)
    (hfaithful : store.engine.sources.Faithful) (htagged : (t.held key).Tagged key) :
    report.rows = Series.clip ((view.texts s'.storage).held key).rows requested := by
  have hstored := (h.written.reliable hreliable).1
  have hgrown := h.grown hrequested htoday
  rw [hstored] at hgrown
  have hrows := hgrown.rows_of_stored htagged
  -- the rows carry their tags already, so that writing them loses nothing
  have hsame : ∀ b ∈ (t.delta key today report.fetched).extended (t.held key).rows,
      b.tagged key.symbol key.exchange = b := by
    intro b hb
    rw [Delta.extended_eq_merge (t.held key).ascending] at hb
    rcases Series.mem_of_mem_merge hb with hb | hb
    · exact htagged b hb
    · exact h.tagged_bars hfaithful hb
  rw [h.rows, hrows, List.map_congr_left hsame, List.map_id']

/-- What is accounted for at the end of a cycle is covered when the files are read again. -/
theorem covers_of_answered (h : Cycle store view key requested today t s s' report)
    (hrequested : requested.InCalendar) (htoday : today.InCalendar) (hreliable : view.Reliable)
    {d : Day} (hd : Window.Covers (t.delta key today report.fetched).answered d) :
    Window.Covers (((view.texts s'.storage).held key).covered today) d := by
  by_cases hgrew : (t.delta key today report.fetched).answered = (t.held key).covered today
  · -- nothing new is accounted for: the span stays, and so do the dates of the rows
    have hgrown := h.grown hrequested htoday
    have hspan : ((view.texts s'.storage).held key).span = (t.held key).span := by
      rcases h.written.span with hsame | ⟨-, -, -, hother, -⟩
      · exact Texts.span?_congr hsame
      · exact absurd hgrew hother
    have hmarks : ∀ {x}, (t.held key).Marks today x →
        ((view.texts s'.storage).held key).Marks today x := by
      rintro x (⟨b, hb, hx⟩ | hchecked)
      · exact Or.inl (hgrown.exists_date.2 ⟨b, Or.inl hb, hx⟩)
      · exact Or.inr (hspan ▸ hchecked)
    rw [hgrew] at hd
    obtain ⟨⟨x, hx, hxd⟩, y, hy, hdy⟩ := (t.held key).covers_covered.1 hd
    exact (Held.covers_covered _).2 ⟨⟨x, hmarks hx, hxd⟩, y, hmarks hy, hdy⟩
  · obtain ⟨w, hw, hin⟩ := hd
    have hrecorded := (h.recorded hrequested htoday hreliable).2 w hw hgrew
    exact Held.covers_of_marks _ (Grown.marks_of_recorded hrecorded ⟨w, rfl, hin⟩ (Or.inr rfl))

end Cycle

/-! ## Remembered answers -/

/-- The rows are what is read of the texts for a request on a day, with nothing missing. -/
structure Texts.Recalls (t : Texts) (key : SeriesKey) (requested : Window) (day : Day)
    (rows : List Bar) : Prop where
  trims : (t.held key).Trims day
  rows : rows = Series.clip (t.held key).rows requested
  missing : t.missing key requested day = []

/-- What the texts recall depends only on what is held of the key. -/
theorem Texts.Recalls.congr {t t' : Texts} {key : SeriesKey} {requested : Window} {day : Day}
    {rows : List Bar} (h : t.Recalls key requested day rows) (hsame : t'.held key = t.held key) :
    t'.Recalls key requested day rows := by
  refine ⟨?_, ?_, ?_⟩
  · rw [hsame]
    exact h.trims
  · rw [hsame]
    exact h.rows
  · unfold Texts.missing
    rw [hsame]
    exact h.missing

/-- After a cycle the span can still be trimmed: it is as it was, or checked today. -/
theorem Cycle.trims_after {store : RollingStore σ ω} {view : store.storage.View} {key : SeriesKey}
    {requested : Window} {today : Day} {t : Texts} {s s' : StoreState σ ω} {report : Report}
    (h : Cycle store view key requested today t s s' report) (hrequested : requested.InCalendar)
    (htoday : today.InCalendar) : ((view.texts s'.storage).held key).Trims today := by
  rcases h.written.span with hsame | ⟨-, w, hw, hother, hwritten⟩
  · have hspan : ((view.texts s'.storage).held key).span = (t.held key).span :=
      Texts.span?_congr hsame
    rw [Held.Trims, hspan]
    exact h.trims
  · have hspan : ((view.texts s'.storage).held key).span = some (CheckedSpan.of w today) :=
      Texts.span?_of_toJson hwritten (h.answered_inCalendar hrequested htoday hw)
    exact Held.trims_of_checked hspan

/-- What a cycle that settles a request returns is what is read afterwards. -/
theorem Cycle.recalls {store : RollingStore σ ω} {view : store.storage.View} {key : SeriesKey}
    {requested : Window} {today : Day} {t : Texts} {s s' : StoreState σ ω} {report : Report}
    (h : Cycle store view key requested today t s s' report) (hrequested : requested.InCalendar)
    (htoday : today.InCalendar) (hreliable : view.Reliable)
    (hfaithful : store.engine.sources.Faithful) (htagged : (t.held key).Tagged key)
    (hsettled : report.settled = true) :
    (view.texts s'.storage).Recalls key requested today report.rows where
  trims := h.trims_after hrequested htoday
  rows := h.rows_eq_held hrequested htoday hreliable hfaithful htagged
  missing := by
    unfold Texts.missing Window.wanted
    cases hwindow : Window.normalized ⟨requested.first, min requested.last today⟩ with
    | none => rfl
    | some w =>
      simp only
      have hordered := (Window.inner_of_normalized hwindow).ordered
      obtain ⟨v, hv, hfirst, hlast⟩ :=
        Coverage.assess_eq_full.1 ((h.settled hsettled).2 w hwindow)
      have hcovers : ∀ d, w.first ≤ d → d ≤ w.last →
          Window.Covers (((view.texts s'.storage).held key).covered today) d :=
        fun d hd hd' => h.covers_of_answered hrequested htoday hreliable
          ⟨v, hv, Int.le_trans hfirst hd, Int.le_trans hd' hlast⟩
      obtain ⟨c, hc, hbefore, -⟩ := hcovers w.first (Int.le_refl _) hordered
      obtain ⟨c', hc', -, hafter⟩ := hcovers w.last hordered (Int.le_refl _)
      rw [hc, Option.some.injEq] at hc'
      subst hc'
      exact Coverage.missing_eq_nil.2 (Coverage.assess_eq_full.2 ⟨c, hc, hbefore, hafter⟩)

/-- Everything that is remembered of well-formed keys would be read again. -/
def StoreState.Truthful {storage : Storage σ} (view : storage.View) (s : StoreState σ ω) : Prop :=
  ∀ key : SeriesKey, key.Valid → ∀ requested day rows,
    s.memo.Gives (key.memoKey requested day) rows →
      (view.texts s.storage).Recalls key requested day rows

namespace StoreState.Truthful

variable {storage : Storage σ} {view : storage.View} {s s' : StoreState σ ω}

/-- An empty memo is truthful. -/
theorem of_empty {capacity : Nat} (h : s.memo = .empty capacity) : s.Truthful view := by
  intro key hkey requested day rows hgives
  rw [h] at hgives
  exact absurd hgives Memo.gives_empty

/-- As long as the texts stay, less may be remembered. -/
theorem mono (h : s.Truthful view) (htexts : view.texts s'.storage = view.texts s.storage)
    (hmemo : ∀ k v, s'.memo.Gives k v → s.memo.Gives k v) : s'.Truthful view := by
  intro key hkey requested day rows hgives
  rw [htexts]
  exact h key hkey requested day rows (hmemo _ _ hgives)

/-- What would be read again may be remembered. -/
theorem insert (h : s.Truthful view) {key : SeriesKey} {requested : Window} {day : Day}
    {rows : List Bar} (hrecalls : (view.texts s.storage).Recalls key requested day rows) :
    ({ s with memo := s.memo.insert (key.memoKey requested day) rows } : StoreState σ ω).Truthful
      view := by
  intro k hk requested' day' rows' hgives
  rcases Memo.gives_insert hgives with ⟨hsame, rfl⟩ | hgives
  · have hkey : k = key := by
      cases k
      cases key
      simp_all [SeriesKey.memoKey]
    have hwindow : requested' = requested ∧ day' = day := by
      simp_all [SeriesKey.memoKey]
    rw [hkey, hwindow.1, hwindow.2]
    exact hrecalls
  · exact h k hk requested' day' rows' hgives

/-- A cycle changes the files of one key only, and that key is forgotten. -/
theorem of_cycle {store : RollingStore σ ω} {view : store.storage.View} {key : SeriesKey}
    {requested : Window} {today : Day} {t : Texts} {report : Report} (h : s.Truthful view)
    (hkey : key.Valid) (hcycle : Cycle store view key requested today t s s' report)
    (hmemo : ∀ k v, s'.memo.Gives k v → s.memo.Gives k v) (hforgotten : s'.Forgotten key) :
    s'.Truthful view := by
  intro k hk requested' day rows hgives
  by_cases hsame : k = key
  · subst hsame
    exact absurd ⟨rfl, rfl⟩ (hforgotten _ _ hgives)
  · have hother : (view.texts s'.storage).held k = (view.texts s.storage).held k :=
      Texts.held_congr fun n hn => hcycle.others ⟨k, hk, hn⟩
        fun hown => hsame (SeriesKey.eq_of_owns hk hkey hn hown)
    exact (h k hk requested' day rows (hmemo _ _ hgives)).congr hother

end StoreState.Truthful

/-! ## Loads -/

/-- What callers see of a store. -/
def StoreState.ledger {storage : Storage σ} (view : storage.View) (s : StoreState σ ω) : Ledger ω :=
  ⟨s.market, view.texts s.storage⟩

namespace Session

/-- The files of every key are as a store leaves them. -/
structure Kept {storage : Storage σ} (view : storage.View) (s : Session σ ω) : Prop
    extends s.Sound view where
  clean : ∀ key : SeriesKey, key.Valid → s.Clean view key

/-- What is remembered besides is true. -/
structure Honest {storage : Storage σ} (view : storage.View) (s : Session σ ω) : Prop
    extends s.Kept view where
  truthful : s.state.Truthful view

variable {storage : Storage σ} {view : storage.View}

/-- On an empty storage a session is kept, -/
theorem kept_of_empty {s : Session σ ω} (hempty : view.Empty s.state.storage)
    (hnow : s.state.market.now.InCalendar) : s.Kept view where
  works := hempty.works
  inCalendar := hnow
  clean key _ := clean_of_empty hempty hnow key

/-- Only the files and the time matter. -/
theorem Kept.congr {ω' : Type} {s : Session σ ω} {s' : Session σ ω'} (h : s.Kept view)
    (hstorage : s'.state.storage = s.state.storage)
    (hnow : s'.state.market.now = s.state.market.now) : s'.Kept view := by
  have hsound : s'.Sound view := ⟨hstorage ▸ h.works, hnow ▸ h.inCalendar⟩
  exact {
    toSound := hsound
    clean := fun key hkey => {
      toSound := hsound
      readable := hstorage ▸ (h.clean key hkey).readable
      tagged := hstorage ▸ (h.clean key hkey).tagged } }

/-- and stays so over every step. -/
theorem kept_step {s : Session σ ω} (h : s.Kept view) (a : Step ω) :
    (s.step storage a).Kept view where
  toSound := sound_step h.toSound a
  clean key hkey := clean_step hkey (h.clean key hkey) a

end Session

/-- An answer and what it leaves behind are those of the ledger, and what is remembered afterwards
is true. -/
structure Refines {storage : Storage σ} (view : storage.View)
    (r : Except DataError Answer × StoreState σ ω) (l : Except DataError (List Bar) × Ledger ω) :
    Prop where
  result : r.1.map Answer.rows = l.1
  ledger : r.2.ledger view = l.2
  truthful : r.2.Truthful view

namespace Entry

variable {storage : Storage σ} {view : storage.View} {e : Entry σ ω}

/-- A window the memo does not have is loaded and remembered. -/
theorem answer_eq_of_missed (hkey : e.key.Valid) (hordered : e.requested.isEmpty = false)
    (hmissed : e.before.state.memo.entries[e.key.memoKey e.requested e.today]? = none) :
    (e.before.store storage).answer e.symbol e.exchange e.requested e.before.state
      = (do
          let report ← (e.before.store storage).loadFresh e.key e.requested e.today
          if report.settled then
            RollingStore.remember (e.key.memoKey e.requested e.today) report.rows
          pure (.fresh report) : StoreM σ ω Answer) e.before.state :=
  RollingStore.answer_of_missed _ hkey hordered hmissed

section Missed

variable (hkey : e.key.Valid) (hordered : e.requested.isEmpty = false)
variable (hmissed : e.before.state.memo.entries[e.key.memoKey e.requested e.today]? = none)
include hkey hordered hmissed

/-- A request that is not remembered, where the span cannot be trimmed: the program ends. -/
theorem refines_of_untrimmed (hworks : view.Works e.before.state.storage)
    (hreadable : (view.texts e.before.state.storage).Readable e.key)
    (htruthful : e.before.state.Truthful view)
    (htrims : ¬ ((view.texts e.before.state.storage).held e.key).Trims e.today) :
    Refines view
      ((e.before.store storage).answer e.symbol e.exchange e.requested e.before.state)
      ((e.before.state.ledger view).load e.before.engine e.before.offline e.symbol e.exchange
        e.requested) := by
  obtain ⟨st, hload, -, htexts⟩ := RollingStore.loadFresh_of_untrimmed (e.before.store storage) view
    hkey hworks hreadable htrims
  have hledger : ¬ ((e.before.state.ledger view).texts.held (.of e.symbol e.exchange)).Trims
      (e.before.state.ledger view).market.now.day := htrims
  rw [answer_eq_of_missed hkey hordered hmissed, Ledger.load_of_untrimmed hordered hkey hledger,
    bind_of_error hload]
  exact ⟨rfl, congrArg (Ledger.mk e.before.state.market) htexts,
    htruthful.mono htexts fun _ _ h => h⟩

/-- One of which nothing is missing. -/
theorem refines_of_held (hworks : view.Works e.before.state.storage)
    (hreadable : (view.texts e.before.state.storage).Readable e.key)
    (htrims : ((view.texts e.before.state.storage).held e.key).Trims e.today)
    (htruthful : e.before.state.Truthful view)
    (hmissing : (view.texts e.before.state.storage).missing e.key e.requested e.today = []) :
    Refines view
      ((e.before.store storage).answer e.symbol e.exchange e.requested e.before.state)
      ((e.before.state.ledger view).load e.before.engine e.before.offline e.symbol e.exchange
        e.requested) := by
  obtain ⟨st, hload, -, htexts⟩ := RollingStore.loadFresh_of_held (e.before.store storage) view
    hkey hworks hreadable htrims hmissing
  have hledger : (e.before.state.ledger view).texts.missing (.of e.symbol e.exchange) e.requested
      (e.before.state.ledger view).market.now.day = [] := hmissing
  rw [answer_eq_of_missed hkey hordered hmissed, Ledger.load_of_valid hordered hkey htrims,
    if_pos hledger, bind_of_ok hload]
  have hkept : ({ e.before.state with storage := st } : StoreState σ ω).Truthful view :=
    htruthful.mono htexts fun _ _ h => h
  refine ⟨rfl, ?_, hkept.insert ⟨?_, ?_, ?_⟩⟩
  · show Ledger.mk e.before.state.market (view.texts st) = _
    rw [htexts]
    rfl
  · show ((view.texts st).held _).Trims e.today
    rw [htexts]
    exact htrims
  · show _ = Series.clip ((view.texts st).held _).rows e.requested
    rw [htexts]
  · show (view.texts st).missing _ e.requested e.today = []
    rw [htexts]
    exact hmissing

/-- One of which something is missing, while the store is offline. -/
theorem refines_of_offline (hworks : view.Works e.before.state.storage)
    (hreadable : (view.texts e.before.state.storage).Readable e.key)
    (htrims : ((view.texts e.before.state.storage).held e.key).Trims e.today)
    (htruthful : e.before.state.Truthful view) (hoffline : e.before.offline = true)
    (hmissing : (view.texts e.before.state.storage).missing e.key e.requested e.today ≠ []) :
    Refines view
      ((e.before.store storage).answer e.symbol e.exchange e.requested e.before.state)
      ((e.before.state.ledger view).load e.before.engine e.before.offline e.symbol e.exchange
        e.requested) := by
  obtain ⟨st, hload, -, htexts⟩ := RollingStore.loadFresh_of_offline (e.before.store storage) view
    hkey hworks hreadable htrims hoffline hmissing
  have hledger : (e.before.state.ledger view).texts.missing (.of e.symbol e.exchange) e.requested
      (e.before.state.ledger view).market.now.day ≠ [] := hmissing
  rw [answer_eq_of_missed hkey hordered hmissed, Ledger.load_of_valid hordered hkey htrims,
    if_neg hledger, if_pos hoffline, bind_of_error hload]
  refine ⟨rfl, ?_, htruthful.mono htexts fun _ _ h => h⟩
  show Ledger.mk e.before.state.market (view.texts st) = _
  rw [htexts]
  rfl

/-- One of which something is missing, while the store is online. -/
theorem refines_of_missing (hreliable : view.Reliable)
    (hfaithful : e.before.engine.sources.Faithful) (hs : e.before.Honest view)
    (htrims : ((view.texts e.before.state.storage).held e.key).Trims e.today)
    (honline : e.before.offline = false)
    (hmissing : (view.texts e.before.state.storage).missing e.key e.requested e.today ≠ []) :
    Refines view
      ((e.before.store storage).answer e.symbol e.exchange e.requested e.before.state)
      ((e.before.state.ledger view).load e.before.engine e.before.offline e.symbol e.exchange
        e.requested) := by
  have hclean := hs.clean e.key hkey
  have hledger : (e.before.state.ledger view).texts.missing (.of e.symbol e.exchange) e.requested
      (e.before.state.ledger view).market.now.day ≠ [] := hmissing
  rw [answer_eq_of_missed hkey hordered hmissed, Ledger.load_of_valid hordered hkey htrims,
    if_neg hledger, if_neg (ne_true_of_eq_false honline), Ledger.extend]
  rcases RollingStore.loadFresh_of_missing (e.before.store storage) view hkey hs.works
      hclean.readable htrims honline hmissing with
    ⟨st, market, hload, htexts, hended⟩ | ⟨report, s', hload, hcycle, hmemo, hforgotten⟩
  · -- both end at the same range, with nothing written
    obtain ⟨fetched, range, hasked⟩ := hended
    have hasked' : RollingStore.askFor e.before.engine (.of e.symbol e.exchange)
        ((e.before.state.ledger view).texts.missing (.of e.symbol e.exchange) e.requested
          (e.before.state.ledger view).market.now.day) (e.before.state.ledger view).market
        = { fetched, endedAt := some range, market } := hasked
    rw [hasked', bind_of_error hload]
    refine ⟨rfl, ?_, hs.truthful.mono htexts fun _ _ h => h⟩
    exact congrArg (Ledger.mk market) htexts
  have hasked : RollingStore.askFor e.before.engine (.of e.symbol e.exchange)
      ((e.before.state.ledger view).texts.missing (.of e.symbol e.exchange) e.requested
        (e.before.state.ledger view).market.now.day) (e.before.state.ledger view).market
      = { fetched := report.fetched, endedAt := none, market := s'.market } := hcycle.asked
  rw [hasked, bind_of_ok hload]
  have hleft : s'.ledger view = ⟨s'.market, (view.texts e.before.state.storage).stored e.key
      ((view.texts e.before.state.storage).held e.key).rows
      ((view.texts e.before.state.storage).delta e.key e.today report.fetched) e.today⟩ :=
    congrArg (Ledger.mk s'.market) (hcycle.written.eq_stored hreliable)
  have hkept := hs.truthful.of_cycle hkey hcycle hmemo hforgotten
  by_cases hsettled : report.settled = true
  · have hrecalls := hcycle.recalls e.inCalendar hs.inCalendar hreliable hfaithful hclean.tagged
      hsettled
    rw [if_pos hsettled]
    exact ⟨congrArg Except.ok hcycle.rows, hleft, hkept.insert hrecalls⟩
  · rw [if_neg hsettled]
    exact ⟨congrArg Except.ok hcycle.rows, hleft, hkept⟩

end Missed

/-- A load comes to what the ledger says if it does so when its answer has to be read. -/
theorem refines_of_missed (htruthful : e.before.state.Truthful view)
    (h : e.key.Valid → e.requested.isEmpty = false →
      e.before.state.memo.entries[e.key.memoKey e.requested e.today]? = none →
        Refines view
          ((e.before.store storage).answer e.symbol e.exchange e.requested e.before.state)
          ((e.before.state.ledger view).load e.before.engine e.before.offline e.symbol e.exchange
            e.requested)) :
    Refines view
      ((e.before.store storage).answer e.symbol e.exchange e.requested e.before.state)
      ((e.before.state.ledger view).load e.before.engine e.before.offline e.symbol e.exchange
        e.requested) := by
  by_cases hempty : e.requested.isEmpty = true
  · rw [Ledger.load_of_isEmpty hempty, RollingStore.answer_of_isEmpty _ _ _ hempty]
    exact ⟨rfl, rfl, htruthful⟩
  · have hordered : e.requested.isEmpty = false := by simpa using hempty
    cases hcheck : (SeriesKey.of e.symbol e.exchange).check with
    | error fault =>
      rw [Ledger.load_of_invalid hordered hcheck, RollingStore.answer_of_invalid _ hordered hcheck]
      exact ⟨rfl, rfl, htruthful⟩
    | ok u =>
      have hkey : e.key.Valid := hcheck
      cases hhit : e.before.state.memo.entries[e.key.memoKey e.requested e.today]? with
      | some rows =>
        -- what is remembered would be read again
        obtain ⟨htrims, hrows, hmissing⟩ := htruthful e.key hkey e.requested e.today rows hhit
        have hledger : (e.before.state.ledger view).texts.missing (.of e.symbol e.exchange)
            e.requested (e.before.state.ledger view).market.now.day = [] := hmissing
        rw [RollingStore.answer_of_remembered _ hkey hordered hhit,
          Ledger.load_of_valid hordered hkey htrims, if_pos hledger]
        exact ⟨congrArg Except.ok hrows, rfl,
          htruthful.mono rfl fun k v h => Memo.gives_get.1 h⟩
      | none => exact h hkey hordered hhit

/-- **A load comes to what the ledger says.** -/
theorem refines (hreliable : view.Reliable) (hfaithful : e.before.engine.sources.Faithful)
    (hs : e.before.Honest view) :
    Refines view
      ((e.before.store storage).answer e.symbol e.exchange e.requested e.before.state)
      ((e.before.state.ledger view).load e.before.engine e.before.offline e.symbol e.exchange
        e.requested) := by
  refine refines_of_missed hs.truthful fun hkey hordered hhit => ?_
  have hreadable := (hs.clean e.key hkey).readable
  by_cases htrims : ((view.texts e.before.state.storage).held e.key).Trims e.today
  case neg => exact refines_of_untrimmed hkey hordered hhit hs.works hreadable hs.truthful htrims
  by_cases hmissing : (view.texts e.before.state.storage).missing e.key e.requested e.today = []
  · exact refines_of_held hkey hordered hhit hs.works hreadable htrims hs.truthful hmissing
  · by_cases hoffline : e.before.offline = true
    · exact refines_of_offline hkey hordered hhit hs.works hreadable htrims hs.truthful hoffline
        hmissing
    · exact refines_of_missing hkey hordered hhit hreliable hfaithful hs htrims
        (Bool.eq_false_of_not_eq_true hoffline) hmissing

/-- A load leaves an honest session. -/
theorem honest_after (hreliable : view.Reliable) (hfaithful : e.before.engine.sources.Faithful)
    (hs : e.before.Honest view) : (e.after storage).Honest view where
  toSound := e.sound_after view hs.toSound
  clean key hkey := clean_after hkey (hs.clean key hkey)
  truthful := (refines hreliable hfaithful hs).truthful

end Entry
end DailyBars
