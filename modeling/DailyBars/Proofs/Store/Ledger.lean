import DailyBars.Proofs.Store.Session

/-! # A store without a memory

What callers see of a store is determined by its texts and the market it asks. `Ledger.load` answers
a request from these two alone: it remembers no requests and has no accesses to its storage. A load
of a store whose files can be read comes to the same, whatever its storage is.
-/

namespace DailyBars

variable {σ ω : Type}

/-- The texts of a store and the market it asks. -/
structure Ledger (ω : Type) where
  market : Market ω
  texts : Texts

namespace Texts

/-- The texts after a delta, when nothing fails to be written. -/
def stored (t : Texts) (key : SeriesKey) (rows : List Bar) (d : Delta) (today : Day) : Texts :=
  let t₁ := if d.bars = [] then t
    else t.put key.seriesName (Series.encode (Series.merge rows d.bars) key.symbol)
  match d.answered with
  | some w =>
    if d.answered = d.covered then t₁
    else t₁.put key.spanName (CheckedSpan.of w today).toJson
  | none => t₁

/-- The ranges that the texts leave missing of a request. -/
def missing (t : Texts) (key : SeriesKey) (requested : Window) (today : Day) : List Window :=
  Window.wanted ((t.held key).covered today) requested today

section Stored

variable {t : Texts} {key : SeriesKey} {rows : List Bar} {d : Delta} {today : Day} {n : String}

/-- Apart from the span text, only the series text is written, and only if there are new bars. -/
theorem stored_of_ne_spanName (hn : n ≠ key.spanName) :
    t.stored key rows d today n = (if d.bars = [] then t
      else t.put key.seriesName (Series.encode (Series.merge rows d.bars) key.symbol)) n := by
  unfold stored
  cases d.answered with
  | none => rfl
  | some w =>
    simp only
    split
    · rfl
    · exact put_of_ne _ _ hn

/-- A name the key does not own keeps its text. -/
theorem stored_of_not_owns (hn : ¬ key.Owns n) : t.stored key rows d today n = t n := by
  rw [stored_of_ne_spanName fun h => hn (Or.inr h)]
  split
  · rfl
  · exact put_of_ne _ _ fun h => hn (Or.inl h)

/-- Without new bars the series text stays, -/
theorem stored_seriesName_of_nil (h : d.bars = []) :
    t.stored key rows d today key.seriesName = t key.seriesName := by
  rw [stored_of_ne_spanName (key.seriesName_ne_spanName key), if_pos h]

/-- with new bars it is the merged series. -/
theorem stored_seriesName (h : d.bars ≠ []) : t.stored key rows d today key.seriesName
    = some (Series.encode (Series.merge rows d.bars) key.symbol) := by
  rw [stored_of_ne_spanName (key.seriesName_ne_spanName key), if_neg h, put_self]

/-- If the span has grown, the new one is written, -/
theorem stored_spanName_of_grown {w : Window} (hw : d.answered = some w)
    (h : d.answered ≠ d.covered) :
    t.stored key rows d today key.spanName = some (CheckedSpan.of w today).toJson := by
  unfold stored
  rw [hw] at h ⊢
  simp only
  rw [if_neg h, put_self]

/-- and otherwise the old one stays. -/
theorem stored_spanName_of_same (h : ∀ w, d.answered = some w → d.answered = d.covered) :
    t.stored key rows d today key.spanName = t key.spanName := by
  have hkept : (if d.bars = [] then t
      else t.put key.seriesName (Series.encode (Series.merge rows d.bars) key.symbol)) key.spanName
      = t key.spanName := by
    split
    · rfl
    · exact put_of_ne _ _ (key.seriesName_ne_spanName key).symm
  unfold stored
  cases hanswered : d.answered with
  | none => exact hkept
  | some w =>
    simp only
    rw [if_pos (hanswered ▸ h w hanswered)]
    exact hkept

end Stored

end Texts

namespace Ledger

/-- What comes of asking for ranges: the rows of the request and what is written, or the end of the
program. -/
def extend (engine : Engine ω) (key : SeriesKey) (requested : Window) (ranges : List Window)
    (l : Ledger ω) : Except DataError (List Bar) × Ledger ω :=
  let asked := RollingStore.askFor engine key ranges l.market
  let today := l.market.now.day
  let rows := (l.texts.held key).rows
  let d := l.texts.delta key today asked.fetched
  if asked.endedAt.isNone then
    (.ok (Series.clip (d.extended rows) requested),
      ⟨asked.market, l.texts.stored key rows d today⟩)
  else (.error .outsideCalendar, { l with market := asked.market })

/-- The answer to a request, read off the texts and the market. -/
def load (engine : Engine ω) (offline : Bool) (symbol exchange : String) (requested : Window)
    (l : Ledger ω) : Except DataError (List Bar) × Ledger ω :=
  let key := SeriesKey.of symbol exchange
  let today := l.market.now.day
  let rows := (l.texts.held key).rows
  let ranges := l.texts.missing key requested today
  if requested.isEmpty then (.ok [], l)
  else
    match key.check with
    | .error fault => (.error (.invalidSymbol key.symbol fault.message), l)
    | .ok () =>
      if ¬ (l.texts.held key).Trims today then (.error .outsideCalendar, l)
      else if ranges = [] then (.ok (Series.clip rows requested), l)
      else if offline then (.error (.noCachedData key.symbol key.exchange), l)
      else l.extend engine key requested ranges

variable {engine : Engine ω} {offline : Bool} {symbol exchange : String} {requested : Window}
variable {l : Ledger ω}

/-- A backwards window has no rows. -/
theorem load_of_isEmpty (h : requested.isEmpty = true) :
    l.load engine offline symbol exchange requested = (.ok [], l) := by
  unfold load
  rw [if_pos h]

/-- An invalid key is refused. -/
theorem load_of_invalid (h : requested.isEmpty = false) {fault : CodeFault}
    (hcheck : (SeriesKey.of symbol exchange).check = .error fault) :
    l.load engine offline symbol exchange requested
      = (.error (.invalidSymbol (SeriesKey.of symbol exchange).symbol fault.message), l) := by
  unfold load
  rw [if_neg (by simp [h])]
  simp only [hcheck]

/-- The program ends where the span of the key cannot be trimmed. -/
theorem load_of_untrimmed (h : requested.isEmpty = false)
    (hkey : (SeriesKey.of symbol exchange).Valid)
    (htrims : ¬ (l.texts.held (.of symbol exchange)).Trims l.market.now.day) :
    l.load engine offline symbol exchange requested = (.error .outsideCalendar, l) := by
  have hcheck : (SeriesKey.of symbol exchange).check = .ok () := hkey
  unfold load
  rw [if_neg (by simp [h])]
  simp only [hcheck]
  rw [if_pos htrims]

/-- A valid key is served from the ledger if nothing is missing, and asked for otherwise. -/
theorem load_of_valid (h : requested.isEmpty = false)
    (hkey : (SeriesKey.of symbol exchange).Valid)
    (htrims : (l.texts.held (.of symbol exchange)).Trims l.market.now.day) :
    l.load engine offline symbol exchange requested
      = if l.texts.missing (.of symbol exchange) requested l.market.now.day = [] then
          (.ok (Series.clip (l.texts.held (.of symbol exchange)).rows requested), l)
        else if offline then (.error (.noCachedData (SeriesKey.of symbol exchange).symbol
          (SeriesKey.of symbol exchange).exchange), l)
        else l.extend engine (.of symbol exchange) requested
          (l.texts.missing (.of symbol exchange) requested l.market.now.day) := by
  have hcheck : (SeriesKey.of symbol exchange).check = .ok () := hkey
  unfold load
  rw [if_neg (by simp [h])]
  simp only [hcheck]
  rw [if_neg (not_not_intro htrims)]

/-- Offline, what is held is read and nothing else is done. -/
theorem load_of_offline (h : requested.isEmpty = false)
    (hkey : (SeriesKey.of symbol exchange).Valid)
    (htrims : (l.texts.held (.of symbol exchange)).Trims l.market.now.day) :
    l.load engine true symbol exchange requested
      = (if l.texts.missing (.of symbol exchange) requested l.market.now.day = [] then
          .ok (Series.clip (l.texts.held (.of symbol exchange)).rows requested)
        else .error (.noCachedData (SeriesKey.of symbol exchange).symbol
          (SeriesKey.of symbol exchange).exchange), l) := by
  rw [load_of_valid h hkey htrims, if_pos rfl]
  split <;> rfl

/-- Offline, no request changes the ledger. -/
theorem snd_load_of_offline : (l.load engine true symbol exchange requested).2 = l := by
  by_cases hempty : requested.isEmpty = true
  · rw [load_of_isEmpty hempty]
  · have hordered : requested.isEmpty = false := by simpa using hempty
    cases hcheck : (SeriesKey.of symbol exchange).check with
    | error fault => rw [load_of_invalid hordered hcheck]
    | ok u =>
      by_cases htrims : (l.texts.held (.of symbol exchange)).Trims l.market.now.day
      · rw [load_of_offline hordered hcheck htrims]
      · rw [load_of_untrimmed hordered hcheck htrims]

end Ledger

/-- What is written when nothing fails is determined. -/
theorem Written.eq_stored {storage : Storage σ} {view : storage.View} {key : SeriesKey}
    {rows : List Bar} {d : Delta} {today : Day} {stored : Bool} {t t' : Texts}
    (h : Written view key rows d today stored t t') (hreliable : view.Reliable) :
    t' = t.stored key rows d today := by
  obtain ⟨hstored, hspan⟩ := h.reliable hreliable
  funext n
  by_cases howns : key.Owns n
  · rcases howns with rfl | rfl
    · rcases h.series with ⟨hnone, -, heq⟩ | ⟨hsome, -, heq⟩ | ⟨-, hlost, -⟩
      · rw [heq, Texts.stored_seriesName_of_nil hnone]
      · rw [heq, Texts.stored_seriesName hsome]
      · rw [hstored] at hlost
        cases hlost
    · rcases h.span with hsame | ⟨-, w, hw, hgrew, hwritten⟩
      · -- the record is as it was: not written, or written as it stood
        by_cases hgrew : ∃ w, d.answered = some w ∧ d.answered ≠ d.covered
        · obtain ⟨w, hw, hgrew⟩ := hgrew
          rw [hspan w hw hgrew, Texts.stored_spanName_of_grown hw hgrew]
        · rw [hsame, Texts.stored_spanName_of_same fun w hw => ?_]
          by_contra hne
          exact hgrew ⟨w, hw, hne⟩
      · rw [hwritten, Texts.stored_spanName_of_grown hw hgrew]
  · rw [h.others n howns, Texts.stored_of_not_owns howns]

/-- Nothing is missing only of what is covered in full. -/
theorem Coverage.missing_eq_nil {c : Option Window} {w : Window} :
    (assess c w).missing w = [] ↔ assess c w = full := by
  refine ⟨fun h => ?_, fun h => by rw [h]; rfl⟩
  cases c with
  | none => exact absurd h (List.cons_ne_nil _ _)
  | some v =>
    rw [assess_eq_full]
    refine ⟨v, rfl, ?_⟩
    have hbefore : ¬ w.first < v.first := fun hlt => by
      have hmem := mem_missing.2 (Or.inl ⟨hlt, rfl⟩)
      rw [h] at hmem
      cases hmem
    have hafter : ¬ v.last < w.last := fun hlt => by
      have hmem := mem_missing.2 (Or.inr ⟨hlt, rfl⟩)
      rw [h] at hmem
      cases hmem
    simp only [Day.lt_def, Day.le_def] at hbefore hafter ⊢
    omega

namespace RollingStore

variable (store : RollingStore σ ω) (view : store.storage.View)
variable {key : SeriesKey} {requested : Window} {today : Day} {s : StoreState σ ω}

/-- The account of a readable key is what is held, -/
theorem account_of_readable (hkey : key.Valid) (today : Day) (hs : view.Works s.storage)
    (hreadable : (view.texts s.storage).Readable key) : ∃ st,
    store.account key today s
        = (if ((view.texts s.storage).held key).Trims today then
            .ok ⟨((view.texts s.storage).held key).rows,
              ((view.texts s.storage).held key).covered today⟩
          else .error .outsideCalendar, { s with storage := st })
      ∧ view.Works st ∧ view.texts st = view.texts s.storage := by
  obtain ⟨r, st, haccount, hworks, hcases⟩ := account_spec store view hkey today hs
  rcases hcases with ⟨-, hunreadable, -⟩ | ⟨hcleared, -, rfl⟩
  · exact absurd hreadable hunreadable
  · have htexts := hcleared.readable hreadable
    rw [htexts] at haccount
    exact ⟨st, haccount, hworks, htexts⟩

/-- if the span can be trimmed. -/
theorem account_of_trims (hkey : key.Valid) (hs : view.Works s.storage)
    (hreadable : (view.texts s.storage).Readable key)
    (htrims : ((view.texts s.storage).held key).Trims today) : ∃ st,
    store.account key today s = (.ok ⟨((view.texts s.storage).held key).rows,
        ((view.texts s.storage).held key).covered today⟩, { s with storage := st })
      ∧ view.Works st ∧ view.texts st = view.texts s.storage := by
  obtain ⟨st, haccount, hst⟩ := account_of_readable store view hkey today hs hreadable
  rw [if_pos htrims] at haccount
  exact ⟨st, haccount, hst⟩

/-- Where it cannot, the program ends. -/
theorem loadFresh_of_untrimmed (hkey : key.Valid) (hs : view.Works s.storage)
    (hreadable : (view.texts s.storage).Readable key)
    (htrims : ¬ ((view.texts s.storage).held key).Trims today) : ∃ st,
    store.loadFresh key requested today s = (.error .outsideCalendar, { s with storage := st })
      ∧ view.Works st ∧ view.texts st = view.texts s.storage := by
  obtain ⟨st, haccount, hst⟩ := account_of_readable store view hkey today hs hreadable
  rw [if_neg htrims] at haccount
  exact ⟨st, bind_of_error haccount, hst⟩

/-- A request of which an account leaves nothing missing is answered from its rows. -/
theorem loadFresh_of_account {account : Account} {s' : StoreState σ ω}
    (haccount : store.account key today s = (.ok account, s'))
    (hwanted : Window.wanted account.covered requested today = []) :
    store.loadFresh key requested today s
      = (.ok { rows := Series.clip account.rows requested }, s') := by
  unfold loadFresh
  rw [bind_of_ok haccount]
  unfold Window.wanted at hwanted
  cases hnormalized : Window.normalized ⟨requested.first, min requested.last today⟩ with
  | none => rfl
  | some window =>
    rw [hnormalized] at hwanted
    simp only
    rw [if_pos (Coverage.missing_eq_nil.1 hwanted)]
    rfl

/-- What is loaded of a key whose series can be read, when nothing is missing of the request. -/
theorem loadFresh_of_held (hkey : key.Valid) (hs : view.Works s.storage)
    (hreadable : (view.texts s.storage).Readable key)
    (htrims : ((view.texts s.storage).held key).Trims today)
    (hmissing : (view.texts s.storage).missing key requested today = []) : ∃ st,
    store.loadFresh key requested today s
        = (.ok { rows := Series.clip ((view.texts s.storage).held key).rows requested },
          { s with storage := st })
      ∧ view.Works st ∧ view.texts st = view.texts s.storage := by
  obtain ⟨st, haccount, hworks, htexts⟩ :=
    account_of_trims store view hkey hs hreadable htrims
  exact ⟨st, loadFresh_of_account store haccount hmissing, hworks, htexts⟩

/-- What nothing is missing of is served from what is stored. -/
theorem load_of_held {symbol exchange : String} (hkey : (SeriesKey.of symbol exchange).Valid)
    (hordered : requested.isEmpty = false)
    (hmissed : s.memo.entries[(SeriesKey.of symbol exchange).memoKey requested s.today]? = none)
    (hs : view.Works s.storage) (hreadable : (view.texts s.storage).Readable (.of symbol exchange))
    (htrims : ((view.texts s.storage).held (.of symbol exchange)).Trims s.today)
    (hmissing : (view.texts s.storage).missing (.of symbol exchange) requested s.today = []) :
    (store.load symbol exchange requested s).1
      = .ok (Series.clip ((view.texts s.storage).rows (.of symbol exchange)) requested) := by
  obtain ⟨st, hload, -, -⟩ := loadFresh_of_held store view hkey hs hreadable htrims hmissing
  rw [load_of_missed store hkey hordered hmissed, hload]
  rfl

/-- What is missing of a request is missing of a window. -/
theorem exists_window_of_missing {t : Texts} (h : t.missing key requested today ≠ []) :
    ∃ window, Window.normalized ⟨requested.first, min requested.last today⟩ = some window
      ∧ Coverage.assess ((t.held key).covered today) window ≠ .full := by
  unfold Texts.missing Window.wanted at h
  cases hnormalized : Window.normalized ⟨requested.first, min requested.last today⟩ with
  | none =>
    rw [hnormalized] at h
    exact absurd rfl h
  | some window =>
    rw [hnormalized] at h
    exact ⟨window, rfl, fun hfull => h (Coverage.missing_eq_nil.2 hfull)⟩

/-- Where something is missing, an offline store fails. -/
theorem loadFresh_of_offline (hkey : key.Valid) (hs : view.Works s.storage)
    (hreadable : (view.texts s.storage).Readable key)
    (htrims : ((view.texts s.storage).held key).Trims today) (hoffline : store.offline = true)
    (hmissing : (view.texts s.storage).missing key requested today ≠ []) : ∃ st,
    store.loadFresh key requested today s
        = (.error (.noCachedData key.symbol key.exchange), { s with storage := st })
      ∧ view.Works st ∧ view.texts st = view.texts s.storage := by
  obtain ⟨st, haccount, hworks, htexts⟩ :=
    account_of_trims store view hkey hs hreadable htrims
  obtain ⟨window, hwindow, hnotFull⟩ := exists_window_of_missing hmissing
  exact ⟨st, loadFresh_refuses store hoffline haccount hwindow hnotFull, hworks, htexts⟩

/-- An online one goes through a cycle, after which nothing is remembered of the key, unless the
program ends. -/
theorem loadFresh_of_missing (hkey : key.Valid) (hs : view.Works s.storage)
    (hreadable : (view.texts s.storage).Readable key)
    (htrims : ((view.texts s.storage).held key).Trims today) (honline : store.offline = false)
    (hmissing : (view.texts s.storage).missing key requested today ≠ []) :
    (∃ st market, store.loadFresh key requested today s
          = (.error .outsideCalendar, { s with storage := st, market })
        ∧ view.texts st = view.texts s.storage
        ∧ Ended store key requested today (view.texts s.storage) s { s with storage := st, market })
      ∨ ∃ report s', store.loadFresh key requested today s = (.ok report, s')
        ∧ Cycle store view key requested today (view.texts s.storage) s s' report
        ∧ (∀ k v, s'.memo.Gives k v → s.memo.Gives k v)
        ∧ s'.Forgotten key := by
  obtain ⟨st, haccount, hworks, htexts⟩ :=
    account_of_trims store view hkey hs hreadable htrims
  obtain ⟨window, hwindow, hnotFull⟩ := exists_window_of_missing hmissing
  have hcleared : Cleared view key (view.texts s.storage) (view.texts st) := by
    rw [htexts]
    exact Cleared.refl _
  have hextends : store.loadFresh key requested today s
      = store.extend key ⟨((view.texts s.storage).held key).rows,
          ((view.texts s.storage).held key).covered today⟩ window requested today
        { s with storage := st } := by
    unfold loadFresh
    rw [bind_of_ok haccount, hwindow]
    simp only
    rw [if_neg hnotFull, if_neg (by simp [honline])]
  have hcases := cycle_of_extend store view hkey hworks hcleared
    (fun _ _ => by rwa [htexts]) (by rwa [htexts]) hwindow
  rw [htexts, ← hextends] at hcases
  rcases hcases with ⟨market, hload, hended⟩ | ⟨report, s', hload, hcycle, hmemo, hforgotten⟩
  · exact Or.inl ⟨st, market, hload, htexts, hended⟩
  · exact Or.inr ⟨report, s', hload, hcycle, hmemo, hforgotten⟩

end RollingStore
end DailyBars
