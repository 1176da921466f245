import DailyBars.Proofs.Store.Load
import DailyBars.Proofs.Store.LocalFolder
import DailyBars.Proofs.Store.Objects

/-! # A series file that is none

A text under the name of a series that cannot be read as one is put out of the way together with the
record of its span, and the load goes on as if neither were there. That rests on both being moved: a
storage that leaves its texts in place still shows the record, which then stands for rows that are
lost.
-/

namespace DailyBars

variable {σ ω : Type}

/-- The text is rejected when it is read as a series on this exchange. A date outside the calendar
is no rejection: reading stops altogether there. -/
def Series.Rejected (text exchange : String) : Prop :=
  ∃ fault, Series.decode text exchange = .error fault ∧ ∀ row, fault ≠ .dateOutsideCalendar row

/-! ## What is read -/

namespace Storage

variable {storage : Storage σ} (view : storage.View) {key : SeriesKey}

/-- What is done with a text that is rejected. -/
def discard (storage : Storage σ) (key : SeriesKey) : Storing σ (Option (List Bar)) := do
  let _ ← succeeds (access (storage.quarantine key.seriesName))
  if (← (access (storage.read key.spanName) : Storing σ (Option String))).isSome then
    let _ ← succeeds (access (storage.quarantine key.spanName))
  pure none

/-- A text that is rejected is put out of the way. -/
theorem readSeries_of_fault {s s' : σ} {text : String}
    (hread : storage.read key.seriesName s = (.ok (some text), s')) {fault : SeriesFault}
    (h : Series.decode text key.exchange = .error fault)
    (hday : ∀ row, fault ≠ .dateOutsideCalendar row) :
    storage.readSeries key s = storage.discard key s' := by
  unfold readSeries
  rw [bind_of_ok (access_of hread)]
  simp only [h]
  cases fault with
  | dateOutsideCalendar row => exact absurd rfl (hday row)
  | _ => rfl

/-- A text that is rejected is discarded. -/
theorem readSeries_of_rejected (hkey : key.Valid) {s : σ} (hs : view.Works s) {text : String}
    (htext : view.texts s key.seriesName = some text) (h : Series.Rejected text key.exchange) :
    ∃ s', storage.readSeries key s = storage.discard key s' ∧ view.Works s'
      ∧ view.texts s' = view.texts s := by
  obtain ⟨fault, hdecode, hfault⟩ := h
  obtain ⟨s', hread, hworks, htexts⟩ := view.read (SeriesKey.isFile_seriesName hkey) hs
  rw [htext] at hread
  exact ⟨s', readSeries_of_fault hread hdecode hfault, hworks, htexts⟩

/-- If texts are moved, neither the series nor the record is left. -/
theorem discard_of_moves (hreliable : view.Reliable) (hmoves : view.keeps = false)
    (hkey : key.Valid) {s : σ} (hs : view.Works s) : ∃ s', storage.discard key s = (.ok none, s')
      ∧ view.Works s' ∧ view.texts s' key.seriesName = none
      ∧ view.texts s' key.spanName = none := by
  have hseries := SeriesKey.isFile_seriesName hkey
  have hspan := SeriesKey.isFile_spanName hkey
  have hne : key.seriesName ≠ key.spanName := key.seriesName_ne_spanName key
  obtain ⟨moved, s₁, hmove, hworks₁, hgone, -⟩ := succeeds_quarantine view hseries hs
  have hnoSeries := hgone hreliable hmoves
  obtain ⟨s₂, hread, hworks₂, htexts₂⟩ := access_read view hspan hworks₁
  unfold discard
  rw [bind_of_ok hmove, bind_of_ok hread]
  cases hrecord : view.texts s₁ key.spanName with
  | none => exact ⟨s₂, rfl, hworks₂, by rw [htexts₂, hnoSeries], by rw [htexts₂, hrecord]⟩
  | some record =>
    obtain ⟨moved', s', hmove', hworks', hgone', htexts'⟩ :=
      succeeds_quarantine view hspan hworks₂
    simp only [Option.isSome_some, if_true]
    rw [bind_of_ok hmove']
    refine ⟨s', rfl, hworks', ?_, hgone' hreliable hmoves⟩
    rcases htexts' with h | ⟨-, -, h⟩
    · rw [h, htexts₂, hnoSeries]
    · rw [h _ hseries hne, htexts₂, hnoSeries]

/-- If no text is moved, both stay. -/
theorem discard_of_keeps (hkeeps : view.keeps = true) (hkey : key.Valid) {s : σ}
    (hs : view.Works s) : ∃ s', storage.discard key s = (.ok none, s') ∧ view.Works s'
      ∧ view.texts s' = view.texts s := by
  obtain ⟨s', hrun, hworks, -, hstays, -, -⟩ := quarantine_spec view hkey hs
  exact ⟨s', hrun, hworks, hstays hkeeps⟩

end Storage

/-! ## What is accounted for -/

namespace RollingStore

variable (store : RollingStore σ ω) (view : store.storage.View) {key : SeriesKey}

/-- Without a series that can be read, the record alone counts. -/
theorem account_of_read {s : StoreState σ ω} (hkey : key.Valid) {today : Day} {st : σ}
    (hread : store.storage.readSeries key s.storage = (.ok none, st)) (hst : view.Works st)
    {settled : Option Window}
    (hsettled : CheckedSpan.settledOf? ((view.texts st).span? key) today = some settled) :
    ∃ st', store.account key today s = (.ok ⟨[], settled⟩, { s with storage := st' })
      ∧ view.Works st' := by
  obtain ⟨st', hspan, hworks, -⟩ := Storage.access_read view (SeriesKey.isFile_spanName hkey) hst
  have hspan' : store.storage.readSpan key st = (.ok ((view.texts st).span? key), st') := by
    unfold Storage.readSpan
    rw [bind_of_ok hspan]
    rfl
  refine ⟨st', ?_, hworks⟩
  unfold account
  rw [bind_of_ok (onStorage_of hread), bind_of_ok (onStorage_of hspan'), hsettled]
  rfl

/-- A rejected text counts as absent, and so does the record next to it. -/
theorem account_of_rejected (hreliable : view.Reliable) (hmoves : view.keeps = false)
    (hkey : key.Valid) (today : Day) {s : StoreState σ ω} (hs : view.Works s.storage)
    {text : String} (htext : view.texts s.storage key.seriesName = some text)
    (h : Series.Rejected text key.exchange) :
    ∃ st, store.account key today s = (.ok ⟨[], none⟩, { s with storage := st })
      ∧ view.Works st := by
  obtain ⟨s₁, hread, hworks₁, -⟩ := Storage.readSeries_of_rejected view hkey hs htext h
  obtain ⟨s₂, hdiscard, hworks₂, -, hnone⟩ :=
    Storage.discard_of_moves view hreliable hmoves hkey hworks₁
  have hsettled : CheckedSpan.settledOf? ((view.texts s₂).span? key) today = some none := by
    rw [Texts.span?_of_none hnone]
    rfl
  exact account_of_read store view hkey (hread.trans hdiscard) hworks₂ hsettled

/-- Where there is neither a series nor a span, the account is empty. -/
theorem account_of_absent (hkey : key.Valid) (today : Day) {s : StoreState σ ω}
    (hs : view.Works s.storage) (hseries : view.texts s.storage key.seriesName = none)
    (hspan : view.texts s.storage key.spanName = none) :
    ∃ st, store.account key today s = (.ok ⟨[], none⟩, { s with storage := st })
      ∧ view.Works st := by
  obtain ⟨s₁, hread, hworks₁, htexts₁⟩ :=
    Storage.access_read view (SeriesKey.isFile_seriesName hkey) hs
  have hnothing : store.storage.readSeries key s.storage = (.ok none, s₁) := by
    unfold Storage.readSeries
    rw [bind_of_ok hread, hseries]
    rfl
  have hsettled : CheckedSpan.settledOf? ((view.texts s₁).span? key) today = some none := by
    rw [htexts₁, Texts.span?_of_none hspan]
    rfl
  exact account_of_read store view hkey hnothing hworks₁ hsettled

/-! ## What is answered -/

/-- A request that is not remembered, with the window it has to be filled in. -/
structure Pending (s : StoreState σ ω) (key : SeriesKey) (requested window : Window) : Prop where
  missed : s.memo.entries[key.memoKey requested s.today]? = none
  window : Window.normalized ⟨requested.first, min requested.last s.today⟩ = some window

/-- A pending window is not backwards. -/
theorem Pending.ordered {s : StoreState σ ω} {key : SeriesKey} {requested window : Window}
    (h : Pending s key requested window) : requested.isEmpty = false := by
  have hinner := Window.inner_of_normalized h.window
  have hmin := Day.min_number requested.last s.today
  have hfirst : requested.first ≤ window.first := hinner.first_le
  have hlast : window.last ≤ min requested.last s.today := hinner.le_last
  have hordered := hinner.ordered
  refine Window.isEmpty_eq_false.2 ?_
  simp only [Day.le_def] at hfirst hlast hordered ⊢
  omega

/-- What the sources are asked for when all of a window is missing. -/
def wholeQuery (key : SeriesKey) (window : Window) : Query := ⟨key.symbol, key.exchange, window⟩

section Nothing

variable {symbol exchange : String} {requested window : Window} {s : StoreState σ ω} {st : σ}

/-- An online load of a key of which nothing is held asks for all of the window. -/
theorem loadFresh_of_nothing (honline : store.offline = false)
    (hpending : Pending s (SeriesKey.of symbol exchange) requested window)
    (haccount : store.account (SeriesKey.of symbol exchange) s.today s
      = (.ok ⟨[], none⟩, { s with storage := st })) :
    store.loadFresh (SeriesKey.of symbol exchange) requested s.today s
      = store.extend (SeriesKey.of symbol exchange) ⟨[], none⟩ window requested s.today
        { s with storage := st } := by
  unfold loadFresh
  rw [bind_of_ok haccount, hpending.window]
  simp only
  rw [if_neg nofun, if_neg (by simp [honline])]

/-- An online store that holds nothing for the key asks for all of the window. -/
theorem answer_of_nothing_online (honline : store.offline = false)
    (hkey : (SeriesKey.of symbol exchange).Valid)
    (hpending : Pending s (SeriesKey.of symbol exchange) requested window)
    (haccount : store.account (SeriesKey.of symbol exchange) s.today s
      = (.ok ⟨[], none⟩, { s with storage := st })) (hst : view.Works st)
    {merged : Merged} {market : Market ω}
    (hfetch : store.engine.fetch? (wholeQuery (.of symbol exchange) window) s.market
      = .ok (merged, market)) : ∃ report s',
    store.answer symbol exchange requested s = (.ok (.fresh report), s')
      ∧ report.fetched = [⟨window, merged⟩]
      ∧ report.rows = Series.clip (Delta.extended ⟨none, [⟨window, merged⟩]⟩ []) requested
      ∧ s'.market = market := by
  have hasked : askFor store.engine (SeriesKey.of symbol exchange)
      ((Coverage.assess none window).missing window) s.market
        = { fetched := [⟨window, merged⟩], endedAt := none, market } :=
    askFor_cons_of_ok hfetch
  obtain ⟨stored, s', hextend, hmarket, -⟩ := extend_spec store view hkey [] none window requested
    s.today (s := { s with storage := st }) hst hasked
  have hload := loadFresh_of_nothing store honline hpending haccount
  rw [answer_of_missed store hkey hpending.ordered hpending.missed,
    bind_of_ok (hload.trans hextend)]
  split
  · exact ⟨_, _, rfl, rfl, rfl, hmarket⟩
  · exact ⟨_, _, rfl, rfl, rfl, hmarket⟩

/-- Where the program ends meanwhile, so does the load. -/
theorem answer_of_nothing_ended (honline : store.offline = false)
    (hkey : (SeriesKey.of symbol exchange).Valid)
    (hpending : Pending s (SeriesKey.of symbol exchange) requested window)
    (haccount : store.account (SeriesKey.of symbol exchange) s.today s
      = (.ok ⟨[], none⟩, { s with storage := st })) {market : Market ω}
    (hfetch : store.engine.fetch? (wholeQuery (.of symbol exchange) window) s.market
      = .error market) :
    store.answer symbol exchange requested s
      = (.error .outsideCalendar, { s with storage := st, market }) := by
  have hasked : askFor store.engine (SeriesKey.of symbol exchange)
      ((Coverage.assess none window).missing window) s.market
        = { fetched := [], endedAt := some window, market } :=
    askFor_cons_of_error hfetch
  have hextend : store.extend (SeriesKey.of symbol exchange) ⟨[], none⟩ window requested s.today
        { s with storage := st }
      = (.error .outsideCalendar, { s with storage := st, market }) :=
    extend_of_ended store hasked requested s.today
  have hload := loadFresh_of_nothing store honline hpending haccount
  rw [answer_of_missed store hkey hpending.ordered hpending.missed,
    bind_of_error (hload.trans hextend)]

/-- An offline one fails and asks nobody. -/
theorem answer_of_nothing_offline (hoffline : store.offline = true)
    (hkey : (SeriesKey.of symbol exchange).Valid)
    (hpending : Pending s (SeriesKey.of symbol exchange) requested window)
    (haccount : store.account (SeriesKey.of symbol exchange) s.today s
      = (.ok ⟨[], none⟩, { s with storage := st })) :
    store.answer symbol exchange requested s
      = (.error (.noCachedData (SeriesKey.of symbol exchange).symbol
          (SeriesKey.of symbol exchange).exchange), { s with storage := st }) := by
  have hload : store.loadFresh (SeriesKey.of symbol exchange) requested s.today s
      = (.error (.noCachedData (SeriesKey.of symbol exchange).symbol
          (SeriesKey.of symbol exchange).exchange), { s with storage := st }) := by
    unfold loadFresh
    rw [bind_of_ok haccount, hpending.window]
    simp only
    rw [if_neg nofun, if_pos hoffline]
    rfl
  rw [answer_of_missed store hkey hpending.ordered hpending.missed, bind_of_error hload]

end Nothing

/-- A load goes as if nothing were stored for its key. -/
structure AsIfAbsent (symbol exchange : String) (requested window : Window) (s : StoreState σ ω) :
    Prop where
  /-- Online, all of the window is asked for, -/
  asks : store.offline = false → ∀ merged market,
    store.engine.fetch? (wholeQuery (.of symbol exchange) window) s.market = .ok (merged, market) →
      ∃ report s', store.answer symbol exchange requested s = (.ok (.fresh report), s')
        ∧ report.fetched = [⟨window, merged⟩]
  /-- and if the program ends meanwhile, so does the load. -/
  ends : store.offline = false → ∀ market,
    store.engine.fetch? (wholeQuery (.of symbol exchange) window) s.market = .error market →
      ∃ s', store.answer symbol exchange requested s = (.error .outsideCalendar, s')
        ∧ s'.market = market
  /-- Offline, the load fails. -/
  refuses : store.offline = true → (store.load symbol exchange requested s).1
    = .error (.noCachedData (SeriesKey.of symbol exchange).symbol
        (SeriesKey.of symbol exchange).exchange)
  /-- The caller gets what a storage without the two files would give, and the sources are left as
  that would leave them. -/
  same : ∀ bare, view.Works bare →
    view.texts bare (SeriesKey.of symbol exchange).seriesName = none →
    view.texts bare (SeriesKey.of symbol exchange).spanName = none →
    (store.load symbol exchange requested s).1
        = (store.load symbol exchange requested { s with storage := bare }).1
      ∧ (store.load symbol exchange requested s).2.market
        = (store.load symbol exchange requested { s with storage := bare }).2.market

variable {store view}

/-- A load that finds an empty account goes as if nothing were stored. -/
theorem asIfAbsent_of_account {symbol exchange : String} {requested window : Window}
    {s : StoreState σ ω} {st : σ} (hkey : (SeriesKey.of symbol exchange).Valid)
    (hpending : Pending s (SeriesKey.of symbol exchange) requested window)
    (haccount : store.account (SeriesKey.of symbol exchange) s.today s
      = (.ok ⟨[], none⟩, { s with storage := st })) (hst : view.Works st) :
    store.AsIfAbsent view symbol exchange requested window s := by
  refine ⟨fun honline merged market hfetch => ?_, fun honline market hfetch => ?_,
    fun hoffline => ?_, fun bare hbare hseries hspan => ?_⟩
  · obtain ⟨report, s', hanswer, hfetched, -, -⟩ :=
      answer_of_nothing_online store view honline hkey hpending haccount hst hfetch
    exact ⟨report, s', hanswer, hfetched⟩
  · exact ⟨_, answer_of_nothing_ended store honline hkey hpending haccount hfetch, rfl⟩
  · rw [load_eq_answer, answer_of_nothing_offline store hoffline hkey hpending haccount]
    rfl
  · have hpending' : Pending { s with storage := bare } (SeriesKey.of symbol exchange) requested
        window := ⟨hpending.missed, hpending.window⟩
    obtain ⟨st', haccount', hst'⟩ := account_of_absent store view hkey s.today
      (s := { s with storage := bare }) hbare hseries hspan
    rw [load_eq_answer, load_eq_answer]
    cases hoffline : store.offline with
    | true =>
      rw [answer_of_nothing_offline store hoffline hkey hpending haccount,
        answer_of_nothing_offline store hoffline hkey hpending' haccount']
      exact ⟨rfl, rfl⟩
    | false =>
      cases hfetch : store.engine.fetch? (wholeQuery (.of symbol exchange) window) s.market with
      | error market =>
        rw [answer_of_nothing_ended store hoffline hkey hpending haccount hfetch,
          answer_of_nothing_ended store hoffline hkey hpending' haccount' hfetch]
        exact ⟨rfl, rfl⟩
      | ok result =>
        obtain ⟨report, s₁, hanswer, -, hrows, hmarket⟩ :=
          answer_of_nothing_online store view hoffline hkey hpending haccount hst hfetch
        obtain ⟨report', s₂, hanswer', -, hrows', hmarket'⟩ :=
          answer_of_nothing_online store view hoffline hkey hpending' haccount' hst' hfetch
        rw [hanswer, hanswer']
        refine ⟨congrArg Except.ok ?_, hmarket.trans hmarket'.symm⟩
        exact hrows.trans hrows'.symm

end RollingStore

/-! ## Storages that move texts -/

/-- What lies under the name of the series is rejected. -/
def Storage.Corrupt (storage : Storage σ) (key : SeriesKey) (s : σ) : Prop :=
  ∃ text, (storage.read key.seriesName s).1 = .ok (some text) ∧ Series.Rejected text key.exchange

/-- A corrupt series has a text that is rejected. -/
theorem Storage.Corrupt.text {storage : Storage σ} (view : storage.View) {key : SeriesKey}
    (hkey : key.Valid) {s : σ} (hs : view.Works s) (h : storage.Corrupt key s) :
    ∃ text, view.texts s key.seriesName = some text ∧ Series.Rejected text key.exchange := by
  obtain ⟨text, hread, hrejected⟩ := h
  obtain ⟨s', hread', -, -⟩ := view.read (SeriesKey.isFile_seriesName hkey) hs
  rw [hread'] at hread
  exact ⟨text, Except.ok.inj hread, hrejected⟩

namespace RollingStore

variable {store : RollingStore σ ω} {view : store.storage.View} {symbol exchange : String}
  {requested window : Window} {s : StoreState σ ω}

/-- A corrupt series is loaded as if it were absent, if it can be moved away. -/
theorem asIfAbsent_of_corrupt (hreliable : view.Reliable) (hmoves : view.keeps = false)
    (hkey : (SeriesKey.of symbol exchange).Valid) (hs : view.Works s.storage)
    (hcorrupt : store.storage.Corrupt (.of symbol exchange) s.storage)
    (hpending : Pending s (.of symbol exchange) requested window) :
    store.AsIfAbsent view symbol exchange requested window s := by
  obtain ⟨text, htext, hrejected⟩ := hcorrupt.text view hkey hs
  obtain ⟨st, haccount, hst⟩ :=
    account_of_rejected store view hreliable hmoves hkey s.today hs htext hrejected
  exact asIfAbsent_of_account hkey hpending haccount hst

/-- Where texts stay in place, a record that accounts for the window still counts: no rows are given
and nobody is asked. -/
theorem answer_of_kept_record (store : RollingStore σ ω) (view : store.storage.View)
    (hkeeps : view.keeps = true)
    (hkey : (SeriesKey.of symbol exchange).Valid) (hs : view.Works s.storage)
    (hcorrupt : store.storage.Corrupt (.of symbol exchange) s.storage)
    (hpending : Pending s (.of symbol exchange) requested window) {record : CheckedSpan}
    (hrecord : (view.texts s.storage).span? (.of symbol exchange) = some record)
    {settled : Option Window} (hsettled : record.settled? s.today = some settled)
    (hfull : Coverage.assess settled window = .full) : ∃ s',
    store.answer symbol exchange requested s = (.ok (.fresh { rows := [] }), s')
      ∧ s'.market = s.market := by
  obtain ⟨text, htext, hrejected⟩ := hcorrupt.text view hkey hs
  obtain ⟨s₁, hread, hworks₁, htexts₁⟩ :=
    Storage.readSeries_of_rejected view hkey hs htext hrejected
  obtain ⟨s₂, hdiscard, hworks₂, htexts₂⟩ :=
    Storage.discard_of_keeps view hkeeps hkey hworks₁
  have hcounts : CheckedSpan.settledOf? ((view.texts s₂).span? (.of symbol exchange)) s.today
      = some settled := by
    rw [htexts₂, htexts₁, hrecord]
    exact hsettled
  obtain ⟨st, haccount, -⟩ :=
    account_of_read store view hkey (hread.trans hdiscard) hworks₂ hcounts
  have hload : store.loadFresh (SeriesKey.of symbol exchange) requested s.today s
      = (.ok { rows := [] }, { s with storage := st }) := by
    unfold loadFresh
    rw [bind_of_ok haccount, hpending.window]
    simp only
    rw [if_pos hfull]
    rfl
  rw [answer_of_missed store hkey hpending.ordered hpending.missed, bind_of_ok hload]
  exact ⟨_, rfl, rfl⟩

end RollingStore

open RollingStore in
/-- In memory, and in a folder in which no folder stands in the way of a file, a series that cannot
be read counts as absent together with the record next to it. -/
theorem corrupt_series_counts_as_absent (engine : Engine ω) (offline : Bool)
    (symbol exchange : String) (hkey : (SeriesKey.of symbol exchange).Valid)
    (requested window : Window) :
    (∀ s : StoreState Memory ω, Storage.memory.Corrupt (.of symbol exchange) s.storage →
      Pending s (.of symbol exchange) requested window →
      (RollingStore.mk .memory engine offline).AsIfAbsent Storage.memoryView symbol exchange
        requested window s)
    ∧ ∀ (root : TreePath) (location : String) (s : StoreState FileTree ω),
      Storage.Usable root s.storage →
      (Storage.localFolder root location).Corrupt (.of symbol exchange) s.storage →
      Pending s (.of symbol exchange) requested window →
      (RollingStore.mk (.localFolder root location) engine offline).AsIfAbsent
        (Storage.localView root location) symbol exchange requested window s := by
  refine ⟨fun s hcorrupt hpending => ?_, fun root location s husable hcorrupt hpending => ?_⟩
  · exact asIfAbsent_of_corrupt Storage.memoryView_reliable rfl hkey trivial hcorrupt hpending
  · exact asIfAbsent_of_corrupt (Storage.localView_reliable root location) rfl hkey husable hcorrupt
      hpending

/-- A text without a table is rejected. -/
theorem Series.rejected_noSeries : Series.Rejected "no series" "L" := ⟨_, rfl, nofun⟩

/-- A record of two days, the second of which is the day of the check. -/
def CheckedSpan.ofTwoDays : CheckedSpan := ⟨⟨19996⟩, ⟨19997⟩, ⟨19997⟩⟩

/-- A store on the second of these days, over some storage. -/
def StoreState.ofTwoDays (storage : σ) : StoreState σ Unit :=
  ⟨storage, ⟨⟨.showing (.ofDay ⟨19997⟩ 0), {}⟩, ()⟩, .empty 8⟩

/-- Two business days that no memo has are pending. -/
theorem pending_ofTwoDays (storage : σ) : RollingStore.Pending (.ofTwoDays storage) (.of "GSK" "L")
    ⟨⟨19996⟩, ⟨19997⟩⟩ ⟨⟨19996⟩, ⟨19997⟩⟩ where
  missed := Std.HashMap.getElem?_empty
  window := by
    have htoday : (StoreState.ofTwoDays storage).today = ⟨19997⟩ := rfl
    rw [htoday]
    decide

/-- A folder with a file that is no series, and the record that goes with it. -/
def FileTree.ofCorruptSeries : FileTree :=
  .folder [("GSK_L.parquet", .file "no series"),
    ("GSK_L.span.json", .file CheckedSpan.ofTwoDays.toJson)]

/-- A tree with only a corrupt series can be used. -/
theorem usable_ofCorruptSeries : Storage.Usable [] FileTree.ofCorruptSeries := by
  refine ⟨_, rfl, ?_⟩
  have hfile : ∀ name es, List.lookup name [("GSK_L.parquet", FileTree.file "no series"),
      ("GSK_L.span.json", .file CheckedSpan.ofTwoDays.toJson)] ≠ some (.folder es) := by
    intro name es h
    simp only [List.lookup_cons, List.lookup_nil] at h
    split at h
    · cases h
    · split at h <;> cases h
  exact ⟨fun _ => hfile _, fun _ => hfile _, fun _ => hfile _⟩

/-- The file and the record are put out of the way, and both days are asked for. -/
theorem corrupt_file_counts_as_absent :
    (Storage.localFolder [] "cache").Corrupt (.of "GSK" "L") FileTree.ofCorruptSeries
      ∧ ∃ report s', (RollingStore.mk (.localFolder [] "cache")
          { sources := { configured := fun _ => true, ask := fun _ _ _ world => (.ok [], world) } }
          false).answer "GSK" "L" ⟨⟨19996⟩, ⟨19997⟩⟩ (.ofTwoDays .ofCorruptSeries)
            = (.ok (.fresh report), s')
        ∧ report.fetched.map Fetched.range = [⟨⟨19996⟩, ⟨19997⟩⟩] := by
  have hcorrupt : (Storage.localFolder [] "cache").Corrupt (.of "GSK" "L")
      FileTree.ofCorruptSeries := ⟨"no series", by decide, Series.rejected_noSeries⟩
  have hfetch := Engine.fetch?_of_answers
    { sources := { configured := fun _ => true, ask := fun _ _ _ world => (.ok [], world) } }
    (RollingStore.wholeQuery (.of "GSK" "L") ⟨⟨19996⟩, ⟨19997⟩⟩)
    (StoreState.ofTwoDays FileTree.ofCorruptSeries).market (fun _ _ _ _ => ⟨[], rfl⟩) rfl (by decide)
  obtain ⟨report, s', hanswer, hfetched⟩ := ((corrupt_series_counts_as_absent
    { sources := { configured := fun _ => true, ask := fun _ _ _ world => (.ok [], world) } }
    false "GSK" "L" rfl ⟨⟨19996⟩, ⟨19997⟩⟩ ⟨⟨19996⟩, ⟨19997⟩⟩).2 [] "cache"
    (.ofTwoDays .ofCorruptSeries) usable_ofCorruptSeries hcorrupt (pending_ofTwoDays _)).asks
    rfl _ _ hfetch
  exact ⟨hcorrupt, report, s', hanswer, by rw [hfetched]; rfl⟩

/-! ## A storage that does not -/

/-- Objects with a text that is no series, and the record that goes with it. -/
def Texts.ofCorruptSeries : Texts :=
  Texts.put (Texts.put (fun _ => none) "objects/GSK_L.parquet" "no series")
    "objects/GSK_L.span.json" CheckedSpan.ofTwoDays.toJson

/-- Whatever the sources are, a corrupt object is served as an empty series, since the record next
to it stays. -/
theorem corrupt_object_is_not_absent :
    (Storage.objects Storage.hosting "objects").Corrupt (.of "GSK" "L") Texts.ofCorruptSeries
      ∧ ∀ engine : Engine Unit, ¬ (RollingStore.mk (.objects Storage.hosting "objects") engine
          false).AsIfAbsent (Storage.objectsView (Storage.hostingServer "objects")) "GSK" "L"
          ⟨⟨19996⟩, ⟨19997⟩⟩ ⟨⟨19996⟩, ⟨19997⟩⟩ (.ofTwoDays Texts.ofCorruptSeries) := by
  have hcorrupt : (Storage.objects Storage.hosting "objects").Corrupt (.of "GSK" "L")
      Texts.ofCorruptSeries := ⟨"no series", by decide, Series.rejected_noSeries⟩
  have hkey : (SeriesKey.of "GSK" "L").Valid := rfl
  refine ⟨hcorrupt, fun engine habsent => ?_⟩
  have hrecord : ((Storage.objectsView (Storage.hostingServer "objects")).texts
      Texts.ofCorruptSeries).span? (.of "GSK" "L") = some CheckedSpan.ofTwoDays :=
    Texts.span?_of_toJson rfl ⟨by decide, by decide, by decide⟩
  have htoday : (StoreState.ofTwoDays Texts.ofCorruptSeries).today = ⟨19997⟩ := rfl
  have hsettled : CheckedSpan.ofTwoDays.settled? (StoreState.ofTwoDays Texts.ofCorruptSeries).today
      = some (some ⟨⟨19996⟩, ⟨19997⟩⟩) := by
    rw [htoday]
    decide
  have hfull : Coverage.assess (some ⟨⟨19996⟩, ⟨19997⟩⟩) ⟨⟨19996⟩, ⟨19997⟩⟩ = .full := by decide
  obtain ⟨s', hserved, -⟩ := RollingStore.answer_of_kept_record
    (.mk (.objects Storage.hosting "objects") engine false)
    (Storage.objectsView (Storage.hostingServer "objects")) rfl hkey trivial hcorrupt
    (pending_ofTwoDays Texts.ofCorruptSeries) hrecord hsettled hfull
  cases hfetch : engine.fetch? (RollingStore.wholeQuery (.of "GSK" "L") ⟨⟨19996⟩, ⟨19997⟩⟩)
      (StoreState.ofTwoDays Texts.ofCorruptSeries).market with
  | error market =>
    obtain ⟨s'', hanswer, -⟩ := habsent.ends rfl market hfetch
    rw [hserved] at hanswer
    cases hanswer
  | ok result =>
    obtain ⟨report, s'', hanswer, hfetched⟩ := habsent.asks rfl result.1 result.2 hfetch
    rw [hserved] at hanswer
    cases hanswer
    cases hfetched

end DailyBars
