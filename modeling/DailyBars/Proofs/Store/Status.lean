import DailyBars.Proofs.Store.ListedNames
import DailyBars.Proofs.Store.SeriesExtension
import DailyBars.Proofs.Store.ValidTables

/-! # What is stored

After any run from an empty storage every text lies in a file of a key that some request had, and
every series can be read. So the status of the storage, which reads the keys back from the names
that are listed, tells of each stored series once and of nothing else.
-/

namespace DailyBars

/-! ## Rows of a series -/

namespace Series

/-- A text does not decode to an empty series. -/
theorem ne_nil_of_decode {text exchange : String} {bars : List Bar}
    (h : decode text exchange = .ok bars) : bars ≠ [] := by
  rw [decode] at h
  split at h
  next t _ =>
    have hdecodes := t.decodes exchange
    have hpos := (hdecodes.accepts.1 ⟨bars, h⟩).rows
    rw [(hdecodes.rows bars h).1]
    simp only [ne_eq, List.map_eq_nil_iff, List.range_eq_nil]
    exact Nat.ne_of_gt hpos
  · cases h

/-- Keeping the first bar of every date does not empty a list. -/
theorem keepFirst_ne_nil {bars : List Bar} (h : bars ≠ []) : keepFirst bars ≠ [] := by
  obtain ⟨b, hb⟩ := List.exists_mem_of_ne_nil bars h
  intro hnil
  have hnone := at?_keepFirst bars b.date
  rw [hnil] at hnone
  exact at?_eq_none.1 hnone.symm b hb rfl

end Series

/-- A text that is there and can be read has rows. -/
theorem Texts.rows_ne_nil {t : Texts} {key : SeriesKey} {text : String}
    (htext : t key.seriesName = some text) (hreadable : t.Readable key) : t.rows key ≠ [] := by
  obtain ⟨bars, hbars⟩ := hreadable text htext
  rw [(Texts.rows_of_ok htext hbars).1]
  exact Series.keepFirst_ne_nil (Series.ne_nil_of_decode hbars)

/-! ## The status of a storage -/

/-- What the texts say of the stored series of a key. -/
def Texts.status (t : Texts) (key : SeriesKey) : SeriesStatus where
  symbol := key.symbol
  exchange := key.exchange
  span := Series.span (t.rows key)
  bars := (t.rows key).length
  bytes := ((t key.seriesName).map String.utf8ByteSize).getD 0

/-- Every text lies in a file of a key of a request, and every series can be read. -/
structure Texts.Orderly (t : Texts) : Prop where
  readable : ∀ key : SeriesKey, key.Valid → t.Readable key
  owned : ∀ n text, t n = some text → ∃ key : SeriesKey, key.Accepted ∧ key.Owns n

namespace Storage

variable {σ : Type} {storage : Storage σ} {view : storage.View} {t : Texts}

/-- The status of an accepted key is that of its texts. -/
theorem statusOf_spec (ht : t.Orderly) {key : SeriesKey} (hkey : key.Accepted) {s : σ}
    (hs : view.Works s) (htexts : view.texts s = t) : ∃ s',
    storage.statusOf key.seriesName s = (.ok (some (t.status key)), s')
      ∧ view.Works s' ∧ view.texts s' = t := by
  have hparse := SeriesKey.ofSeriesName?_seriesName hkey.valid
  rw [hkey.of_eq] at hparse
  have hreadable := ht.readable key hkey.valid
  obtain ⟨s₁, hread, hworks₁, htexts₁⟩ :=
    access_read view (SeriesKey.isFile_seriesName hkey.valid) hs
  rw [htexts] at hread htexts₁
  obtain ⟨r, s', hrows, hworks', ⟨-, hunreadable, -⟩ | ⟨⟨found, rfl, hfound⟩, hcleared, -⟩⟩ :=
    readSeries_spec view hkey.valid hworks₁
  · rw [htexts₁] at hunreadable
    exact absurd hreadable hunreadable
  · -- a series that can be read is not put out of the way
    rw [htexts₁] at hcleared
    have htexts' := hcleared.readable hreadable
    refine ⟨s', ?_, hworks', htexts'⟩
    unfold statusOf
    simp only [hparse]
    rw [bind_of_ok hread, bind_of_ok hrows, hfound, htexts']
    rfl

/-- One status after the other, in the order of the names. -/
theorem mapM_statusOf_spec (ht : t.Orderly) {keys : List SeriesKey}
    (hkeys : ∀ key ∈ keys, key.Accepted) {s : σ} (hs : view.Works s) (htexts : view.texts s = t) :
    ∃ s', (keys.map SeriesKey.seriesName).mapM storage.statusOf s
        = (.ok (keys.map fun key => some (t.status key)), s')
      ∧ view.Works s' ∧ view.texts s' = t := by
  induction keys generalizing s with
  | nil => exact ⟨s, rfl, hs, htexts⟩
  | cons key rest ih =>
    obtain ⟨s₁, hfirst, hworks₁, htexts₁⟩ :=
      statusOf_spec ht (hkeys key List.mem_cons_self) hs htexts
    obtain ⟨s', hrest, hworks', htexts'⟩ :=
      ih (fun k hk => hkeys k (List.mem_cons_of_mem key hk)) hworks₁ htexts₁
    refine ⟨s', ?_, hworks', htexts'⟩
    rw [List.map_cons, List.mapM_cons, bind_of_ok hfirst, bind_of_ok hrest]
    rfl

/-- Names of which each is that of the series file of a key of a request come from a list of such
keys. -/
theorem exists_keys {names : List String}
    (h : ∀ n ∈ names, ∃ key : SeriesKey, key.Accepted ∧ key.seriesName = n) :
    ∃ keys : List SeriesKey, keys.map SeriesKey.seriesName = names
      ∧ ∀ key ∈ keys, key.Accepted := by
  induction names with
  | nil => exact ⟨[], rfl, nofun⟩
  | cons n rest ih =>
    obtain ⟨key, hkey, rfl⟩ := h n List.mem_cons_self
    obtain ⟨keys, rfl, hkeys⟩ := ih fun m hm => h m (List.mem_cons_of_mem _ hm)
    exact ⟨key :: keys, rfl, List.forall_mem_cons.2 ⟨hkey, hkeys⟩⟩

/-- The names that are listed are those of the keys that have a series. -/
theorem exists_listed_keys (ht : t.Orderly) {names : List String} (hnodup : names.Nodup)
    (hnames : ∀ n, n ∈ names ↔ SeriesKey.isSeriesName n = true ∧ ∃ text, t n = some text) :
    ∃ keys : List SeriesKey, keys.map SeriesKey.seriesName = names ∧ keys.Nodup
      ∧ ∀ key, key ∈ keys ↔ key.Accepted ∧ ∃ text, t key.seriesName = some text := by
  have howned : ∀ n ∈ names, ∃ key : SeriesKey, key.Accepted ∧ key.seriesName = n := by
    intro n hn
    obtain ⟨hseries, text, htext⟩ := (hnames n).1 hn
    obtain ⟨key, hkey, rfl | rfl⟩ := ht.owned n text htext
    · exact ⟨key, hkey, rfl⟩
    · have hlast := SeriesKey.getLast?_of_isSeriesName hseries
      rw [key.getLast?_spanName] at hlast
      cases hlast
  obtain ⟨keys, rfl, haccepted⟩ := exists_keys howned
  refine ⟨keys, rfl, hnodup.of_map, fun key => ⟨fun hkey => ?_, fun ⟨hkey, htext⟩ => ?_⟩⟩
  · exact ⟨haccepted key hkey, ((hnames _).1 (List.mem_map_of_mem hkey)).2⟩
  · obtain ⟨other, hother, hname⟩ :=
      List.mem_map.1 ((hnames _).2 ⟨key.isSeriesName_seriesName, htext⟩)
    rw [SeriesKey.seriesName_injective hkey.valid (haccepted other hother).valid hname.symm]
    exact hother

/-- The status of a storage that can be listed is that of its stored series. -/
theorem status_spec (hlists : view.Lists) {s : σ} (hs : view.Works s)
    (ht : (view.texts s).Orderly) : ∃ (keys : List SeriesKey) (s' : σ),
    storage.status s = (.ok (keys.map (view.texts s).status), s')
      ∧ view.texts s' = view.texts s ∧ keys.Nodup
      ∧ ∀ key, key ∈ keys ↔ key.Accepted ∧ ∃ text, view.texts s key.seriesName = some text := by
  obtain ⟨names, s₁, hlist, hworks₁, htexts₁, hnodup, hnames⟩ := hlists.list hs
  obtain ⟨keys, rfl, hkeysNodup, hkeys⟩ := exists_listed_keys ht hnodup hnames
  obtain ⟨s', hmap, -, htexts'⟩ :=
    mapM_statusOf_spec ht (fun key hkey => ((hkeys key).1 hkey).1) hworks₁ htexts₁
  refine ⟨keys, s', ?_, htexts', hkeysNodup, hkeys⟩
  unfold status
  rw [bind_of_ok (access_of hlist), bind_of_ok hmap]
  simp only [List.filterMap_map, Function.comp_def, id_eq, List.filterMap_eq_map']
  rfl

end Storage

/-! ## Runs -/

variable {σ ω : Type} {storage : Storage σ} {view : storage.View}

/-- Every text lies in a file of a key of a request, and every series is in order. -/
structure Session.Orderly (view : storage.View) (s : Session σ ω) : Prop extends s.Sound view where
  clean : ∀ key : SeriesKey, key.Valid → s.Clean view key
  owned : ∀ n text, view.texts s.state.storage n = some text →
    ∃ key : SeriesKey, key.Accepted ∧ key.Owns n

namespace Session.Orderly

/-- The texts of an orderly session are orderly. -/
theorem texts {s : Session σ ω} (h : s.Orderly view) : (view.texts s.state.storage).Orderly :=
  ⟨fun key hkey => (h.clean key hkey).readable, h.owned⟩

/-- On an empty storage a session is orderly. -/
theorem of_empty {s : Session σ ω} (hempty : view.Empty s.state.storage)
    (hnow : s.state.market.now.InCalendar) : s.Orderly view where
  works := hempty.works
  inCalendar := hnow
  clean key _ := clean_of_empty hempty hnow key
  owned n text htext := by
    rw [hempty.texts n] at htext
    cases htext

/-- A load only adds texts in the files of its key, which is that of a request. -/
theorem owned_after {e : Entry σ ω} (h : e.before.Orderly view) {n text : String}
    (htext : view.texts (e.after storage).state.storage n = some text) :
    ∃ key : SeriesKey, key.Accepted ∧ key.Owns n := by
  by_cases hkey : e.key.Valid
  · by_cases hn : e.key.Owns n
    · exact ⟨e.key, ⟨hkey, _, _, rfl⟩, hn⟩
    · rw [Entry.texts_of_not_owns (h.clean e.key hkey) hn] at htext
      exact h.owned n text htext
  · rw [Entry.after_of_not_valid h.toSound hkey] at htext
    exact h.owned n text htext

/-- A step keeps a session orderly, -/
theorem step {s : Session σ ω} (h : s.Orderly view) (a : Step ω) :
    (s.step storage a).Orderly view where
  toSound := sound_step h.toSound a
  clean key hkey := clean_step hkey (h.clean key hkey) a
  owned n text htext := by
    cases a with
    | load symbol exchange requested hrequested =>
      exact owned_after (e := ⟨s, symbol, exchange, requested, hrequested⟩) h htext
    | wait => exact h.owned n text htext
    | setClock => exact h.owned n text htext
    | turn => exact h.owned n text htext
    | reopen => exact h.owned n text htext

/-- and so does a run. -/
theorem run {s : Session σ ω} (h : s.Orderly view) (steps : List (Step ω)) :
    (s.run storage steps).Orderly view :=
  (invariant storage h fun _ a _ h => h.step a).1

end Session.Orderly

/-- A status tells of the stored series of a key: its first and last date, its length and the size
of its file. -/
structure SeriesStatus.Describes (view : storage.View) (s : Session σ ω) (key : SeriesKey)
    (x : SeriesStatus) : Prop where
  symbol : x.symbol = key.symbol
  exchange : x.exchange = key.exchange
  rows : ∃ rows first last, s.stored storage key = .ok rows ∧ rows.head? = some first
    ∧ rows.getLast? = some last ∧ x.span = some ⟨first.date, last.date⟩ ∧ x.bars = rows.length
  bytes : ∃ text, view.texts s.state.storage key.seriesName = some text
    ∧ x.bytes = text.utf8ByteSize

/-- The statuses are those of the stored series, one for each of their keys. -/
structure Session.Reported (view : storage.View) (s : Session σ ω) (keys : List SeriesKey)
    (statuses : List SeriesStatus) : Prop where
  once : keys.Nodup
  stored : ∀ key, key ∈ keys
    ↔ key.Accepted ∧ ∃ text, view.texts s.state.storage key.seriesName = some text
  described : List.Forall₂ (SeriesStatus.Describes view s) keys statuses

/-- In an orderly session a status describes its series. -/
theorem Session.Orderly.describes {s : Session σ ω} (h : s.Orderly view) {key : SeriesKey}
    (hkey : key.Valid) {text : String}
    (htext : view.texts s.state.storage key.seriesName = some text) :
    SeriesStatus.Describes view s key ((view.texts s.state.storage).status key) where
  symbol := rfl
  exchange := rfl
  rows := by
    have hreadable := (h.clean key hkey).readable
    obtain ⟨w, hw⟩ := Series.exists_span (Texts.rows_ne_nil htext hreadable)
    obtain ⟨first, last, hfirst, hlast, rfl⟩ := Series.span_eq_some.1 hw
    exact ⟨_, first, last, stored_of_readable h.toSound hkey hreadable, hfirst, hlast, hw, rfl⟩
  bytes := by
    refine ⟨text, htext, ?_⟩
    rw [Texts.status, htext]
    rfl

/-- No name belongs to two keys, and the key of a series file is read back from its name; so after
any run from an empty storage that can be listed, the status tells of every stored series once, and
of nothing else. -/
theorem names_identify_keys (storage : Storage σ) (view : storage.View) (hlists : view.Lists)
    (s : Session σ ω) (hempty : view.Empty s.state.storage) (hnow : s.state.market.now.InCalendar)
    (steps : List (Step ω)) :
    (∀ k : SeriesKey, k.Valid → k.Identified)
      ∧ ∃ keys statuses st', storage.status (s.run storage steps).state.storage
          = (.ok statuses, st')
        ∧ view.texts st' = view.texts (s.run storage steps).state.storage
        ∧ (s.run storage steps).Reported view keys statuses := by
  have horderly : (s.run storage steps).Orderly view :=
    (Session.Orderly.of_empty hempty hnow).run steps
  obtain ⟨keys, st', hstatus, htexts, hnodup, hkeys⟩ :=
    Storage.status_spec hlists horderly.works horderly.texts
  refine ⟨fun k hk => hk.identified, keys, _, st', hstatus, htexts, hnodup, hkeys, ?_⟩
  rw [List.forall₂_map_right_iff, List.forall₂_same]
  intro key hkey
  obtain ⟨haccepted, text, htext⟩ := (hkeys key).1 hkey
  exact horderly.describes haccepted.valid htext

/-- After two loads, in memory and in a folder that is first made. -/
theorem names_identify_keys_after_two_loads :
    (∀ k : SeriesKey, k.Valid → k.Identified)
      ∧ (∃ keys statuses st', Storage.memory.status ((Session.ofOneBar {}).run Storage.memory
            Step.twoLoads).state.storage = (.ok statuses, st')
        ∧ ((Session.ofOneBar {}).run Storage.memory Step.twoLoads).Reported Storage.memoryView keys
          statuses)
      ∧ ∃ keys statuses st', (Storage.localFolder ["cache"] "cache").status
          ((Session.ofOneBar FileTree.empty).run (Storage.localFolder ["cache"] "cache")
            Step.twoLoads).state.storage = (.ok statuses, st')
        ∧ ((Session.ofOneBar FileTree.empty).run (Storage.localFolder ["cache"] "cache")
            Step.twoLoads).Reported (Storage.localFilesView ["cache"] "cache") keys statuses := by
  obtain ⟨hnames, keys, statuses, st, hstatus, -, hreported⟩ := names_identify_keys _ _
    Storage.memoryView_lists (Session.ofOneBar {}) Storage.memoryView_empty (by decide) Step.twoLoads
  obtain ⟨-, keys', statuses', st', hstatus', -, hreported'⟩ := names_identify_keys _ _
    (Storage.localFilesView_lists ["cache"] "cache") (Session.ofOneBar FileTree.empty)
    (Storage.localFilesView_empty ["cache"] "cache" rfl) (by decide) Step.twoLoads
  exact ⟨hnames, ⟨keys, statuses, st, hstatus, hreported⟩, keys', statuses', st', hstatus',
    hreported'⟩

end DailyBars
