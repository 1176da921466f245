import DailyBars.Proofs.Store.Ledger
import DailyBars.Proofs.Store.ListedBars
import DailyBars.Proofs.Store.LoadSteps

/-! # What one load asks for

The ranges that a load asks for fill up what is covered to the hull of it and the business days of
the request, with at most one range on each side: `Window.Completes`. That none of them lies beyond
today needs that nothing is covered beyond today, which every load keeps if the clock goes forward:
`Session.Past`. Where the program ends, the ranges that are left are not asked for any more.
-/

namespace DailyBars

variable {σ ω : Type}

/-! ## Ranges that complete a window -/

/-- Ranges that fill up what is covered to the hull of it and a window. -/
structure Window.Completes (covered : Option Window) (window : Window) (ranges : List Window) :
    Prop where
  whole : covered = none → ranges = [window]
  nothing : ∀ c, covered = some c → c.first ≤ window.first → window.last ≤ c.last → ranges = []
  one_or_two : ∀ c, covered = some c → ¬ (c.first ≤ window.first ∧ window.last ≤ c.last) →
    ranges.length = 1 ∨ ranges.length = 2
  nonempty : ∀ r ∈ ranges, r.isEmpty = false
  business : ∀ r ∈ ranges, ∃ d, r.contains d = true ∧ d.isBusinessDay = true
  ascending : ranges.Pairwise fun r v => r.last < v.first
  apart : ranges.Pairwise fun r v => ∀ d, r.contains d = true → v.contains d = false
  outside : ∀ r ∈ ranges, ∀ d, r.contains d = true → ¬ Covers covered d
  hull : ∀ d, Covers covered d ∨ (∃ r ∈ ranges, r.contains d = true)
    ↔ Covers (hull? covered (some window)) d

namespace Coverage

/-- Unless all of the window is covered, something is missing on one side or on both. -/
theorem length_missing {v w : Window} (h : ¬ (v.first ≤ w.first ∧ w.last ≤ v.last)) :
    ((assess (some v) w).missing w).length = 1 ∨ ((assess (some v) w).missing w).length = 2 := by
  have hside : w.first < v.first ∨ v.last < w.last := by
    simp only [Day.le_def, Day.lt_def] at h ⊢
    omega
  simp only [assess_def, if_neg h, missing, List.length_append]
  by_cases hbefore : w.first < v.first
  · rw [if_pos hbefore]
    split
    · exact Or.inr rfl
    · exact Or.inl rfl
  · rw [if_neg hbefore, if_pos (hside.resolve_left hbefore)]
    exact Or.inl rfl

/-- The covered window and what is missing make up the hull. -/
theorem covers_hull?_iff {c : Option Window} {w : Window} (hc : Window.Ordered c)
    (hw : w.first ≤ w.last) {d : Day} :
    Window.Covers c d ∨ (∃ r ∈ (assess c w).missing w, r.contains d = true)
      ↔ Window.Covers (Window.hull? c (some w)) d := by
  have hmissing := missing_assess hc hw
  have hself : Window.Ordered (some w) := by
    intro v hv
    cases hv
    exact hw
  constructor
  · rintro (hd | ⟨r, hr, hd⟩)
    · exact Window.covers_hull?_left (some w) hd
    · -- on each side the range ends at the window or at what is covered
      obtain ⟨hfirst, hlast⟩ := Window.contains_iff.1 hd
      have hends : Window.Covers (some w) w.first ∧ Window.Covers (some w) w.last :=
        ⟨Window.covers_some.2 ⟨Int.le_refl _, hw⟩, Window.covers_some.2 ⟨hw, Int.le_refl _⟩⟩
      refine (Window.covers_hull? hc hself).2 ⟨?_, ?_⟩
      · rcases hmissing.first_le r hr with h | ⟨x, hx, hxr⟩
        · exact ⟨w.first, Or.inr hends.1, Int.le_trans h hfirst⟩
        · exact ⟨x, Or.inl hx, Int.le_trans hxr hfirst⟩
      · rcases hmissing.le_last r hr with h | ⟨x, hx, hrx⟩
        · exact ⟨w.last, Or.inr hends.2, Int.le_trans hlast h⟩
        · exact ⟨x, Or.inl hx, Int.le_trans hlast hrx⟩
  · intro hd
    cases c with
    | none => exact Or.inr ⟨w, List.mem_singleton_self w, Window.covers_some_iff.1 hd⟩
    | some v =>
      rcases covers_or_missing hd with h | ⟨r, hr, h⟩
      · exact Or.inl h
      · exact Or.inr ⟨r, hr, Window.covers_some_iff.1 h⟩

/-- What is missing of a window that begins and ends with a business day completes it. -/
theorem completes_missing {c : Option Window} {w : Window} (hc : Window.Ordered c)
    (hw : w.first ≤ w.last) (hfirst : w.first.isBusinessDay = true)
    (hlast : w.last.isBusinessDay = true) : w.Completes c ((assess c w).missing w) := by
  have hmissing := missing_assess hc hw
  refine {
    whole := ?_, nothing := ?_, one_or_two := ?_, business := ?_, ascending := ?_, apart := ?_,
    nonempty := fun r hr => Window.isEmpty_eq_false.2 (hmissing.ordered r hr)
    outside := fun r hr d hd => hmissing.outside r hr d (Window.covers_some_iff.2 hd)
    hull := fun d => covers_hull?_iff hc hw }
  · rintro rfl
    rfl
  · rintro v rfl hv hv'
    rw [assess_eq_full.2 ⟨v, rfl, hv, hv'⟩]
    rfl
  · rintro v rfl h
    exact length_missing h
  · intro r hr
    have hordered := hmissing.ordered r hr
    rcases hmissing.shares r hr with h | h
    · exact ⟨r.first, Window.contains_iff.2 ⟨Int.le_refl _, hordered⟩, h ▸ hfirst⟩
    · exact ⟨r.last, Window.contains_iff.2 ⟨hordered, Int.le_refl _⟩, h ▸ hlast⟩
  · cases c with
    | none => exact List.pairwise_singleton _ _
    | some v => exact pairwise_missing (hc v rfl) w
  · refine hmissing.apart.imp fun h d hd => ?_
    rw [← Bool.not_eq_true, ← Window.covers_some_iff]
    exact h d (Window.covers_some_iff.2 hd)

end Coverage

/-! ## What a load passes to its engine -/

namespace Entry

/-- The window between the first and the last business day of the request up to the day of the
load. -/
def window? (e : Entry σ ω) : Option Window :=
  Window.normalized ⟨e.requested.first, min e.requested.last e.today⟩

/-- Where nothing is remembered the load passes these ranges to its engine, one after the other and
nothing else, up to the one at which the program ends. If the program does not end, the load reports
what came of them. -/
def Asks (storage : Storage σ) (e : Entry σ ω) (ranges : List Window) : Prop :=
  ∃ asked, asked = RollingStore.askFor e.before.engine e.key ranges e.before.state.market
    ∧ ∃ result after, (e.before.store storage).loadFresh e.key e.requested e.today e.before.state
        = (result, after)
      ∧ after.market = asked.market
      ∧ (asked.endedAt = none ∧ (∃ report, result = .ok report ∧ report.fetched = asked.fetched)
        ∨ asked.endedAt ≠ none ∧ result = .error .outsideCalendar)

/-- Where nothing is remembered the load fails for want of cached data, and its engine is not
asked. -/
def Refuses (storage : Storage σ) (e : Entry σ ω) : Prop :=
  ∃ after, (e.before.store storage).loadFresh e.key e.requested e.today e.before.state
      = (.error (.noCachedData e.key.symbol e.key.exchange), after)
    ∧ after.market = e.before.state.market

variable {storage : Storage σ} {view : storage.View} {e : Entry σ ω}

/-- The account of a load is that of its key on its day. -/
theorem account_eq_ok {account : Account} : e.account storage = .ok account ↔
    ∃ s', (e.before.store storage).account e.key e.today e.before.state = (.ok account, s') := by
  constructor
  · intro h
    exact ⟨_, Prod.ext h rfl⟩
  · rintro ⟨s', h⟩
    unfold Entry.account
    rw [h]

/-- The wanted ranges are those missing from the window of the load. -/
theorem wanted_of_window {window : Window} (hwindow : e.window? = some window)
    (covered : Option Window) : Window.wanted covered e.requested e.today
      = (Coverage.assess covered window).missing window := by
  unfold window? at hwindow
  rw [Window.wanted, hwindow]

/-- An offline load asks for nothing, and fails unless all of the window is covered. -/
theorem refuses_of_account (hoffline : e.before.offline = true) {account : Account}
    (haccount : e.account storage = .ok account) {window : Window}
    (hwindow : e.window? = some window) :
    (Coverage.assess account.covered window = .full → e.Asks storage [])
      ∧ (Coverage.assess account.covered window ≠ .full → e.Refuses storage) := by
  obtain ⟨s', hread⟩ := account_eq_ok.1 haccount
  have hmarket := (RollingStore.ordered_of_account (e.before.store storage) hread).2
  constructor
  · intro hfull
    have hnothing : Window.wanted account.covered e.requested e.today = [] := by
      rw [wanted_of_window hwindow, hfull]
      rfl
    exact ⟨_, rfl, _, s', RollingStore.loadFresh_of_account _ hread hnothing, hmarket,
      Or.inl ⟨rfl, _, rfl, rfl⟩⟩
  · intro hmissing
    exact ⟨s', RollingStore.loadFresh_refuses _ hoffline hread hwindow hmissing, hmarket⟩

/-- An online load asks for what its account leaves missing. -/
theorem asks_of_account (honline : e.before.offline = false) {account : Account}
    (haccount : e.account storage = .ok account) :
    e.Asks storage (Window.wanted account.covered e.requested e.today) := by
  obtain ⟨s', hread⟩ := account_eq_ok.1 haccount
  obtain ⟨result, after, hload, ⟨report, rfl, hasked⟩ | ⟨rfl, fetched, range, hasked⟩⟩ :=
    RollingStore.loadFresh_asks (e.before.store storage) honline hread e.requested
  · exact ⟨_, hasked.symm, _, after, hload, rfl, Or.inl ⟨rfl, report, rfl, rfl⟩⟩
  · exact ⟨_, hasked.symm, _, after, hload, rfl, Or.inr ⟨nofun, rfl⟩⟩

/-- What an online load asks for completes what it finds covered, whatever is stored. -/
theorem completes_of_account (honline : e.before.offline = false) {account : Account}
    (haccount : e.account storage = .ok account) {window : Window}
    (hwindow : e.window? = some window) : ∃ ranges, e.Asks storage ranges
      ∧ window.Completes account.covered ranges := by
  obtain ⟨s', hread⟩ := account_eq_ok.1 haccount
  have hordered := (RollingStore.ordered_of_account (e.before.store storage) hread).1
  have hinner := Window.inner_of_normalized hwindow
  refine ⟨_, asks_of_account honline haccount, ?_⟩
  rw [wanted_of_window hwindow]
  exact Coverage.completes_missing hordered hinner.ordered hinner.first hinner.last

end Entry

/-- The series of the key can be read, and nothing that counts lies beyond today. -/
structure Session.Past {storage : Storage σ} (view : storage.View) (key : SeriesKey)
    (s : Session σ ω) : Prop extends s.Clean view key where
  past : ((view.texts s.state.storage).held key).Past s.state.today

section

variable {storage : Storage σ} {view : storage.View} {key : SeriesKey}

/-- On an empty storage nothing is past, -/
theorem Session.past_of_empty {s : Session σ ω} (hempty : view.Empty s.state.storage)
    (hnow : s.state.market.now.InCalendar) (key : SeriesKey) : s.Past view key where
  toClean := clean_of_empty hempty hnow key
  past := by
    intro d hd
    rw [Texts.covered_of_none (hempty.texts _) (hempty.texts _)] at hd
    exact absurd hd (Window.not_covers_none d)

/-- No load asks for days beyond today, so that none of them is covered afterwards. -/
theorem Entry.past_after {e : Entry σ ω} (hkey : key.Valid) (h : e.before.Past view key) :
    (e.after storage).Past view key where
  toClean := clean_after hkey h.toClean
  past := by
    have hlater := e.today_le_after view h.toSound
    rcases effect_of_clean hkey h.toClean with ⟨htexts, -⟩ | ⟨-, report, -, hcycle⟩
    · rw [Texts.held_congr htexts]
      exact h.past.mono hlater
    · have hgrown := hcycle.grown e.inCalendar h.inCalendar
      have hranges : ∀ f ∈ report.fetched, ∀ x, f.range.contains x = true → x ≤ e.today :=
        fun f hf x hx => hcycle.le_today_of_fetched h.past hf hx
      intro x hx
      exact Int.le_trans (hgrown.le_today h.past hranges hlater hx) hlater

/-- and a forward step keeps it so. -/
theorem Session.past_step {s : Session σ ω} (hkey : key.Valid) (h : s.Past view key) {a : Step ω}
    (ha : a.Forward) : (s.step storage a).Past view key := by
  have hquiet : (s.step storage a).state.storage = s.state.storage →
      (s.step storage a).Past view key := by
    intro hstorage
    refine ⟨clean_step hkey h.toClean a, ?_⟩
    rw [hstorage]
    exact h.past.mono (today_le_step h.toSound ha)
  cases a with
  | load symbol exchange requested hrequested =>
    exact Entry.past_after (e := ⟨s, symbol, exchange, requested, hrequested⟩) hkey h
  | wait => exact hquiet rfl
  | setClock => exact absurd ha id
  | turn => exact hquiet rfl
  | reopen => exact hquiet rfl

end

/-- **What one load asks for.** Whatever rows and whatever span an online load finds, it passes to
its engine the ranges that complete what they cover to the hull of it and the business days of the
request; an offline load passes none, and fails where one is missing. In every state that loads reach
from an empty storage while the clock goes forward, no range ends after today, and no date step of
the load leaves the calendar but at its very ends. -/
theorem load_asks_for_gaps (storage : Storage σ) :
    (∀ e : Entry σ ω, ∀ account, e.account storage = .ok account →
        ∀ window, e.window? = some window →
          (e.before.offline = false → ∃ ranges, e.Asks storage ranges
            ∧ window.Completes account.covered ranges)
          ∧ (e.before.offline = true →
            (Coverage.assess account.covered window = .full → e.Asks storage [])
            ∧ (Coverage.assess account.covered window ≠ .full → e.Refuses storage)))
      ∧ ∀ (view : storage.View) (s : Session σ ω), view.Empty s.state.storage →
        s.state.market.now.InCalendar → ∀ steps, (∀ a ∈ steps, a.Forward) →
          ∀ e ∈ s.log storage steps, e.before.offline = false → e.key.Valid →
            ∃ rows checked, e.before.stored storage e.key = .ok rows
              ∧ e.before.checked storage e.key = .ok checked
              ∧ DateSteps rows checked e.requested e.today
              ∧ (CheckedSpan.FromFirstDay checked e.today →
                e.account storage = .error .outsideCalendar)
              ∧ (¬ CheckedSpan.FromFirstDay checked e.today → ∃ account ranges,
                account
                    = ⟨rows, Window.hull? (Series.span rows) (checked.bind (·.settled e.today))⟩
                  ∧ e.account storage = .ok account
                  ∧ e.Asks storage ranges
                  ∧ (e.window? = none → ranges = [])
                  ∧ ∀ r ∈ ranges, r.last ≤ e.today) := by
  refine ⟨fun e account haccount window hwindow =>
    ⟨fun honline => Entry.completes_of_account honline haccount hwindow,
      fun hoffline => Entry.refuses_of_account hoffline haccount hwindow⟩, ?_⟩
  intro view s hempty hnow steps hforward e he honline hkey
  have hpast : e.before.Past view e.key :=
    (Session.invariant storage (Session.past_of_empty hempty hnow e.key) fun s a ha h =>
      Session.past_step hkey h (hforward a ha)).2 e he
  have htrims : ((view.texts e.before.state.storage).held e.key).Trims e.today
      ↔ ¬ CheckedSpan.FromFirstDay ((view.texts e.before.state.storage).span? e.key) e.today :=
    Held.trims_iff _ hpast.inCalendar
  have haccount := Entry.account_of_clean hkey hpast.toClean
  have hordered := ((view.texts e.before.state.storage).held e.key).ordered_covered e.today
  refine ⟨_, _, Session.stored_of_readable hpast.toSound hkey hpast.readable,
    Session.checked_eq hpast.toSound hkey,
    ((view.texts e.before.state.storage).held e.key).dateSteps e.inCalendar hpast.inCalendar,
    fun hfirst => ?_, fun hlater => ?_⟩
  · rw [haccount, if_neg fun h => htrims.1 h hfirst]
  rw [if_pos (htrims.2 hlater)] at haccount
  refine ⟨_, _, rfl, haccount, Entry.asks_of_account honline haccount, ?_, ?_⟩
  · intro hnone
    unfold Entry.window? at hnone
    rw [Window.wanted, hnone]
  · intro r hr
    refine Window.le_today_of_wanted hordered hpast.past hr (Window.contains_iff.2
      ⟨(Window.gaps_wanted hordered e.requested e.today).ordered r hr, Int.le_refl _⟩)

/-- A first load, online and offline, and a third one. -/
theorem load_asks_for_gaps_in_memory :
    (∃ ranges, (Entry.firstWeek false).Asks Storage.memory ranges
        ∧ Window.Completes none ⟨⟨19996⟩, ⟨19997⟩⟩ ranges)
      ∧ (Entry.firstWeek true).Refuses Storage.memory
      ∧ ∃ rows checked,
        (Entry.third Storage.memory {}).before.stored Storage.memory ⟨"AAPL", "NYSE"⟩ = .ok rows
          ∧ (Entry.third Storage.memory {}).before.checked Storage.memory ⟨"AAPL", "NYSE"⟩
            = .ok checked
          ∧ DateSteps rows checked (Entry.third Storage.memory {}).requested
            (Entry.third Storage.memory {}).today
          ∧ ∃ account ranges, account = ⟨rows, Window.hull? (Series.span rows)
              (checked.bind (·.settled (Entry.third Storage.memory {}).today))⟩
            ∧ (Entry.third Storage.memory {}).account Storage.memory = .ok account
            ∧ (Entry.third Storage.memory {}).Asks Storage.memory ranges
            ∧ ((Entry.third Storage.memory {}).window? = none → ranges = [])
            ∧ ∀ r ∈ ranges, r.last ≤ (Entry.third Storage.memory {}).today := by
  have honline := ((load_asks_for_gaps Storage.memory).1 (Entry.firstWeek false) ⟨[], none⟩ rfl
    ⟨⟨19996⟩, ⟨19997⟩⟩ rfl).1 rfl
  have hoffline := ((load_asks_for_gaps Storage.memory).1 (Entry.firstWeek true) ⟨[], none⟩ rfl
    ⟨⟨19996⟩, ⟨19997⟩⟩ rfl).2 rfl
  refine ⟨honline, hoffline.2 (by decide), ?_⟩
  have hkey : (Entry.third Storage.memory {}).key.Valid := rfl
  have hpast : (Entry.third Storage.memory {}).before.PastFirstDay Storage.memoryView
      (Entry.third Storage.memory {}).key :=
    Session.pastFirstDay_ofOneBar Storage.memoryView_empty hkey
      (by simp [Step.twoLoads, Step.Forward])
  have hlater := Entry.not_fromFirstDay hkey hpast
  obtain ⟨rows, checked, hrows, hchecked, hsteps, -, hasks⟩ :=
    (load_asks_for_gaps Storage.memory).2 Storage.memoryView (Session.ofOneBar {})
      Storage.memoryView_empty (by decide)
      (Step.twoLoads ++ [.load "AAPL" "NYSE" ⟨⟨19996⟩, ⟨20000⟩⟩ (by decide)])
      (by simp [Step.twoLoads, Step.Forward]) (Entry.third Storage.memory {})
      (by
        rw [Session.log_append]
        exact List.mem_append_right _ List.mem_cons_self) rfl rfl
  exact ⟨rows, checked, hrows, hchecked, hsteps, hasks fun h => hlater ⟨checked, hchecked, h⟩⟩

/-! ## At the ends of the calendar -/

/-- A store is built on the first day of the calendar, over a source without bars, and asked for
that day. -/
def Entry.firstDay : Entry Memory Unit :=
  ⟨.opened ((Listing.ofBars []).engine "yahoo") {} () (.ofDay Day.earliest 0) 8, "AAPL", "NYSE",
    ⟨Day.earliest, Day.earliest⟩, by decide⟩

/-- It is built again, online or offline, and a day later it is asked for the same. -/
def Entry.secondDay (offline : Bool) : Entry Memory Unit :=
  ⟨((firstDay.after Storage.memory).step Storage.memory
      (.reopen ((Listing.ofBars []).engine "yahoo") offline 8 {})).step Storage.memory
        (.wait (.ofDays 1)),
    "AAPL", "NYSE", ⟨Day.earliest, Day.earliest⟩, by decide⟩

/-- A load of a readable key that comes upon a span from the first day ends with the program. -/
theorem Entry.answer_of_fromFirstDay {storage : Storage σ} {view : storage.View} {e : Entry σ ω}
    (hkey : e.key.Valid) (hordered : e.requested.isEmpty = false)
    (hmissed : e.before.state.memo.entries[e.key.memoKey e.requested e.today]? = none)
    (hclean : e.before.Clean view e.key) (hfirst : e.FromFirstDay storage) :
    e.answer storage = .error .outsideCalendar := by
  have htrims := (fromFirstDay_iff hkey hclean.toSound).1 hfirst
  obtain ⟨st, hload, -⟩ : ∃ st, (e.before.store storage).loadFresh e.key e.requested e.today
      e.before.state = (.error .outsideCalendar, { e.before.state with storage := st }) ∧ _ :=
    RollingStore.loadFresh_of_untrimmed _ view hkey hclean.works hclean.readable htrims
  have hanswer := RollingStore.answer_of_missed (e.before.store storage) hkey hordered hmissed
  exact congrArg Prod.fst (hanswer.trans (bind_of_error hload))

/-- The key that is asked for is valid. -/
theorem Entry.valid_firstDay : firstDay.key.Valid := rfl

/-- The load on the first day starts from a clean key. -/
theorem Entry.clean_firstDay : firstDay.before.Clean Storage.memoryView firstDay.key :=
  Session.clean_of_empty Storage.memoryView_empty (by decide) _

/-- The first load recorded a span that was checked on the first day. -/
theorem Entry.span_firstDay : ∃ w,
    ((Storage.memoryView.texts (firstDay.after Storage.memory).state.storage).held
      firstDay.key).span = some (.of w Day.earliest) := by
  have hforgotten : firstDay.before.state.Forgotten firstDay.key :=
    fun _ _ hgives => absurd hgives Memo.gives_empty
  have hwanted : Window.wanted (((Storage.memoryView.texts firstDay.before.state.storage).held
      firstDay.key).covered firstDay.today) firstDay.requested firstDay.today
        = [⟨Day.earliest, Day.earliest⟩] := by
    have hcovered : ((Storage.memoryView.texts firstDay.before.state.storage).held
        firstDay.key).covered firstDay.today = none :=
      Texts.covered_of_none (Storage.memoryView_empty.texts _) (Storage.memoryView_empty.texts _) _
    rw [hcovered]
    decide
  -- the source answers, so the program does not end
  have hfetch : firstDay.before.engine.fetch? ⟨"AAPL", "NYSE", ⟨Day.earliest, Day.earliest⟩⟩
      firstDay.before.state.market = .ok _ :=
    Engine.fetch?_of_answers _ _ _ (fun _ _ _ _ => ⟨_, rfl⟩) rfl (by decide)
  have htrims : ((Storage.memoryView.texts firstDay.before.state.storage).held
      firstDay.key).Trims firstDay.today :=
    Texts.trims_of_none (Storage.memoryView_empty.texts _) _
  rcases fresh_of_forgotten valid_firstDay clean_firstDay htrims hforgotten rfl rfl with
    ⟨report, -, hcycle⟩ | ⟨-, fetched, range, hended⟩
  swap
  · rw [hwanted] at hended
    exact absurd (congrArg Asked.endedAt
      ((RollingStore.askFor_cons_of_ok hfetch).symm.trans hended)) nofun
  have hfetched : report.fetched ≠ [] := by
    intro hnone
    have hranges := hcycle.map_range
    rw [hnone, hwanted] at hranges
    cases hranges
  exact hcycle.span_of_serves firstDay.inCalendar clean_firstDay.inCalendar
    Storage.memoryView_reliable (Listing.serves_engine (Listing.ofBars []) "yahoo" "AAPL" "NYSE")
    (Limiter.free_empty "yahoo") hfetched

/-- The load on the second day starts from a clean key, too. -/
theorem Entry.clean_secondDay (offline : Bool) :
    (secondDay offline).before.Clean Storage.memoryView (secondDay offline).key :=
  Session.clean_step valid_firstDay
    (Session.clean_step valid_firstDay (clean_after valid_firstDay clean_firstDay)
      (.reopen ((Listing.ofBars []).engine "yahoo") offline 8 {})) (.wait (.ofDays 1))

/-- By the second load the first day is over. -/
theorem Entry.earliest_lt_secondDay (offline : Bool) : Day.earliest < (secondDay offline).today := by
  have hafter := firstDay.sound_after Storage.memoryView clean_firstDay.toSound
  have hwait : (firstDay.after Storage.memory).state.today ≤ (secondDay offline).today :=
    Session.today_le_step hafter (a := .wait (.ofDays 1)) trivial
  have hstart : Day.earliest ≤ (firstDay.after Storage.memory).state.today :=
    firstDay.today_le_after Storage.memoryView clean_firstDay.toSound
  rcases Clock.day_lt_day_advance _ hafter.inCalendar with hlater | hend
  · exact Int.lt_of_le_of_lt hstart hlater
  · have hlast : (firstDay.after Storage.memory).state.today = Day.latest := hend
    rw [hlast] at hwait
    exact Int.lt_of_lt_of_le (by decide : Day.earliest.number < Day.latest.number) hwait

/-- What the first load recorded is from the first day of the calendar. -/
theorem Entry.fromFirstDay_secondDay (offline : Bool) :
    (secondDay offline).FromFirstDay Storage.memory := by
  obtain ⟨w, hw⟩ := span_firstDay
  have hstorage : (secondDay offline).before.state.storage
      = (firstDay.after Storage.memory).state.storage := rfl
  have hspan : ((Storage.memoryView.texts (secondDay offline).before.state.storage).held
      (secondDay offline).key).span = some (.of w Day.earliest) := by
    rw [hstorage]
    exact hw
  exact fromFirstDay_of_held valid_firstDay (clean_secondDay offline).toSound hspan
    (earliest_lt_secondDay offline)

/-- There the program ends, online and offline. -/
theorem Entry.result_secondDay (offline : Bool) :
    (secondDay offline).result Storage.memory = .error .outsideCalendar := by
  have hkey : (secondDay offline).key.Valid := valid_firstDay
  have hordered : (secondDay offline).requested.isEmpty = false := by
    show Window.isEmpty ⟨Day.earliest, Day.earliest⟩ = false
    decide
  have hmissed : (secondDay offline).before.state.memo.entries[(secondDay offline).key.memoKey
      (secondDay offline).requested (secondDay offline).today]? = none :=
    Std.HashMap.getElem?_empty
  rw [result_eq, answer_of_fromFirstDay hkey hordered hmissed (clean_secondDay offline)
    (fromFirstDay_secondDay offline)]
  rfl

/-- At its ends the calendar is left: where a span that was checked on the first day is trimmed, and
where the business days of a range that ends on the last day are counted. There the program ends. -/
theorem date_steps_leave_calendar :
    (∃ span, (Entry.secondDay false).before.checked Storage.memory (Entry.secondDay false).key
          = .ok (some span)
        ∧ span.settled? (Entry.secondDay false).today = none)
      ∧ (Entry.secondDay false).result Storage.memory = .error .outsideCalendar
      ∧ Storage.memoryView.Empty Entry.lastDay.before.state.storage
      ∧ Entry.lastDay.passed Storage.memory = [⟨Day.latest, Day.latest⟩]
      ∧ Window.businessDayCount? ⟨Day.latest, Day.latest⟩ = none
      ∧ Entry.lastDay.result Storage.memory = .error .outsideCalendar := by
  refine ⟨Entry.settled?_of_fromFirstDay Entry.valid_firstDay
    (Entry.clean_secondDay false).toSound (Entry.fromFirstDay_secondDay false),
    Entry.result_secondDay false, Storage.memoryView_empty, Entry.ended_lastDay.2,
    Day.businessDayCount?_latest (by decide), ?_⟩
  rw [Entry.result_eq, Entry.ended_lastDay.1]
  rfl

end DailyBars
