import DailyBars.Proofs.Store.AskedRanges
import DailyBars.Proofs.Store.Recall

/-! # Offline stores

An offline store reads and does nothing else: neither its engine nor the way in which its storage
writes makes a difference to it. It serves a request if and only if an online store would serve it
without asking its engine, and then with the same rows; otherwise it fails where the online store
asks. Both end with the program where the recorded span cannot be trimmed.

What an offline store remembers are answers of its own, since a store is offline from the beginning
or never. They were read off texts that it has not changed, so that they would be read again.
-/

namespace DailyBars

variable {σ ω : Type}

/-- The storage with another way of writing. -/
def Storage.writing (storage : Storage σ)
    (write : String → String → σ → Except StorageFault Unit × σ) : Storage σ :=
  { storage with write }

/-! ## What is held of a request -/

/-- The request has no business day up to today, or those that it has lie within the hull of the
rows and of what still counts of the checked span. -/
def Window.HeldBy (requested : Window) (rows : List Bar) (checked : Option CheckedSpan)
    (today : Day) : Prop :=
  (∀ d, requested.contains d = true → d ≤ today → d.isBusinessDay = false)
    ∨ ∃ window held, normalized ⟨requested.first, min requested.last today⟩ = some window
      ∧ hull? (Series.span rows) (checked.bind (·.settled today)) = some held
      ∧ held.first ≤ window.first ∧ window.last ≤ held.last

/-- Nothing is missing of a request that is held, and of no other. -/
theorem Texts.missing_eq_nil {t : Texts} {key : SeriesKey} {requested : Window} {today : Day} :
    t.missing key requested today = []
      ↔ requested.HeldBy (t.held key).rows (t.held key).span today := by
  have hpast : ∀ {d}, (⟨requested.first, min requested.last today⟩ : Window).contains d = true
      ↔ requested.contains d = true ∧ d ≤ today := by
    intro d
    simp only [Window.contains_iff, Day.le_def, Day.min_number]
    omega
  unfold missing Window.wanted
  cases hwindow : Window.normalized ⟨requested.first, min requested.last today⟩ with
  | none =>
    refine iff_of_true rfl (Or.inl fun d hd htoday => ?_)
    exact Window.not_isBusinessDay_of_normalized hwindow (hpast.2 ⟨hd, htoday⟩)
  | some window =>
    simp only
    rw [Coverage.missing_eq_nil, Coverage.assess_eq_full]
    constructor
    · rintro ⟨held, hheld, hfirst, hlast⟩
      exact Or.inr ⟨window, held, hwindow, hheld, hfirst, hlast⟩
    · rintro (hnone | ⟨v, held, hv, hheld, hfirst, hlast⟩)
      · -- but the window begins with a business day
        have hinner := Window.inner_of_normalized hwindow
        have hbegin := hpast.1 (Window.contains_iff.2
          ⟨hinner.first_le, Int.le_trans hinner.ordered hinner.le_last⟩)
        have hweekend := hnone window.first hbegin.1 hbegin.2
        rw [hinner.first] at hweekend
        cases hweekend
      · rw [hwindow, Option.some.injEq] at hv
        subst hv
        exact ⟨held, hheld, hfirst, hlast⟩

/-! ## Stores that read alike -/

namespace RollingStore

variable (storage : Storage σ) (write : String → String → σ → Except StorageFault Unit × σ)
variable (engine engine' : Engine ω) (offline offline' : Bool)
variable {key : SeriesKey} {requested : Window} {today : Day}

/-- What is accounted for is a matter of reading. -/
theorem account_writing : account ⟨storage.writing write, engine, offline⟩ key today
    = account ⟨storage, engine', offline'⟩ key today :=
  rfl

/-- Offline, a load does not come to asking or writing. -/
theorem loadFresh_writing : loadFresh ⟨storage.writing write, engine, true⟩ key requested today
    = loadFresh ⟨storage, engine', true⟩ key requested today := by
  unfold loadFresh
  rw [account_writing storage write engine engine' true true]
  simp only [if_true]

/-- Stores differ in their loads only as they do where nothing is remembered. -/
theorem load_congr {a b : RollingStore σ ω} {symbol exchange : String} {s : StoreState σ ω}
    (h : a.loadFresh (.of symbol exchange) requested s.today s
      = b.loadFresh (.of symbol exchange) requested s.today s) :
    a.load symbol exchange requested s = b.load symbol exchange requested s := by
  have hanswer : a.answer symbol exchange requested s = b.answer symbol exchange requested s := by
    by_cases hempty : requested.isEmpty = true
    · rw [answer_of_isEmpty a _ _ hempty, answer_of_isEmpty b _ _ hempty]
    · have hordered : requested.isEmpty = false := by simpa using hempty
      cases hcheck : (SeriesKey.of symbol exchange).check with
      | error fault =>
        rw [answer_of_invalid a hordered hcheck, answer_of_invalid b hordered hcheck]
      | ok u =>
        cases hhit : s.memo.entries[(SeriesKey.of symbol exchange).memoKey requested s.today]? with
        | some rows =>
          rw [answer_of_remembered a hcheck hordered hhit,
            answer_of_remembered b hcheck hordered hhit]
        | none =>
          rw [answer_of_missed a hcheck hordered hhit, answer_of_missed b hcheck hordered hhit,
            bind_apply, bind_apply, h]
  rw [load_eq_answer, load_eq_answer, hanswer]

section

variable {view : storage.View} {symbol exchange : String} {s : StoreState σ ω}
variable (hkey : (SeriesKey.of symbol exchange).Valid) (hs : view.Works s.storage)
variable (hreadable : (view.texts s.storage).Readable (.of symbol exchange))
include hkey hs hreadable

/-- Where the span cannot be trimmed, stores that read alike load alike, online or offline, -/
theorem load_writing_of_untrimmed
    (htrims : ¬ ((view.texts s.storage).held (.of symbol exchange)).Trims s.today) :
    load ⟨storage.writing write, engine, offline⟩ symbol exchange requested s
      = load ⟨storage, engine', offline'⟩ symbol exchange requested s := by
  obtain ⟨st, haccount, -, -⟩ := account_of_readable ⟨storage, engine', offline'⟩ view hkey s.today
    hs hreadable
  rw [if_neg htrims] at haccount
  have haccount' := haccount
  rw [← account_writing storage write engine engine' offline offline'] at haccount'
  apply load_congr
  exact (bind_of_error haccount').trans (bind_of_error haccount).symm

/-- and where nothing is missing. -/
theorem load_writing_of_held
    (htrims : ((view.texts s.storage).held (.of symbol exchange)).Trims s.today)
    (hmissing : (view.texts s.storage).missing (.of symbol exchange) requested s.today = []) :
    load ⟨storage.writing write, engine, offline⟩ symbol exchange requested s
      = load ⟨storage, engine', offline'⟩ symbol exchange requested s := by
  obtain ⟨st, haccount, -, -⟩ := account_of_trims ⟨storage, engine', offline'⟩ view hkey hs
    hreadable htrims
  have haccount' := haccount
  rw [← account_writing storage write engine engine' offline offline'] at haccount'
  apply load_congr
  rw [loadFresh_of_account _ haccount hmissing, loadFresh_of_account _ haccount' hmissing]

end

end RollingStore

/-! ## Sessions in which every series can be read -/

/-- Every stored series can be read, and what an offline store remembers would be read again. -/
structure Session.Legible {storage : Storage σ} (view : storage.View) (s : Session σ ω) : Prop
    extends s.Sound view where
  readable : ∀ key : SeriesKey, key.Valid → (view.texts s.state.storage).Readable key
  truthful : s.offline = true → s.state.Truthful view

namespace Entry

variable {storage : Storage σ} {view : storage.View} {e : Entry σ ω}

/-- Offline, a legible store answers as its ledger does, -/
theorem refines_of_legible (h : e.before.Legible view) (hoffline : e.before.offline = true) :
    Refines view
      ((e.before.store storage).answer e.symbol e.exchange e.requested e.before.state)
      ((e.before.state.ledger view).load e.before.engine e.before.offline e.symbol e.exchange
        e.requested) := by
  have htruthful := h.truthful hoffline
  refine refines_of_missed htruthful fun hkey hordered hhit => ?_
  have hreadable := h.readable e.key hkey
  by_cases htrims : ((view.texts e.before.state.storage).held e.key).Trims e.today
  case neg => exact refines_of_untrimmed hkey hordered hhit h.works hreadable htruthful htrims
  by_cases hmissing : (view.texts e.before.state.storage).missing e.key e.requested e.today = []
  · exact refines_of_held hkey hordered hhit h.works hreadable htrims htruthful hmissing
  · exact refines_of_offline hkey hordered hhit h.works hreadable htrims htruthful hoffline hmissing

/-- and stays legible. -/
theorem legible_after (h : e.before.Legible view) : (e.after storage).Legible view where
  toSound := e.sound_after view h.toSound
  readable key hkey := by
    have hreadable := h.readable key hkey
    rcases e.effect_of_readable view h.toSound hkey (Or.inr hreadable) with
      ⟨htexts, -⟩ | ⟨-, report, -, hcycle⟩
    · exact Texts.readable_congr (htexts _ (Or.inl rfl)) hreadable
    · exact hcycle.readable_after e.inCalendar hreadable
  truthful hoffline := (refines_of_legible h hoffline).truthful

end Entry

/-- Only when it is built does a store become offline, and then it remembers nothing. -/
theorem Session.legible_step {storage : Storage σ} {view : storage.View} {s : Session σ ω}
    (h : s.Legible view) (a : Step ω) : (s.step storage a).Legible view := by
  have hsound := sound_step h.toSound a
  cases a with
  | load symbol exchange requested hrequested =>
    exact Entry.legible_after (e := ⟨s, symbol, exchange, requested, hrequested⟩) h
  | wait => exact ⟨hsound, h.readable, fun ho => (h.truthful ho).mono rfl fun _ _ hg => hg⟩
  | setClock => exact ⟨hsound, h.readable, fun ho => (h.truthful ho).mono rfl fun _ _ hg => hg⟩
  | turn => exact ⟨hsound, h.readable, fun ho => (h.truthful ho).mono rfl fun _ _ hg => hg⟩
  | reopen => exact ⟨hsound, h.readable, fun _ => .of_empty rfl⟩

/-! ## Loads of an offline store -/

namespace Entry

/-- The load as another store makes it in the same state. -/
def madeBy (e : Entry σ ω) (store : RollingStore σ ω) :
    Except DataError (List Bar) × StoreState σ ω :=
  store.load e.symbol e.exchange e.requested e.before.state

/-- The load leaves the market and all texts as they were, and neither the engine nor the way in
which texts are written makes a difference to it. -/
structure OnlyReads {storage : Storage σ} (view : storage.View) (e : Entry σ ω) : Prop where
  market : (e.madeBy (e.before.store storage)).2.market = e.before.state.market
  texts : view.texts (e.madeBy (e.before.store storage)).2.storage
    = view.texts e.before.state.storage
  alike : ∀ write engine, e.madeBy ⟨storage.writing write, engine, true⟩
    = e.madeBy (e.before.store storage)

/-- A store asks its engine for one range or more before it answers the load, if the program does
not end at one of them. -/
def AskedBy (e : Entry σ ω) (store : RollingStore σ ω) : Prop :=
  ∃ answer after first rest,
    store.answer e.symbol e.exchange e.requested e.before.state = (answer, after)
      ∧ ((∃ report, answer = .ok (.fresh report)
          ∧ RollingStore.askFor store.engine e.key (first :: rest) e.before.state.market
            = { fetched := report.fetched, endedAt := none, market := after.market })
        ∨ answer = .error .outsideCalendar ∧ ∃ fetched range,
          RollingStore.askFor store.engine e.key (first :: rest) e.before.state.market
            = { fetched, endedAt := some range, market := after.market })

variable {storage : Storage σ} {view : storage.View} {e : Entry σ ω}

/-- The store of an offline session is offline. -/
theorem store_of_offline (hoffline : e.before.offline = true) :
    e.before.store storage = ⟨storage, e.before.engine, true⟩ := by
  unfold Session.store
  rw [hoffline]

/-- An offline store only reads. -/
theorem onlyReads_of_legible (h : e.before.Legible view) (hoffline : e.before.offline = true) :
    e.OnlyReads view := by
  have hrefines := refines_of_legible h hoffline
  rw [hoffline] at hrefines
  have hledger : (e.madeBy (e.before.store storage)).2.ledger view = e.before.state.ledger view := by
    rw [madeBy, RollingStore.load_eq_answer]
    exact hrefines.ledger.trans Ledger.snd_load_of_offline
  refine ⟨congrArg Ledger.market hledger, congrArg Ledger.texts hledger, fun write engine => ?_⟩
  rw [store_of_offline hoffline]
  apply RollingStore.load_congr
  rw [RollingStore.loadFresh_writing storage write engine e.before.engine]

/-- The caller of an offline store gets nothing where the span cannot be trimmed, -/
theorem result_of_untrimmed (h : e.before.Legible view) (hoffline : e.before.offline = true)
    (hkey : e.key.Valid) (hordered : e.requested.isEmpty = false)
    (htrims : ¬ ((view.texts e.before.state.storage).held e.key).Trims e.today) :
    e.result storage = .error .outsideCalendar := by
  rw [e.result_eq storage]
  have hresult := (refines_of_legible h hoffline).result
  rw [hoffline, Ledger.load_of_untrimmed hordered hkey htrims] at hresult
  exact hresult

/-- and otherwise the rows or the reason for which there are none. -/
theorem result_of_legible (h : e.before.Legible view) (hoffline : e.before.offline = true)
    (hkey : e.key.Valid) (hordered : e.requested.isEmpty = false)
    (htrims : ((view.texts e.before.state.storage).held e.key).Trims e.today) :
    e.result storage
      = if (view.texts e.before.state.storage).missing e.key e.requested e.today = [] then
          .ok (Series.clip ((view.texts e.before.state.storage).held e.key).rows e.requested)
        else .error (.noCachedData e.key.symbol e.key.exchange) := by
  rw [e.result_eq storage]
  have hresult := (refines_of_legible h hoffline).result
  rw [hoffline, Ledger.load_of_offline hordered hkey htrims] at hresult
  exact hresult

/-- An online store asks for what is missing. -/
theorem askedBy_of_missing (h : e.before.Legible view) (hoffline : e.before.offline = true)
    (hkey : e.key.Valid) (hordered : e.requested.isEmpty = false)
    (htrims : ((view.texts e.before.state.storage).held e.key).Trims e.today)
    (hmissing : (view.texts e.before.state.storage).missing e.key e.requested e.today ≠ [])
    (engine : Engine ω) : e.AskedBy ⟨storage, engine, false⟩ := by
  obtain ⟨first, rest, hranges⟩ := List.exists_cons_of_ne_nil hmissing
  -- a remembered answer would have nothing missing
  have hmissed : e.before.state.memo.entries[e.key.memoKey e.requested e.today]? = none := by
    rw [Option.eq_none_iff_forall_ne_some]
    intro rows hgives
    exact hmissing (h.truthful hoffline e.key hkey e.requested e.today rows hgives).missing
  have hanswer := RollingStore.answer_of_missed ⟨storage, engine, false⟩ hkey hordered hmissed
  rcases RollingStore.loadFresh_of_missing ⟨storage, engine, false⟩ view hkey h.works
      (h.readable e.key hkey) htrims rfl hmissing with
    ⟨st, market, hload, -, fetched, range, hasked⟩ | ⟨report, s', hload, hcycle, -, -⟩
  · have hload' : RollingStore.loadFresh ⟨storage, engine, false⟩ (.of e.symbol e.exchange)
        e.requested e.before.state.today e.before.state
          = (.error .outsideCalendar, { e.before.state with storage := st, market }) := hload
    rw [bind_of_error hload'] at hanswer
    refine ⟨_, _, first, rest, hanswer, Or.inr ⟨rfl, fetched, range, ?_⟩⟩
    rw [← hranges]
    exact hasked
  have hasked : RollingStore.askFor engine e.key (first :: rest) e.before.state.market
      = { fetched := report.fetched, endedAt := none, market := s'.market } := by
    rw [← hranges]
    exact hcycle.asked
  have hload' : RollingStore.loadFresh ⟨storage, engine, false⟩ (.of e.symbol e.exchange)
      e.requested e.before.state.today e.before.state = (.ok report, s') := hload
  rw [bind_of_ok hload'] at hanswer
  by_cases hsettled : report.settled = true
  · rw [if_pos hsettled] at hanswer
    exact ⟨_, _, first, rest, hanswer, Or.inl ⟨report, rfl, hasked⟩⟩
  · rw [if_neg hsettled] at hanswer
    exact ⟨_, s', first, rest, hanswer, Or.inl ⟨report, rfl, hasked⟩⟩

end Entry

/-- **An offline store reads and does nothing else, and agrees with an online one.** Whatever series
and spans are stored, if the series can be read, and whatever loads, waits and rebuilds went before,
a load of an offline store changes no text and asks nobody. A request that is held is answered with
the stored rows of its window, by an online store as well and without a question to its engine. For
any other the offline store fails, and an online store asks its engine. Only where the span is from
the first day of the calendar the program ends instead, and it does so online as well. -/
theorem offline_store_only_reads {storage : Storage σ} (view : storage.View) {s : Session σ ω}
    (hs : s.Sound view)
    (hreadable : ∀ key : SeriesKey, key.Valid → (view.texts s.state.storage).Readable key)
    {capacity : Nat} (hnew : s.state.memo = .empty capacity) (steps : List (Step ω))
    {e : Entry σ ω} (he : e ∈ s.log storage steps) (hoffline : e.before.offline = true)
    (hkey : e.key.Valid) (hordered : e.requested.isEmpty = false) :
    ∃ rows checked, e.before.stored storage e.key = .ok rows
      ∧ e.before.checked storage e.key = .ok checked
      ∧ e.OnlyReads view
      ∧ (CheckedSpan.FromFirstDay checked e.today → e.result storage = .error .outsideCalendar
        ∧ ∀ write engine, e.madeBy ⟨storage.writing write, engine, false⟩
          = e.madeBy (e.before.store storage))
      ∧ (¬ CheckedSpan.FromFirstDay checked e.today →
        (e.requested.HeldBy rows checked e.today →
          e.result storage = .ok (Series.clip rows e.requested)
            ∧ ∀ write engine, e.madeBy ⟨storage.writing write, engine, false⟩
              = e.madeBy (e.before.store storage))
        ∧ (¬ e.requested.HeldBy rows checked e.today →
          e.result storage = .error (.noCachedData e.key.symbol e.key.exchange)
            ∧ ∀ engine, e.AskedBy ⟨storage, engine, false⟩)) := by
  have hlegible : e.before.Legible view :=
    (Session.invariant storage (P := Session.Legible view) ⟨hs, hreadable, fun _ => .of_empty hnew⟩
      fun s a _ h => Session.legible_step h a).2 e he
  have hread := hlegible.readable e.key hkey
  have htrims : ((view.texts e.before.state.storage).held e.key).Trims e.today
      ↔ ¬ CheckedSpan.FromFirstDay ((view.texts e.before.state.storage).span? e.key) e.today :=
    Held.trims_iff _ hlegible.inCalendar
  refine ⟨_, _, Session.stored_of_readable hlegible.toSound hkey hread,
    Session.checked_eq hlegible.toSound hkey, Entry.onlyReads_of_legible hlegible hoffline,
    fun hfirst => ?_, fun hlater => ?_⟩
  · have huntrimmed := fun h => htrims.1 h hfirst
    refine ⟨Entry.result_of_untrimmed hlegible hoffline hkey hordered huntrimmed,
      fun write engine => ?_⟩
    exact RollingStore.load_writing_of_untrimmed storage write engine e.before.engine false
      e.before.offline hkey hlegible.works hread huntrimmed
  replace htrims := htrims.2 hlater
  have hresult := Entry.result_of_legible hlegible hoffline hkey hordered htrims
  refine ⟨?_, ?_⟩
  · intro hheld
    have hmissing := Texts.missing_eq_nil.2 hheld
    rw [if_pos hmissing] at hresult
    refine ⟨hresult, fun write engine => ?_⟩
    exact RollingStore.load_writing_of_held storage write engine e.before.engine false
      e.before.offline hkey hlegible.works hread htrims hmissing
  · intro hnot
    have hmissing := fun hnil => hnot (Texts.missing_eq_nil.1 hnil)
    rw [if_neg hmissing] at hresult
    exact ⟨hresult, Entry.askedBy_of_missing hlegible hoffline hkey hordered htrims hmissing⟩

/-- After the two loads the store is built again, offline and without a source that has the bar. -/
def Step.goneOffline : List (Step Unit) :=
  Step.twoLoads ++ [.reopen ((Listing.ofBars []).engine "yahoo") true 8 {}]

/-- Then the week is asked for. -/
def Entry.offlineAgain : Entry Memory Unit :=
  ⟨(Session.ofOneBar {}).run Storage.memory Step.goneOffline, "AAPL", "NYSE",
    ⟨⟨19996⟩, ⟨20000⟩⟩, Window.week_inCalendar⟩

/-- What two loads of an online store left in memory is all that the offline store has. -/
theorem offline_store_only_reads_after_two_loads :
    ∃ rows checked, Entry.offlineAgain.before.stored Storage.memory ⟨"AAPL", "NYSE"⟩ = .ok rows
      ∧ Entry.offlineAgain.before.checked Storage.memory ⟨"AAPL", "NYSE"⟩ = .ok checked
      ∧ Entry.offlineAgain.OnlyReads Storage.memoryView
      ∧ (Entry.offlineAgain.requested.HeldBy rows checked Entry.offlineAgain.today →
          Entry.offlineAgain.result Storage.memory
              = .ok (Series.clip rows Entry.offlineAgain.requested)
            ∧ ∀ write engine, Entry.offlineAgain.madeBy ⟨Storage.memory.writing write, engine, false⟩
              = Entry.offlineAgain.madeBy (Entry.offlineAgain.before.store Storage.memory))
      ∧ (¬ Entry.offlineAgain.requested.HeldBy rows checked Entry.offlineAgain.today →
          Entry.offlineAgain.result Storage.memory = .error (.noCachedData "AAPL" "NYSE")
            ∧ ∀ engine, Entry.offlineAgain.AskedBy ⟨Storage.memory, engine, false⟩) := by
  have hkey : Entry.offlineAgain.key.Valid := rfl
  have hpast : Entry.offlineAgain.before.PastFirstDay Storage.memoryView Entry.offlineAgain.key :=
    Session.pastFirstDay_ofOneBar Storage.memoryView_empty hkey
      (by simp [Step.goneOffline, Step.twoLoads, Step.Forward])
  obtain ⟨rows, checked, hrows, hchecked, hreads, -, hserves⟩ :=
    offline_store_only_reads Storage.memoryView (s := Session.ofOneBar {}) ⟨trivial, by decide⟩
      (fun _ _ => Texts.readable_of_none (Storage.memoryView_empty.texts _)) rfl
      (Step.goneOffline ++ [.load "AAPL" "NYSE" ⟨⟨19996⟩, ⟨20000⟩⟩ Window.week_inCalendar])
      (e := Entry.offlineAgain)
      (by
        rw [Session.log_append]
        exact List.mem_append_right _ List.mem_cons_self)
      rfl rfl rfl
  obtain ⟨hheld, hnot⟩ := hserves fun hfirst =>
    Entry.not_fromFirstDay hkey hpast ⟨checked, hchecked, hfirst⟩
  exact ⟨rows, checked, hrows, hchecked, hreads, hheld, hnot⟩

/-- A store was asked for the first day of the calendar on that day. A day later an offline store
over the same storage neither serves a load nor refuses it: the program ends. -/
theorem first_day_ends_offline_load :
    (∃ s : Session Memory Unit, Storage.memoryView.Empty s.state.storage
        ∧ ∃ steps, (∀ a ∈ steps, a.Forward)
          ∧ s.run Storage.memory steps = (Entry.secondDay true).before)
      ∧ (Entry.secondDay true).before.offline = true
      ∧ (Entry.secondDay true).key.Valid
      ∧ (Entry.secondDay true).requested.isEmpty = false
      ∧ (Entry.secondDay true).result Storage.memory = .error .outsideCalendar
      ∧ (∀ rows, (Entry.secondDay true).result Storage.memory ≠ .ok rows)
      ∧ (Entry.secondDay true).result Storage.memory
        ≠ .error (.noCachedData (Entry.secondDay true).key.symbol (Entry.secondDay true).key.exchange)
      := by
  have hresult := Entry.result_secondDay true
  refine ⟨⟨Entry.firstDay.before, Storage.memoryView_empty,
    [.load "AAPL" "NYSE" ⟨Day.earliest, Day.earliest⟩ (by decide),
      .reopen ((Listing.ofBars []).engine "yahoo") true 8 {}, .wait (.ofDays 1)],
    by simp [Step.Forward], rfl⟩, rfl, Entry.valid_firstDay, rfl, hresult, ?_, ?_⟩
  · intro rows hrows
    rw [hresult] at hrows
    cases hrows
  · intro hrefused
    rw [hresult] at hrefused
    cases hrefused

end DailyBars
