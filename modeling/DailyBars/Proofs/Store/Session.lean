import DailyBars.Proofs.Merge.Listing
import DailyBars.Proofs.Store.Growth

/-! # Runs of a store

Between loads time passes, the world outside changes, the clock may be set, and the store may be
built again over the same storage. A run is a list of such steps, and its log has an entry for
every load, with the state in which it began.
-/

namespace DailyBars

/-- A store over some storage: the engine it asks, whether it is offline, and its state. -/
structure Session (σ ω : Type) where
  engine : Engine ω
  offline : Bool
  state : StoreState σ ω

/-- What can happen to a store. -/
inductive Step (ω : Type) where
  /-- The rows of an instrument are asked for. -/
  | load (symbol exchange : String) (requested : Window) (hrequested : requested.InCalendar)
  /-- Time passes. -/
  | wait (d : Duration)
  /-- The clock is set, to an earlier or a later time. -/
  | setClock (now : Instant) (hnow : now.InCalendar)
  /-- The world outside changes. -/
  | turn (outside : ω)
  /-- The store is built again over the same storage. -/
  | reopen (engine : Engine ω) (offline : Bool) (capacity : Nat) (limiter : Limiter)

/-- A load and the session in which it begins. -/
structure Entry (σ ω : Type) where
  before : Session σ ω
  symbol : String
  exchange : String
  requested : Window
  inCalendar : requested.InCalendar

/-- The step does not set the clock, so time moves forward only. -/
def Step.Forward {ω : Type} : Step ω → Prop
  | setClock _ _ => False
  | _ => True

variable {σ ω : Type}

/-- A store as it is first built, with a clock that shows some time. -/
def Session.opened (engine : Engine ω) (storage : σ) (outside : ω) (now : Instant)
    (capacity : Nat) : Session σ ω :=
  ⟨engine, false, ⟨storage, ⟨⟨.showing now, {}⟩, outside⟩, .empty capacity⟩⟩

/-- The store of a session. -/
def Session.store (storage : Storage σ) (s : Session σ ω) : RollingStore σ ω :=
  ⟨storage, s.engine, s.offline⟩

namespace Entry

/-- The key that is loaded. -/
def key (e : Entry σ ω) : SeriesKey := SeriesKey.of e.symbol e.exchange

/-- The day on which the load begins. -/
def today (e : Entry σ ω) : Day := e.before.state.today

variable (storage : Storage σ)

/-- How the load is answered. -/
def answer (e : Entry σ ω) : Except DataError Answer :=
  ((e.before.store storage).answer e.symbol e.exchange e.requested e.before.state).1

/-- What the caller gets. -/
def result (e : Entry σ ω) : Except DataError (List Bar) :=
  ((e.before.store storage).load e.symbol e.exchange e.requested e.before.state).1

/-- The session after the load. -/
def after (e : Entry σ ω) : Session σ ω :=
  { e.before with
    state := ((e.before.store storage).answer e.symbol e.exchange e.requested e.before.state).2 }

/-- What the load reads of its key, as it counts on its day. -/
def account (e : Entry σ ω) : Except DataError Account :=
  ((e.before.store storage).account e.key e.today e.before.state).1

/-- What the load asks of its engine. A load that the program does not outlive has nothing to report:
it asks for what its account leaves missing, up to the range at which the program ends. -/
def asked (e : Entry σ ω) : Asked ω :=
  match e.answer storage, e.account storage with
  | .ok (.fresh report), _ => ⟨report.fetched, none, (e.after storage).state.market⟩
  | .error .outsideCalendar, .ok account =>
    RollingStore.askFor e.before.engine e.key
      (Window.wanted account.covered e.requested e.today) e.before.state.market
  | _, _ => ⟨[], none, e.before.state.market⟩

/-- The ranges that the load fetches, and what comes of them. -/
def fetched (e : Entry σ ω) : List Fetched := (e.asked storage).fetched

/-- The ranges that the load passes to the engine: those that it fetches, and the one at which the
program ends, if it does. -/
def passed (e : Entry σ ω) : List Window := (e.asked storage).passed

/-- The load has an answer of its own, so the program has outlived it. -/
def Reports (e : Entry σ ω) : Prop := ∃ report, e.answer storage = .ok (.fresh report)

end Entry

namespace Session

variable (storage : Storage σ)

/-- The load that a step is, if it is one. -/
def entry? (s : Session σ ω) : Step ω → Option (Entry σ ω)
  | .load symbol exchange requested h => some ⟨s, symbol, exchange, requested, h⟩
  | _ => none

/-- The session after a step. -/
def step (s : Session σ ω) : Step ω → Session σ ω
  | .load symbol exchange requested h => (Entry.mk s symbol exchange requested h).after storage
  | .wait d =>
    { s with
      state.market := s.state.market.withPace fun p => { p with clock := p.clock.advance d } }
  | .setClock now _ =>
    { s with
      state.market := s.state.market.withPace fun p => { p with clock := { p.clock with now } } }
  | .turn outside => { s with state.market := { s.state.market with outside } }
  | .reopen engine offline capacity limiter =>
    { engine, offline
      state := ⟨s.state.storage, s.state.market.withPace fun p => { p with limiter },
        Memo.empty capacity⟩ }

/-- The session after a run. -/
def run (s : Session σ ω) (steps : List (Step ω)) : Session σ ω := steps.foldl (step storage) s

/-- The loads of a run in their order. -/
def log (s : Session σ ω) : List (Step ω) → List (Entry σ ω)
  | [] => []
  | a :: rest => (s.entry? a).toList ++ log (s.step storage a) rest

/-- The rows of the stored series of a key, as they are read. -/
def stored (s : Session σ ω) (key : SeriesKey) : Except DataError (List Bar) :=
  (storage.readSeries key s.state.storage).1.map (·.getD [])

/-- The recorded span of a key, as it is read. -/
def checked (s : Session σ ω) (key : SeriesKey) : Except DataError (Option CheckedSpan) :=
  (storage.readSpan key s.state.storage).1

/-- A step that leaves an entry goes from the session before the entry to the one after it. -/
theorem step_eq_after {s : Session σ ω} {a : Step ω} {e : Entry σ ω} (h : s.entry? a = some e) :
    e.before = s ∧ s.step storage a = e.after storage := by
  cases a with
  | load symbol exchange requested hrequested =>
    cases h
    exact ⟨rfl, rfl⟩
  | wait => cases h
  | setClock => cases h
  | turn => cases h
  | reopen => cases h

/-- What a log holds is the entry of its first step and what the later steps leave. -/
theorem mem_log_cons {s : Session σ ω} {a : Step ω} {rest : List (Step ω)} {e : Entry σ ω} :
    e ∈ s.log storage (a :: rest)
      ↔ s.entry? a = some e ∨ e ∈ (s.step storage a).log storage rest := by
  rw [log, List.mem_append, Option.mem_toList]

/-- What holds at first and is kept by every step holds whenever a load begins, and at the end. -/
theorem invariant {P : Session σ ω → Prop} {steps : List (Step ω)} {s : Session σ ω} (hs : P s)
    (hstep : ∀ s, ∀ a ∈ steps, P s → P (s.step storage a)) :
    P (s.run storage steps) ∧ ∀ e ∈ s.log storage steps, P e.before := by
  induction steps generalizing s with
  | nil => exact ⟨hs, fun e he => absurd he List.not_mem_nil⟩
  | cons a rest ih =>
    obtain ⟨hend, hlog⟩ := ih (hstep s a (by simp) hs) fun s a ha => hstep s a (by simp [ha])
    refine ⟨hend, fun e he => ?_⟩
    rcases (mem_log_cons storage).1 he with he | he
    · rw [(step_eq_after storage he).1]
      exact hs
    · exact hlog e he

/-- The log of two runs in a row is the log of the first, then that of the second from where the
first ended. -/
theorem log_append (steps later : List (Step ω)) (s : Session σ ω) :
    s.log storage (steps ++ later)
      = s.log storage steps ++ (s.run storage steps).log storage later := by
  induction steps generalizing s with
  | nil => rfl
  | cons a rest ih =>
    rw [List.cons_append, log, log, ih, List.append_assoc]
    rfl

/-- An entry of the log is a load of the run. -/
theorem exists_step_of_mem_log {steps : List (Step ω)} {s : Session σ ω} {e : Entry σ ω}
    (he : e ∈ s.log storage steps) : ∃ a ∈ steps, e.before.entry? a = some e := by
  induction steps generalizing s with
  | nil => cases he
  | cons a rest ih =>
    rcases (mem_log_cons storage).1 he with he | he
    · refine ⟨a, List.mem_cons_self, ?_⟩
      rw [(step_eq_after storage he).1]
      exact he
    · obtain ⟨b, hb, hentry⟩ := ih he
      exact ⟨b, List.mem_cons_of_mem a hb, hentry⟩

end Session

/-! ## A store of one bar -/

/-- A store that is built on a Tuesday, with a source that has one bar, of the day before. -/
def Session.ofOneBar (storage : σ) : Session σ Unit :=
  opened ((Listing.ofBars [.flat ⟨19996⟩ 10 100 "AAPL" "NYSE" "yahoo"]).engine "yahoo") storage ()
    (.ofDay ⟨19997⟩ 0) 8

/-- The two days are asked for, and two days later the four days up to then. -/
def Step.twoLoads : List (Step Unit) :=
  [.load "AAPL" "NYSE" ⟨⟨19996⟩, ⟨19997⟩⟩ (by decide), .wait (.ofDays 2),
    .load "AAPL" "NYSE" ⟨⟨19996⟩, ⟨19999⟩⟩ (by decide)]

/-- The week of Monday 2024-09-30 lies in the calendar. -/
theorem Window.week_inCalendar : (⟨⟨19996⟩, ⟨20000⟩⟩ : Window).InCalendar := by decide

/-- The week is the first thing that is asked for, of an online or an offline store. -/
def Entry.firstWeek (offline : Bool) : Entry Memory Unit :=
  ⟨{ Session.ofOneBar {} with offline }, "AAPL", "NYSE", ⟨⟨19996⟩, ⟨20000⟩⟩, Window.week_inCalendar⟩

/-- Then all of the week is asked for. -/
def Entry.third (storage : Storage σ) (s : σ) : Entry σ Unit :=
  ⟨(Session.ofOneBar s).run storage Step.twoLoads, "AAPL", "NYSE", ⟨⟨19996⟩, ⟨20000⟩⟩, by decide⟩

/-- A store is built on the last day of the calendar, over a source without bars, and asked for that
day. -/
def Entry.lastDay : Entry Memory Unit :=
  ⟨.opened ((Listing.ofBars []).engine "yahoo") {} () (.ofDay Day.latest 0) 8, "AAPL", "NYSE",
    ⟨Day.latest, Day.latest⟩, by decide⟩

/-! ## Time and storage -/

/-- The storage works, and the clock shows a time of the calendar. -/
structure Session.Sound {storage : Storage σ} (view : storage.View) (s : Session σ ω) : Prop where
  works : view.Works s.state.storage
  inCalendar : s.state.market.now.InCalendar

namespace Entry

variable {storage : Storage σ} (view : storage.View) (e : Entry σ ω)

/-- The entry of a sound session is a load. -/
theorem loaded (hs : e.before.Sound view) :
    Loaded (e.before.store storage) view e.key e.requested e.before.state (e.answer storage)
      (e.after storage).state :=
  RollingStore.loaded_answer (e.before.store storage) view e.symbol e.exchange e.requested hs.works

/-- Time does not go back over a load, and the storage keeps working. -/
theorem before_after (hs : e.before.Sound view) :
    e.before.state.market.Before (e.after storage).state.market
      ∧ view.Works (e.after storage).state.storage := by
  have hloaded := e.loaded view hs
  generalize e.answer storage = r at hloaded
  generalize (e.after storage).state = s' at hloaded ⊢
  cases hloaded with
  | nothing => exact ⟨Market.Before.refl _, hs.works⟩
  | invalid => exact ⟨Market.Before.refl _, hs.works⟩
  | remembered rows s' hkey hgives hstorage hmarket hmemo =>
    rw [hstorage, hmarket]
    exact ⟨Market.Before.refl _, hs.works⟩
  | refused err s' hkey hrefused =>
    exact ⟨hrefused.before, hrefused.works⟩
  | fresh t report s' hkey hrequested hcycle =>
    refine ⟨?_, hcycle.works⟩
    have hbefore := RollingStore.before_askFor e.before.engine e.key
      (Window.wanted ((t.held e.key).covered e.before.state.today) e.requested e.before.state.today)
      e.before.state.market
    have hasked := hcycle.asked
    unfold Session.store at hasked
    rw [hasked] at hbefore
    exact hbefore

/-- The day of a load is not after the day on which it ends. -/
theorem today_le_after (hs : e.before.Sound view) : e.today ≤ (e.after storage).state.today :=
  Instant.day_le_day (e.before_after view hs).1.now_le

/-- A load leaves a sound session. -/
theorem sound_after (hs : e.before.Sound view) : (e.after storage).Sound view := by
  obtain ⟨hbefore, hworks⟩ := e.before_after view hs
  exact ⟨hworks, hbefore.inCalendar hs.inCalendar⟩

/-- What the caller gets are the rows of the answer. -/
theorem result_eq (storage : Storage σ) :
    e.result storage = (e.answer storage).map Answer.rows := by
  unfold result answer
  rw [RollingStore.load_eq_answer]

/-- A load with an answer of its own asked for what it reports. -/
theorem asked_of_fresh {report : Report} (h : e.answer storage = .ok (.fresh report)) :
    e.asked storage = ⟨report.fetched, none, (e.after storage).state.market⟩ := by
  unfold asked
  rw [h]

/-- Of a load that answers with a fresh report, the fetched ranges are those of the report, -/
theorem fetched_of_fresh {report : Report} (h : e.answer storage = .ok (.fresh report)) :
    e.fetched storage = report.fetched := by
  rw [fetched, asked_of_fresh e h]

/-- and so are the ranges it passed to the engine. -/
theorem passed_of_fresh {report : Report} (h : e.answer storage = .ok (.fresh report)) :
    e.passed storage = report.fetched.map Fetched.range := by
  rw [passed, asked_of_fresh e h, Asked.passed, Option.toList_none, List.append_nil]

/-- What a load fetches it has passed to the engine. -/
theorem range_mem_passed {f : Fetched} (hf : f ∈ e.fetched storage) : f.range ∈ e.passed storage :=
  List.mem_append_left _ (List.mem_map_of_mem hf)

/-- A load leaves the files of a key alone, or clears them, or goes through a cycle. -/
theorem effect (hs : e.before.Sound view) {k : SeriesKey} (hk : k.Valid) :
    (∀ n, k.Owns n → view.texts (e.after storage).state.storage n
          = view.texts e.before.state.storage n)
        ∧ (e.key = k → ∀ report, e.answer storage ≠ .ok (.fresh report))
      ∨ e.key = k ∧ (∀ report, e.answer storage ≠ .ok (.fresh report))
        ∧ Cleared view k (view.texts e.before.state.storage)
          (view.texts (e.after storage).state.storage)
      ∨ e.key = k ∧ ∃ t report, e.answer storage = .ok (.fresh report)
        ∧ Cycle (e.before.store storage) view k e.requested e.today t e.before.state
          (e.after storage).state report := by
  have hloaded := e.loaded view hs
  generalize e.answer storage = r at hloaded ⊢
  generalize (e.after storage).state = s' at hloaded ⊢
  -- the files of two keys have no name in common
  have hother : e.key.Valid → e.key ≠ k → ∀ n, k.Owns n → ¬ e.key.Owns n :=
    fun hkey hne n hn hen => hne (SeriesKey.eq_of_owns hkey hk hen hn)
  cases hloaded with
  | nothing => exact Or.inl ⟨fun _ _ => rfl, fun _ _ => nofun⟩
  | invalid => exact Or.inl ⟨fun _ _ => rfl, fun _ _ => nofun⟩
  | remembered rows s' hkey hgives hstorage hmarket hmemo =>
    exact Or.inl ⟨fun n _ => by rw [hstorage], fun _ _ => nofun⟩
  | refused err s' hkey hrefused =>
    by_cases hke : e.key = k
    · subst hke
      exact Or.inr (Or.inl ⟨rfl, fun _ => nofun, hrefused.cleared⟩)
    · exact Or.inl ⟨fun n hn => hrefused.cleared.others n ⟨k, hk, hn⟩ (hother hkey hke n hn),
        fun h => absurd h hke⟩
  | fresh t report s' hkey hrequested hcycle =>
    by_cases hke : e.key = k
    · subst hke
      exact Or.inr (Or.inr ⟨rfl, t, report, rfl, hcycle⟩)
    · exact Or.inl ⟨fun n hn => hcycle.others ⟨k, hk, hn⟩ (hother hkey hke n hn),
        fun h => absurd h hke⟩

/-- A load with an answer of its own went through a cycle of a well-formed key. -/
theorem exists_cycle (hs : e.before.Sound view) {report : Report}
    (hanswer : e.answer storage = .ok (.fresh report)) :
    e.key.Valid ∧ ∃ t, Cycle (e.before.store storage) view e.key e.requested e.today t
      e.before.state (e.after storage).state report := by
  have hloaded := e.loaded view hs
  rw [hanswer] at hloaded
  generalize (e.after storage).state = s' at hloaded ⊢
  cases hloaded with
  | fresh t _ _ hkey hrequested hcycle => exact ⟨hkey, t, hcycle⟩

/-- Whatever comes of a load, what it passes to the engine is missing of what it finds. -/
theorem exists_wanted (hs : e.before.Sound view) {r : Window} (hr : r ∈ e.passed storage) :
    e.key.Valid ∧ ∃ t, Cleared view e.key (view.texts e.before.state.storage) t
      ∧ r ∈ Window.wanted ((t.held e.key).covered e.today) e.requested e.today := by
  have hloaded := e.loaded view hs
  unfold passed asked at hr
  split at hr
  next _ _ report hanswer =>
    obtain ⟨hkey, t, hcycle⟩ := e.exists_cycle view hs hanswer
    rw [Asked.passed, Option.toList_none, List.append_nil, hcycle.map_range] at hr
    exact ⟨hkey, t, hcycle.cleared, hr⟩
  -- the program ended after the account was read
  next _ _ account hanswer haccount =>
    rw [hanswer] at hloaded
    generalize (e.after storage).state = s' at hloaded
    cases hloaded with
    | refused _ _ hkey _ =>
      obtain ⟨r, st, hread, -, hcases⟩ :=
        RollingStore.account_spec (e.before.store storage) view hkey e.today hs.works
      unfold Entry.account at haccount
      rw [hread] at haccount
      rcases hcases with ⟨rfl, -, -⟩ | ⟨hcleared, -, rfl⟩
      · cases haccount
      · split at haccount
        · cases haccount
          exact ⟨hkey, _, hcleared, (RollingStore.passed_askFor _ _ _ _).1.subset hr⟩
        · cases haccount
  next => cases hr

/-- What is passed to the engine is not covered. -/
theorem not_covers_of_passed (hs : e.before.Sound view) {r : Window} (hr : r ∈ e.passed storage)
    {d : Day} (hd : r.contains d = true) :
    ∃ t, Cleared view e.key (view.texts e.before.state.storage) t
      ∧ ¬ Window.Covers ((t.held e.key).covered e.today) d := by
  obtain ⟨-, t, hcleared, hwanted⟩ := e.exists_wanted view hs hr
  have hgaps := Window.gaps_wanted ((t.held e.key).ordered_covered e.today) e.requested e.today
  exact ⟨t, hcleared, hgaps.outside r hwanted d (Window.covers_some_iff.2 hd)⟩

/-- If what the files say of the key can be read, or nothing is ever put out of the way, a load
leaves them alone or goes through a cycle. -/
theorem effect_of_readable (hs : e.before.Sound view) {k : SeriesKey} (hk : k.Valid)
    (hreadable : view.keeps = true ∨ (view.texts e.before.state.storage).Readable k) :
    (∀ n, k.Owns n → view.texts (e.after storage).state.storage n
          = view.texts e.before.state.storage n)
        ∧ (e.key = k → ∀ report, e.answer storage ≠ .ok (.fresh report))
      ∨ e.key = k ∧ ∃ report, e.answer storage = .ok (.fresh report)
        ∧ Cycle (e.before.store storage) view k e.requested e.today
          (view.texts e.before.state.storage) e.before.state (e.after storage).state report := by
  have hsame : ∀ {t}, Cleared view k (view.texts e.before.state.storage) t →
      t = view.texts e.before.state.storage := by
    intro t hcleared
    rcases hreadable with hkeeps | hreadable
    · exact hcleared.keeps hkeeps
    · exact hcleared.readable hreadable
  rcases e.effect view hs hk with
    halone | ⟨hkey, hfetched, hcleared⟩ | ⟨hkey, t, report, hanswer, hcycle⟩
  · exact Or.inl halone
  · exact Or.inl ⟨fun n _ => by rw [hsame hcleared], fun _ => hfetched⟩
  · have ht := hsame hcycle.cleared
    subst ht
    exact Or.inr ⟨hkey, report, hanswer, hcycle⟩

end Entry

namespace Session

variable {storage : Storage σ} {view : storage.View}

/-- A step leaves a sound session, -/
theorem sound_step {s : Session σ ω} (hs : s.Sound view) (a : Step ω) :
    (s.step storage a).Sound view := by
  cases a with
  | load symbol exchange requested h =>
    exact Entry.sound_after view ⟨s, symbol, exchange, requested, h⟩ hs
  | wait d =>
    have hbefore : s.state.market.Before (s.step storage (.wait d)).state.market :=
      Market.before_of_advance rfl
    exact ⟨hs.works, hbefore.inCalendar hs.inCalendar⟩
  | setClock now hnow => exact ⟨hs.works, hnow⟩
  | turn outside => exact ⟨hs.works, hs.inCalendar⟩
  | reopen engine offline capacity limiter => exact ⟨hs.works, hs.inCalendar⟩

/-- hence so does a run, -/
theorem sound_run {s : Session σ ω} (hs : s.Sound view) (steps : List (Step ω)) :
    (s.run storage steps).Sound view :=
  (invariant storage hs fun _ a _ h => sound_step h a).1

/-- and every load of a run starts from a sound session. -/
theorem sound_of_mem_log {s : Session σ ω} (hs : s.Sound view) {steps : List (Step ω)}
    {e : Entry σ ω} (he : e ∈ s.log storage steps) : e.before.Sound view :=
  (invariant storage hs fun _ a _ h => sound_step h a).2 e he

/-- Unless the clock is set, no step goes back to an earlier day. -/
theorem today_le_step {s : Session σ ω} (hs : s.Sound view) {a : Step ω} (ha : a.Forward) :
    s.state.today ≤ (s.step storage a).state.today := by
  have hbefore : s.state.market.Before (s.step storage a).state.market := by
    cases a with
    | load symbol exchange requested h =>
      exact (Entry.before_after view ⟨s, symbol, exchange, requested, h⟩ hs).1
    | wait d => exact Market.before_of_advance rfl
    | setClock now hnow => exact absurd ha id
    | turn outside => exact Market.before_of_now_eq rfl
    | reopen engine offline capacity limiter => exact Market.before_of_now_eq rfl
  exact Instant.day_le_day hbefore.now_le

/-- Only loads touch the storage. -/
theorem storage_step (storage : Storage σ) {s : Session σ ω} {a : Step ω} (ha : s.entry? a = none) :
    (s.step storage a).state.storage = s.state.storage := by
  cases a with
  | load symbol exchange requested h => cases ha
  | wait d => rfl
  | setClock now hnow => rfl
  | turn outside => rfl
  | reopen engine offline capacity limiter => rfl

/-! ## What is read -/

/-- Of a readable key, the stored rows can be read, and are those the texts hold. -/
theorem stored_of_readable {s : Session σ ω} (hs : s.Sound view) {key : SeriesKey}
    (hkey : key.Valid) (hreadable : (view.texts s.state.storage).Readable key) :
    s.stored storage key = .ok ((view.texts s.state.storage).rows key) := by
  obtain ⟨r, st, hread, -, hcases⟩ := Storage.readSeries_spec view hkey hs.works
  unfold stored
  rw [hread]
  rcases hcases with ⟨-, hunreadable, -⟩ | ⟨⟨found, rfl, hfound⟩, hcleared, -⟩
  · exact absurd hreadable hunreadable
  · exact congrArg Except.ok (hfound.trans hcleared.rows)

/-- What is read as the stored rows is what the texts hold. -/
theorem rows_of_stored {s : Session σ ω} (hs : s.Sound view) {key : SeriesKey} (hkey : key.Valid)
    {rows : List Bar} (hrows : s.stored storage key = .ok rows) :
    rows = (view.texts s.state.storage).rows key := by
  obtain ⟨r, st, hread, -, hcases⟩ := Storage.readSeries_spec view hkey hs.works
  unfold stored at hrows
  rw [hread] at hrows
  rcases hcases with ⟨rfl, -, -⟩ | ⟨⟨found, rfl, hfound⟩, hcleared, -⟩
  · cases hrows
  · rw [← hcleared.rows, ← hfound]
    exact (Except.ok.inj hrows).symm

/-- What is read as the span record is what the texts hold. -/
theorem checked_eq {s : Session σ ω} (hs : s.Sound view) {key : SeriesKey} (hkey : key.Valid) :
    s.checked storage key = .ok ((view.texts s.state.storage).span? key) := by
  obtain ⟨st, hread, -, -⟩ :=
    Storage.access_read view (SeriesKey.isFile_spanName hkey) hs.works
  unfold checked Storage.readSpan
  rw [bind_of_ok hread]
  rfl

end Session

/-! ## Runs from an empty storage -/

variable {storage : Storage σ} {view : storage.View}

/-- The series of the key can be read, and its rows have the ticker and the exchange of the key. -/
structure Session.Clean (view : storage.View) (key : SeriesKey) (s : Session σ ω) : Prop
    extends s.Sound view where
  readable : (view.texts s.state.storage).Readable key
  tagged : ((view.texts s.state.storage).held key).Tagged key

/-- On an empty storage every key is clean. -/
theorem Session.clean_of_empty {s : Session σ ω} (hempty : view.Empty s.state.storage)
    (hnow : s.state.market.now.InCalendar) (key : SeriesKey) : s.Clean view key where
  works := hempty.works
  inCalendar := hnow
  readable := Texts.readable_of_none (hempty.texts _)
  tagged := by
    intro b hb
    have hnone : b ∈ (view.texts s.state.storage).rows key := hb
    rw [Texts.rows_of_none (hempty.texts _)] at hnone
    cases hnone

namespace Entry

variable {e : Entry σ ω} {key : SeriesKey}

/-- A load of a clean session leaves the files of a key alone or goes through a cycle. -/
theorem effect_of_clean (hkey : key.Valid) (hclean : e.before.Clean view key) :
    (∀ n, key.Owns n → view.texts (e.after storage).state.storage n
          = view.texts e.before.state.storage n)
        ∧ (e.key = key → ∀ report, e.answer storage ≠ .ok (.fresh report))
      ∨ e.key = key ∧ ∃ report, e.answer storage = .ok (.fresh report)
        ∧ Cycle (e.before.store storage) view key e.requested e.today
          (view.texts e.before.state.storage) e.before.state (e.after storage).state report :=
  e.effect_of_readable view hclean.toSound hkey (Or.inr hclean.readable)

/-- An online load of a clean session that remembers nothing of the key and can trim its span goes
through a cycle, unless the program ends. -/
theorem fresh_of_forgotten (hkey : e.key.Valid) (hclean : e.before.Clean view e.key)
    (htrims : ((view.texts e.before.state.storage).held e.key).Trims e.today)
    (hforgotten : e.before.state.Forgotten e.key) (honline : e.before.offline = false)
    (hrequested : e.requested.isEmpty = false) :
    (∃ report, e.answer storage = .ok (.fresh report)
        ∧ Cycle (e.before.store storage) view e.key e.requested e.today
          (view.texts e.before.state.storage) e.before.state (e.after storage).state report)
      ∨ e.answer storage = .error .outsideCalendar
        ∧ Ended (e.before.store storage) e.key e.requested e.today
          (view.texts e.before.state.storage) e.before.state (e.after storage).state := by
  have hloaded := e.loaded view hclean.toSound
  generalize e.answer storage = r at hloaded ⊢
  generalize (e.after storage).state = s' at hloaded ⊢
  cases hloaded with
  | nothing hempty =>
    rw [hrequested] at hempty
    cases hempty
  | invalid reason hinvalid => exact absurd hkey hinvalid
  | remembered rows s' _ hgives => exact absurd ⟨rfl, rfl⟩ (hforgotten _ _ hgives)
  | refused err s' _ hrefused =>
    cases hrefused.reason with
    | offline hoffline _ =>
      rw [Session.store, honline] at hoffline
      cases hoffline
    | unreadable hunreadable _ => exact absurd hclean.readable hunreadable
    | untrimmed huntrimmed _ =>
      rw [hrefused.cleared.readable hclean.readable] at huntrimmed
      exact absurd htrims huntrimmed
    | ended _ hended =>
      rw [hrefused.cleared.readable hclean.readable] at hended
      exact Or.inr ⟨rfl, hended⟩
  | fresh t report s' _ _ hcycle =>
    have ht := hcycle.cleared.readable hclean.readable
    subst ht
    exact Or.inl ⟨report, rfl, hcycle⟩

/-- A load of a clean session passes nothing to the engine that is covered. -/
theorem not_covers_of_passed_of_clean (hclean : e.before.Clean view e.key) {r : Window}
    (hr : r ∈ e.passed storage) {d : Day} (hd : r.contains d = true) :
    ¬ Window.Covers (((view.texts e.before.state.storage).held e.key).covered e.today) d := by
  obtain ⟨t, hcleared, hnot⟩ := e.not_covers_of_passed view hclean.toSound hr hd
  rwa [hcleared.readable hclean.readable] at hnot

/-- The account of a clean session is what its texts hold, if the span of them can be trimmed. -/
theorem account_of_clean (hkey : e.key.Valid) (hclean : e.before.Clean view e.key) :
    e.account storage = if ((view.texts e.before.state.storage).held e.key).Trims e.today then
        .ok ⟨((view.texts e.before.state.storage).held e.key).rows,
          ((view.texts e.before.state.storage).held e.key).covered e.today⟩
      else .error .outsideCalendar := by
  obtain ⟨r, st, hread, -, hcases⟩ :=
    RollingStore.account_spec (e.before.store storage) view hkey e.today hclean.works
  unfold account
  rw [hread]
  rcases hcases with ⟨-, hunreadable, -⟩ | ⟨hcleared, -, rfl⟩
  · exact absurd hclean.readable hunreadable
  · rw [hcleared.readable hclean.readable]

/-- Where the program ends in a load of a clean session, that is what its texts leave missing. -/
theorem asked_of_clean_of_ended (hkey : e.key.Valid) (hclean : e.before.Clean view e.key)
    (htrims : ((view.texts e.before.state.storage).held e.key).Trims e.today)
    (hended : e.answer storage = .error .outsideCalendar) :
    e.asked storage = RollingStore.askFor e.before.engine e.key
      (Window.wanted (((view.texts e.before.state.storage).held e.key).covered e.today)
        e.requested e.today) e.before.state.market := by
  unfold asked
  rw [hended, account_of_clean hkey hclean, if_pos htrims]

/-- The business days of the last day of the calendar cannot be counted, so the program ends where
the first range of the load is asked for. -/
theorem ended_lastDay : lastDay.answer Storage.memory = .error .outsideCalendar
    ∧ lastDay.passed Storage.memory = [⟨Day.latest, Day.latest⟩] := by
  have hclean : lastDay.before.Clean Storage.memoryView lastDay.key :=
    Session.clean_of_empty Storage.memoryView_empty (by decide) _
  have hforgotten : lastDay.before.state.Forgotten lastDay.key :=
    fun _ _ hgives => absurd hgives Memo.gives_empty
  have hcovered : ((Storage.memoryView.texts lastDay.before.state.storage).held lastDay.key).covered
      lastDay.today = none :=
    Texts.covered_of_none (Storage.memoryView_empty.texts _) (Storage.memoryView_empty.texts _) _
  have hwanted : Window.wanted (((Storage.memoryView.texts lastDay.before.state.storage).held
      lastDay.key).covered lastDay.today) lastDay.requested lastDay.today
        = [⟨Day.latest, Day.latest⟩] := by
    rw [hcovered]
    decide
  have hasked : RollingStore.askFor lastDay.before.engine lastDay.key [⟨Day.latest, Day.latest⟩]
      lastDay.before.state.market
        = ⟨[], some ⟨Day.latest, Day.latest⟩, lastDay.before.state.market⟩ :=
    RollingStore.askFor_cons_of_error
      (Engine.fetch?_of_uncounted _ _ _ (Day.businessDayCount?_latest (by decide)))
  have hkey : lastDay.key.Valid := rfl
  have hrequested : lastDay.requested.isEmpty = false := by decide
  have htrims : ((Storage.memoryView.texts lastDay.before.state.storage).held lastDay.key).Trims
      lastDay.today :=
    Texts.trims_of_none (Storage.memoryView_empty.texts _) _
  rcases fresh_of_forgotten hkey hclean htrims hforgotten rfl hrequested with
    ⟨report, -, hcycle⟩ | ⟨hended, -⟩
  · have hall := hcycle.asked
    rw [hwanted] at hall
    exact absurd (congrArg Asked.endedAt (hasked.symm.trans hall)) nofun
  · refine ⟨hended, ?_⟩
    unfold passed
    rw [asked_of_clean_of_ended hkey hclean htrims hended, hwanted]
    exact congrArg Asked.passed hasked

/-- A load leaves a clean key clean, -/
theorem clean_after (hkey : key.Valid) (hclean : e.before.Clean view key) :
    (e.after storage).Clean view key := by
  have hsound := e.sound_after view hclean.toSound
  rcases effect_of_clean hkey hclean with ⟨htexts, -⟩ | ⟨-, report, -, hcycle⟩
  · exact {
      toSound := hsound
      readable := Texts.readable_congr (htexts _ (Or.inl rfl)) hclean.readable
      tagged := by
        rw [Texts.held_congr htexts]
        exact hclean.tagged }
  · exact {
      toSound := hsound
      readable := hcycle.readable_after e.inCalendar hclean.readable
      tagged := (hcycle.grown e.inCalendar hclean.inCalendar).tagged hclean.tagged }

end Entry

/-- hence so does a step, -/
theorem Session.clean_step {s : Session σ ω} {key : SeriesKey} (hkey : key.Valid)
    (hclean : s.Clean view key) (a : Step ω) : (s.step storage a).Clean view key := by
  have hsound := sound_step hclean.toSound a
  have hquiet : (s.step storage a).state.storage = s.state.storage →
      (s.step storage a).Clean view key := by
    intro hstorage
    exact {
      toSound := hsound
      readable := by
        rw [hstorage]
        exact hclean.readable
      tagged := by
        rw [hstorage]
        exact hclean.tagged }
  cases a with
  | load symbol exchange requested h =>
    exact Entry.clean_after (e := ⟨s, symbol, exchange, requested, h⟩) hkey hclean
  | wait => exact hquiet rfl
  | setClock => exact hquiet rfl
  | turn => exact hquiet rfl
  | reopen => exact hquiet rfl

/-- and a run. -/
theorem Session.clean_run {s : Session σ ω} {key : SeriesKey} (hkey : key.Valid)
    (hclean : s.Clean view key) (steps : List (Step ω)) : (s.run storage steps).Clean view key :=
  (invariant storage hclean fun _ a _ h => clean_step hkey h a).1

/-! ## Spans from the first day of the calendar -/

/-- The span that is recorded for the key of the load is from the first day of the calendar. -/
def Entry.FromFirstDay (storage : Storage σ) (e : Entry σ ω) : Prop :=
  ∃ checked, e.before.checked storage e.key = .ok checked
    ∧ CheckedSpan.FromFirstDay checked e.today

/-- Of a sound session it is so just if the span cannot be trimmed. -/
theorem Entry.fromFirstDay_iff {e : Entry σ ω} (hkey : e.key.Valid) (hs : e.before.Sound view) :
    e.FromFirstDay storage
      ↔ ¬ ((view.texts e.before.state.storage).held e.key).Trims e.today := by
  have htrims : ((view.texts e.before.state.storage).held e.key).Trims e.today
      ↔ ¬ CheckedSpan.FromFirstDay ((view.texts e.before.state.storage).span? e.key) e.today :=
    Held.trims_iff _ hs.inCalendar
  rw [htrims, not_not, FromFirstDay]
  simp only [Session.checked_eq hs hkey, Except.ok.injEq, exists_eq_left']

/-- A span that is held as checked on the first day of the calendar is from it, later on. -/
theorem Entry.fromFirstDay_of_held {e : Entry σ ω}
    (hkey : e.key.Valid) (hs : e.before.Sound view) {w : Window}
    (hspan : ((view.texts e.before.state.storage).held e.key).span = some (.of w Day.earliest))
    (hlater : Day.earliest < e.today) : e.FromFirstDay storage :=
  ⟨_, Session.checked_eq hs hkey, _, hspan, rfl,
    fun h => Int.ne_of_gt hlater (congrArg Day.number h)⟩

/-- What counts of such a span cannot be worked out within the calendar. -/
theorem Entry.settled?_of_fromFirstDay {e : Entry σ ω} (hkey : e.key.Valid)
    (hs : e.before.Sound view) (hfirst : e.FromFirstDay storage) :
    ∃ span, e.before.checked storage e.key = .ok (some span) ∧ span.settled? e.today = none := by
  have htrims := (fromFirstDay_iff hkey hs).1 hfirst
  obtain ⟨-, hchecked, span, rfl, -⟩ := hfirst
  have hspan : ((view.texts e.before.state.storage).held e.key).span = some span :=
    Except.ok.inj ((Session.checked_eq hs hkey).symm.trans hchecked)
  rw [Held.Trims, hspan, Option.not_isSome_iff_eq_none] at htrims
  exact ⟨span, hchecked, htrims⟩

/-- The first day of the calendar is over, and no span of the key was checked on it. -/
structure Session.PastFirstDay (view : storage.View) (key : SeriesKey) (s : Session σ ω) : Prop
    extends s.Clean view key where
  begun : Day.earliest < s.state.today
  checked : ∀ span, ((view.texts s.state.storage).held key).span = some span →
    Day.earliest < span.checkedOn

/-- Then the span can be trimmed on any day, -/
theorem Session.PastFirstDay.trims {key : SeriesKey} {s : Session σ ω}
    (h : s.PastFirstDay view key) {today : Day} (htoday : today.InCalendar) :
    ((view.texts s.state.storage).held key).Trims today := by
  rw [Held.trims_iff _ htoday]
  rintro ⟨span, hspan, hfirst, -⟩
  have hchecked := h.checked span hspan
  rw [hfirst] at hchecked
  exact Int.lt_irrefl _ hchecked

/-- so that no load comes upon one from the first day. -/
theorem Entry.not_fromFirstDay {e : Entry σ ω} (hkey : e.key.Valid)
    (h : e.before.PastFirstDay view e.key) : ¬ e.FromFirstDay storage :=
  fun hfirst => (fromFirstDay_iff hkey h.toSound).1 hfirst (h.trims h.inCalendar)

/-- No load checks a span on a day that is over, -/
theorem Entry.pastFirstDay_after {e : Entry σ ω} {key : SeriesKey} (hkey : key.Valid)
    (h : e.before.PastFirstDay view key) : (e.after storage).PastFirstDay view key where
  toClean := clean_after hkey h.toClean
  begun := Int.lt_of_lt_of_le h.begun (e.today_le_after view h.toSound)
  checked := by
    rcases effect_of_clean hkey h.toClean with ⟨htexts, -⟩ | ⟨-, report, -, hcycle⟩
    · rw [Texts.held_congr htexts]
      exact h.checked
    · intro span hspan
      rcases (hcycle.grown e.inCalendar h.inCalendar).span with hsame | ⟨-, w, -, hrecorded⟩
      · exact h.checked span (hsame ▸ hspan)
      · rw [hrecorded, Option.some.injEq] at hspan
        subst hspan
        exact h.begun

/-- and neither does any step, while the clock goes forward. -/
theorem Session.pastFirstDay_step {s : Session σ ω} {key : SeriesKey} (hkey : key.Valid)
    (h : s.PastFirstDay view key) {a : Step ω} (ha : a.Forward) :
    (s.step storage a).PastFirstDay view key := by
  have hquiet : (s.step storage a).state.storage = s.state.storage →
      (s.step storage a).PastFirstDay view key := by
    intro hstorage
    have hlater := today_le_step h.toSound ha
    refine ⟨clean_step hkey h.toClean a, Int.lt_of_lt_of_le h.begun hlater, ?_⟩
    rw [hstorage]
    exact h.checked
  cases a with
  | load symbol exchange requested hrequested =>
    exact Entry.pastFirstDay_after (e := ⟨s, symbol, exchange, requested, hrequested⟩) hkey h
  | wait => exact hquiet rfl
  | setClock => exact absurd ha id
  | turn => exact hquiet rfl
  | reopen => exact hquiet rfl

/-- A run that begins after the first day of the calendar on an empty storage stays past it. -/
theorem Session.pastFirstDay_run {s : Session σ ω} {key : SeriesKey} (hkey : key.Valid)
    (hempty : view.Empty s.state.storage) (hnow : s.state.market.now.InCalendar)
    (hbegun : Day.earliest < s.state.today) {steps : List (Step ω)}
    (hforward : ∀ a ∈ steps, a.Forward) :
    (s.run storage steps).PastFirstDay view key
      ∧ ∀ e ∈ s.log storage steps, e.before.PastFirstDay view key := by
  have hstart : s.PastFirstDay view key := by
    refine ⟨clean_of_empty hempty hnow key, hbegun, fun span hspan => ?_⟩
    have hnone : ((view.texts s.state.storage).held key).span = none :=
      Texts.span?_of_none (hempty.texts _)
    rw [hnone] at hspan
    cases hspan
  exact invariant storage hstart fun _ a ha h => pastFirstDay_step hkey h (hforward a ha)

/-- The runs of the store of one bar do so. -/
theorem Session.pastFirstDay_ofOneBar {s : σ} (hempty : view.Empty s) {key : SeriesKey}
    (hkey : key.Valid) {steps : List (Step Unit)} (hforward : ∀ a ∈ steps, a.Forward) :
    ((ofOneBar s).run storage steps).PastFirstDay view key := by
  have hnow : (Instant.ofDay ⟨19997⟩ 0).InCalendar := by decide
  have hbegun : Day.earliest < (⟨19997⟩ : Day) := by decide
  exact (pastFirstDay_run (s := ofOneBar s) hkey hempty hnow hbegun hforward).1

end DailyBars
