import DailyBars.Proofs.Store.Load

/-! # Where a load ends without an answer

A date beyond the calendar ends whatever is done with the store. A load can come upon one in three
places: in the text of the stored series, if that is wrong in nothing that is looked at before, on
the day before the checked span was recorded, if that was the first of the calendar, and in what the
engine works out while it is asked for what the stored rows and the checked span leave missing.
-/

namespace DailyBars

/-- A computation that ends early does so in its first part or after it. -/
theorem bind_error_cases {ε τ α β : Type} {x : ExceptT ε (StateM τ) α}
    {f : α → ExceptT ε (StateM τ) β} {s : τ} {e : ε} (h : ((x >>= f) s).1 = .error e) :
    (x s).1 = .error e ∨ ∃ a s', x s = (.ok a, s') ∧ (f a s').1 = .error e := by
  obtain ⟨r, s', hrun⟩ : ∃ r s', x s = (r, s') := ⟨_, _, rfl⟩
  cases r with
  | error e' =>
    rw [bind_of_error hrun] at h
    rw [hrun]
    cases h
    exact Or.inl rfl
  | ok a =>
    rw [bind_of_ok hrun] at h
    exact Or.inr ⟨a, s', hrun, h⟩

/-- Wherever it begins, the computation ends early only with an error of these. -/
def FailsOnly {τ α : Type} (allowed : DataError → Prop) (run : ExceptT DataError (StateM τ) α) :
    Prop :=
  ∀ s e, (run s).1 = .error e → allowed e

namespace FailsOnly

variable {τ α β : Type} {allowed : DataError → Prop}

/-- What always succeeds fails with nothing. -/
theorem of_ok {run : ExceptT DataError (StateM τ) α} (h : ∀ s, ∃ a, (run s).1 = .ok a) :
    FailsOnly allowed run := by
  intro s e hend
  obtain ⟨a, ha⟩ := h s
  rw [ha] at hend
  cases hend

/-- A value does not fail. -/
theorem pure (a : α) : FailsOnly allowed (Pure.pure a : ExceptT DataError (StateM τ) α) :=
  of_ok fun _ => ⟨a, rfl⟩

/-- An error fails with itself. -/
theorem throw {e : DataError} (h : allowed e) :
    FailsOnly allowed (MonadExcept.throw e : ExceptT DataError (StateM τ) α) :=
  fun _ _ hend => Except.error.inj hend ▸ h

/-- Two computations in a row fail as one of them does. -/
theorem bind {x : ExceptT DataError (StateM τ) α} {f : α → ExceptT DataError (StateM τ) β}
    (hx : FailsOnly allowed x) (hf : ∀ a, FailsOnly allowed (f a)) :
    FailsOnly allowed (x >>= f) := by
  intro s e hend
  rcases bind_error_cases hend with hfirst | ⟨a, s', -, hrest⟩
  · exact hx s e hfirst
  · exact hf a s' e hrest

/-- A choice fails as one of its sides does. -/
theorem ite {c : Prop} [Decidable c] {x y : ExceptT DataError (StateM τ) α}
    (hx : FailsOnly allowed x) (hy : FailsOnly allowed y) :
    FailsOnly allowed (if c then x else y) := by
  split
  · exact hx
  · exact hy

end FailsOnly

/-- Wherever it begins, the computation does not end at a date beyond the calendar. -/
def WithinCalendar {τ α : Type} (run : ExceptT DataError (StateM τ) α) : Prop :=
  ∀ s, (run s).1 ≠ .error .outsideCalendar

/-- What fails with other errors only does not leave the calendar. -/
theorem FailsOnly.withinCalendar {τ α : Type} {run : ExceptT DataError (StateM τ) α}
    (h : FailsOnly (· ≠ .outsideCalendar) run) : WithinCalendar run :=
  fun s hend => h s _ hend rfl

namespace Storage

variable {σ α : Type} {allowed : DataError → Prop}

/-- An access fails with a fault of the storage. -/
theorem failsOnly_access (hstorage : ∀ fault, allowed (.storage fault))
    (run : σ → Except StorageFault α × σ) : FailsOnly allowed (access run) := by
  intro s e hend
  obtain ⟨r, s', hrun⟩ : ∃ r s', run s = (r, s') := ⟨_, _, rfl⟩
  rw [access, hrun] at hend
  cases r with
  | ok a => cases hend
  | error fault =>
    cases hend
    exact hstorage fault

/-- What is not allowed to fail does not. -/
theorem failsOnly_succeeds (run : Storing σ α) : FailsOnly allowed (succeeds run) :=
  .of_ok fun _ => ⟨_, rfl⟩

/-- Reading a span fails with a fault of the storage, -/
theorem failsOnly_readSpan (hstorage : ∀ fault, allowed (.storage fault)) (storage : Storage σ)
    (key : SeriesKey) : FailsOnly allowed (storage.readSpan key) :=
  .bind (failsOnly_access hstorage _) fun _ => .pure _

/-- Moving a file out of the way, and the span with it, fails as reading does. -/
theorem failsOnly_setAside (hstorage : ∀ fault, allowed (.storage fault)) (storage : Storage σ)
    (key : SeriesKey) :
    FailsOnly allowed (do
      let _ ← succeeds (access (storage.quarantine key.seriesName))
      if (← access (storage.read key.spanName)).isSome then
        let _ ← succeeds (access (storage.quarantine key.spanName))
      pure (none : Option (List Bar))) := by
  refine .bind (failsOnly_succeeds _) fun _ => .bind (failsOnly_access hstorage _) fun _ => ?_
  exact .ite (.bind (failsOnly_succeeds _) fun _ => .pure _) (.pure _)

/-- and reading a series with one, or with a date outside the calendar. -/
theorem failsOnly_readSeries (hstorage : ∀ fault, allowed (.storage fault))
    (hcalendar : allowed .outsideCalendar) (storage : Storage σ) (key : SeriesKey) :
    FailsOnly allowed (storage.readSeries key) := by
  unfold readSeries
  refine .bind (failsOnly_access hstorage _) fun text? => ?_
  cases text? with
  | none => exact .pure _
  | some text =>
    simp only
    cases Series.decode text key.exchange with
    | ok bars => exact .pure _
    | error fault =>
      cases fault with
      | dateOutsideCalendar row => exact .throw hcalendar
      | _ => exact failsOnly_setAside hstorage storage key

/-- The text of a series has a date beyond the calendar, and nothing else is wrong with it
before. -/
def EndsReading (storage : Storage σ) (key : SeriesKey) (s : σ) : Prop :=
  ∃ text row s', storage.read key.seriesName s = (.ok (some text), s')
    ∧ Series.decode text key.exchange = .error (.dateOutsideCalendar row)

/-- The recorded span of the key has to be trimmed on the day to a date beyond the calendar. -/
def EndsTrimming (storage : Storage σ) (key : SeriesKey) (today : Day) (s : σ) : Prop :=
  ∃ found s' span, storage.readSeries key s = (.ok found, s')
    ∧ (storage.readSpan key s').1 = .ok (some span) ∧ span.settled? today = none

/-- A series with such a date is not read. -/
theorem EndsReading.readSeries {storage : Storage σ} {key : SeriesKey} {s : σ}
    (h : storage.EndsReading key s) :
    ∃ s', storage.readSeries key s = (.error .outsideCalendar, s') := by
  obtain ⟨text, row, s', hread, hdecode⟩ := h
  have hread' : access (storage.read key.seriesName) s = (.ok (some text), s') := by
    rw [access, hread]
    rfl
  unfold Storage.readSeries
  rw [bind_of_ok hread']
  simp only [hdecode]
  exact ⟨s', rfl⟩

/-- A read that leaves the calendar is of a text with a date outside it. -/
theorem endsReading_of_readSeries {storage : Storage σ} {key : SeriesKey} {s : σ}
    (h : (storage.readSeries key s).1 = .error .outsideCalendar) : storage.EndsReading key s := by
  rcases bind_error_cases h with hread | ⟨text?, s', hread, hrest⟩
  · exact absurd hread ((failsOnly_access (fun _ => nofun) _).withinCalendar s)
  have htext : storage.read key.seriesName s = (.ok text?, s') := by
    obtain ⟨r, s₁, hrun⟩ : ∃ r s₁, storage.read key.seriesName s = (r, s₁) := ⟨_, _, rfl⟩
    rw [access, hrun] at hread
    cases r <;> cases hread
    exact hrun
  cases text? with
  | none => cases hrest
  | some text =>
    simp only at hrest
    cases hdecode : Series.decode text key.exchange with
    | ok bars =>
      rw [hdecode] at hrest
      cases hrest
    | error fault =>
      rw [hdecode] at hrest
      cases fault with
      | dateOutsideCalendar row => exact ⟨text, row, s', htext, hdecode⟩
      | _ =>
        refine absurd hrest (FailsOnly.withinCalendar ?_ s')
        exact failsOnly_setAside (fun _ => nofun) storage key

end Storage

namespace RollingStore

variable {σ ω : Type} (store : RollingStore σ ω) {allowed : DataError → Prop}

/-- A computation on the storage fails as it does alone. -/
theorem failsOnly_onStorage {α : Type} {run : Storing σ α} (h : FailsOnly allowed run) :
    FailsOnly allowed (onStorage run : StoreM σ ω α) := fun s e hend => h s.storage e hend

/-- Extending a series fails only where the engine ends the program. -/
theorem extend_eq_error {key : SeriesKey} {account : Account} {window requested : Window}
    {today : Day} {s : StoreState σ ω} {e : DataError}
    (h : (store.extend key account window requested today s).1 = .error e) :
    e = .outsideCalendar ∧ ∃ range, (askFor store.engine key
      ((Coverage.assess account.covered window).missing window) s.market).endedAt = some range := by
  obtain ⟨r, s', hextend, ⟨report, rfl, -⟩ | ⟨rfl, fetched, range, hasked⟩⟩ :=
    extend_asks store key account window requested today s
  · rw [hextend] at h
    cases h
  · rw [hextend] at h
    cases h
    exact ⟨rfl, range, congrArg Asked.endedAt hasked⟩

/-- Extending an account fails only by leaving the calendar. -/
theorem failsOnly_extend (hcalendar : allowed .outsideCalendar) (key : SeriesKey)
    (account : Account) (window requested : Window) (today : Day) :
    FailsOnly allowed (store.extend key account window requested today) :=
  fun _ _ hend => (store.extend_eq_error hend).1 ▸ hcalendar

/-- Taking an account fails with a fault of the storage, or by leaving the calendar. -/
theorem failsOnly_account (hstorage : ∀ fault, allowed (.storage fault))
    (hcalendar : allowed .outsideCalendar) (key : SeriesKey) (today : Day) :
    FailsOnly allowed (store.account key today) := by
  refine .bind (failsOnly_onStorage ?_) fun rows => ?_
  · exact Storage.failsOnly_readSeries hstorage hcalendar store.storage key
  · refine .bind (failsOnly_onStorage ?_) fun span => ?_
    · exact Storage.failsOnly_readSpan hstorage store.storage key
    · cases CheckedSpan.settledOf? span today with
      | some settled => exact .pure _
      | none => exact .throw hcalendar

/-- With a well-formed key a load ends early only at a fault of the storage, at a date beyond the
calendar or for want of a network. -/
theorem failsOnly_load (hstorage : ∀ fault, allowed (.storage fault))
    (hcalendar : allowed .outsideCalendar)
    (hnetwork : ∀ symbol exchange, allowed (.noCachedData symbol exchange))
    {symbol exchange : String} (hkey : (SeriesKey.of symbol exchange).Valid) (w : Window) :
    FailsOnly allowed (store.load symbol exchange w) := by
  have hfresh : ∀ today,
      FailsOnly allowed (store.loadFresh (.of symbol exchange) w today) := by
    intro today
    refine .bind (store.failsOnly_account hstorage hcalendar _ today) fun account => ?_
    split
    · exact .pure _
    · exact .ite (.pure _) (.ite (.throw (hnetwork _ _))
        (store.failsOnly_extend hcalendar _ _ _ _ today))
  have hcheck : (SeriesKey.of symbol exchange).check = .ok () := hkey
  refine .bind ?_ fun _ => .pure _
  unfold answer
  simp only [hcheck]
  refine .ite (.pure _) ?_
  -- neither the clock nor the memo can fail
  refine .bind (.of_ok fun _ => ⟨_, rfl⟩) fun today => ?_
  refine .bind (.of_ok fun _ => ⟨_, rfl⟩) fun hit => ?_
  cases hit with
  | some rows => exact .pure _
  | none =>
    refine .bind (hfresh today) fun report => .ite ?_ (.pure _)
    exact .bind (.of_ok fun _ => ⟨_, rfl⟩) fun _ => .pure _

variable {store} {symbol exchange : String} {w : Window} {s : StoreState σ ω}

/-- An account leaves the calendar just where the text of the series has a date outside it, or the
span is to be trimmed to one. -/
theorem account_ends_iff {key : SeriesKey} {today : Day} :
    (store.account key today s).1 = .error .outsideCalendar
      ↔ store.storage.EndsReading key s.storage ∨ store.storage.EndsTrimming key today s.storage := by
  constructor
  · intro h
    rcases bind_error_cases h with hread | ⟨found, s₁, hread, hrest⟩
    · exact Or.inl (Storage.endsReading_of_readSeries hread)
    · have hquiet : FailsOnly (· ≠ DataError.outsideCalendar)
          (onStorage (store.storage.readSpan key) : StoreM σ ω _) :=
        failsOnly_onStorage (Storage.failsOnly_readSpan (fun _ => nofun) store.storage key)
      rcases bind_error_cases hrest with hspan | ⟨checked, s₂, hspan, hrest⟩
      · exact absurd hspan (hquiet.withinCalendar s₁)
      · cases hsettled : CheckedSpan.settledOf? checked today with
        | some settled =>
          rw [hsettled] at hrest
          cases hrest
        | none =>
          cases checked with
          | none => exact absurd hsettled nofun
          | some span =>
            exact Or.inr ⟨found, s₁.storage, span, storage_of_onStorage hread,
              congrArg Prod.fst (storage_of_onStorage hspan), hsettled⟩
  · rintro (hreading | ⟨found, st, span, hread, hspan, hsettled⟩)
    · obtain ⟨st, hread⟩ := hreading.readSeries
      have hread' : onStorage (store.storage.readSeries key) s
          = (.error .outsideCalendar, { s with storage := st }) := onStorage_of hread
      unfold account
      rw [bind_of_error hread']
    · have hread' : onStorage (store.storage.readSeries key) s
          = (.ok found, { s with storage := st }) := onStorage_of hread
      have hspan' : (onStorage (store.storage.readSpan key) : StoreM σ ω _)
          { s with storage := st } = (.ok (some span),
            { s with storage := (store.storage.readSpan key st).2 }) :=
        onStorage_of (Prod.ext hspan rfl)
      have hcounts : CheckedSpan.settledOf? (some span) today = none := hsettled
      unfold account
      rw [bind_of_ok hread', bind_of_ok hspan', hcounts]
      rfl

/-- The program ends while an engine is asked for what the account of a key leaves missing of a
request. -/
def EndsAsking (store : RollingStore σ ω) (key : SeriesKey) (requested : Window)
    (s : StoreState σ ω) : Prop :=
  store.offline = false ∧ ∃ account range, (store.account key s.today s).1 = .ok account
    ∧ (askFor store.engine key (Window.wanted account.covered requested s.today) s.market).endedAt
      = some range

/-- A load comes upon a date beyond the calendar: nothing is remembered of its request, and the text
of the series has such a date, or the span is to be trimmed to one, or the engine works one out. -/
structure Ends (store : RollingStore σ ω) (key : SeriesKey) (requested : Window)
    (s : StoreState σ ω) : Prop where
  ordered : requested.isEmpty = false
  valid : key.Valid
  missed : s.memo.entries[key.memoKey requested s.today]? = none
  upon : store.storage.EndsReading key s.storage ∨ store.storage.EndsTrimming key s.today s.storage
    ∨ store.EndsAsking key requested s

/-- Where nothing is remembered, a load ends just there. -/
theorem loadFresh_ends_iff {key : SeriesKey} :
    (store.loadFresh key w s.today s).1 = .error .outsideCalendar
      ↔ store.storage.EndsReading key s.storage
        ∨ store.storage.EndsTrimming key s.today s.storage ∨ store.EndsAsking key w s := by
  rw [← or_assoc, ← account_ends_iff]
  constructor
  · intro h
    rcases bind_error_cases h with haccount | ⟨account, s', haccount, hrest⟩
    · exact Or.inl haccount
    · have hmarket := (ordered_of_account store haccount).2
      cases hwindow : Window.normalized ⟨w.first, min w.last s.today⟩ with
      | none =>
        rw [hwindow] at hrest
        cases hrest
      | some window =>
        rw [hwindow] at hrest
        simp only at hrest
        split at hrest
        next => cases hrest
        next =>
          split at hrest
          next => cases hrest
          next honline =>
            obtain ⟨-, range, hended⟩ := store.extend_eq_error hrest
            refine Or.inr ⟨eq_false_of_ne_true honline, account, range, ?_, ?_⟩
            · rw [haccount]
            · rw [Window.wanted, hwindow, ← hmarket]
              exact hended
  · rintro (hends | ⟨honline, account, range, haccount, hended⟩)
    · have haccount : store.account key s.today s
          = (.error .outsideCalendar, (store.account key s.today s).2) := Prod.ext hends rfl
      unfold loadFresh
      rw [bind_of_error haccount]
    · have haccount' : store.account key s.today s
          = (.ok account, (store.account key s.today s).2) := Prod.ext haccount rfl
      obtain ⟨r, s', hload, ⟨report, -, hasked⟩ | ⟨rfl, -⟩⟩ :=
        loadFresh_asks store honline haccount' w
      · rw [hasked] at hended
        cases hended
      · rw [hload]

/-- A load ends just where it comes upon a date beyond the calendar. -/
theorem load_ends_iff : (store.load symbol exchange w s).1 = .error .outsideCalendar
    ↔ store.Ends (.of symbol exchange) w s := by
  constructor
  · intro h
    have hempty : w.isEmpty = false := by
      rw [← Bool.not_eq_true]
      intro hempty
      rw [load_eq_answer, answer_of_isEmpty store symbol exchange hempty s] at h
      cases h
    have hkey : (SeriesKey.of symbol exchange).Valid := by
      cases hcheck : (SeriesKey.of symbol exchange).check with
      | ok _ => exact hcheck
      | error fault =>
        rw [load_eq_answer, answer_of_invalid store hempty hcheck s] at h
        cases h
    have hmissed : s.memo.entries[(SeriesKey.of symbol exchange).memoKey w s.today]? = none := by
      cases hmemo : s.memo.entries[(SeriesKey.of symbol exchange).memoKey w s.today]? with
      | none => rfl
      | some rows =>
        rw [load_eq_answer, answer_of_remembered store hkey hempty hmemo] at h
        cases h
    refine ⟨hempty, hkey, hmissed, loadFresh_ends_iff.1 ?_⟩
    rw [load_of_missed store hkey hempty hmissed] at h
    cases hfresh : (store.loadFresh (.of symbol exchange) w s.today s).1 with
    | ok report =>
      rw [hfresh] at h
      cases h
    | error e =>
      rw [hfresh] at h
      cases h
      rfl
  · intro h
    rw [load_of_missed store h.valid h.ordered h.missed, loadFresh_ends_iff.2 h.upon]
    rfl

end RollingStore
end DailyBars
