import DailyBars.Proofs.Calendar.CheckedSteps
import DailyBars.Proofs.Store.ServedRows

/-! # The date steps of a load

A load steps from the days that it read towards those that it was asked for, so that its steps stay
between them, and what is read of the storage has days of the calendar. The calendar is left in two
places only: where a span is trimmed that was checked on the first day, and where business days are
counted up to the last one.
-/

namespace DailyBars

variable {σ ω : Type}

/-! ## Steps beside what is covered -/

namespace Coverage

/-- The gap before a covered window ends the day before it, -/
theorem beforeWith_eq {c w : Window} (hw : w.InCalendar) (hc : c.InCalendar) :
    beforeWith .within c w
      = some (if w.first < c.first then [⟨w.first, c.first.previous⟩] else []) := by
  unfold beforeWith
  split
  next hlt =>
    have hprevious : c.first.previous.InCalendar := by
      simp only [Window.InCalendar, Day.inCalendar_iff, Day.lt_def] at hw hc hlt
      rw [Day.inCalendar_iff, Day.previous_number]
      omega
    show (c.first.plus? (-1)).bind _ = _
    rw [Day.plus?_of_inCalendar hprevious]
    rfl
  next => rfl

/-- and the one after it starts the day after. -/
theorem afterWith_eq {c w : Window} (hw : w.InCalendar) (hc : c.InCalendar) :
    afterWith .within c w = some (if c.last < w.last then [⟨c.last.next, w.last⟩] else []) := by
  unfold afterWith
  split
  next hlt =>
    have hnext : c.last.next.InCalendar := by
      simp only [Window.InCalendar, Day.inCalendar_iff, Day.lt_def] at hw hc hlt
      rw [Day.inCalendar_iff, Day.next_number]
      omega
    show (c.last.plus? 1).bind _ = _
    rw [Day.plus?_of_inCalendar hnext]
    rfl
  next => rfl

/-- A window is assessed within the calendar, as each step goes from a covered day towards it. -/
theorem assess?_eq {c : Option Window} {w : Window} (hw : w.InCalendar)
    (hc : ∀ v, c = some v → v.InCalendar) : assess? c w = some (assess c w) := by
  rw [assess_def]
  cases c with
  | none => rfl
  | some v =>
    unfold assess? assessWith
    simp only
    split
    · rfl
    · rw [beforeWith_eq hw (hc v rfl), afterWith_eq hw (hc v rfl)]
      rfl

end Coverage

/-- The window of what is held has days of the calendar. -/
theorem Held.inCalendar_covered (h : Held) {today : Day} {c : Window}
    (hc : h.covered today = some c) : c.InCalendar := by
  have hordered := h.ordered_covered today c hc
  exact ⟨h.inCalendar_of_covers ⟨c, hc, Int.le_refl _, hordered⟩,
    h.inCalendar_of_covers ⟨c, hc, hordered, Int.le_refl _⟩⟩

/-! ## How they come out -/

/-- The hull of two windows in the calendar lies in it. -/
theorem Window.inCalendar_hull {w v : Window} (hw : w.InCalendar) (hv : v.InCalendar) :
    (w.hull v).InCalendar := by
  simp only [InCalendar, Day.inCalendar_iff, hull, Day.min_number, Day.max_number] at hw hv ⊢
  omega

/-- What was answered lies between what was covered and what was asked for. -/
theorem Delta.inCalendar_answered {d : Delta} (hcovered : ∀ w, d.covered = some w → w.InCalendar)
    (hranges : ∀ f ∈ d.fetched, f.range.InCalendar) {w : Window} (hw : d.answered = some w) :
    w.InCalendar := by
  obtain ⟨covered, fetched⟩ := d
  induction fetched generalizing covered with
  | nil => exact hcovered w hw
  | cons f rest ih =>
    refine ih (if f.merged.answered then Window.hull? covered (some f.range) else covered) ?_
      (fun g hg => hranges g (List.mem_cons_of_mem f hg)) hw
    have hrange := hranges f List.mem_cons_self
    intro v hv
    simp only at hcovered hv
    split at hv
    · cases covered with
      | none =>
        cases hv
        exact hrange
      | some c =>
        cases hv
        exact Window.inCalendar_hull (hcovered c rfl) hrange
    · exact hcovered v hv

/-- How the date steps of a load come out that goes by these rows and this span. -/
structure DateSteps (rows : List Bar) (checked : Option CheckedSpan) (requested : Window)
    (today : Day) : Prop where
  /-- Trimming the span leaves the calendar just if it was checked on the first day of it. -/
  trimmed : CheckedSpan.settledOf? checked today = none ↔ CheckedSpan.FromFirstDay checked today
  /-- Narrowing the request onto its business days stays within it, -/
  narrowed : Window.normalized? ⟨requested.first, min requested.last today⟩
    = some (Window.normalized ⟨requested.first, min requested.last today⟩)
  /-- and so does finding what is missing, -/
  found : ∀ window, Window.normalized ⟨requested.first, min requested.last today⟩ = some window →
    Coverage.assess? (Window.hull? (Series.span rows) (checked.bind (·.settled today))) window
      = some (Coverage.assess
        (Window.hull? (Series.span rows) (checked.bind (·.settled today))) window)
  /-- and weighing what was answered. -/
  weighed : ∀ delta : Delta,
    delta.covered = Window.hull? (Series.span rows) (checked.bind (·.settled today)) →
    delta.fetched.map Fetched.range = Window.wanted delta.covered requested today →
    ∀ window, Window.normalized ⟨requested.first, min requested.last today⟩ = some window →
      Coverage.assess? delta.answered window = some (Coverage.assess delta.answered window)
  /-- Counting the business days of a range leaves it only if the range ends on its last day. -/
  counted : ∀ r ∈ Window.wanted
      (Window.hull? (Series.span rows) (checked.bind (·.settled today))) requested today,
    r.businessDayCount? = if r.last = Day.latest then none else some r.businessDayCount

/-- The dates of a load are those of its steps. -/
theorem Held.dateSteps (h : Held) {requested : Window} {today : Day}
    (hrequested : requested.InCalendar) (htoday : today.InCalendar) :
    DateSteps h.rows h.span requested today := by
  have hclamped : (⟨requested.first, min requested.last today⟩ : Window).InCalendar := by
    obtain ⟨hstart, hend⟩ := hrequested
    refine ⟨hstart, ?_⟩
    rw [Day.inCalendar_iff] at hend htoday ⊢
    rw [Day.min_number]
    omega
  refine ⟨?_, Window.normalized?_eq hclamped, fun window hwindow => ?_, ?_, fun r hr => ?_⟩
  · have htrims := h.trims_iff htoday
    rw [Trims, Option.isSome_iff_ne_none] at htrims
    exact not_iff_not.1 htrims
  · exact Coverage.assess?_eq ((Window.inner_of_normalized hwindow).inCalendar hrequested)
      fun v hv => h.inCalendar_covered hv
  · intro delta hcovered hfetched window hwindow
    refine Coverage.assess?_eq ((Window.inner_of_normalized hwindow).inCalendar hrequested)
      fun v hv => Delta.inCalendar_answered (fun c hc => ?_) (fun f hf => ?_) hv
    · exact h.inCalendar_covered (hcovered.symm.trans hc)
    · have hmem := List.mem_map_of_mem (f := Fetched.range) hf
      rw [hfetched, hcovered] at hmem
      exact h.inCalendar_wanted hrequested today _ hmem
  · exact Window.businessDayCount?_ite (h.inCalendar_wanted hrequested today r hr)

/-! ## What is read -/

namespace Storage

/-- The rows and the span that are read for a key, one after the other. -/
def Reads (storage : Storage σ) (key : SeriesKey) (s : σ) (rows : List Bar)
    (checked : Option CheckedSpan) : Prop :=
  ∃ found s', storage.readSeries key s = (.ok found, s') ∧ found.getD [] = rows
    ∧ (storage.readSpan key s').1 = .ok checked

/-- The rows that are read have days of the calendar. -/
theorem inCalendar_readSeries (storage : Storage σ) (key : SeriesKey) :
    Keeps (fun _ => True) (storage.readSeries key) fun found =>
      ∀ b ∈ found.getD [], b.date.InCalendar := by
  have hnone : ∀ b ∈ (none : Option (List Bar)).getD [], b.date.InCalendar := nofun
  unfold readSeries
  refine (Keeps.anything _).bind fun text _ => ?_
  cases text with
  | none => exact Keeps.pure hnone
  | some text =>
    simp only
    cases hdecode : Series.decode text key.exchange with
    | ok bars =>
      refine Keeps.pure fun b hb => Series.inCalendar_of_decode hdecode ?_
      exact Series.mem_of_mem_keepFirst hb
    | error fault =>
      cases fault with
      | dateOutsideCalendar row => exact Keeps.throw _
      | _ =>
        refine (Keeps.anything _).bind fun _ _ => (Keeps.anything _).bind fun record _ => ?_
        split
        · exact (Keeps.anything _).bind fun _ _ => Keeps.pure hnone
        · exact Keeps.pure hnone

/-- The span that is read has days of the calendar. -/
theorem inCalendar_readSpan (storage : Storage σ) (key : SeriesKey) :
    Keeps (fun _ => True) (storage.readSpan key) fun checked =>
      ∀ span, checked = some span → span.InCalendar := by
  unfold readSpan
  refine (Keeps.anything _).bind fun text _ => Keeps.pure fun span hspan => ?_
  obtain ⟨record, -, hparse⟩ := Option.bind_eq_some_iff.1 hspan
  exact CheckedSpan.inCalendar_of_parse? hparse

/-- Whatever is read can be held. -/
theorem Reads.exists_held {storage : Storage σ} {key : SeriesKey} {s : σ} {rows : List Bar}
    {checked : Option CheckedSpan} (h : storage.Reads key s rows checked) :
    ∃ held : Held, held.rows = rows ∧ held.span = checked := by
  obtain ⟨found, s', hrows, rfl, hspan⟩ := h
  have hfound : (storage.readSeries key s).1 = .ok found := by rw [hrows]
  exact ⟨⟨found.getD [], checked,
    (storage.ascending_readSeries key s True.intro).2 found hfound,
    (storage.inCalendar_readSeries key s True.intro).2 found hfound,
    (storage.inCalendar_readSpan key s' True.intro).2 checked hspan⟩, rfl, rfl⟩

end Storage

/-- A load goes by what is read, unless the span is from the first day of the calendar. -/
theorem RollingStore.account_of_reads (store : RollingStore σ ω) {key : SeriesKey}
    {s : StoreState σ ω} {rows : List Bar} {checked : Option CheckedSpan}
    (h : store.storage.Reads key s.storage rows checked) {today : Day} (htoday : today.InCalendar) :
    (CheckedSpan.FromFirstDay checked today →
        (store.account key today s).1 = .error .outsideCalendar)
      ∧ (¬ CheckedSpan.FromFirstDay checked today → (store.account key today s).1
        = .ok ⟨rows, Window.hull? (Series.span rows) (checked.bind (·.settled today))⟩) := by
  obtain ⟨held, hheld, rfl⟩ := h.exists_held
  have htrims := held.trims_iff htoday
  obtain ⟨found, s', hrows, rfl, hspan⟩ := h
  have hread : (onStorage (store.storage.readSeries key) : StoreM σ ω _) s
      = (.ok found, { s with storage := s' }) := by
    rw [onStorage, hrows]
  have hchecked : (onStorage (store.storage.readSpan key) : StoreM σ ω _) { s with storage := s' }
      = (.ok held.span, { s with storage := (store.storage.readSpan key s').2 }) := by
    rw [← hspan]
    rfl
  unfold account
  rw [bind_of_ok hread, bind_of_ok hchecked]
  refine ⟨fun hfirst => ?_, fun hlater => ?_⟩
  · rw [Option.not_isSome_iff_eq_none.1 fun h => htrims.1 h hfirst]
    rfl
  · rw [(htrims.2 hlater).settledOf?]
    rfl

/-- Whatever is read, the steps come out so. -/
theorem Storage.Reads.dateSteps {storage : Storage σ} {key : SeriesKey} {s : σ} {rows : List Bar}
    {checked : Option CheckedSpan} (h : storage.Reads key s rows checked) {requested : Window}
    {today : Day} (hrequested : requested.InCalendar) (htoday : today.InCalendar) :
    DateSteps rows checked requested today := by
  obtain ⟨held, rfl, rfl⟩ := h.exists_held
  exact held.dateSteps hrequested htoday

end DailyBars
