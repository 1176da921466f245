import DailyBars.Proofs.Store.Session

/-! # Settled days are fetched once

A day before today that was answered is covered from then on, however often the span is written
again, trimmed on the next day or joined with the rows: `Session.Settles` is kept by every step that
does not set the clock back. What is covered is never asked for.
-/

namespace DailyBars

variable {σ ω : Type} {storage : Storage σ}

namespace Session

/-- The day is covered for the key, today and on every later day. -/
structure Settles (view : storage.View) (key : SeriesKey) (d : Day) (s : Session σ ω) : Prop where
  readable : view.keeps = true ∨ (view.texts s.state.storage).Readable key
  past : d < s.state.today
  covers : ∀ t, s.state.today ≤ t →
    Window.Covers (((view.texts s.state.storage).held key).covered t) d

end Session

namespace Entry

variable {view : storage.View} {e : Entry σ ω} {key : SeriesKey} {d : Day}

/-- A load keeps what is settled. -/
theorem settles_after (hs : e.before.Sound view) (hkey : key.Valid)
    (hsettled : e.before.Settles view key d) : (e.after storage).Settles view key d := by
  have htoday := e.today_le_after view hs
  rcases e.effect_of_readable view hs hkey hsettled.readable with
    ⟨htexts, -⟩ | ⟨-, report, -, hcycle⟩
  · exact {
      readable := hsettled.readable.imp_right (Texts.readable_congr (htexts _ (Or.inl rfl)))
      past := Int.lt_of_lt_of_le hsettled.past htoday
      covers := fun t ht => by
        rw [Texts.held_congr htexts]
        exact hsettled.covers t (Int.le_trans htoday ht) }
  · have hgrown := hcycle.grown e.inCalendar hs.inCalendar
    exact {
      readable := hsettled.readable.imp_right (hcycle.readable_after e.inCalendar)
      past := Int.lt_of_lt_of_le hsettled.past htoday
      covers := fun t ht =>
        hgrown.covers_of_covers (Int.le_trans htoday ht) hsettled.covers hsettled.past }

/-- A load of the key does not ask for what is settled, whatever comes of it. -/
theorem not_passed_of_settles (hs : e.before.Sound view)
    (hsettled : e.before.Settles view e.key d) :
    ∀ r ∈ e.passed storage, r.contains d = false := by
  intro r hr
  rw [Bool.eq_false_iff]
  intro hd
  obtain ⟨t, hcleared, hnot⟩ := e.not_covers_of_passed view hs hr hd
  have hsame : t = view.texts e.before.state.storage :=
    hsettled.readable.elim hcleared.keeps hcleared.readable
  subst hsame
  exact hnot (hsettled.covers e.today (Int.le_refl _))

/-- A day before today is settled once it was answered, if the program outlived that. -/
theorem settles_of_answered (hs : e.before.Sound view) (hreliable : view.Reliable)
    (hreports : e.Reports storage) {f : Fetched} (hf : f ∈ e.fetched storage)
    (hanswered : f.merged.answered = true) (hd : f.range.contains d = true) (hpast : d < e.today) :
    e.key.Valid ∧ (e.after storage).Settles view e.key d := by
  obtain ⟨report, hanswer⟩ := hreports
  rw [e.fetched_of_fresh hanswer] at hf
  obtain ⟨hkey, t, hcycle⟩ := e.exists_cycle view hs hanswer
  refine ⟨hkey, ?_⟩
  have hgrown := hcycle.grown e.inCalendar hs.inCalendar
  have hrecorded := (hcycle.recorded e.inCalendar hs.inCalendar hreliable).2
  have hcovered : Window.Covers (t.delta e.key e.today report.fetched).answered d :=
    hgrown.sound.covers_answered.2 (Or.inr ⟨f, hf, hanswered, hd⟩)
  -- the day was fetched, so it was not covered before
  have hgrew : (t.delta e.key e.today report.fetched).answered
      ≠ (t.held e.key).covered e.today := by
    intro heq
    refine hgrown.sound.not_covers hf hd ?_
    rw [hgrown.covered, ← heq]
    exact hcovered
  obtain ⟨w, hw, hfirst, hlast⟩ := hcovered
  have hspan := hrecorded w hw hgrew
  exact {
    readable := by
      cases hkeeps : view.keeps with
      | true => exact Or.inl rfl
      | false =>
        exact Or.inr (hcycle.readable_after e.inCalendar (hcycle.readable hreliable hkeeps))
    past := Int.lt_of_lt_of_le hpast (e.today_le_after view hs)
    covers := fun u _ => Held.covers_of_marks _
      (Grown.marks_of_recorded hspan ⟨w, rfl, hfirst, hlast⟩ (Or.inl hpast)) }

end Entry

namespace Session

variable {view : storage.View} {key : SeriesKey} {d : Day}

/-- Every step that does not set the clock keeps what is settled. -/
theorem settles_step {s : Session σ ω} (hs : s.Sound view) (hkey : key.Valid)
    (hsettled : s.Settles view key d) {a : Step ω} (ha : a.Forward) :
    (s.step storage a).Settles view key d := by
  have htoday := today_le_step hs ha
  cases hentry : s.entry? a with
  | some e =>
    obtain ⟨rfl, hstep⟩ := step_eq_after storage hentry
    rw [hstep]
    exact Entry.settles_after hs hkey hsettled
  | none =>
    have hstorage := storage_step storage hentry
    exact {
      readable := by
        rw [hstorage]
        exact hsettled.readable
      past := Int.lt_of_lt_of_le hsettled.past htoday
      covers := fun t ht => by
        rw [hstorage]
        exact hsettled.covers t (Int.le_trans htoday ht) }

/-- What is settled is not asked for in any later run. -/
theorem not_passed_of_settles {s : Session σ ω} (hs : s.Sound view) (hkey : key.Valid)
    (hsettled : s.Settles view key d) {steps : List (Step ω)} (hsteps : ∀ a ∈ steps, a.Forward) :
    ∀ e ∈ s.log storage steps, e.key = key → ∀ r ∈ e.passed storage, r.contains d = false := by
  have hinvariant := invariant storage (P := fun s => s.Sound view ∧ s.Settles view key d)
    ⟨hs, hsettled⟩ fun s a ha h => ⟨sound_step h.1 a, settles_step h.1 hkey h.2 (hsteps a ha)⟩
  rintro e he rfl
  obtain ⟨hsound, hsettles⟩ := hinvariant.2 e he
  exact Entry.not_passed_of_settles hsound hsettles

end Session

/-- What a later load passes to the engine, whatever comes of it, avoids the days that an earlier one
of the same key, which the program outlived, fetched with an answer when they were over. -/
def Entry.Avoids (storage : Storage σ) (e e' : Entry σ ω) : Prop :=
  e'.key = e.key → e.Reports storage → ∀ f ∈ e.fetched storage, f.merged.answered = true → ∀ d,
    f.range.contains d = true → d < e.today → ∀ r ∈ e'.passed storage, r.contains d = false

/-- Of any two loads of a forward run, the later avoids what the earlier settled. -/
theorem Session.pairwise_avoids {view : storage.View} (hreliable : view.Reliable)
    {s : Session σ ω} (hs : s.Sound view) {steps : List (Step ω)}
    (hforward : ∀ a ∈ steps, a.Forward) :
    (s.log storage steps).Pairwise (Entry.Avoids storage) := by
  -- what the first load settles is settled in the rest of the run
  induction steps generalizing s with
  | nil => exact List.Pairwise.nil
  | cons a rest ih =>
    have hrest : ∀ a ∈ rest, a.Forward := fun b hb => hforward b (by simp [hb])
    have hsound := sound_step hs a
    have hpairwise := ih hsound hrest
    rw [log]
    cases hentry : s.entry? a with
    | none => exact hpairwise
    | some e =>
      obtain ⟨rfl, hstep⟩ := step_eq_after storage hentry
      rw [hstep] at hsound hpairwise ⊢
      refine List.pairwise_cons.2
        ⟨fun e' he' hkey hreports f hf hanswered d hd hpast => ?_, hpairwise⟩
      obtain ⟨hvalid, hsettles⟩ :=
        Entry.settles_of_answered hs hreliable hreports hf hanswered hd hpast
      exact not_passed_of_settles hsound hvalid hsettles hrest e' he' hkey

/-- No load passes a day between two rows that are stored for its key. -/
theorem Entry.not_between_rows {view : storage.View} {e : Entry σ ω} (hs : e.before.Sound view)
    {r : Window} (hr : r ∈ e.passed storage) {d : Day} (hd : r.contains d = true)
    {rows : List Bar} (hrows : e.before.stored storage e.key = .ok rows) {a b : Bar}
    (ha : a ∈ rows) (hb : b ∈ rows) : ¬ (a.date ≤ d ∧ d ≤ b.date) := by
  rintro ⟨had, hdb⟩
  have hkey := (e.exists_wanted view hs hr).1
  obtain ⟨t, hcleared, hnot⟩ := e.not_covers_of_passed view hs hr hd
  have hheld : rows = (t.held e.key).rows :=
    (Session.rows_of_stored hs hkey hrows).trans hcleared.rows.symm
  rw [hheld] at ha hb
  have hmark : ∀ {c}, c ∈ (t.held e.key).rows → (t.held e.key).Marks e.today c.date :=
    fun hc => Or.inl ⟨_, hc, rfl⟩
  exact hnot ((t.held e.key).covers_covered.2 ⟨⟨_, hmark ha, had⟩, _, hmark hb, hdb⟩)

/-- Over a storage that never fails and a clock that is never set back, a day before the day of a
load that reported an answer for it is not passed to the engine again for its key, whatever comes of
the later load; and no load passes a day that lies between two rows of its stored series. -/
theorem settled_days_are_fetched_once (storage : Storage σ) (view : storage.View)
    (hreliable : view.Reliable) (s : Session σ ω) (hworks : view.Works s.state.storage)
    (hnow : s.state.market.now.InCalendar) (steps : List (Step ω))
    (hforward : ∀ a ∈ steps, a.Forward) :
    (s.log storage steps).Pairwise (Entry.Avoids storage)
      ∧ ∀ e ∈ s.log storage steps, ∀ r ∈ e.passed storage, ∀ d, r.contains d = true →
        ∀ rows, e.before.stored storage e.key = .ok rows →
          ∀ a ∈ rows, ∀ b ∈ rows, ¬ (a.date ≤ d ∧ d ≤ b.date) := by
  have hs : s.Sound view := ⟨hworks, hnow⟩
  refine ⟨Session.pairwise_avoids hreliable hs hforward, ?_⟩
  intro e he r hr d hd rows hrows a ha b hb
  exact Entry.not_between_rows (Session.sound_of_mem_log hs he) hr hd hrows ha hb

/-- The second load does not ask again for the first day of the first one. -/
theorem settled_days_are_fetched_once_in_memory :
    ((Session.ofOneBar ({} : Memory)).log Storage.memory Step.twoLoads).Pairwise
      (Entry.Avoids Storage.memory) :=
  (settled_days_are_fetched_once Storage.memory Storage.memoryView Storage.memoryView_reliable _
    trivial (by decide) Step.twoLoads (by simp [Step.twoLoads, Step.Forward])).1

/-! ## A load that the program does not outlive -/

/-- In memory, a Tuesday and a Wednesday were asked for without a row to show for it. -/
def Memory.ofMidweek : Memory :=
  (Storage.memory.write (SeriesKey.mk "AAPL" "NYSE").spanName
    (CheckedSpan.of ⟨⟨19724⟩, ⟨19725⟩⟩ ⟨19732⟩).toJson {}).2

/-- A source has no rows for a range that begins on the Monday before, and wants to be left alone if
it is asked for any other. -/
def Engine.ofMonday : Engine Unit :=
  .insisting ["yahoo"] fun _ q => if q.window.first = ⟨19723⟩ then some [] else none

/-- A week later all five days of the week are asked for. -/
def Entry.interrupted : Entry Memory Unit :=
  ⟨.opened .ofMonday .ofMidweek () (.ofDay ⟨19732⟩ 0) 8, "AAPL", "NYSE", ⟨⟨19723⟩, ⟨19727⟩⟩,
    by decide⟩

/-- They are asked for again when the store has been built again. -/
def Step.interruptedLoads : List (Step Unit) :=
  [.load "AAPL" "NYSE" ⟨⟨19723⟩, ⟨19727⟩⟩ (by decide), .reopen .ofMonday false 8 {},
    .load "AAPL" "NYSE" ⟨⟨19723⟩, ⟨19727⟩⟩ (by decide)]

/-- The second of these loads. -/
def Entry.resumed : Entry Memory Unit :=
  ⟨(Entry.interrupted.after Storage.memory).step Storage.memory (.reopen .ofMonday false 8 {}),
    "AAPL", "NYSE", ⟨⟨19723⟩, ⟨19727⟩⟩, by decide⟩

/-- There is no series in the middle of the week, -/
theorem Memory.series_ofMidweek : Storage.memoryView.texts Memory.ofMidweek
    (SeriesKey.mk "AAPL" "NYSE").seriesName = none := by
  rw [ofMidweek, Storage.memoryView_texts_write,
    Texts.put_of_ne _ _ (SeriesKey.seriesName_ne_spanName _ _)]

/-- and the span is that of the first two days. -/
theorem Memory.span_ofMidweek : Storage.memoryView.texts Memory.ofMidweek
    (SeriesKey.mk "AAPL" "NYSE").spanName
      = some (CheckedSpan.of ⟨⟨19724⟩, ⟨19725⟩⟩ ⟨19732⟩).toJson := by
  rw [ofMidweek, Storage.memoryView_texts_write, Texts.put_self]

/-- It is held, -/
theorem Memory.held_ofMidweek : (Storage.memoryView.texts ofMidweek).span? ⟨"AAPL", "NYSE"⟩
    = some (.of ⟨⟨19724⟩, ⟨19725⟩⟩ ⟨19732⟩) :=
  Texts.span?_of_toJson span_ofMidweek ⟨by decide, by decide, by decide⟩

/-- and can be trimmed on every day. -/
theorem Memory.trims_ofMidweek {today : Day} (htoday : today.InCalendar) :
    ((Storage.memoryView.texts ofMidweek).held ⟨"AAPL", "NYSE"⟩).Trims today :=
  have hlater : (CheckedSpan.of ⟨⟨19724⟩, ⟨19725⟩⟩ ⟨19732⟩).checkedOn ≠ Day.earliest := by decide
  Texts.trims_of_span? held_ofMidweek hlater htoday

/-- On every later day both ends of the week are missing. -/
theorem Memory.wanted_ofMidweek {today : Day} (htoday : ⟨19732⟩ ≤ today) :
    Window.wanted (((Storage.memoryView.texts ofMidweek).held ⟨"AAPL", "NYSE"⟩).covered today)
        ⟨⟨19723⟩, ⟨19727⟩⟩ today
      = [⟨⟨19723⟩, ⟨19723⟩⟩, ⟨⟨19726⟩, ⟨19727⟩⟩] := by
  -- the span ends before the day of its check, so nothing of it is given up
  have hsettled : (CheckedSpan.of ⟨⟨19724⟩, ⟨19725⟩⟩ ⟨19732⟩).settled today
      = some ⟨⟨19724⟩, ⟨19725⟩⟩ := by
    have hlast : ¬ ((⟨19732⟩ : Day) < today ∧ (⟨19732⟩ : Day) ≤ ⟨19725⟩) := fun h =>
      absurd h.2 (by decide)
    unfold CheckedSpan.of
    simp only [CheckedSpan.settled_def, if_neg hlast]
    rfl
  have hclamped : min (⟨19727⟩ : Day) today = ⟨19727⟩ :=
    if_pos (Int.le_trans (by decide : (19727 : Int) ≤ 19732) htoday)
  rw [Texts.covered_of_no_series series_ofMidweek, held_ofMidweek, Option.bind_some, hsettled,
    Window.wanted, hclamped]
  decide

/-- The interrupted load starts from a clean key. -/
theorem Entry.clean_interrupted :
    interrupted.before.Clean Storage.memoryView ⟨"AAPL", "NYSE"⟩ where
  works := trivial
  inCalendar := by decide
  readable := Texts.readable_of_none Memory.series_ofMidweek
  tagged := by
    intro b hb
    have hnone : b ∈ (Storage.memoryView.texts Memory.ofMidweek).rows ⟨"AAPL", "NYSE"⟩ := hb
    rw [Texts.rows_of_none Memory.series_ofMidweek] at hnone
    cases hnone

/-- The Monday is answered, and the program ends where Thursday and Friday are asked for. -/
theorem Entry.ended_interrupted : interrupted.answer Storage.memory = .error .outsideCalendar
    ∧ ∃ merged, merged.answered = true
      ∧ interrupted.fetched Storage.memory = [⟨⟨⟨19723⟩, ⟨19723⟩⟩, merged⟩] := by
  have hwanted : Window.wanted (((Storage.memoryView.texts interrupted.before.state.storage).held
      interrupted.key).covered interrupted.today) interrupted.requested interrupted.today
        = [⟨⟨19723⟩, ⟨19723⟩⟩, ⟨⟨19726⟩, ⟨19727⟩⟩] := Memory.wanted_ofMidweek (by decide)
  obtain ⟨merged, m, hmonday, hanswered, hfree, hbefore⟩ :
      ∃ merged m, Engine.ofMonday.fetch? ⟨"AAPL", "NYSE", ⟨⟨19723⟩, ⟨19723⟩⟩⟩
          interrupted.before.state.market = .ok (merged, m)
        ∧ merged.answered = true ∧ (m.standing "yahoo").Free
        ∧ interrupted.before.state.market.Before m :=
    Engine.fetch?_of_answer rfl rfl rfl (fun _ _ => ⟨[], rfl⟩) (by decide) (by decide)
      (Limiter.free_empty "yahoo")
  obtain ⟨m', hrest⟩ : ∃ m', Engine.ofMonday.fetch? ⟨"AAPL", "NYSE", ⟨⟨19726⟩, ⟨19727⟩⟩⟩ m
      = .error m' :=
    Engine.fetch?_of_insisting rfl (by decide) hfree
      (Instant.le_trans (by decide) hbefore.now_le)
  have hasked : RollingStore.askFor Engine.ofMonday ⟨"AAPL", "NYSE"⟩
      [⟨⟨19723⟩, ⟨19723⟩⟩, ⟨⟨19726⟩, ⟨19727⟩⟩] interrupted.before.state.market
        = ⟨[⟨⟨⟨19723⟩, ⟨19723⟩⟩, merged⟩], some ⟨⟨19726⟩, ⟨19727⟩⟩, m'⟩ := by
    rw [RollingStore.askFor_cons_of_ok hmonday, RollingStore.askFor_cons_of_error hrest]
  have hforgotten : interrupted.before.state.Forgotten interrupted.key :=
    fun _ _ hgives => absurd hgives Memo.gives_empty
  have hkey : interrupted.key.Valid := rfl
  have hrequested : interrupted.requested.isEmpty = false := by decide
  have htrims : ((Storage.memoryView.texts interrupted.before.state.storage).held
      interrupted.key).Trims interrupted.today :=
    Memory.trims_ofMidweek clean_interrupted.inCalendar
  rcases fresh_of_forgotten hkey clean_interrupted htrims hforgotten rfl hrequested with
    ⟨report, -, hcycle⟩ | ⟨hended, -⟩
  · have hall := hcycle.asked
    rw [hwanted] at hall
    exact absurd (congrArg Asked.endedAt (hasked.symm.trans hall)) nofun
  · refine ⟨hended, merged, hanswered, ?_⟩
    unfold fetched
    rw [asked_of_clean_of_ended hkey clean_interrupted htrims hended, hwanted]
    exact congrArg Asked.fetched hasked

/-- Nothing was stored, so the Monday is passed to the engine again. -/
theorem Entry.passed_resumed :
    (⟨⟨19723⟩, ⟨19723⟩⟩ : Window) ∈ resumed.passed Storage.memory := by
  have hkey : resumed.key.Valid := rfl
  have hclean : resumed.before.Clean Storage.memoryView resumed.key :=
    Session.clean_step hkey (Entry.clean_after hkey clean_interrupted) (.reopen _ _ _ _)
  have htexts : ∀ n, resumed.key.Owns n →
      Storage.memoryView.texts resumed.before.state.storage n
        = Storage.memoryView.texts Memory.ofMidweek n := by
    have hclean : interrupted.before.Clean Storage.memoryView interrupted.key := clean_interrupted
    rcases effect_of_clean hkey hclean with ⟨htexts, -⟩ | ⟨-, report, hanswer, -⟩
    · exact htexts
    · rw [ended_interrupted.1] at hanswer
      cases hanswer
  have htoday : ⟨19732⟩ ≤ resumed.today :=
    interrupted.today_le_after Storage.memoryView clean_interrupted.toSound
  have hwanted : Window.wanted (((Storage.memoryView.texts resumed.before.state.storage).held
      resumed.key).covered resumed.today) resumed.requested resumed.today
        = [⟨⟨19723⟩, ⟨19723⟩⟩, ⟨⟨19726⟩, ⟨19727⟩⟩] := by
    rw [Texts.held_congr htexts]
    exact Memory.wanted_ofMidweek htoday
  have hforgotten : resumed.before.state.Forgotten resumed.key :=
    fun _ _ hgives => absurd hgives Memo.gives_empty
  have hrequested : resumed.requested.isEmpty = false := by decide
  have hpassed : resumed.passed Storage.memory <+: [⟨⟨19723⟩, ⟨19723⟩⟩, ⟨⟨19726⟩, ⟨19727⟩⟩]
      ∧ resumed.passed Storage.memory ≠ [] := by
    have htrims : ((Storage.memoryView.texts resumed.before.state.storage).held
        resumed.key).Trims resumed.today := by
      rw [Texts.held_congr htexts]
      exact Memory.trims_ofMidweek hclean.inCalendar
    rcases fresh_of_forgotten hkey hclean htrims hforgotten rfl hrequested with
      ⟨report, hanswer, hcycle⟩ | ⟨hended, -⟩
    · rw [passed_of_fresh _ hanswer, hcycle.map_range, hwanted]
      exact ⟨List.prefix_rfl, nofun⟩
    · unfold passed
      rw [asked_of_clean_of_ended hkey hclean htrims hended, hwanted]
      obtain ⟨hfront, hne, -⟩ := RollingStore.passed_askFor resumed.before.engine resumed.key
        [⟨⟨19723⟩, ⟨19723⟩⟩, ⟨⟨19726⟩, ⟨19727⟩⟩] resumed.before.state.market
      exact ⟨hfront, hne nofun⟩
  obtain ⟨hfront, hne⟩ := hpassed
  cases hranges : resumed.passed Storage.memory with
  | nil => exact absurd hranges hne
  | cons r rest =>
    rw [hranges] at hfront
    rw [(List.cons_prefix_cons.1 hfront).1]
    exact List.mem_cons_self

/-- If the program ends after a range was answered, nothing of that is recorded, and a later load
asks for the same settled day again. -/
theorem interrupted_day_is_asked_again :
    (∀ a ∈ Step.interruptedLoads, a.Forward)
      ∧ Entry.interrupted.before.log Storage.memory Step.interruptedLoads = [.interrupted, .resumed]
      ∧ (∃ f ∈ Entry.interrupted.fetched Storage.memory, f.merged.answered = true
        ∧ f.range.contains ⟨19723⟩ = true ∧ ⟨19723⟩ < Entry.interrupted.today)
      ∧ ∃ r ∈ Entry.resumed.passed Storage.memory, r.contains ⟨19723⟩ = true := by
  obtain ⟨-, merged, hanswered, hfetched⟩ := Entry.ended_interrupted
  refine ⟨by simp [Step.interruptedLoads, Step.Forward], rfl,
    ⟨⟨⟨⟨19723⟩, ⟨19723⟩⟩, merged⟩, ?_, hanswered, rfl, by decide⟩,
    _, Entry.passed_resumed, by decide⟩
  rw [hfetched]
  exact List.mem_singleton_self _

end DailyBars
