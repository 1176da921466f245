import DailyBars.Proofs.Store.Load

/-! # How what is held grows

A cycle leaves the rows as they are or merges the new bars into them, and leaves the span as it is
or records what is covered afterwards. From these two facts follows what is covered after a cycle,
and which row is held on which day.
-/

namespace DailyBars

/-- Every row has the ticker and the exchange of the key. -/
def Held.Tagged (h : Held) (key : SeriesKey) : Prop :=
  ∀ b ∈ h.rows, b.tagged key.symbol key.exchange = b

/-- Nothing that counts on the day lies beyond it. -/
def Held.Past (h : Held) (today : Day) : Prop :=
  ∀ d, Window.Covers (h.covered today) d → d ≤ today

/-- What is past on a day is past on every later one. -/
theorem Held.Past.mono {h : Held} {today t : Day} (hpast : h.Past today) (ht : today ≤ t) :
    h.Past t :=
  fun d hd => Int.le_trans (hpast d (h.covers_mono ht hd)) ht

/-- What a cycle with this delta leaves of what is held for a key. -/
structure Grown (key : SeriesKey) (today : Day) (h : Held) (d : Delta) (stored : Bool)
    (h' : Held) : Prop where
  sound : d.Sound
  covered : d.covered = h.covered today
  rows : h'.rows.map (Bar.tagged key.symbol key.exchange)
    = (if stored then Series.merge h.rows d.bars else h.rows).map
        (Bar.tagged key.symbol key.exchange)
  tagged : h.Tagged key → h'.Tagged key
  span : h'.span = h.span
    ∨ stored = true ∧ ∃ w, d.answered = some w ∧ h'.span = some (.of w today)

namespace Delta

/-- Ascending rows are extended by merging the new bars into them. -/
theorem extended_eq_merge {d : Delta} {rows : List Bar} (h : Series.Ascending rows) :
    d.extended rows = Series.merge rows d.bars := by
  unfold extended
  split
  next hnone => rw [List.isEmpty_iff.1 hnone, Series.merge_nil h]
  next => rfl

/-- The answered range of a sound change is not backwards. -/
theorem Sound.ordered_answered {d : Delta} (h : d.Sound) : Window.Ordered d.answered := by
  have hfold : ∀ (fetched : List Fetched) (c : Option Window),
      (∀ f ∈ fetched, f.range.first ≤ f.range.last) → Window.Ordered c →
      Window.Ordered (fetched.foldl (fun span f =>
        if f.merged.answered then Window.hull? span (some f.range) else span) c) := by
    intro fetched
    induction fetched with
    | nil => exact fun _ _ hc => hc
    | cons f rest ih =>
      intro c hordered hc
      refine ih _ (fun g hg => hordered g (by simp [hg])) ?_
      show Window.Ordered (if f.merged.answered then Window.hull? c (some f.range) else c)
      split
      · refine Window.ordered_hull? hc fun w hw => ?_
        cases hw
        exact hordered f (by simp)
      · exact hc
  exact hfold _ _ (fun f hf => h.gaps.ordered f.range (List.mem_map_of_mem hf)) h.ordered

end Delta

namespace Grown

variable {key : SeriesKey} {today : Day} {h h' : Held} {d : Delta} {stored : Bool}

/-- The new bars are dated where no row is held. -/
theorem date_ne (g : Grown key today h d stored h') {a b : Bar} (ha : a ∈ h.rows)
    (hb : b ∈ d.bars) : a.date ≠ b.date := by
  intro hdate
  refine g.sound.not_covers_date hb ?_
  rw [g.covered, ← hdate]
  exact h.covers_of_marks (Or.inl ⟨a, ha, rfl⟩)

/-- Merging the new bars into the rows adds them. -/
theorem mem_merge (g : Grown key today h d stored h') {b : Bar} :
    b ∈ Series.merge h.rows d.bars ↔ b ∈ h.rows ∨ b ∈ d.bars :=
  Series.mem_merge (Series.onePerDate_of_ascending h.ascending) g.sound.onePerDate_bars
    fun _ hx _ hy hdate => absurd hdate (g.date_ne hx hy)

/-- The rows are those held before and the bars that were stored. -/
theorem mem_rows (g : Grown key today h d stored h') {b : Bar} :
    b ∈ h'.rows.map (Bar.tagged key.symbol key.exchange) ↔
      ∃ a, (a ∈ h.rows ∨ stored = true ∧ a ∈ d.bars) ∧ a.tagged key.symbol key.exchange = b := by
  rw [g.rows, List.mem_map]
  cases stored with
  | false => simp
  | true => simp [g.mem_merge]

/-- The dates of the grown rows are those held and those stored. -/
theorem exists_date (g : Grown key today h d stored h') {x : Day} :
    (∃ b ∈ h'.rows, b.date = x)
      ↔ ∃ a, (a ∈ h.rows ∨ stored = true ∧ a ∈ d.bars) ∧ a.date = x := by
  constructor
  · rintro ⟨b, hb, rfl⟩
    obtain ⟨a, ha, hab⟩ := g.mem_rows.1 (List.mem_map_of_mem hb)
    have hdate := congrArg Bar.date hab
    exact ⟨a, ha, hdate⟩
  · rintro ⟨a, ha, rfl⟩
    obtain ⟨b, hb, hab⟩ := List.mem_map.1 (g.mem_rows.2 ⟨a, ha, rfl⟩)
    have hdate := congrArg Bar.date hab
    exact ⟨b, hb, hdate⟩

/-- Rows that were held stay as they were. -/
theorem mem_of_mem (g : Grown key today h d stored h') (htagged : h.Tagged key) {b : Bar}
    (hb : b ∈ h.rows) : b ∈ h'.rows := by
  -- written again, a row that is tagged already is the same row
  have hmem := g.mem_rows.2 ⟨b, Or.inl hb, htagged b hb⟩
  obtain ⟨c, hc, hcb⟩ := List.mem_map.1 hmem
  rw [g.tagged htagged c hc] at hcb
  exact hcb ▸ hc

/-! ## What is covered -/

/-- A cycle whose series is not stored changes nothing. -/
theorem marks_of_not_stored (g : Grown key today h d false h') {t x : Day} :
    h'.Marks t x ↔ h.Marks t x := by
  have hspan : h'.span = h.span := by
    rcases g.span with hspan | ⟨hstored, -⟩
    · exact hspan
    · cases hstored
  unfold Held.Marks
  rw [g.exists_date, hspan]
  simp

/-- What is marked afterwards is accounted for. -/
theorem covers_answered_of_marks (g : Grown key today h d stored h') {t x : Day} (ht : today ≤ t)
    (hx : h'.Marks t x) : Window.Covers d.answered x := by
  rw [g.sound.covers_answered, g.covered]
  rcases hx with hrow | ⟨s, hs, hfirst, hlast, hcheck⟩
  · obtain ⟨a, ha | ⟨-, ha⟩, rfl⟩ := g.exists_date.1 hrow
    · exact Or.inl (h.covers_of_marks (Or.inl ⟨a, ha, rfl⟩))
    · obtain ⟨f, hf, haf⟩ := Delta.mem_bars.1 ha
      exact Or.inr ⟨f, hf, g.sound.answered f hf (List.ne_nil_of_mem haf),
        g.sound.inRange f hf a haf⟩
  · rcases g.span with hspan | ⟨-, w, hw, hspan⟩
    · have hmark : h.Marks t x := Or.inr ⟨s, hspan ▸ hs, hfirst, hlast, hcheck⟩
      exact Or.inl (h.covers_of_marks (hmark.mono ht))
    · rw [hspan, Option.some.injEq] at hs
      subst hs
      rw [← g.covered, ← g.sound.covers_answered, hw]
      exact Window.covers_some.2 ⟨hfirst, hlast⟩

/-- What is covered afterwards was covered before or lies in an answered range. -/
theorem covers_answered (g : Grown key today h d stored h') {t x : Day} (ht : today ≤ t)
    (hx : Window.Covers (h'.covered t) x) : Window.Covers d.answered x := by
  obtain ⟨⟨y, hy, hyx⟩, z, hz, hxz⟩ := h'.covers_covered.1 hx
  exact Window.covers_between (g.covers_answered_of_marks ht hy) (g.covers_answered_of_marks ht hz)
    hyx hxz

/-- What is covered afterwards does not lie beyond today if nothing did and nothing was asked for
beyond it. -/
theorem le_today (g : Grown key today h d stored h') (hpast : h.Past today)
    (hranges : ∀ f ∈ d.fetched, ∀ x, f.range.contains x = true → x ≤ today) {t x : Day}
    (ht : today ≤ t) (hx : Window.Covers (h'.covered t) x) : x ≤ today := by
  rcases g.sound.covers_answered.1 (g.covers_answered ht hx) with hcovers | ⟨f, hmem, -, hfx⟩
  · exact hpast x (g.covered ▸ hcovers)
  · exact hranges f hmem x hfx

/-- If nothing was stored, what is covered stays. -/
theorem covers_of_not_stored (g : Grown key today h d false h') {t x : Day} :
    Window.Covers (h'.covered t) x ↔ Window.Covers (h.covered t) x := by
  simp only [Held.covers_covered, g.marks_of_not_stored]

/-- Once the span is recorded, what it accounts for is covered for good, up to the day of the
check. -/
theorem marks_of_recorded {w : Window} (hspan : h'.span = some (.of w today)) {t x : Day}
    (hx : Window.Covers (some w) x) (hpast : x < today ∨ t = today) : h'.Marks t x := by
  obtain ⟨hfirst, hlast⟩ := Window.covers_some.1 hx
  refine Or.inr ⟨_, hspan, hfirst, hlast, fun hlater => ?_⟩
  rcases hpast with hpast | rfl
  · exact hpast
  · exact absurd hlater (Day.lt_irrefl _)

/-- Nothing that was covered on the day of a cycle is lost afterwards. -/
theorem covers_of_covers (g : Grown key today h d stored h') {t x : Day} (ht : today ≤ t)
    (hx : ∀ u, today ≤ u → Window.Covers (h.covered u) x) (hpast : x < today) :
    Window.Covers (h'.covered t) x := by
  have hstays : ∀ {y}, (∃ b ∈ h.rows, b.date = y) → ∃ b ∈ h'.rows, b.date = y := by
    rintro y ⟨b, hb, hy⟩
    exact g.exists_date.2 ⟨b, Or.inl hb, hy⟩
  -- the span is kept, and with it its marks, or a new one accounts for more
  rcases g.span with hspan | ⟨-, w, hw, hspan⟩
  · have hmarks : ∀ {y}, h.Marks t y → h'.Marks t y := by
      rintro y (hrow | hchecked)
      · exact Or.inl (hstays hrow)
      · exact Or.inr (hspan ▸ hchecked)
    obtain ⟨⟨y, hy, hyx⟩, z, hz, hxz⟩ := h.covers_covered.1 (hx t ht)
    exact h'.covers_covered.2 ⟨⟨y, hmarks hy, hyx⟩, z, hmarks hz, hxz⟩
  · have hanswered : Window.Covers (some w) x := by
      rw [← hw, g.sound.covers_answered, g.covered]
      exact Or.inl (hx today (Int.le_refl _))
    exact h'.covers_of_marks (marks_of_recorded hspan hanswered (Or.inl hpast))

/-! ## Which row is held on a day -/

/-- The grown rows are the tagged ones among those held and stored. -/
theorem mem_rows_of_tagged (g : Grown key today h d stored h') (htagged : h.Tagged key) {b : Bar} :
    b ∈ h'.rows ↔ ∃ a, (a ∈ h.rows ∨ stored = true ∧ a ∈ d.bars)
      ∧ a.tagged key.symbol key.exchange = b := by
  rw [← g.mem_rows, List.mem_map]
  constructor
  · intro hb
    exact ⟨b, hb, g.tagged htagged b hb⟩
  · rintro ⟨c, hc, hcb⟩
    rw [g.tagged htagged c hc] at hcb
    exact hcb ▸ hc

/-- A stored series is the extended one. -/
theorem rows_of_stored (g : Grown key today h d true h') (htagged : h.Tagged key) :
    h'.rows = (d.extended h.rows).map (Bar.tagged key.symbol key.exchange) := by
  have hself : h'.rows.map (Bar.tagged key.symbol key.exchange) = h'.rows :=
    (List.map_congr_left fun b hb => g.tagged htagged b hb).trans (List.map_id h'.rows)
  rw [← hself, g.rows, if_pos rfl, Delta.extended_eq_merge h.ascending]

/-- On a day that was covered, the row stays the same. -/
theorem at?_of_covers (g : Grown key today h d stored h') (htagged : h.Tagged key) {x : Day}
    (hx : Window.Covers (h.covered today) x) : Series.at? h'.rows x = Series.at? h.rows x := by
  have hmap : Series.at? h'.rows x = (Series.at? h.rows x).map id := by
    refine Series.at?_eq_map (fun _ => rfl) (Series.onePerDate_of_ascending h'.ascending)
      (Series.onePerDate_of_ascending h.ascending) fun b hb => ?_
    rw [g.mem_rows_of_tagged htagged]
    constructor
    · rintro ⟨a, ha | ⟨-, ha⟩, rfl⟩
      · exact ⟨a, ha, (htagged a ha).symm⟩
      · refine absurd ?_ (g.sound.not_covers_date ha)
        rw [Bar.tagged_date] at hb
        rw [g.covered, hb]
        exact hx
    · rintro ⟨a, ha, rfl⟩
      exact ⟨a, Or.inl ha, htagged a ha⟩
  rw [hmap, Option.map_id, id]

/-- On a day of a range, the row is the one that came of the range. -/
theorem at?_of_fetched (g : Grown key today h d true h') (htagged : h.Tagged key) {f : Fetched}
    (hf : f ∈ d.fetched) {x : Day} (hx : f.range.contains x = true) :
    Series.at? h'.rows x
      = (Series.at? f.merged.bars x).map (Bar.tagged key.symbol key.exchange) := by
  refine Series.at?_eq_map (Bar.tagged_date key.symbol key.exchange)
    (Series.onePerDate_of_ascending h'.ascending)
    (Series.onePerDate_of_ascending (g.sound.ascending f hf)) fun b hb => ?_
  rw [g.mem_rows_of_tagged htagged]
  constructor
  · rintro ⟨a, ha, rfl⟩
    rw [Bar.tagged_date] at hb
    have hax : f.range.contains a.date = true := hb ▸ hx
    rcases ha with ha | ⟨-, ha⟩
    · refine absurd ?_ (g.sound.not_covers hf hax)
      rw [g.covered]
      exact h.covers_of_marks (Or.inl ⟨a, ha, rfl⟩)
    · exact ⟨a, (g.sound.mem_bars_of_contains hf hax).1 ha, rfl⟩
  · rintro ⟨a, ha, rfl⟩
    exact ⟨a, Or.inr ⟨rfl, Delta.mem_bars.2 ⟨f, hf, ha⟩⟩, rfl⟩

end Grown

/-! ## A cycle grows what is held -/

namespace Cycle

variable {σ ω : Type} {store : RollingStore σ ω} {view : store.storage.View} {key : SeriesKey}
  {requested : Window} {today : Day} {t : Texts} {s s' : StoreState σ ω} {report : Report}

/-- The change a load makes is sound. -/
theorem sound (h : Cycle store view key requested today t s s' report) :
    (t.delta key today report.fetched).Sound :=
  Delta.sound_askFor ((t.held key).ordered_covered today) h.asked

/-- A load fetches the wanted ranges. -/
theorem map_range (h : Cycle store view key requested today t s s' report) :
    report.fetched.map Fetched.range
      = Window.wanted ((t.held key).covered today) requested today :=
  RollingStore.map_range_askFor h.asked

/-- What is fetched does not lie beyond today. -/
theorem le_today_of_fetched (h : Cycle store view key requested today t s s' report)
    (hpast : (t.held key).Past today) {f : Fetched} (hf : f ∈ report.fetched) {x : Day}
    (hx : f.range.contains x = true) : x ≤ today := by
  have hwanted : f.range ∈ Window.wanted ((t.held key).covered today) requested today := by
    rw [← h.map_range]
    exact List.mem_map_of_mem hf
  exact Window.le_today_of_wanted ((t.held key).ordered_covered today) hpast hwanted hx

/-- The days of the fetched ranges lie in the calendar, -/
theorem inCalendar_of_mem (h : Cycle store view key requested today t s s' report)
    (hrequested : requested.InCalendar) {f : Fetched} (hf : f ∈ report.fetched) {x : Day}
    (hx : f.range.contains x = true) : x.InCalendar := by
  have hwanted : f.range ∈ Window.wanted ((t.held key).covered today) requested today := by
    rw [← h.map_range]
    exact List.mem_map_of_mem hf
  exact Window.inCalendar_of_wanted ((t.held key).ordered_covered today)
    (fun x hx => (t.held key).inCalendar_of_covers hx) hrequested hwanted hx

/-- and so do the dates of the merged rows. -/
theorem merged_inCalendar (h : Cycle store view key requested today t s s' report)
    (hrequested : requested.InCalendar) {b : Bar}
    (hb : b ∈ Series.merge (t.held key).rows (t.delta key today report.fetched).bars) :
    b.date.InCalendar := by
  rcases Series.mem_of_mem_merge hb with hb | hb
  · exact (t.held key).inCalendar b hb
  · obtain ⟨f, hf, hbf⟩ := Delta.mem_bars.1 hb
    exact h.inCalendar_of_mem hrequested hf (h.sound.inRange f hf b hbf)

/-- A recorded span has days of the calendar. -/
theorem answered_inCalendar (h : Cycle store view key requested today t s s' report)
    (hrequested : requested.InCalendar) (htoday : today.InCalendar) {w : Window}
    (hw : (t.delta key today report.fetched).answered = some w) :
    (CheckedSpan.of w today).InCalendar := by
  have hday : ∀ {x}, Window.Covers (t.delta key today report.fetched).answered x →
      x.InCalendar := by
    intro x hx
    rcases h.sound.covers_answered.1 hx with hx | ⟨f, hf, -, hx⟩
    · exact (t.held key).inCalendar_of_covers hx
    · exact h.inCalendar_of_mem hrequested hf hx
  have hordered := h.sound.ordered_answered w hw
  exact {
    first := hday ⟨w, hw, Int.le_refl _, hordered⟩
    last := hday ⟨w, hw, hordered, Int.le_refl _⟩
    checkedOn := htoday }

/-- The series afterwards: as it was found, or the extended one. -/
theorem rows_after (h : Cycle store view key requested today t s s' report)
    (hrequested : requested.InCalendar) :
    (report.stored = false ∨ (t.delta key today report.fetched).bars = [])
        ∧ (view.texts s'.storage).rows key = t.rows key
        ∧ (t.Readable key → (view.texts s'.storage).Readable key)
      ∨ report.stored = true ∧ (view.texts s'.storage).rows key
          = (Series.merge (t.held key).rows (t.delta key today report.fetched).bars).map
            (Bar.tagged key.symbol key.exchange)
        ∧ (view.texts s'.storage).Readable key := by
  have hsame : (view.texts s'.storage) key.seriesName = t key.seriesName →
      (view.texts s'.storage).rows key = t.rows key
        ∧ (t.Readable key → (view.texts s'.storage).Readable key) :=
    fun heq => ⟨Texts.rows_congr heq, Texts.readable_congr heq⟩
  rcases h.written.series with ⟨hnone, -, heq⟩ | ⟨hsome, hstored, heq⟩ | ⟨-, hlost, heq⟩
  · exact Or.inl ⟨Or.inr hnone, hsame heq⟩
  · exact Or.inr ⟨hstored, Texts.rows_of_encode heq (Series.merge_ne_nil _ hsome)
      (Series.ascending_merge _ _) fun b hb => h.merged_inCalendar hrequested hb⟩
  · exact Or.inl ⟨Or.inl hlost, hsame heq⟩

/-- A key that can be read can be read after a load. -/
theorem readable_after (h : Cycle store view key requested today t s s' report)
    (hrequested : requested.InCalendar) (hreadable : t.Readable key) :
    (view.texts s'.storage).Readable key := by
  rcases h.rows_after hrequested with ⟨-, -, hsame⟩ | ⟨-, -, hwritten⟩
  · exact hsame hreadable
  · exact hwritten

/-- **A load grows what is held** by the change it makes. -/
theorem grown (h : Cycle store view key requested today t s s' report)
    (hrequested : requested.InCalendar) (htoday : today.InCalendar) :
    Grown key today (t.held key) (t.delta key today report.fetched) report.stored
      ((view.texts s'.storage).held key) where
  sound := h.sound
  covered := rfl
  rows := by
    show ((view.texts s'.storage).rows key).map _ = _
    rcases h.rows_after hrequested with ⟨hsame, hrows, -⟩ | ⟨hstored, hrows, -⟩
    · rw [hrows]
      split
      next hstored =>
        have hnone : (t.delta key today report.fetched).bars = [] := by
          rcases hsame with hlost | hnone
          · rw [hstored] at hlost
            cases hlost
          · exact hnone
        rw [hnone, Series.merge_nil (t.held key).ascending]
        rfl
      next => rfl
    · rw [hrows, if_pos hstored, List.map_map]
      rfl
  tagged := by
    intro htagged b hb
    have hb' : b ∈ (view.texts s'.storage).rows key := hb
    rcases h.rows_after hrequested with ⟨-, hrows, -⟩ | ⟨-, hrows, -⟩
    · rw [hrows] at hb'
      exact htagged b hb'
    · rw [hrows] at hb'
      obtain ⟨a, -, rfl⟩ := List.mem_map.1 hb'
      rfl
  span := by
    rcases h.written.span with hsame | ⟨hstored, w, hw, -, htext⟩
    · exact Or.inl (Texts.span?_congr hsame)
    · exact Or.inr ⟨hstored, w, hw,
        Texts.span?_of_toJson htext (h.answered_inCalendar hrequested htoday hw)⟩

/-- If no write fails, the series is stored, and a span that grew is recorded. -/
theorem recorded (h : Cycle store view key requested today t s s' report)
    (hrequested : requested.InCalendar) (htoday : today.InCalendar) (hreliable : view.Reliable) :
    report.stored = true ∧ ∀ w, (t.delta key today report.fetched).answered = some w →
      (t.delta key today report.fetched).answered ≠ (t.held key).covered today →
      ((view.texts s'.storage).held key).span = some (.of w today) := by
  obtain ⟨hstored, hspan⟩ := h.written.reliable hreliable
  exact ⟨hstored, fun w hw hgrown =>
    Texts.span?_of_toJson (hspan w hw hgrown) (h.answered_inCalendar hrequested htoday hw)⟩

/-- Files of other keys are left alone. -/
theorem others (h : Cycle store view key requested today t s s' report) {n : String}
    (hn : IsFile n) (howns : ¬ key.Owns n) :
    view.texts s'.storage n = view.texts s.storage n := by
  rw [h.written.others n howns, h.cleared.others n hn howns]

end Cycle
end DailyBars
