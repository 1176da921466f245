import DailyBars.Proofs.Store.Coverage
import DailyBars.Proofs.Store.View

/-! # What is held for a key

The texts of a key stand for rows and a checked span. On a day they cover the days between the
days they mark, where a mark is the date of a row or a day for which the span still counts.
-/

namespace DailyBars

/-- A series and a checked span of days of the calendar. -/
structure Held where
  rows : List Bar
  span : Option CheckedSpan
  ascending : Series.Ascending rows
  inCalendar : ∀ b ∈ rows, b.date.InCalendar
  spanInCalendar : ∀ s, span = some s → s.InCalendar

/-- There is a span, it was checked on the first day of the calendar, and that day is over. -/
def CheckedSpan.FromFirstDay (checked : Option CheckedSpan) (today : Day) : Prop :=
  ∃ span, checked = some span ∧ span.checkedOn = Day.earliest ∧ today ≠ Day.earliest

namespace Held

/-- The window that is accounted for on a day. -/
def covered (h : Held) (today : Day) : Option Window :=
  Window.hull? (Series.span h.rows) (h.span.bind (·.settled today))

/-- What still counts of the span can be worked out on the day without leaving the calendar. -/
def Trims (h : Held) (today : Day) : Prop :=
  (CheckedSpan.settledOf? h.span today).isSome = true

instance (h : Held) (today : Day) : Decidable (h.Trims today) :=
  inferInstanceAs (Decidable (_ = true))

/-- Then it is what counts of it. -/
theorem Trims.settledOf? {h : Held} {today : Day} (htrims : h.Trims today) :
    CheckedSpan.settledOf? h.span today = some (h.span.bind (·.settled today)) := by
  obtain ⟨w, hw⟩ := Option.isSome_iff_exists.1 htrims
  rw [hw, CheckedSpan.eq_of_settledOf? hw]

/-- Nothing is trimmed of no span. -/
theorem trims_of_no_span {h : Held} (hspan : h.span = none) (today : Day) : h.Trims today := by
  rw [Trims, hspan]
  rfl

/-- Nothing is trimmed of a span on the day of its check. -/
theorem trims_of_checked {h : Held} {s : CheckedSpan} (hspan : h.span = some s) :
    h.Trims s.checkedOn := by
  have hnow : ¬ s.checkedOn < s.checkedOn := Int.lt_irrefl _
  rw [Trims, hspan, CheckedSpan.settledOf?, CheckedSpan.settled?_eq_ite,
    if_neg fun h => hnow h.1.1]
  rfl

/-- Only a span from the first day of the calendar cannot be trimmed. -/
theorem trims_iff (h : Held) {today : Day} (htoday : today.InCalendar) :
    h.Trims today ↔ ¬ CheckedSpan.FromFirstDay h.span today := by
  have hearliest : Day.earliest.number = -96465292 := rfl
  rw [Day.inCalendar_iff] at htoday
  unfold CheckedSpan.FromFirstDay
  push Not
  cases hspan : h.span with
  | none => exact iff_of_true (trims_of_no_span hspan today) fun _ h => absurd h.symm (by simp)
  | some s =>
    have hs := h.spanInCalendar s hspan
    have hcheck := hs.checkedOn
    have hlast := hs.last
    rw [Day.inCalendar_iff] at hcheck hlast
    rw [Trims, hspan, CheckedSpan.settledOf?, CheckedSpan.settled?_eq_ite]
    simp only [Option.some.injEq, forall_eq', Day.lt_def, Day.le_def, Day.ext_iff,
      Day.inCalendar_iff, Day.previous_number, hearliest]
    split
    next htrim =>
      refine iff_of_false Bool.false_ne_true fun h => ?_
      omega
    next hno =>
      refine iff_of_true rfl fun hfirst => ?_
      omega

/-- A row is dated on the day, or the span counts for it. -/
def Marks (h : Held) (today d : Day) : Prop :=
  (∃ b ∈ h.rows, b.date = d)
    ∨ ∃ s, h.span = some s ∧ s.first ≤ d ∧ d ≤ s.last ∧ (s.checkedOn < today → d < s.checkedOn)

/-- The settled part of a span is its days, only those before the check once a later day has come.
-/
theorem covers_span? (h : Held) {today d : Day} :
    Window.Covers (h.span.bind (·.settled today)) d
      ↔ ∃ s, h.span = some s ∧ s.first ≤ d ∧ d ≤ s.last
        ∧ (s.checkedOn < today → d < s.checkedOn) := by
  cases h.span with
  | none => simp
  | some s => simp [CheckedSpan.covers_settled]

/-- The settled part of a span is not backwards, -/
theorem ordered_span? (h : Held) (today : Day) :
    Window.Ordered (h.span.bind (·.settled today)) := by
  cases h.span with
  | none =>
    intro w hw
    cases hw
  | some s => exact s.ordered_settled today

/-- and neither is what is covered. -/
theorem ordered_covered (h : Held) (today : Day) : Window.Ordered (h.covered today) :=
  Window.ordered_hull? (Series.ordered_span h.ascending) (h.ordered_span? today)

/-- What is covered lies between marks. -/
theorem covers_covered (h : Held) {today d : Day} :
    Window.Covers (h.covered today) d
      ↔ (∃ x, h.Marks today x ∧ x ≤ d) ∧ ∃ y, h.Marks today y ∧ d ≤ y := by
  rw [covered, Window.covers_hull? (Series.ordered_span h.ascending) (h.ordered_span? today)]
  simp only [h.covers_span?, Series.covers_span h.ascending]
  constructor
  · rintro ⟨⟨x, hx, hxd⟩, y, hy, hdy⟩
    refine ⟨?_, ?_⟩
    · rcases hx with ⟨a, ha, -, -, hax, -⟩ | hx
      · exact ⟨a.date, Or.inl ⟨a, ha, rfl⟩, Int.le_trans hax hxd⟩
      · exact ⟨x, Or.inr hx, hxd⟩
    · rcases hy with ⟨-, -, b, hb, -, hby⟩ | hy
      · exact ⟨b.date, Or.inl ⟨b, hb, rfl⟩, Int.le_trans hdy hby⟩
      · exact ⟨y, Or.inr hy, hdy⟩
  · have hmark : ∀ {x}, h.Marks today x →
        (∃ a ∈ h.rows, ∃ b ∈ h.rows, a.date ≤ x ∧ x ≤ b.date) ∨ ∃ s, h.span = some s
          ∧ s.first ≤ x ∧ x ≤ s.last ∧ (s.checkedOn < today → x < s.checkedOn) := by
      rintro x (⟨b, hb, rfl⟩ | hx)
      · exact Or.inl ⟨b, hb, b, hb, Int.le_refl _, Int.le_refl _⟩
      · exact Or.inr hx
    rintro ⟨⟨x, hx, hxd⟩, y, hy, hdy⟩
    exact ⟨⟨x, hmark hx, hxd⟩, y, hmark hy, hdy⟩

/-- Every marked day is covered. -/
theorem covers_of_marks (h : Held) {today d : Day} (hd : h.Marks today d) :
    Window.Covers (h.covered today) d :=
  h.covers_covered.2 ⟨⟨d, hd, Int.le_refl _⟩, d, hd, Int.le_refl _⟩

/-- What counts on a day counted on every day before it. -/
theorem Marks.mono {h : Held} {t today d : Day} (hle : t ≤ today) (hd : h.Marks today d) :
    h.Marks t d := by
  rcases hd with hrow | ⟨s, hs, hfirst, hlast, hcheck⟩
  · exact Or.inl hrow
  · refine Or.inr ⟨s, hs, hfirst, hlast, fun hlt => hcheck ?_⟩
    simp only [Day.lt_def, Day.le_def] at hlt hle ⊢
    omega

/-- What is covered on a day was covered on every earlier one. -/
theorem covers_mono (h : Held) {t today d : Day} (hle : t ≤ today)
    (hd : Window.Covers (h.covered today) d) : Window.Covers (h.covered t) d := by
  obtain ⟨⟨x, hx, hxd⟩, y, hy, hdy⟩ := h.covers_covered.1 hd
  exact h.covers_covered.2 ⟨⟨x, hx.mono hle, hxd⟩, y, hy.mono hle, hdy⟩

/-- Covered days lie in the calendar. -/
theorem inCalendar_of_covers (h : Held) {today d : Day} (hd : Window.Covers (h.covered today) d) :
    d.InCalendar := by
  have hmark : ∀ {x}, h.Marks today x → x.InCalendar := by
    rintro x (⟨b, hb, rfl⟩ | ⟨s, hs, hfirst, hlast, -⟩)
    · exact h.inCalendar b hb
    · have hspan := h.spanInCalendar s hs
      exact ⟨Int.le_trans hspan.first.1 hfirst, Int.le_trans hlast hspan.last.2⟩
  obtain ⟨⟨x, hx, hxd⟩, y, hy, hdy⟩ := h.covers_covered.1 hd
  exact ⟨Int.le_trans (hmark hx).1 hxd, Int.le_trans hdy (hmark hy).2⟩

end Held

/-! ## Read from texts -/

namespace Texts

/-- The rows of the series of a key. A text that is no series has none. -/
def rows (t : Texts) (key : SeriesKey) : List Bar :=
  match t key.seriesName with
  | none => []
  | some text =>
    match Series.decode text key.exchange with
    | .ok bars => Series.keepFirst bars
    | .error _ => []

/-- The checked span of a key. -/
def span? (t : Texts) (key : SeriesKey) : Option CheckedSpan :=
  (t key.spanName).bind CheckedSpan.parse?

/-- If there is a text for the series of a key, it is a series. -/
def Readable (t : Texts) (key : SeriesKey) : Prop :=
  ∀ text, t key.seriesName = some text → ∃ bars, Series.decode text key.exchange = .ok bars

/-- Every row comes from the stored text. -/
theorem mem_rows {t : Texts} {key : SeriesKey} {b : Bar} (h : b ∈ t.rows key) :
    ∃ text bars, t key.seriesName = some text ∧ Series.decode text key.exchange = .ok bars
      ∧ b ∈ bars := by
  unfold rows at h
  split at h
  · cases h
  next text htext =>
    split at h
    next bars hbars => exact ⟨text, bars, htext, hbars, Series.mem_of_mem_keepFirst h⟩
    next => cases h

/-- The rows of the texts are ascending. -/
theorem ascending_rows (t : Texts) (key : SeriesKey) : Series.Ascending (t.rows key) := by
  unfold rows
  split
  · exact List.Pairwise.nil
  · split
    · exact Series.ascending_keepFirst _
    · exact List.Pairwise.nil

/-- What the texts hold for a key. -/
def held (t : Texts) (key : SeriesKey) : Held where
  rows := t.rows key
  span := t.span? key
  ascending := t.ascending_rows key
  inCalendar := by
    intro b hb
    obtain ⟨text, bars, -, hbars, hmem⟩ := mem_rows hb
    exact Series.inCalendar_of_decode hbars hmem
  spanInCalendar := by
    intro s hs
    rw [span?, Option.bind_eq_some_iff] at hs
    obtain ⟨text, -, hparse⟩ := hs
    exact CheckedSpan.inCalendar_of_parse? hparse

/-- The rows depend only on the series text, -/
theorem rows_congr {t t' : Texts} {key : SeriesKey} (h : t' key.seriesName = t key.seriesName) :
    t'.rows key = t.rows key := by
  rw [rows, rows, h]

/-- and the span only on the span text. -/
theorem span?_congr {t t' : Texts} {key : SeriesKey} (h : t' key.spanName = t key.spanName) :
    t'.span? key = t.span? key := by
  rw [span?, span?, h]

/-- What is held of a key depends only on the texts it owns. -/
theorem held_congr {t t' : Texts} {key : SeriesKey} (h : ∀ n, key.Owns n → t' n = t n) :
    t'.held key = t.held key := by
  have hrows : t'.rows key = t.rows key := rows_congr (h _ (Or.inl rfl))
  have hspan : t'.span? key = t.span? key := span?_congr (h _ (Or.inr rfl))
  simp only [held, hrows, hspan]

/-- Whether a key can be read depends only on its series text. -/
theorem readable_congr {t t' : Texts} {key : SeriesKey}
    (h : t' key.seriesName = t key.seriesName) (hreadable : t.Readable key) : t'.Readable key := by
  intro text htext
  rw [h] at htext
  exact hreadable text htext

/-- Without a series text there are no rows, -/
theorem rows_of_none {t : Texts} {key : SeriesKey} (h : t key.seriesName = none) :
    t.rows key = [] := by
  rw [rows, h]

/-- A text that is a series has its rows. -/
theorem rows_of_ok {t : Texts} {key : SeriesKey} {text : String} {bars : List Bar}
    (htext : t key.seriesName = some text) (h : Series.decode text key.exchange = .ok bars) :
    t.rows key = Series.keepFirst bars ∧ t.Readable key := by
  refine ⟨?_, fun text' htext' => ?_⟩
  · rw [rows, htext]
    simp only [h]
  · rw [htext, Option.some.injEq] at htext'
    exact ⟨bars, htext' ▸ h⟩

/-- A text that is no series has no rows. -/
theorem rows_of_error {t : Texts} {key : SeriesKey} {text : String} {fault : SeriesFault}
    (htext : t key.seriesName = some text) (h : Series.decode text key.exchange = .error fault) :
    t.rows key = [] ∧ ¬ t.Readable key := by
  refine ⟨?_, fun hreadable => ?_⟩
  · rw [rows, htext]
    simp only [h]
  · obtain ⟨bars, hbars⟩ := hreadable text htext
    rw [h] at hbars
    cases hbars

/-- without a span text there is no span, -/
theorem span?_of_none {t : Texts} {key : SeriesKey} (h : t key.spanName = none) :
    t.span? key = none := by
  rw [span?, h, Option.bind_none]

/-- so that none has to be trimmed. -/
theorem trims_of_none {t : Texts} {key : SeriesKey} (h : t key.spanName = none) (today : Day) :
    (t.held key).Trims today :=
  Held.trims_of_no_span (span?_of_none h) today

/-- A span that was checked on another day than the first one can be trimmed. -/
theorem trims_of_span? {t : Texts} {key : SeriesKey} {s : CheckedSpan} (h : t.span? key = some s)
    (hlater : s.checkedOn ≠ Day.earliest) {today : Day} (htoday : today.InCalendar) :
    (t.held key).Trims today := by
  rw [Held.trims_iff _ htoday]
  rintro ⟨span, hspan, hfirst, -⟩
  rw [← Option.some.inj (h.symm.trans hspan)] at hfirst
  exact hlater hfirst

/-- Without a series the span alone counts. -/
theorem covered_of_no_series {t : Texts} {key : SeriesKey} (hseries : t key.seriesName = none)
    (today : Day) : (t.held key).covered today = (t.span? key).bind (·.settled today) := by
  have hrows : (t.held key).rows = [] := rows_of_none hseries
  have hspan : (t.held key).span = t.span? key := rfl
  rw [Held.covered, hrows, hspan]
  rfl

/-- Without a span the rows alone count. -/
theorem covered_of_no_span {t : Texts} {key : SeriesKey} (hspan : t key.spanName = none)
    (today : Day) : (t.held key).covered today = Series.span (t.rows key) := by
  have hrows : (t.held key).rows = t.rows key := rfl
  have hnone : (t.held key).span = none := span?_of_none hspan
  rw [Held.covered, hrows, hnone]
  cases Series.span (t.rows key) <;> rfl

/-- Nothing is covered where nothing is stored. -/
theorem covered_of_none {t : Texts} {key : SeriesKey} (hseries : t key.seriesName = none)
    (hspan : t key.spanName = none) (today : Day) : (t.held key).covered today = none := by
  rw [covered_of_no_series hseries, span?_of_none hspan, Option.bind_none]

/-- and what is not there can be read. -/
theorem readable_of_none {t : Texts} {key : SeriesKey} (h : t key.seriesName = none) :
    t.Readable key := by
  intro text htext
  rw [h] at htext
  cases htext

/-- A written series is held with the ticker and the exchange of its key. -/
theorem rows_of_encode {t : Texts} {key : SeriesKey} {bars : List Bar}
    (h : t key.seriesName = some (Series.encode bars key.symbol)) (hne : bars ≠ [])
    (hasc : Series.Ascending bars) (hin : ∀ b ∈ bars, b.date.InCalendar) :
    t.rows key = bars.map (Bar.tagged key.symbol key.exchange) ∧ t.Readable key := by
  have hdecode := Series.decode_encode hne hin key.symbol key.exchange
  rw [(rows_of_ok h hdecode).1]
  exact ⟨Series.keepFirst_of_ascending (Series.ascending_tagged hasc _ _), (rows_of_ok h hdecode).2⟩

/-- A written span is held. -/
theorem span?_of_toJson {t : Texts} {key : SeriesKey} {s : CheckedSpan}
    (h : t key.spanName = some s.toJson) (hs : s.InCalendar) : t.span? key = some s := by
  rw [span?, h, Option.bind_some, CheckedSpan.parse?_toJson hs]

end Texts
end DailyBars
