import DailyBars.Proofs.Bar.Series
import DailyBars.Proofs.Rows
import DailyBars.Provider.Yahoo

/-! # The period of a chart and the dates in it

A chart is asked for from midnight to midnight in universal time, and the bars in it are dated in
the time of their exchange. The two agree on what belongs to a window but for its edges: east of
Greenwich the first day begins before the period does, and west of it the last day ends after the
period. A bar of such an hour is not asked for, although it would be dated in the window.
-/

namespace DailyBars.Yahoo

variable {w : Window} {offset stamp : Int} {d : Day}

/-! ## Timestamps -/

/-- The timestamp lies in the period that is asked for. -/
def Asked (w : Window) (stamp : Int) : Prop := (period w).1 ≤ stamp ∧ stamp ≤ (period w).2

instance (w : Window) (stamp : Int) : Decidable (Asked w stamp) :=
  inferInstanceAs (Decidable (_ ∧ _))

/-- The seconds since midnight in the time of the exchange. -/
def timeOfDay (offset stamp : Int) : Int := (stamp + offset) % 86400

/-- A timestamp of the day that comes before the period for the window begins or after it has
ended. -/
def Missed (w : Window) (offset stamp : Int) (d : Day) : Prop :=
  d = w.first ∧ timeOfDay offset stamp < offset
    ∨ d = w.last ∧ 86400 + offset ≤ timeOfDay offset stamp

/-- The stamps asked for are those of the days of the window, in universal time. -/
theorem asked_iff : Asked w stamp
    ↔ w.first.number * 86400 ≤ stamp ∧ stamp < (w.last.number + 1) * 86400 := by
  simp only [Asked, period, Instant.ofDay, Instant.seconds]
  omega

/-- The date of a stamp is the local one, with the time of day left over. -/
theorem dateOf?_eq_some : dateOf? offset stamp = some d
    ↔ stamp + offset = d.number * 86400 + timeOfDay offset stamp ∧ d.InCalendar := by
  rw [dateOf?, Day.ofNumber?, timeOfDay]
  constructor
  · intro h
    split at h
    next hin =>
      cases h
      exact ⟨by simp only; omega, hin⟩
    next => cases h
  · rintro ⟨hnumber, hin⟩
    have hday : (stamp + offset) / 86400 = d.number := by omega
    rw [hday, if_pos hin]

/-- A timestamp of a day of the window is asked for unless it is missed. -/
theorem asked_iff_not_missed (hlo : -86400 ≤ offset) (hhi : offset ≤ 86400)
    (hdate : dateOf? offset stamp = some d) (hd : w.contains d = true) :
    Asked w stamp ↔ ¬ Missed w offset stamp d := by
  obtain ⟨hnumber, -⟩ := dateOf?_eq_some.1 hdate
  have htime : 0 ≤ timeOfDay offset stamp ∧ timeOfDay offset stamp < 86400 :=
    ⟨Int.emod_nonneg _ (by decide), Int.emod_lt_of_pos _ (by decide)⟩
  have hfirst : d = w.first ↔ d.number = w.first.number := ⟨fun h => by rw [h], Day.ext⟩
  have hlast : d = w.last ↔ d.number = w.last.number := ⟨fun h => by rw [h], Day.ext⟩
  simp only [Window.contains, Bool.and_eq_true, decide_eq_true_eq, Day.le_def] at hd
  rw [asked_iff, Missed, hfirst, hlast]
  omega

/-! ## Charts -/

/-- What the provider has for one timestamp. -/
structure Tick where
  stamp : Int
  openPrice : Option Float
  high : Option Float
  low : Option Float
  close : Option Float
  volume : Option UInt64

/-- The bar of a tick, if it has a close. -/
def Tick.bar? (t : Tick) (date : Day) (symbol exchange : String) : Option Bar :=
  t.close.map fun close =>
    { date
      openPrice := t.openPrice.getD close
      high := t.high.getD close
      low := t.low.getD close
      close
      volume := t.volume.getD 0
      symbol, exchange, source := id }

/-- The bar of a tick has the date it is given. -/
theorem Tick.date_of_bar? {t : Tick} {symbol exchange : String} {b : Bar}
    (h : t.bar? d symbol exchange = some b) : b.date = d := by
  obtain ⟨close, -, rfl⟩ := Option.map_eq_some_iff.1 h
  rfl

/-- The day of a tick in the time of the exchange. -/
def Tick.day (offset : Int) (t : Tick) : Day := ⟨(t.stamp + offset) / 86400⟩

/-- The columns of ticks. -/
def Quote.ofTicks (ticks : List Tick) : Quote where
  openPrice := (ticks.map Tick.openPrice).toArray
  high := (ticks.map Tick.high).toArray
  low := (ticks.map Tick.low).toArray
  close := (ticks.map Tick.close).toArray
  volume := (ticks.map Tick.volume).toArray

/-- The chart of ticks at an exchange. -/
def ChartSeries.ofTicks (offset : Int) (ticks : List Tick) : ChartSeries where
  offset := some offset
  timestamps := some (ticks.map Tick.stamp)
  quotes := [.ofTicks ticks]

/-- The ticks that a request for the window is answered with. -/
def answerTo (w : Window) (ticks : List Tick) : List Tick := ticks.filter fun t => Asked w t.stamp

/-- The columns of ticks give their bars. -/
theorem Quote.bar?_ofTicks (ticks : List Tick) (i : Nat) (hi : i < ticks.length) (date : Day)
    (symbol exchange : String) :
    (Quote.ofTicks ticks).bar? i date symbol exchange = ticks[i].bar? date symbol exchange := by
  simp [Quote.bar?, Quote.ofTicks, Tick.bar?, hi]

/-- The bars of ticks, each dated in the time of the exchange. -/
def barsOf (offset : Int) (ticks : List Tick) (symbol exchange : String) : List Bar :=
  ticks.filterMap fun t => t.bar? (t.day offset) symbol exchange

/-- A stamp has at most one date. -/
theorem eq_of_dateOf? (h : dateOf? offset stamp = some d) : d = ⟨(stamp + offset) / 86400⟩ := by
  obtain ⟨hnumber, -⟩ := dateOf?_eq_some.1 h
  apply Day.ext
  rw [timeOfDay] at hnumber
  simp only
  omega

/-- Ticks that all have a date are read one by one. -/
theorem rows_ofTicks {ticks : List Tick} (h : ∀ t ∈ ticks, ∃ d, dateOf? offset t.stamp = some d)
    (symbol exchange : String) :
    (Quote.ofTicks ticks).rows offset (ticks.map Tick.stamp) symbol exchange
      = .ok (ticks.map fun t => t.bar? (t.day offset) symbol exchange) := by
  have hdate : ∀ entry ∈ (ticks.map Tick.stamp).zipIdx,
      dateOf? offset entry.1 = some ⟨(entry.1 + offset) / 86400⟩ := by
    intro entry hentry
    obtain ⟨t, ht, hstamp⟩ := List.mem_map.1 (List.fst_mem_of_mem_zipIdx hentry)
    obtain ⟨d, hd⟩ := h t ht
    rw [hstamp] at hd
    rw [hd, ← eq_of_dateOf? hd]
  rw [Quote.rows]
  refine (mapM_eq_pure_map (g := fun entry => (Quote.ofTicks ticks).bar? entry.2
    ⟨(entry.1 + offset) / 86400⟩ symbol exchange) ?_).trans (congrArg Except.ok ?_)
  · rintro ⟨timestamp, position⟩ hentry
    simp only [hdate _ hentry]
    rfl
  · apply List.ext_getElem
    · simp
    · intro i hi hi'
      rw [List.length_map] at hi'
      simp only [List.getElem_map, List.getElem_zipIdx, Nat.zero_add]
      exact Quote.bar?_ofTicks ticks i hi' _ symbol exchange

/-- A chart of ticks that all have a date gives the first bar of each date. -/
theorem bars_ofTicks {ticks : List Tick} (h : ∀ t ∈ ticks, ∃ d, dateOf? offset t.stamp = some d)
    (symbol exchange : String) :
    (ChartSeries.ofTicks offset ticks).bars symbol exchange
      = .ok (Series.keepFirst (barsOf offset ticks symbol exchange)) := by
  show ((Quote.ofTicks ticks).rows offset (ticks.map Tick.stamp) symbol exchange).map _ = _
  rw [rows_ofTicks h symbol exchange, Except.map, barsOf, List.filterMap_map]
  rfl

/-- The bars of a tick come before those of the others. -/
theorem barsOf_cons (offset : Int) (t : Tick) (ticks : List Tick) (symbol exchange : String) :
    barsOf offset (t :: ticks) symbol exchange
      = (t.bar? (t.day offset) symbol exchange).toList ++ barsOf offset ticks symbol exchange := by
  unfold barsOf
  rw [List.filterMap_cons]
  cases t.bar? (t.day offset) symbol exchange with
  | none => rfl
  | some b => rfl

/-- The bar of a date is that of the first tick dated there that has one. -/
theorem at?_barsOf (offset : Int) (ticks : List Tick) (symbol exchange : String) (d : Day) :
    Series.at? (barsOf offset ticks symbol exchange) d
      = (ticks.filter fun t => t.day offset = d).findSome? fun t =>
          t.bar? d symbol exchange := by
  induction ticks with
  | nil => rfl
  | cons t ticks ih =>
    rw [barsOf_cons, Series.at?_append, ih]
    by_cases hd : t.day offset = d
    · rw [List.filter_cons_of_pos (by simpa using hd), List.findSome?_cons, hd]
      cases hbar : t.bar? d symbol exchange with
      | none => rfl
      | some b => simp [Series.at?, Tick.date_of_bar? hbar]
    · rw [List.filter_cons_of_neg (by simpa using hd)]
      cases hbar : t.bar? (t.day offset) symbol exchange with
      | none => rfl
      | some b => simp [Series.at?, Tick.date_of_bar? hbar, hd]

/-- If every tick of a date is asked for, nothing of it is lost. -/
theorem at?_answerTo_of_asked {ticks : List Tick} {symbol exchange : String}
    (h : ∀ t ∈ ticks, t.day offset = d → Asked w t.stamp) :
    Series.at? (barsOf offset (answerTo w ticks) symbol exchange) d
      = Series.at? (barsOf offset ticks symbol exchange) d := by
  have hticks : (answerTo w ticks).filter (fun t => t.day offset = d)
      = ticks.filter fun t => t.day offset = d := by
    rw [answerTo, List.filter_filter]
    apply List.filter_congr
    intro t ht
    by_cases hd : t.day offset = d
    · simp [hd, h t ht hd]
    · simp [hd]
  rw [at?_barsOf, at?_barsOf, hticks]

/-- If no tick of a date is asked for, there is no bar on it. -/
theorem at?_answerTo_of_not_asked {ticks : List Tick} {symbol exchange : String}
    (h : ∀ t ∈ ticks, t.day offset = d → ¬ Asked w t.stamp) :
    Series.at? (barsOf offset (answerTo w ticks) symbol exchange) d = none := by
  have hticks : (answerTo w ticks).filter (fun t => t.day offset = d)
      = [] := by
    rw [answerTo, List.filter_filter, List.filter_eq_nil_iff]
    intro t ht hboth
    simp only [Bool.and_eq_true, decide_eq_true_eq] at hboth
    exact h t ht hboth.1 hboth.2
  rw [at?_barsOf, hticks]
  rfl

/-! ## Requests and answers -/

/-- How the period for a window goes together with the dates at an exchange. -/
structure AsksByMidnight (w : Window) (offset : Int) : Prop where
  asked : ∀ stamp d, dateOf? offset stamp = some d → w.contains d = true →
    (Asked w stamp ↔ ¬ Missed w offset stamp d)
  /-- Only where clocks show universal time is every bar of the window asked for. -/
  agree : (∀ stamp d, dateOf? offset stamp = some d → w.contains d = true → Asked w stamp)
    ↔ offset = 0
  /-- Days lose the bars that are missed and no others. -/
  answered : ∀ ticks symbol exchange, (∀ t ∈ ticks, ∃ d, dateOf? offset t.stamp = some d) →
    ∃ bars answer, (ChartSeries.ofTicks offset ticks).bars symbol exchange = .ok bars
      ∧ (ChartSeries.ofTicks offset (answerTo w ticks)).bars symbol exchange = .ok answer
      ∧ ∀ d, w.contains d = true →
        ((∀ t ∈ ticks, dateOf? offset t.stamp = some d → ¬ Missed w offset t.stamp d) →
          Series.at? answer d = Series.at? bars d)
        ∧ ((∀ t ∈ ticks, dateOf? offset t.stamp = some d → Missed w offset t.stamp d) →
          Series.at? answer d = none)

/-- At an exchange whose clocks show another time, some timestamp of an edge is not asked for. -/
theorem exists_not_asked (hw : w.isEmpty = false) (hfirst : w.first.InCalendar)
    (hlast : w.last.InCalendar) (hne : offset ≠ 0) :
    ∃ stamp d, dateOf? offset stamp = some d ∧ w.contains d = true ∧ ¬ Asked w stamp := by
  simp only [Window.isEmpty, decide_eq_false_iff_not, Day.lt_def] at hw
  rcases Int.lt_or_gt_of_ne hne with hwest | heast
  · -- a second before midnight of the last day
    refine ⟨w.last.number * 86400 + 86399 - offset, w.last, ?_, ?_, ?_⟩
    · rw [dateOf?_eq_some, timeOfDay]
      exact ⟨by omega, hlast⟩
    · simp only [Window.contains, Bool.and_eq_true, decide_eq_true_eq, Day.le_def]
      omega
    · rw [asked_iff]
      omega
  · -- midnight of the first day
    refine ⟨w.first.number * 86400 - offset, w.first, ?_, ?_, ?_⟩
    · rw [dateOf?_eq_some, timeOfDay]
      exact ⟨by omega, hfirst⟩
    · simp only [Window.contains, Bool.and_eq_true, decide_eq_true_eq, Day.le_def]
      omega
    · rw [asked_iff]
      omega

/-- Without an offset, a stamp dated in the window is asked for. -/
theorem asked_of_universal (hdate : dateOf? 0 stamp = some d) (hd : w.contains d = true) :
    Asked w stamp := by
  rw [asked_iff_not_missed (by decide) (by decide) hdate hd, Missed, timeOfDay]
  omega

/-- **The edges of a window are asked for in universal time.** At an exchange between twelve hours
behind and fourteen hours ahead of universal time, a request for a window covers its bars but for
those of the first day before the period begins and those of the last day after it has ended, which
are dated in the window all the same. With them their day is missing in the answer. -/
theorem chart_asks_by_midnight (hw : w.isEmpty = false) (hfirst : w.first.InCalendar)
    (hlast : w.last.InCalendar) (hlo : -43200 ≤ offset) (hhi : offset ≤ 50400) :
    AsksByMidnight w offset := by
  have hasked : ∀ stamp d, dateOf? offset stamp = some d → w.contains d = true →
      (Asked w stamp ↔ ¬ Missed w offset stamp d) := by
    intro stamp d hdate hd
    exact asked_iff_not_missed (by omega) (by omega) hdate hd
  refine ⟨hasked, ⟨fun hall => ?_, fun hzero stamp d hdate hd => ?_⟩,
    fun ticks symbol exchange hdated => ?_⟩
  · by_cases hzero : offset = 0
    · exact hzero
    · obtain ⟨stamp, d, hdate, hd, hnot⟩ := exists_not_asked hw hfirst hlast hzero
      exact absurd (hall stamp d hdate hd) hnot
  · subst hzero
    exact asked_of_universal hdate hd
  · have hday : ∀ t ∈ ticks, dateOf? offset t.stamp = some (t.day offset) := by
      intro t ht
      obtain ⟨d, hd⟩ := hdated t ht
      rw [hd, eq_of_dateOf? hd, Tick.day]
    have hanswer : ∀ t ∈ answerTo w ticks, ∃ d, dateOf? offset t.stamp = some d := by
      intro t ht
      exact hdated t (List.mem_filter.1 ht).1
    refine ⟨_, _, bars_ofTicks hdated symbol exchange, bars_ofTicks hanswer symbol exchange, ?_⟩
    intro d hd
    rw [Series.at?_keepFirst, Series.at?_keepFirst]
    refine ⟨fun hkept => at?_answerTo_of_asked ?_, fun hmissed => at?_answerTo_of_not_asked ?_⟩
    · intro t ht htd
      have hdate := htd ▸ hday t ht
      exact (hasked _ d hdate hd).2 (hkept t ht hdate)
    · intro t ht htd hin
      have hdate := htd ▸ hday t ht
      exact (hasked _ d hdate hd).1 hin (hmissed t ht hdate)

/-- At ten in the morning of 8 January 2024 in Sydney, eleven hours ahead, it is still the evening
before in universal time. -/
theorem chart_asks_by_midnight_sydney :
    dateOf? 39600 1704668400 = some ⟨19730⟩ ∧ ¬ Asked ⟨⟨19730⟩, ⟨19730⟩⟩ 1704668400
      ∧ AsksByMidnight ⟨⟨19730⟩, ⟨19730⟩⟩ 39600 :=
  ⟨by decide, by decide, chart_asks_by_midnight (by decide) (by decide) (by decide) (by decide)
    (by decide)⟩

/-- A timestamp that is dated in a window may lie outside the period for it. -/
theorem sydney_morning_is_not_asked_for :
    ¬ ∀ (w : Window) (offset stamp : Int) (d : Day), w.isEmpty = false → -43200 ≤ offset →
      offset ≤ 50400 → dateOf? offset stamp = some d → w.contains d = true →
        (period w).1 ≤ stamp ∧ stamp ≤ (period w).2 := by
  intro hall
  have hasked := hall ⟨⟨19730⟩, ⟨19730⟩⟩ 39600 1704668400 ⟨19730⟩ (by decide) (by decide) (by decide)
    (by decide) (by decide)
  exact absurd hasked (by decide)

end DailyBars.Yahoo
