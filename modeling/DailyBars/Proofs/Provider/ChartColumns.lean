import DailyBars.Proofs.Provider.ChartPeriod

/-! # Columns of a chart

The columns of a chart belong together by position: what stands at one position of each of them, or
is missing there, is said of one timestamp. A row without a close is left out, and of several rows
of one date the first that has a close counts. A timestamp that has no date spoils the whole chart;
to find that out, its sum with the offset has to fit in 64 bits.
-/

namespace DailyBars.Yahoo

variable {q : Quote} {offset stamp : Int} {timestamps : List Int} {symbol exchange : String}

/-! ## Rows by position -/

/-- What stands at one position of the columns. -/
def Quote.tick (q : Quote) (stamp : Int) (position : Nat) : Tick where
  stamp
  openPrice := (q.openPrice[position]?).join
  high := (q.high[position]?).join
  low := (q.low[position]?).join
  close := (q.close[position]?).join
  volume := (q.volume[position]?).join

/-- What is said of the timestamps. -/
def Quote.ticks (q : Quote) (timestamps : List Int) : List Tick :=
  timestamps.zipIdx.map fun (stamp, position) => q.tick stamp position

/-- A tick is the stamp and what the columns have at its position. -/
theorem Quote.getElem?_ticks (q : Quote) (timestamps : List Int) (i : Nat) :
    (q.ticks timestamps)[i]? = (timestamps[i]?).map fun stamp => q.tick stamp i := by
  rw [ticks, List.getElem?_map, List.getElem?_zipIdx, Option.map_map]
  simp only [Function.comp_def, Nat.zero_add]

/-- The first item that something is found for, by its position. -/
theorem findSome?_eq_some_iff_getElem? {α β : Type} {f : α → Option β} {xs : List α} {y : β} :
    xs.findSome? f = some y
      ↔ ∃ (i : Nat) (x : α), xs[i]? = some x ∧ f x = some y
        ∧ ∀ (j : Nat) (z : α), j < i → xs[j]? = some z → f z = none := by
  rw [List.findSome?_eq_some_iff]
  constructor
  · rintro ⟨before, x, after, rfl, hx, hbefore⟩
    refine ⟨before.length, x, by simp, hx, fun j z hj hz => hbefore z ?_⟩
    rw [List.getElem?_append_left hj] at hz
    exact List.mem_of_getElem? hz
  · rintro ⟨i, x, hi, hx, hbefore⟩
    obtain ⟨hlt, rfl⟩ := List.getElem?_eq_some_iff.1 hi
    refine ⟨xs.take i, xs[i], xs.drop (i + 1), ?_, hx, fun z hz => ?_⟩
    · rw [List.getElem_cons_drop, List.take_append_drop]
    · obtain ⟨j, hj, rfl⟩ := List.mem_take_iff_getElem.1 hz
      have hj' : j < i ∧ j < xs.length := by omega
      exact hbefore j _ hj'.1 (List.getElem?_eq_getElem hj'.2)

/-- Looking through a filtered list is looking through what passes the filter. -/
theorem findSome?_filter {α β : Type} (p : α → Bool) (f : α → Option β) (xs : List α) :
    (xs.filter p).findSome? f = xs.findSome? fun x => if p x then f x else none := by
  induction xs with
  | nil => rfl
  | cons x xs ih =>
    by_cases hx : p x = true
    · rw [List.filter_cons_of_pos hx, List.findSome?_cons, List.findSome?_cons, if_pos hx, ih]
    · rw [List.filter_cons_of_neg hx, List.findSome?_cons, if_neg hx, ih]

/-- The position is the first of its date at which there is a close. -/
structure Quote.FirstClose (q : Quote) (offset : Int) (timestamps : List Int) (d : Day)
    (position : Nat) (close : Float) : Prop where
  dated : ∃ stamp, timestamps[position]? = some stamp ∧ dateOf? offset stamp = some d
  closed : (q.close[position]?).join = some close
  first : ∀ (earlier : Nat) (stamp : Int), earlier < position → timestamps[earlier]? = some stamp →
    dateOf? offset stamp = some d → (q.close[earlier]?).join = none

/-- The row of one position: what is missing beside the close is taken from it. -/
def Quote.rowAt (q : Quote) (position : Nat) (d : Day) (close : Float) (symbol exchange : String) :
    Bar where
  date := d
  openPrice := ((q.openPrice[position]?).join).getD close
  high := ((q.high[position]?).join).getD close
  low := ((q.low[position]?).join).getD close
  close
  volume := ((q.volume[position]?).join).getD 0
  symbol
  exchange
  source := id

/-- A tick gives a bar just if there is a close at its position, -/
theorem Quote.bar?_tick_eq_some {stamp : Int} {position : Nat} {d : Day} {b : Bar} :
    (q.tick stamp position).bar? d symbol exchange = some b
      ↔ ∃ close, (q.close[position]?).join = some close
        ∧ b = q.rowAt position d close symbol exchange := by
  rw [Tick.bar?, Option.map_eq_some_iff]
  exact exists_congr fun close => and_congr_right fun _ => eq_comm

/-- and none just if there is not. -/
theorem Quote.bar?_tick_eq_none {stamp : Int} {position : Nat} {d : Day} :
    (q.tick stamp position).bar? d symbol exchange = none
      ↔ (q.close[position]?).join = none :=
  Option.map_eq_none_iff

/-- A timestamp with a date has that of its tick. -/
theorem Quote.day_tick (hdated : ∃ d, dateOf? offset stamp = some d) {position : Nat} {d : Day} :
    (q.tick stamp position).day offset = d ↔ dateOf? offset stamp = some d := by
  obtain ⟨d', hd'⟩ := hdated
  rw [hd', Option.some.injEq, eq_of_dateOf? hd']
  rfl

/-- The bar of a date is the row of its first position with a close. -/
theorem Quote.at?_barsOf_ticks (hdated : ∀ stamp ∈ timestamps, ∃ d, dateOf? offset stamp = some d)
    {d : Day} {b : Bar} :
    Series.at? (barsOf offset (q.ticks timestamps) symbol exchange) d = some b
      ↔ ∃ position close, q.FirstClose offset timestamps d position close
        ∧ b = q.rowAt position d close symbol exchange := by
  have hmem : ∀ (i : Nat) (stamp : Int), timestamps[i]? = some stamp →
      ∃ d, dateOf? offset stamp = some d :=
    fun i stamp hi => hdated stamp (List.mem_of_getElem? hi)
  rw [at?_barsOf, findSome?_filter, findSome?_eq_some_iff_getElem?]
  constructor
  · rintro ⟨i, t, hi, hbar, hfirst⟩
    rw [getElem?_ticks] at hi
    obtain ⟨stamp, hstamp, rfl⟩ := Option.map_eq_some_iff.1 hi
    by_cases hday : (q.tick stamp i).day offset = d
    · rw [if_pos (decide_eq_true hday)] at hbar
      obtain ⟨close, hclose, rfl⟩ := bar?_tick_eq_some.1 hbar
      refine ⟨i, close, ⟨⟨stamp, hstamp, (day_tick (hmem i stamp hstamp)).1 hday⟩, hclose, ?_⟩, rfl⟩
      intro j earlier hj hearlier hdate
      have hnone := hfirst j (q.tick earlier j) hj (by rw [getElem?_ticks, hearlier]; rfl)
      rw [if_pos (decide_eq_true ((day_tick ⟨d, hdate⟩).2 hdate))] at hnone
      exact bar?_tick_eq_none.1 hnone
    · rw [if_neg (by simpa using hday)] at hbar
      cases hbar
  · rintro ⟨i, close, ⟨⟨stamp, hstamp, hdate⟩, hclose, hfirst⟩, rfl⟩
    refine ⟨i, q.tick stamp i, by rw [getElem?_ticks, hstamp]; rfl, ?_, fun j t hj ht => ?_⟩
    · rw [if_pos (decide_eq_true ((day_tick ⟨d, hdate⟩).2 hdate))]
      exact bar?_tick_eq_some.2 ⟨close, hclose, rfl⟩
    · rw [getElem?_ticks] at ht
      obtain ⟨earlier, hearlier, rfl⟩ := Option.map_eq_some_iff.1 ht
      split
      next hday =>
        have hdate' := (day_tick (hmem j earlier hearlier)).1 (of_decide_eq_true hday)
        exact bar?_tick_eq_none.2 (hfirst j earlier hj hearlier hdate')
      next => rfl

/-- A date at whose positions there is no close has no bar. -/
theorem Quote.at?_barsOf_ticks_eq_none
    (hdated : ∀ stamp ∈ timestamps, ∃ d, dateOf? offset stamp = some d) {d : Day} :
    Series.at? (barsOf offset (q.ticks timestamps) symbol exchange) d = none
      ↔ ∀ (position : Nat) (stamp : Int), timestamps[position]? = some stamp →
        dateOf? offset stamp = some d → (q.close[position]?).join = none := by
  rw [at?_barsOf, List.findSome?_eq_none_iff]
  constructor
  · intro h i stamp hstamp hdate
    have htick : q.tick stamp i ∈ q.ticks timestamps :=
      List.mem_of_getElem? (by rw [getElem?_ticks, hstamp]; rfl)
    have hday : (q.tick stamp i).day offset = d := (day_tick ⟨d, hdate⟩).2 hdate
    exact bar?_tick_eq_none.1 (h _ (List.mem_filter.2 ⟨htick, decide_eq_true hday⟩))
  · intro h t ht
    obtain ⟨htick, hday⟩ := List.mem_filter.1 ht
    obtain ⟨i, hi⟩ := List.mem_iff_getElem?.1 htick
    rw [getElem?_ticks] at hi
    obtain ⟨stamp, hstamp, rfl⟩ := Option.map_eq_some_iff.1 hi
    have hdate := (day_tick (hdated stamp (List.mem_of_getElem? hstamp))).1 (of_decide_eq_true hday)
    exact bar?_tick_eq_none.2 (h i stamp hstamp hdate)

/-! ## Sums -/

/-- A sum that has a date fits in 64 bits. -/
theorem isWord_of_dateOf? {d : Day} (h : dateOf? offset stamp = some d) :
    isWord (stamp + offset) = true := by
  obtain ⟨hsum, hlo, hhi⟩ := dateOf?_eq_some.1 h
  have htime : 0 ≤ timeOfDay offset stamp ∧ timeOfDay offset stamp < 86400 :=
    ⟨Int.emod_nonneg _ (by decide), Int.emod_lt_of_pos _ (by decide)⟩
  have hmin : Int64.minValue.toInt = -9223372036854775808 := rfl
  have hmax : Int64.maxValue.toInt = 9223372036854775807 := rfl
  simp only [Day.le_def, Day.earliest, Day.latest] at hlo hhi
  simp only [isWord, hmin, hmax, Bool.and_eq_true, decide_eq_true_eq]
  omega

/-- The row of a stamp that has a date is its bar, if any. -/
theorem Quote.row?_of_dated {d : Day} (h : dateOf? offset stamp = some d) (position : Nat) :
    q.row? offset stamp position symbol exchange
      = some (.ok (q.bar? position d symbol exchange)) := by
  rw [row?, if_pos (isWord_of_dateOf? h), h]

/-- What a timestamp without a date comes to. -/
theorem Quote.row?_of_undated (h : dateOf? offset stamp = none) (position : Nat) :
    q.row? offset stamp position symbol exchange
      = if isWord (stamp + offset) then
          some (.error (.malformed ("invalid timestamp: " ++ toString stamp)))
        else none := by
  rw [row?, h]

/-- Timestamps with a date are read as their rows. -/
theorem Quote.row?_eq_pure (h : ∀ stamp ∈ timestamps, ∃ d, dateOf? offset stamp = some d) :
    ∀ entry ∈ timestamps.zipIdx, ExceptT.mk (q.row? offset entry.1 entry.2 symbol exchange)
      = pure (q.bar? entry.2 ⟨(entry.1 + offset) / 86400⟩ symbol exchange) := by
  intro entry hentry
  obtain ⟨d, hd⟩ := h entry.1 (List.fst_mem_of_mem_zipIdx hentry)
  rw [row?_of_dated hd, eq_of_dateOf? hd]
  rfl

/-- Timestamps that all have a date give the rows of their ticks. -/
theorem Quote.rows?_of_dated (h : ∀ stamp ∈ timestamps, ∃ d, dateOf? offset stamp = some d) :
    q.rows? offset timestamps symbol exchange
      = some (.ok ((q.ticks timestamps).map fun t => t.bar? (t.day offset) symbol exchange)) := by
  rw [rows?, mapM_eq_pure_map (row?_eq_pure h), ticks, List.map_map]
  rfl

/-- The first timestamp without a date decides. -/
theorem Quote.rows?_of_undated {before after : List Int}
    (hbefore : ∀ stamp ∈ before, ∃ d, dateOf? offset stamp = some d)
    (hstamp : dateOf? offset stamp = none) :
    q.rows? offset (before ++ stamp :: after) symbol exchange
      = if isWord (stamp + offset) then
          some (.error (.malformed ("invalid timestamp: " ++ toString stamp)))
        else none := by
  rw [rows?, List.zipIdx_append, List.zipIdx_cons, mapM_append_cons (row?_eq_pure hbefore),
    row?_of_undated hstamp]
  split
  · rfl
  · rfl

/-! ## Charts -/

/-- What comes of the columns of a quote. -/
structure ColumnsAligned (q : Quote) (offset : Int) (timestamps : List Int)
    (symbol exchange : String) (answer : Option (Except Failure (List Bar))) : Prop where
  /-- Where every timestamp has a date, the bar of a date is the row of its first position with a
  close, and a date without one has no bar. -/
  aligned : (∀ stamp ∈ timestamps, ∃ d, dateOf? offset stamp = some d) →
    ∃ bars, answer = some (.ok bars) ∧ Series.Ascending bars
      ∧ (∀ d b, Series.at? bars d = some b
        ↔ ∃ position close, q.FirstClose offset timestamps d position close
          ∧ b = q.rowAt position d close symbol exchange)
      ∧ ∀ d, Series.at? bars d = none
        ↔ ∀ (position : Nat) (stamp : Int), timestamps[position]? = some stamp →
          dateOf? offset stamp = some d → (q.close[position]?).join = none
  /-- The first timestamp without a date makes the chart malformed, if there is a sum for it. -/
  refused : ∀ before stamp after, timestamps = before ++ stamp :: after →
    (∀ earlier ∈ before, ∃ d, dateOf? offset earlier = some d) → dateOf? offset stamp = none →
      answer = if isWord (stamp + offset) then
          some (.error (.malformed ("invalid timestamp: " ++ toString stamp)))
        else none

/-- A chart whose first series has these timestamps and a quote. -/
def Chart.ofColumns (offset : Option Int) (timestamps : List Int) (q : Quote) (quotes : List Quote)
    (series : List ChartSeries) (fault : Option (String × String)) : Chart where
  series := some (⟨offset, some timestamps, q :: quotes⟩ :: series)
  fault

/-- **Columns stay aligned.** A chart in which every timestamp has a date at its exchange gives one
bar for each date that has a close, all of it from one position of the columns. Any timestamp that
has no date makes the chart malformed, if the sum of the first of them fits in 64 bits. -/
theorem chart_columns_stay_aligned (offset : Option Int) (timestamps : List Int) (q : Quote)
    (quotes : List Quote) (series : List ChartSeries) (fault : Option (String × String))
    (symbol exchange : String) :
    ColumnsAligned q (offset.getD 0) timestamps symbol exchange
      ((Chart.ofColumns offset timestamps q quotes series fault).bars? symbol exchange) := by
  have hbars : (Chart.ofColumns offset timestamps q quotes series fault).bars? symbol exchange
      = (q.rows? (offset.getD 0) timestamps symbol exchange).map fun rows =>
          rows.map fun rows => Series.keepFirst (rows.filterMap fun row => row) := rfl
  refine ⟨fun hdated => ?_, fun before stamp after hsplit hbefore hstamp => ?_⟩
  · have hread : (Chart.ofColumns offset timestamps q quotes series fault).bars? symbol exchange
        = some (.ok (Series.keepFirst
          (barsOf (offset.getD 0) (q.ticks timestamps) symbol exchange))) := by
      rw [hbars, Quote.rows?_of_dated hdated, Option.map_some, Except.map, barsOf,
        List.filterMap_map]
      rfl
    refine ⟨_, hread, Series.ascending_keepFirst _, fun d b => ?_, fun d => ?_⟩
    · rw [Series.at?_keepFirst]
      exact Quote.at?_barsOf_ticks hdated
    · rw [Series.at?_keepFirst]
      exact Quote.at?_barsOf_ticks_eq_none hdated
  · subst hsplit
    rw [hbars, Quote.rows?_of_undated hbefore hstamp]
    split
    · rfl
    · rfl

/-- The largest timestamp of 64 bits at an exchange a second ahead of universal time is no failure
of the chart but the end of the program. -/
theorem sum_beyond_64_bits_is_not_malformed :
    ¬ ∀ (offset : Option Int) (timestamps : List Int) (q : Quote) (quotes : List Quote)
        (series : List ChartSeries) (fault : Option (String × String)) (symbol exchange : String),
      (∃ stamp ∈ timestamps, dateOf? (offset.getD 0) stamp = none) →
        ∃ detail, (Chart.ofColumns offset timestamps q quotes series fault).bars? symbol exchange
          = some (.error (.malformed detail)) := by
  intro h
  obtain ⟨detail, hdetail⟩ := h (some 1) [9223372036854775807]
    ⟨#[some 7.1], #[some 7.2], #[some 7.0], #[some 7.15], #[some 1000]⟩ [] [] none "GSK" "L"
    ⟨9223372036854775807, by decide, by decide⟩
  cases hdetail

end DailyBars.Yahoo
