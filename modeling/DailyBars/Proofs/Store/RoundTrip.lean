import DailyBars.Proofs.Store.Access

/-! # What is written is what is read

A series file gives back its bars in the order in which they were written, whatever their dates and
numbers are. Reading a stored series puts its rows in order and drops those of a date that came up
before, which changes nothing about a series. So a series comes back from a storage that works as it
was put there.
-/

namespace DailyBars

variable {σ : Type}

namespace Storage

/-- What is written under the name in this state is there when it is read next. -/
def ReadsBack (storage : Storage σ) (name : String) (s : σ) : Prop :=
  ∀ text, ∃ s' s'', storage.write name text s = (.ok (), s')
    ∧ storage.read name s' = (.ok (some text), s'')

/-- A reliable storage gives back what it was given under the name of any file. -/
theorem View.Reliable.readsBack {storage : Storage σ} {view : storage.View} (h : view.Reliable)
    {name : String} (hname : IsFile name) {s : σ} (hs : view.Works s) :
    storage.ReadsBack name s := by
  intro text
  obtain ⟨r, s', hwrite, hworks, hcases⟩ := view.write hname text hs
  obtain ⟨s'', hread, -, -⟩ := view.read hname hworks
  have hok := h.write hname text hs
  rw [hwrite] at hok
  rcases hcases with ⟨rfl, htexts⟩ | ⟨⟨fault, rfl⟩, -⟩
  · rw [htexts, Texts.put_self] at hread
    exact ⟨s', s'', hwrite, hread⟩
  · cases hok

end Storage

namespace Series

/-- The ticker and the exchange that bars have already do not change them. -/
theorem map_tagged_of_own {bars : List Bar} {symbol exchange : String}
    (h : ∀ b ∈ bars, b.symbol = symbol ∧ b.exchange = exchange) :
    bars.map (Bar.tagged symbol exchange) = bars := by
  have hown : ∀ b ∈ bars, b.tagged symbol exchange = id b := by
    intro b hb
    obtain ⟨rfl, rfl⟩ := h b hb
    rfl
  rw [List.map_congr_left hown, List.map_id]

end Series

namespace Storage

variable {storage : Storage σ} {key : SeriesKey} {s : σ}

/-- A series that was written is read back. -/
theorem readSeries_of_writeSeries (hworks : storage.ReadsBack key.seriesName s) {bars : List Bar}
    (hne : bars ≠ []) (hasc : Series.Ascending bars) (hin : ∀ b ∈ bars, b.date.InCalendar)
    (hown : ∀ b ∈ bars, b.symbol = key.symbol ∧ b.exchange = key.exchange) :
    ∃ s' s'', storage.writeSeries key bars s = (.ok (), s')
      ∧ storage.readSeries key s' = (.ok (some bars), s'') := by
  obtain ⟨s', s'', hwrite, hread⟩ := hworks (Series.encode bars key.symbol)
  have hdecode := Series.decode_encode hne hin key.symbol key.exchange
  rw [Series.map_tagged_of_own hown] at hdecode
  refine ⟨s', s'', ?_, ?_⟩
  · have hsome : ¬ bars.isEmpty = true := by simpa using hne
    unfold writeSeries access
    rw [if_neg hsome, hwrite]
    rfl
  · have hfound : (access (storage.read key.seriesName) : Storing σ (Option String)) s'
        = (.ok (some (Series.encode bars key.symbol)), s'') := by
      unfold access
      rw [hread]
      rfl
    unfold readSeries
    rw [bind_of_ok hfound]
    simp only [hdecode]
    rw [Series.keepFirst_of_ascending hasc]
    rfl

end Storage

/-- Series files and the storage of one key keep what they are given. -/
structure Storage.KeepsSeries (storage : Storage σ) (key : SeriesKey) : Prop where
  /-- Rows in any order, even several of one date, are decoded as they were encoded. -/
  decoded : ∀ bars ticker exchange, bars ≠ [] → (∀ b ∈ bars, b.date.InCalendar) →
    Series.decode (Series.encode bars ticker) exchange
      = .ok (bars.map (Bar.tagged ticker exchange))
  read : ∀ s, storage.ReadsBack key.seriesName s → ∀ bars, bars ≠ [] → Series.Ascending bars →
    (∀ b ∈ bars, b.date.InCalendar) →
    (∀ b ∈ bars, b.symbol = key.symbol ∧ b.exchange = key.exchange) →
    ∃ s' s'', storage.writeSeries key bars s = (.ok (), s')
      ∧ storage.readSeries key s' = (.ok (some bars), s'')
  refused : ∀ s, storage.writeSeries key [] s = (.error (.storage .nothingToCache), s)

/-- **Series files round-trip.** Whatever bars are encoded, they are decoded in the same order and
with every bit of their numbers, tagged with the ticker of the file and the exchange it is decoded
for. A series that is stored is read next as it stands, and storing no bars at all is refused and
touches nothing. -/
theorem series_round_trip (storage : Storage σ) (key : SeriesKey) : storage.KeepsSeries key where
  decoded _ ticker exchange hne hin := Series.decode_encode hne hin ticker exchange
  read _ hworks _ hne hasc hin hown := storage.readSeries_of_writeSeries hworks hne hasc hin hown
  refused _ := rfl

/-- A bar before 1970 with prices that are no ordinary numbers, and one of the largest volume. -/
def Series.unusual : List Bar :=
  [⟨⟨-3⟩, Number.notANumber, Number.infinity false, Number.infinity true, -0.0, 0, "AAPL", "NYSE",
      "two\nlines"⟩,
    .flat ⟨5⟩ 0.1 0xFFFFFFFFFFFFFFFF "AAPL" "NYSE" "back\\slash"]

/-- Bars with unusual numbers, out of order. -/
theorem series_round_trip_unusual :
    Series.decode (Series.encode Series.unusual.reverse "MSFT") "L"
        = .ok (Series.unusual.reverse.map (Bar.tagged "MSFT" "L"))
      ∧ (∃ s' s'', Storage.memory.writeSeries ⟨"AAPL", "NYSE"⟩ Series.unusual {} = (.ok (), s')
        ∧ Storage.memory.readSeries ⟨"AAPL", "NYSE"⟩ s' = (.ok (some Series.unusual), s''))
      ∧ Storage.memory.writeSeries ⟨"AAPL", "NYSE"⟩ [] {}
        = (.error (.storage .nothingToCache), {}) := by
  have hkeeps := series_round_trip Storage.memory ⟨"AAPL", "NYSE"⟩
  have hworks : Storage.memory.ReadsBack (SeriesKey.seriesName ⟨"AAPL", "NYSE"⟩) {} :=
    Storage.memoryView_reliable.readsBack (SeriesKey.isFile_seriesName (by rfl)) trivial
  have hin : ∀ b ∈ Series.unusual, b.date.InCalendar := by decide
  have hasc : Series.Ascending Series.unusual := by
    simp [Series.Ascending, Series.unusual, Bar.flat, Day.lt_def]
  have hown : ∀ b ∈ Series.unusual, b.symbol = "AAPL" ∧ b.exchange = "NYSE" := by
    simp [Series.unusual, Bar.flat]
  refine ⟨hkeeps.decoded _ "MSFT" "L" (by decide) ?_,
    hkeeps.read {} hworks _ (by decide) hasc hin hown, hkeeps.refused {}⟩
  intro b hb
  exact hin b (List.mem_reverse.1 hb)

end DailyBars
