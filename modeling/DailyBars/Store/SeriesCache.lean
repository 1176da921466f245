import DailyBars.Bar.Series
import DailyBars.Store.Coverage
import DailyBars.Store.Storage
import DailyBars.Store.Table

/-! # Series and checked spans in a storage

Each key has a series file and a record of the dates that were checked. A file that is not a
series is moved out of the way together with the record, which has no rows behind it any
more, and counts as absent.
-/

namespace DailyBars

/-- A computation on a storage that may fail. -/
abbrev Storing (σ : Type) := ExceptT DataError (StateM σ)

/-- What is known about a stored series. -/
structure SeriesStatus where
  symbol : String
  exchange : String
  span : Option Window
  bars : Nat
  bytes : Nat
deriving Repr

namespace Storage

variable {σ : Type}

/-- An operation of the storage; its fault becomes the error. -/
def access {α : Type} (run : σ → Except StorageFault α × σ) : Storing σ α := fun s =>
  let (r, s) := run s
  (r.mapError .storage, s)

/-- Whether a computation succeeds. Its failure is of no further consequence. -/
def succeeds {α : Type} (run : Storing σ α) : Storing σ Bool := fun s =>
  let (r, s) := run s
  (.ok (match r with | .ok _ => true | .error _ => false), s)

/-- The stored series of a key, if there is one. Its rows are put in order, and of two rows of
one date the first is kept. -/
def readSeries (storage : Storage σ) (key : SeriesKey) : Storing σ (Option (List Bar)) := do
  match ← access (storage.read key.seriesName) with
  | none => pure none
  | some text =>
    match Series.decode text key.exchange with
    | .ok bars => pure (some (Series.keepFirst bars))
    | .error (.dateOutsideCalendar _) => throw .outsideCalendar
    | .error _ =>
      let _ ← succeeds (access (storage.quarantine key.seriesName))
      if (← access (storage.read key.spanName)).isSome then
        let _ ← succeeds (access (storage.quarantine key.spanName))
      pure none

/-- The checked span of a key. A record that cannot be read counts as absent. -/
def readSpan (storage : Storage σ) (key : SeriesKey) : Storing σ (Option CheckedSpan) := do
  pure ((← access (storage.read key.spanName)).bind CheckedSpan.parse?)

/-- Stores the checked span of a key. -/
def writeSpan (storage : Storage σ) (key : SeriesKey) (span : CheckedSpan) : Storing σ Unit :=
  access (storage.write key.spanName span.toJson)

/-- Stores the whole series of a key, which may not be empty. -/
def writeSeries (storage : Storage σ) (key : SeriesKey) (bars : List Bar) : Storing σ Unit :=
  if bars.isEmpty then throw (.storage .nothingToCache)
  else access (storage.write key.seriesName (Series.encode bars key.symbol))

/-- The status of the series file of a name, unless it is not the name of one. -/
def statusOf (storage : Storage σ) (name : String) : Storing σ (Option SeriesStatus) :=
  match SeriesKey.ofSeriesName? name with
  | none => pure none
  | some key => do
    let bytes := ((← access (storage.read name)).map String.utf8ByteSize).getD 0
    let bars := (← storage.readSeries key).getD []
    pure (some ⟨key.symbol, key.exchange, Series.span bars, bars.length, bytes⟩)

/-- The status of every stored series, in the order in which the storage lists them. -/
def status (storage : Storage σ) : Storing σ (List SeriesStatus) := do
  let names ← access storage.list
  let found ← names.mapM storage.statusOf
  pure (found.filterMap id)

end Storage
end DailyBars
