import DailyBars.Merge.Engine
import DailyBars.Store.Memo
import DailyBars.Store.SeriesCache

/-! # The rolling store

One series per key, extended when a request reaches beyond what it accounts for. A request is
narrowed to business days up to today; what the stored rows and the checked span leave
missing is asked of the engine, laid onto the rows and stored, and the caller gets the rows of
the window it named. A window that is fully accounted for is remembered for the day.
-/

namespace DailyBars

/-- A request as it is remembered: valid for one day. -/
structure MemoKey where
  symbol : String
  exchange : String
  window : Window
  asOf : Day
deriving DecidableEq, Hashable, Repr

/-- What a store changes: its storage, the market it asks, and its memory of requests. -/
structure StoreState (σ ω : Type) where
  storage : σ
  market : Market ω
  memo : Memo MemoKey (List Bar)

/-- A computation on a store that may fail. -/
abbrev StoreM (σ ω : Type) := ExceptT DataError (StateM (StoreState σ ω))

/-- A store over a storage and an engine. An offline store asks nobody. -/
structure RollingStore (σ ω : Type) where
  storage : Storage σ
  engine : Engine ω
  offline : Bool := false

/-- One range that the engine was asked for, and what came of it. -/
structure Fetched where
  range : Window
  merged : Merged

/-- What came of asking the engine for ranges one after the other: those that were fetched, and
the range at which the program ended, if it did. -/
structure Asked (ω : Type) where
  fetched : List Fetched
  endedAt : Option Window
  market : Market ω

/-- What is stored for a key: its rows, and the window that they and the checked span account
for. -/
structure Account where
  rows : List Bar
  covered : Option Window

/-- What came of asking for the ranges that an account leaves missing. -/
structure Delta where
  covered : Option Window
  fetched : List Fetched

/-- What one cycle of reading, asking and storing came to: the rows of the window, the ranges
that were asked for, whether the series is stored, and whether the window is now fully
accounted for. -/
structure Report where
  rows : List Bar
  fetched : List Fetched := []
  stored : Bool := true
  settled : Bool := true

/-- How a request was answered. -/
inductive Answer where
  /-- The end of the window comes first. -/
  | nothing
  | remembered (rows : List Bar)
  | fresh (report : Report)

namespace Delta

/-- The bars of all ranges, in the order in which they came. -/
def bars (d : Delta) : List Bar := d.fetched.flatMap fun f => f.merged.bars

/-- The window that is accounted for afterwards: a range that some source answered extends
it. -/
def answered (d : Delta) : Option Window :=
  d.fetched.foldl
    (fun span f => if f.merged.answered then Window.hull? span (some f.range) else span) d.covered

end Delta

/-- The rows of an answer. -/
def Answer.rows : Answer → List Bar
  | nothing => []
  | remembered rows => rows
  | fresh report => report.rows

namespace StoreState

variable {σ ω : Type}

/-- The day on which the store works. -/
def today (s : StoreState σ ω) : Day := s.market.now.day

end StoreState

namespace RollingStore

variable {σ ω : Type}

/-- A computation on the storage of a store. -/
def onStorage {α : Type} (run : Storing σ α) : StoreM σ ω α := fun s =>
  let (r, storage) := run s.storage
  (r, { s with storage })

/-- The day on which the store works. -/
def today : StoreM σ ω Day := fun s => (.ok s.today, s)

/-- Asks the engine for each range in turn. Where the program ends, no further range is asked
for. -/
def askFor (e : Engine ω) (key : SeriesKey) : List Window → Market ω → Asked ω
  | [], market => { fetched := [], endedAt := none, market }
  | range :: rest, m =>
    match e.fetch? ⟨key.symbol, key.exchange, range⟩ m with
    | .error market => { fetched := [], endedAt := some range, market }
    | .ok (merged, m) =>
      let later := askFor e key rest m
      { later with fetched := ⟨range, merged⟩ :: later.fetched }

/-- Asks the engine for ranges, within a computation on the store. Where the program ends, so does
the computation. -/
def fetchRanges (store : RollingStore σ ω) (key : SeriesKey) (ranges : List Window) :
    StoreM σ ω (List Fetched) := fun s =>
  let asked := askFor store.engine key ranges s.market
  let result := if asked.endedAt.isNone then .ok asked.fetched else .error .outsideCalendar
  (result, { s with market := asked.market })

/-- Forgets every remembered request for a key. -/
def forget (key : SeriesKey) : StoreM σ ω Unit := fun s =>
  (.ok (), { s with memo := s.memo.retain fun k => !(k.symbol == key.symbol && k.exchange == key.exchange) })

/-- Looks a request up. -/
def remembered (key : MemoKey) : StoreM σ ω (Option (List Bar)) := fun s =>
  let (hit, memo) := s.memo.get key
  (.ok hit, { s with memo })

/-- Remembers the answer to a request. -/
def remember (key : MemoKey) (bars : List Bar) : StoreM σ ω Unit := fun s =>
  (.ok (), { s with memo := s.memo.insert key bars })

/-- Reads what is stored for a key, as it counts on a day. The program ends where a span is to be
trimmed that was checked on the first day of the calendar. -/
def account (store : RollingStore σ ω) (key : SeriesKey) (today : Day) : StoreM σ ω Account := do
  let rows := (← onStorage (store.storage.readSeries key)).getD []
  match CheckedSpan.settledOf? (← onStorage (store.storage.readSpan key)) today with
  | some checked => pure ⟨rows, Window.hull? (Series.span rows) checked⟩
  | none => throw .outsideCalendar

/-- Stores what was fetched: the extended series, if there are new rows, and then the span that
is accounted for, if it grew. A span is only stored when its rows are. The result is the
series, and whether it is stored. -/
def persist (store : RollingStore σ ω) (key : SeriesKey) (cached : List Bar) (delta : Delta)
    (today : Day) : StoreM σ ω (List Bar × Bool) := do
  let rows := if delta.bars.isEmpty then cached else Series.merge cached delta.bars
  let stored ←
    if delta.bars.isEmpty then pure true
    else onStorage (Storage.succeeds (store.storage.writeSeries key rows))
  match delta.answered with
  | some span =>
    if stored ∧ delta.answered ≠ delta.covered then
      let _ ← onStorage (Storage.succeeds (store.storage.writeSpan key (.of span today)))
  | none => pure ()
  pure (rows, stored)

/-- Asks for the ranges that an account leaves missing of a window, and stores what came of
it. -/
def extend (store : RollingStore σ ω) (key : SeriesKey) (account : Account) (window : Window)
    (requested : Window) (today : Day) : StoreM σ ω Report := do
  let ranges := (Coverage.assess account.covered window).missing window
  let delta : Delta := ⟨account.covered, ← store.fetchRanges key ranges⟩
  let (rows, stored) ← store.persist key account.rows delta today
  forget key
  pure
    { rows := Series.clip rows requested
      fetched := delta.fetched
      stored
      settled := stored && decide (Coverage.assess delta.answered window = .full) }

/-- The rows of a window without looking it up in the memo. -/
def loadFresh (store : RollingStore σ ω) (key : SeriesKey) (requested : Window) (today : Day) :
    StoreM σ ω Report := do
  let account ← store.account key today
  match Window.normalized ⟨requested.first, min requested.last today⟩ with
  | none => pure { rows := Series.clip account.rows requested }
  | some window =>
    if Coverage.assess account.covered window = .full then
      pure { rows := Series.clip account.rows requested }
    else if store.offline then throw (.noCachedData key.symbol key.exchange)
    else store.extend key account window requested today

/-- The answer to a request for the rows of an instrument in a window, extending its series as
far as needed. A window whose end comes first has no rows. -/
def answer (store : RollingStore σ ω) (symbol exchange : String) (requested : Window) :
    StoreM σ ω Answer := do
  if requested.isEmpty then return .nothing
  let key := SeriesKey.of symbol exchange
  match key.check with
  | .error fault => throw (.invalidSymbol key.symbol fault.message)
  | .ok () =>
    let today ← today
    let memoKey : MemoKey := ⟨key.symbol, key.exchange, requested, today⟩
    match ← remembered memoKey with
    | some bars => pure (.remembered bars)
    | none =>
      let report ← store.loadFresh key requested today
      if report.settled then remember memoKey report.rows
      pure (.fresh report)

/-- The rows of an instrument in a window. -/
def load (store : RollingStore σ ω) (symbol exchange : String) (requested : Window) :
    StoreM σ ω (List Bar) := do
  pure (← store.answer symbol exchange requested).rows

end RollingStore
end DailyBars
