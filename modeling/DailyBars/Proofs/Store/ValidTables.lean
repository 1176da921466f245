import DailyBars.Proofs.Store.CorruptSeries

/-! # Tables that are series

A table is checked in a fixed order: that it has rows, that it has each of eight columns in its
kind, and that each row has a date. So what is wrong with a table is the first thing wrong with it,
and a table with nothing wrong is a series. One check is of another sort than the others: a date may
be a number that no day of the calendar has. There is no day to give then, and no error either, so
reading stops and the file stays where it is.
-/

namespace DailyBars

/-- What a column holds, without its values. -/
inductive ColumnKind where
  | date
  | float
  | natural
  | integer
  | text
deriving DecidableEq, Repr

/-- What the column holds. -/
def Column.kind : Column → ColumnKind
  | dates _ => .date
  | floats _ => .float
  | naturals _ => .natural
  | integers _ => .integer
  | texts _ => .text

/-- A result, unless there is a fault. -/
def unlessFault {ε α : Type} (fault? : Option ε) (result : Except ε α) : Except ε α :=
  match fault? with
  | some fault => .error fault
  | none => result

section Faults

variable {ε α β : Type}

@[simp] theorem unlessFault_none (result : Except ε α) : unlessFault none result = result := rfl

@[simp] theorem unlessFault_some (fault : ε) (result : Except ε α) :
    unlessFault (some fault) result = .error fault := rfl

/-- Of two faults the first counts. -/
theorem unlessFault_or (fault? other? : Option ε) (result : Except ε α) :
    unlessFault (fault?.or other?) result = unlessFault fault? (unlessFault other? result) := by
  cases fault? <;> rfl

/-- A fault comes before what is computed from a result. -/
theorem unlessFault_ok_bind (fault? : Option ε) (a : α) (f : α → Except ε β) :
    unlessFault fault? (.ok a) >>= f = unlessFault fault? (f a) := by
  cases fault? <;> rfl

/-- The first of several checks comes before the others. -/
theorem unlessFault_findSome?_cons {γ : Type} (check : γ → Option ε) (c : γ) (cs : List γ)
    (result : Except ε α) : unlessFault ((c :: cs).findSome? check) result
      = unlessFault (check c) (unlessFault (cs.findSome? check) result) := by
  rw [List.findSome?_cons]
  cases check c <;> rfl

/-- Items worked on one after another come to the fault of the first that has one. -/
theorem mapM_eq_unlessFault {γ : Type} {f : γ → Except ε β} {check : γ → Option ε} {g : γ → β}
    (h : ∀ c, f c = unlessFault (check c) (.ok (g c))) (cs : List γ) :
    cs.mapM f = unlessFault (cs.findSome? check) (.ok (cs.map g)) := by
  induction cs with
  | nil => rfl
  | cons c cs ih =>
    rw [List.mapM_cons, h, ih, unlessFault_findSome?_cons, unlessFault_ok_bind]
    cases cs.findSome? check <;> rfl

end Faults

namespace Table

/-! ## What a series must have -/

/-- The columns of a series in the order in which they are looked for. -/
def required : List (String × ColumnKind) :=
  [("Date", .date), ("Open", .float), ("High", .float), ("Low", .float), ("Close", .float),
    ("Volume", .natural), ("Ticker", .text), ("Source", .text)]

variable (t : Table)

/-- The table has a column of this name and kind. -/
def Has (c : String × ColumnKind) : Prop :=
  ∃ column, t.columns.lookup c.1 = some column ∧ column.kind = c.2

/-- What is wrong with a column. -/
def columnFault? (c : String × ColumnKind) : Option SeriesFault :=
  match t.columns.lookup c.1 with
  | none => some (.missingColumn c.1)
  | some column => if column.kind = c.2 then none else some (.columnType c.1)

/-- A column has no fault just if the table has it. -/
theorem columnFault?_eq_none {c : String × ColumnKind} : t.columnFault? c = none ↔ t.Has c := by
  unfold columnFault? Has
  split
  next h => simp [h]
  next column h => simp [h]

/-! ## Cells -/

/-- The values of a column of dates, none if it is no such column. -/
def dateCells (name : String) : List (Option Int) :=
  match t.columns.lookup name with
  | some (.dates values) => values
  | _ => []

/-- The values of a column of prices. -/
def floatCells (name : String) : List (Option Float) :=
  match t.columns.lookup name with
  | some (.floats values) => values
  | _ => []

/-- The values of a column of counts. -/
def naturalCells (name : String) : List (Option UInt64) :=
  match t.columns.lookup name with
  | some (.naturals values) => values
  | _ => []

/-- The values of a column of texts. -/
def textCells (name : String) : List (Option String) :=
  match t.columns.lookup name with
  | some (.texts values) => values
  | _ => []

/-- A column of dates is read unless it is at fault, -/
theorem datesOf_eq (name : String) : t.datesOf name
    = unlessFault (t.columnFault? (name, .date)) (.ok (t.dateCells name).toArray) := by
  unfold datesOf column columnFault? dateCells
  cases t.columns.lookup name with
  | none => rfl
  | some column => cases column <;> rfl

/-- and so is one of floats, -/
theorem floatsOf_eq (name : String) : t.floatsOf name
    = unlessFault (t.columnFault? (name, .float)) (.ok (t.floatCells name).toArray) := by
  unfold floatsOf column columnFault? floatCells
  cases t.columns.lookup name with
  | none => rfl
  | some column => cases column <;> rfl

/-- one of naturals -/
theorem naturalsOf_eq (name : String) : t.naturalsOf name
    = unlessFault (t.columnFault? (name, .natural)) (.ok (t.naturalCells name).toArray) := by
  unfold naturalsOf column columnFault? naturalCells
  cases t.columns.lookup name with
  | none => rfl
  | some column => cases column <;> rfl

/-- and one of texts. -/
theorem textsOf_eq (name : String) : t.textsOf name
    = unlessFault (t.columnFault? (name, .text)) (.ok (t.textCells name).toArray) := by
  unfold textsOf column columnFault? textCells
  cases t.columns.lookup name with
  | none => rfl
  | some column => cases column <;> rfl

/-! ## Rows -/

/-- The number in the place of a row's date. -/
def dateNumber? (row : Nat) : Option Int := ((t.dateCells "Date")[row]?).join

/-- What is wrong with the date of a row. -/
def dateFault? (row : Nat) : Option SeriesFault :=
  match t.dateNumber? row with
  | none => some (.nullDate row)
  | some n => if (Day.mk n).InCalendar then none else some (.dateOutsideCalendar row)

/-- The bar of a row: an absent price is not a number, an absent volume is zero, and an absent text
is empty. -/
def barOf (exchange : String) (row : Nat) : Bar where
  date := ⟨(t.dateNumber? row).getD 0⟩
  openPrice := ((t.floatCells "Open")[row]?).join.getD Number.notANumber
  high := ((t.floatCells "High")[row]?).join.getD Number.notANumber
  low := ((t.floatCells "Low")[row]?).join.getD Number.notANumber
  close := ((t.floatCells "Close")[row]?).join.getD Number.notANumber
  volume := ((t.naturalCells "Volume")[row]?).join.getD 0
  symbol := ((t.textCells "Ticker")[row]?).join.getD ""
  exchange := exchange
  source := ((t.textCells "Source")[row]?).join.getD ""

/-- The date of a row is a day, or it has a fault. -/
theorem dateAt_eq (row : Nat) : dateAt (t.dateCells "Date").toArray row
    = unlessFault (t.dateFault? row) (.ok ⟨(t.dateNumber? row).getD 0⟩) := by
  unfold dateAt dateFault?
  rw [List.getElem?_toArray]
  show (match t.dateNumber? row with
    | none => Except.error (SeriesFault.nullDate row)
    | some n => _) = _
  cases t.dateNumber? row with
  | none => rfl
  | some n =>
    unfold Day.ofNumber?
    by_cases hday : (Day.mk n).InCalendar
    · simp [hday]
    · simp [hday]

/-- What is wrong with a table first. -/
def firstFault? : Option SeriesFault :=
  if t.height = 0 then some .empty
  else (required.findSome? t.columnFault?).or ((List.range t.height).findSome? t.dateFault?)

/-- A row is read as its bar, or has a fault. -/
theorem row_eq (exchange : String) (row : Nat) :
    (do
      let date ← dateAt (t.dateCells "Date").toArray row
      pure { t.barOf exchange row with date } : Except SeriesFault Bar)
      = unlessFault (t.dateFault? row) (.ok (t.barOf exchange row)) := by
  rw [dateAt_eq, unlessFault_ok_bind]
  rfl

/-- A table is read as the bars of its rows, or has a fault. -/
theorem toBars_eq (exchange : String) : t.toBars exchange
    = unlessFault t.firstFault? (.ok ((List.range t.height).map (t.barOf exchange))) := by
  unfold toBars firstFault?
  split
  · rfl
  · rw [unlessFault_or, ← mapM_eq_unlessFault (t.row_eq exchange)]
    simp only [datesOf_eq, floatsOf_eq, naturalsOf_eq, textsOf_eq, unlessFault_ok_bind, required,
      unlessFault_findSome?_cons, List.findSome?_nil, unlessFault_none, valueAt,
      List.getElem?_toArray, barOf]

/-! ## Series -/

/-- The table is a series: it has rows and the eight columns, and every row has a day of the
calendar. -/
structure IsSeries : Prop where
  rows : 0 < t.height
  columns : ∀ c ∈ required, t.Has c
  dates : ∀ row < t.height, ∃ d : Day, d.InCalendar ∧ t.dateNumber? row = some d.number

/-- The date of a row is not at fault just if it is the number of a day in the calendar. -/
theorem dateFault?_eq_none {row : Nat} : t.dateFault? row = none
    ↔ ∃ d : Day, d.InCalendar ∧ t.dateNumber? row = some d.number := by
  unfold dateFault?
  cases t.dateNumber? row with
  | none => simp
  | some n =>
    constructor
    · intro h
      simp only [ite_eq_left_iff, reduceCtorEq, imp_false, not_not] at h
      exact ⟨⟨n⟩, h, rfl⟩
    · rintro ⟨d, hday, hn⟩
      rw [Option.some.injEq] at hn
      subst hn
      exact if_pos hday

/-- A series has no fault, and a table without one is a series. -/
theorem firstFault?_eq_none : t.firstFault? = none ↔ t.IsSeries := by
  unfold firstFault?
  split
  next hempty => exact ⟨nofun, fun h => absurd hempty (Nat.ne_of_gt h.rows)⟩
  next hsome =>
    rw [Option.or_eq_none_iff, List.findSome?_eq_none_iff, List.findSome?_eq_none_iff]
    simp only [columnFault?_eq_none, dateFault?_eq_none, List.mem_range]
    exact ⟨fun h => ⟨Nat.pos_of_ne_zero hsome, h.1, h.2⟩, fun h => ⟨h.columns, h.dates⟩⟩

/-- How a table is read. -/
structure Decodes (exchange : String) : Prop where
  /-- Series are accepted, and nothing else. -/
  accepts : (∃ bars, t.toBars exchange = .ok bars) ↔ t.IsSeries
  /-- There is one bar for each row, in their order. -/
  rows : ∀ bars, t.toBars exchange = .ok bars →
    bars = (List.range t.height).map (t.barOf exchange)
      ∧ ∀ row < t.height, t.dateNumber? row = some (t.barOf exchange row).date.number
  /-- Everything else comes to what is wrong with it first. -/
  names : ∀ fault, t.toBars exchange = .error fault ↔ t.firstFault? = some fault

/-- **What a table decodes to**, in the order in which its faults are looked for. -/
theorem decodes (exchange : String) : t.Decodes exchange := by
  have hread := t.toBars_eq exchange
  have hseries := t.firstFault?_eq_none
  cases hfault : t.firstFault? with
  | none =>
    rw [hfault, unlessFault_none] at hread
    have hvalid := hseries.1 hfault
    refine ⟨⟨fun _ => hvalid, fun _ => ⟨_, hread⟩⟩, fun bars hbars => ?_, fun fault => ?_⟩
    · rw [hread, Except.ok.injEq] at hbars
      refine ⟨hbars.symm, fun row hrow => ?_⟩
      obtain ⟨d, -, hd⟩ := hvalid.dates row hrow
      simp only [barOf, hd, Option.getD_some]
    · rw [hread, hfault]
      exact ⟨nofun, nofun⟩
  | some first =>
    rw [hfault, unlessFault_some] at hread
    refine ⟨⟨fun h => ?_, fun h => ?_⟩, fun bars hbars => ?_, fun fault => ?_⟩
    · obtain ⟨bars, hbars⟩ := h
      rw [hread] at hbars
      cases hbars
    · rw [hseries.2 h] at hfault
      cases hfault
    · rw [hread] at hbars
      cases hbars
    · rw [hread, hfault, Except.error.injEq, Option.some.injEq]

end Table

/-! ## Texts under the name of a series -/

/-- What is wrong with a text first. -/
def Series.faultOf? (text : String) : Option SeriesFault :=
  match Table.parse? text with
  | none => some .unreadable
  | some t => t.firstFault?

/-- A text that is at fault does not decode. -/
theorem Series.decode_of_fault {text : String} {fault : SeriesFault}
    (h : Series.faultOf? text = some fault) (exchange : String) :
    Series.decode text exchange = .error fault := by
  unfold faultOf? at h
  unfold decode
  split at h
  next hparse =>
    rw [hparse]
    cases h
    rfl
  next t hparse =>
    rw [hparse]
    exact ((t.decodes exchange).names fault).2 h

namespace Storage

variable {σ : Type} {storage : Storage σ} {key : SeriesKey} {s s' : σ} {text : String}

/-- Bars that decode are read, one for each date. -/
theorem readSeries_of_bars (hread : storage.read key.seriesName s = (.ok (some text), s'))
    {bars : List Bar} (h : Series.decode text key.exchange = .ok bars) :
    storage.readSeries key s = (.ok (some (Series.keepFirst bars)), s') := by
  unfold readSeries
  rw [bind_of_ok (access_of hread)]
  simp only [h]
  rfl

/-- A date outside the calendar ends the read. -/
theorem readSeries_of_beyond (hread : storage.read key.seriesName s = (.ok (some text), s'))
    {row : Nat} (h : Series.decode text key.exchange = .error (.dateOutsideCalendar row)) :
    storage.readSeries key s = (.error .outsideCalendar, s') := by
  unfold readSeries
  rw [bind_of_ok (access_of hread)]
  simp only [h]
  rfl

/-- What becomes of the text under the name of a series, whatever the storage does with it. -/
structure ReadsTables (storage : Storage σ) (key : SeriesKey) : Prop where
  /-- The bars of a series are given. -/
  serves : ∀ s s' text t, storage.read key.seriesName s = (.ok (some text), s') →
    Table.parse? text = some t → t.IsSeries → storage.readSeries key s
      = (.ok (some (Series.keepFirst ((List.range t.height).map (t.barOf key.exchange)))), s')
  /-- Everything else is put out of the way with its record, -/
  discards : ∀ s s' text fault, storage.read key.seriesName s = (.ok (some text), s') →
    Series.faultOf? text = some fault → (∀ row, fault ≠ .dateOutsideCalendar row) →
    storage.readSeries key s = storage.discard key s'
  /-- except that at a date without a day reading stops, and the text stays. -/
  stops : ∀ s s' text row, storage.read key.seriesName s = (.ok (some text), s') →
    Series.faultOf? text = some (.dateOutsideCalendar row) →
    storage.readSeries key s = (.error .outsideCalendar, s')

/-- **Every storage** reads a series as its text decodes. -/
theorem readsTables (storage : Storage σ) (key : SeriesKey) : storage.ReadsTables key where
  serves s s' text t hread hparse hseries := by
    apply readSeries_of_bars hread
    have hfault := t.firstFault?_eq_none.2 hseries
    rw [Series.decode, hparse]
    simp only
    rw [t.toBars_eq, hfault, unlessFault_none]
  discards s s' text fault hread hfault hday :=
    readSeries_of_fault hread (Series.decode_of_fault hfault _) hday
  stops s s' text row hread hfault :=
    readSeries_of_beyond hread (Series.decode_of_fault hfault _)

end Storage

/-- A table is read as a series exactly if it is one, and otherwise what is wrong with it first is
found. A text that is no series is put out of the way, unless a date without a day is what is wrong
with it first. -/
theorem series_tables_decode {σ : Type} (t : Table) (exchange : String) (storage : Storage σ)
    (key : SeriesKey) : t.Decodes exchange ∧ storage.ReadsTables key :=
  ⟨t.decodes exchange, storage.readsTables key⟩

/-! ## A date without a day -/

/-- A table with one row, complete but for its date, which is any number. -/
def Table.ofDateNumber (n : Int) : Table where
  columns := [
    ("Date", .dates [some n]), ("Open", .floats [some 1.0]), ("High", .floats [some 1.0]),
    ("Low", .floats [some 1.0]), ("Close", .floats [some 1.0]), ("Volume", .naturals [some 1]),
    ("Ticker", .texts [some "GSK"]), ("Source", .texts [some "yahoo"])]

/-- A memory with one text. -/
def Memory.holding (name text : String) : Memory where
  texts := ({} : Std.TreeMap String String).insert name text

/-- A memory reads the text it holds. -/
theorem Memory.read_holding (name text : String) :
    Storage.memory.read name (.holding name text) = (.ok (some text), .holding name text) := by
  simp [Storage.memory, holding]

/-- The largest number of a date is no fault that is named, and the file that has it is neither
absent nor out of the way afterwards. -/
theorem date_beyond_calendar_stops_reading :
    (Table.ofDateNumber 2147483647).toBars "L" = .error (.dateOutsideCalendar 0)
      ∧ Storage.memory.readSeries (.of "GSK" "L")
          (.holding (SeriesKey.of "GSK" "L").seriesName (Table.ofDateNumber 2147483647).render)
        = (.error .outsideCalendar,
            .holding (SeriesKey.of "GSK" "L").seriesName (Table.ofDateNumber 2147483647).render) := by
  have hbars : ∀ exchange, (Table.ofDateNumber 2147483647).toBars exchange
      = .error (.dateOutsideCalendar 0) := by
    intro exchange
    rw [Table.toBars_eq]
    rfl
  have hparse : Table.parse? (Table.ofDateNumber 2147483647).render
      = some (Table.ofDateNumber 2147483647) := by
    apply Table.parse?_render
    · simp [Table.ofDateNumber, Table.height, Column.size]
    · simp [Table.ofDateNumber, Table.Fits]
  have hdecode : Series.decode (Table.ofDateNumber 2147483647).render (SeriesKey.of "GSK" "L").exchange
      = .error (.dateOutsideCalendar 0) := by
    rw [Series.decode, hparse]
    exact hbars _
  exact ⟨hbars "L", Storage.readSeries_of_beyond (Memory.read_holding _ _) hdecode⟩

end DailyBars
