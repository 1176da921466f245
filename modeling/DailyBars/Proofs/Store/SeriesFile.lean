import Mathlib
import DailyBars.Proofs.Bar.Series
import DailyBars.Proofs.Rows
import DailyBars.Proofs.Text.Numerals
import DailyBars.Store.Table

/-! # Series files read back

A table is read back from its lines column by column, and each column cell by cell. The table
of bars has its eight columns in place, so a series file gives back the bars that were written,
with the ticker and the exchange of the series in place of theirs.
-/

namespace DailyBars

namespace Table

/-! ## Cells and columns -/

/-- An integer of 64 bits is read back from its word. -/
theorem intOfWord_wordOfInt {n : Int} (hlo : -2 ^ 63 ≤ n) (hhi : n < 2 ^ 63) :
    intOfWord (wordOfInt n) = n := by
  rw [intOfWord, wordOfInt, Int64.toInt64_toUInt64, Int64.toInt_ofInt_of_le hlo hhi]

/-- Cells are read back if what they write is. -/
theorem mapM_ofCell?_cell {α : Type} {write : α → List Char} {read : List Char → Option α}
    {values : List (Option α)} (h : ∀ a, some a ∈ values → read (write a) = some a) :
    (values.map (cell write)).mapM (ofCell? read) = some values := by
  induction values with
  | nil => rfl
  | cons v values ih =>
    have hcell : ofCell? read (cell write v) = some v := by
      cases v with
      | none => rfl
      | some a => rw [cell, ofCell?, h a (by simp), Option.map_some]
    rw [List.map_cons, List.mapM_cons, hcell, ih fun a ha => h a (by simp [ha])]
    rfl

/-- The whole numbers of a column fit into words. -/
def Fits : Column → Prop
  | .dates values | .integers values => ∀ n, some n ∈ values → -2 ^ 63 ≤ n ∧ n < 2 ^ 63
  | _ => True

/-- Cells of such integers are read back. -/
theorem mapM_ofCell?_int {values : List (Option Int)}
    (h : ∀ n, some n ∈ values → -2 ^ 63 ≤ n ∧ n < 2 ^ 63) :
    (values.map (cell fun n => Text.hexWord (wordOfInt n))).mapM
      (ofCell? fun cs => (Text.ofHexWord? cs).map intOfWord) = some values := by
  refine mapM_ofCell?_cell fun n hn => ?_
  rw [Text.ofHexWord?_hexWord, Option.map_some, intOfWord_wordOfInt (h n hn).1 (h n hn).2]

/-- A column is read back from its kind and its lines. -/
theorem ofColumnLines?_columnLines {c : Column} (h : Fits c) :
    ofColumnLines? (columnLines c).1 (columnLines c).2 = some c := by
  cases c with
  | dates values => simp [ofColumnLines?, columnLines, mapM_ofCell?_int h]
  | integers values => simp [ofColumnLines?, columnLines, mapM_ofCell?_int h]
  | floats values =>
    have hread : (values.map (cell fun x => Text.hexWord x.toBits)).mapM
        (ofCell? fun cs => (Text.ofHexWord? cs).map Float.ofBits) = some values :=
      mapM_ofCell?_cell fun x _ => by
        rw [Text.ofHexWord?_hexWord, Option.map_some, Float.ofBits_toBits]
    simp [ofColumnLines?, columnLines, hread]
  | naturals values =>
    have hread : (values.map (cell Text.hexWord)).mapM (ofCell? Text.ofHexWord?) = some values :=
      mapM_ofCell?_cell fun n _ => Text.ofHexWord?_hexWord n
    simp [ofColumnLines?, columnLines, hread]
  | texts values =>
    have hread : (values.map (cell String.toList)).mapM (ofCell? fun cs => some (String.ofList cs))
        = some values :=
      mapM_ofCell?_cell fun s _ => by rw [String.ofList_toList]
    simp [ofColumnLines?, columnLines, hread]

/-- A column has one line for each cell. -/
theorem length_columnLines (c : Column) : (columnLines c).2.length = c.size := by
  cases c <;> simp [columnLines, Column.size]

/-! ## Tables -/

/-- Columns of one size are read back from their lines. -/
theorem columnsOf?_flatMap {rows : Nat} {columns : List (String × Column)}
    (hsize : ∀ c ∈ columns, c.2.size = rows) (hfits : ∀ c ∈ columns, Fits c.2) :
    columnsOf? rows columns.length (columns.flatMap fun c =>
      c.1.toList :: (columnLines c.2).1.toList :: (columnLines c.2).2) = some columns := by
  induction columns with
  | nil => rfl
  | cons c columns ih =>
    have hlen : (columnLines c.2).2.length = rows := by
      rw [length_columnLines, hsize c (by simp)]
    have hcol := ofColumnLines?_columnLines (hfits c (by simp))
    have hrest := ih (fun x hx => hsize x (by simp [hx])) (fun x hx => hfits x (by simp [hx]))
    rw [List.flatMap_cons, List.length_cons, List.cons_append, List.cons_append, columnsOf?]
    rw [if_neg (by rw [List.length_append]; omega), List.take_left' hlen, List.drop_left' hlen,
      String.ofList_toList, hcol, hrest]
    simp

/-- A count is read back from its line. -/
theorem ofCountLine?_countLine (n : Nat) : ofCountLine? (countLine n) = some n := by
  have hsome : (countLine n).isEmpty = false := by
    rw [List.isEmpty_eq_false_iff]
    exact Text.padded_ne_nil 1 n
  have hdigits : (countLine n).all Char.isDigit = true := by
    rw [List.all_eq_true]
    intro c hc
    exact Text.isDigit_of_mem_padded hc
  rw [ofCountLine?, hsome, hdigits]
  exact congrArg some (Text.ofDigits_padded 1 n)

/-- A table is read back from its text. -/
theorem parse?_render {t : Table} (hsize : ∀ c ∈ t.columns, c.2.size = t.height)
    (hfits : ∀ c ∈ t.columns, Fits c.2) : parse? t.render = some t := by
  have hsplit : Lines.split t.render.toList = some t.lines := by
    rw [render, String.toList_ofList, Lines.split_join]
  have hread := columnsOf?_flatMap hsize hfits
  rw [parse?, hsplit, Option.bind_some, lines, ofLines?, if_pos rfl, ofCountLine?_countLine,
    ofCountLine?_countLine]
  simp only [Option.bind_eq_bind, Option.bind_some]
  rw [hread]
  rfl

/-! ## Tables of bars -/

/-- The rows of a table read one after another. -/
theorem mapM_range_eq_ok {ε α : Type} {f : Nat → Except ε α} {xs : List α}
    (h : ∀ i (hi : i < xs.length), f i = .ok xs[i]) :
    (List.range xs.length).mapM f = .ok xs := by
  have hpre : ∀ n ≤ xs.length, (List.range n).mapM f = .ok (xs.take n) := by
    intro n hn
    induction n with
    | zero => rfl
    | succ n ih =>
      rw [List.range_succ, List.mapM_append, ih (by omega), List.take_succ_eq_append_getElem hn]
      simp [h n hn, bind, Except.bind, pure, Except.pure]
  rw [hpre _ (Nat.le_refl _), List.take_length]

/-- The value of a row is that of its bar, -/
@[simp] theorem valueAt_map {α β : Type} (f : β → α) (xs : List β) (absent : α) {i : Nat}
    (hi : i < xs.length) :
    valueAt (xs.map fun b => some (f b)).toArray absent i = f xs[i] := by
  simp [valueAt, hi]

/-- and so is its date. -/
theorem dateAt_map {bars : List Bar} {i : Nat} (hi : i < bars.length)
    (hin : bars[i].date.InCalendar) :
    dateAt (bars.map fun b => some b.date.number).toArray i = .ok bars[i].date := by
  simp [dateAt, hi, Day.ofNumber?, hin]

/-- The table of bars holds the bars. -/
theorem toBars_ofBars {bars : List Bar} (hne : bars ≠ []) (hin : ∀ b ∈ bars, b.date.InCalendar)
    (ticker exchange : String) :
    (ofBars bars ticker).toBars exchange = .ok (bars.map (Bar.tagged ticker exchange)) := by
  have hheight : (ofBars bars ticker).height = (bars.map (Bar.tagged ticker exchange)).length := by
    simp [ofBars, height, Column.size]
  have hpos : (bars.map (Bar.tagged ticker exchange)).length ≠ 0 := by simpa using hne
  rw [toBars, hheight, if_neg hpos]
  simp only [datesOf, floatsOf, naturalsOf, textsOf, column, ofBars, List.lookup]
  refine mapM_range_eq_ok fun i hi => ?_
  rw [List.length_map] at hi
  have hdate := hin bars[i] (List.getElem_mem hi)
  rw [dateAt_map hi hdate, List.getElem_map]
  simp only [valueAt_map _ _ _ hi, Bar.tagged]
  rfl

/-- A date that is read lies in the calendar, -/
theorem inCalendar_of_dateAt {dates : Array (Option Int)} {row : Nat} {d : Day}
    (h : dateAt dates row = .ok d) : d.InCalendar := by
  rw [dateAt] at h
  split at h
  · cases h
  · rw [Day.ofNumber?] at h
    split at h
    next hsome =>
      cases h
      split at hsome
      next hin =>
        cases hsome
        exact hin
      next => cases hsome
    next => cases h

/-- Whatever table a series is read from, its days are days of the calendar, and its bars have
the exchange it is read for. -/
theorem inCalendar_of_toBars {t : Table} {exchange : String} {bars : List Bar}
    (h : t.toBars exchange = .ok bars) {b : Bar} (hb : b ∈ bars) :
    b.date.InCalendar ∧ b.exchange = exchange := by
  rw [toBars] at h
  split at h
  · cases h
  · obtain ⟨dates, -, h⟩ := exists_of_bind_eq_ok h
    obtain ⟨opens, -, h⟩ := exists_of_bind_eq_ok h
    obtain ⟨highs, -, h⟩ := exists_of_bind_eq_ok h
    obtain ⟨lows, -, h⟩ := exists_of_bind_eq_ok h
    obtain ⟨closes, -, h⟩ := exists_of_bind_eq_ok h
    obtain ⟨volumes, -, h⟩ := exists_of_bind_eq_ok h
    obtain ⟨tickers, -, h⟩ := exists_of_bind_eq_ok h
    obtain ⟨sources, -, h⟩ := exists_of_bind_eq_ok h
    obtain ⟨row, -, hrow⟩ := mem_of_mapM_eq_ok h hb
    obtain ⟨date, hdate, hbar⟩ := exists_of_bind_eq_ok hrow
    cases hbar
    exact ⟨inCalendar_of_dateAt hdate, rfl⟩

end Table

namespace Series

/-- and so does every decoded bar. -/
theorem inCalendar_of_decode {text exchange : String} {bars : List Bar}
    (h : decode text exchange = .ok bars) {b : Bar} (hb : b ∈ bars) : b.date.InCalendar := by
  rw [decode] at h
  split at h
  · exact (Table.inCalendar_of_toBars h hb).1
  · cases h

/-- A series is read back from its file. -/
theorem decode_encode {bars : List Bar} (hne : bars ≠ []) (hin : ∀ b ∈ bars, b.date.InCalendar)
    (ticker exchange : String) :
    decode (encode bars ticker) exchange = .ok (bars.map (Bar.tagged ticker exchange)) := by
  have hfits : ∀ n, some n ∈ bars.map (fun b => some b.date.number) → -2 ^ 63 ≤ n ∧ n < 2 ^ 63 := by
    intro n hn
    obtain ⟨b, hb, heq⟩ := List.mem_map.1 hn
    obtain ⟨hlo, hhi⟩ := hin b hb
    simp only [Day.le_def, Day.earliest, Day.latest] at hlo hhi
    rw [Option.some.injEq] at heq
    omega
  have hparse :
      Table.parse? (Table.ofBars bars ticker).render = some (Table.ofBars bars ticker) := by
    refine Table.parse?_render ?_ ?_
    · simp [Table.ofBars, Table.height, Column.size]
    · intro c hc
      simp only [Table.ofBars, List.mem_cons, List.not_mem_nil, or_false] at hc
      rcases hc with rfl | hc
      · exact hfits
      · rcases hc with rfl | rfl | rfl | rfl | rfl | rfl | rfl <;> exact trivial
  rw [decode, encode, hparse]
  exact Table.toBars_ofBars hne hin ticker exchange

end Series
end DailyBars
