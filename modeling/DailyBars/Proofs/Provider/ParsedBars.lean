import DailyBars.Proofs.Bar.Series
import DailyBars.Proofs.Rows
import DailyBars.Provider.AlphaVantage
import DailyBars.Provider.Ft
import DailyBars.Provider.Stooq
import DailyBars.Provider.Yahoo
import Mathlib.Data.List.Basic
import Mathlib.Data.List.Nodup

/-! # The bars that are made of an answer

Every provider's text is made into bars that are in order of date and carry the ticker, the
exchange and the name of the source. Three of the parsers keep the first bar of each date, so
there is one on a date. That of Alpha Vantage does not look: its bars stand in a table, in no
order, under texts that name their dates, and two texts may name one date. Then there are two
bars on it, and which of them comes first is settled by the order of the table.
-/

namespace DailyBars

/-- The bar is of the instrument and the source. -/
structure Bar.IsOf (symbol exchange source : String) (b : Bar) : Prop where
  symbol : b.symbol = symbol
  exchange : b.exchange = exchange
  source : b.source = source

namespace Series

variable {bars others : List Bar} {symbol exchange source : String}

/-! ## Bars in order of date -/

/-- Sorting neither drops nor adds a bar. -/
theorem mem_sortByDate {b : Bar} : b ∈ sortByDate bars ↔ b ∈ bars := List.mem_mergeSort

/-- Bars in order of date make a series if no two share a date. -/
theorem ascending_sortByDate_iff : Ascending (sortByDate bars) ↔ (bars.map Bar.date).Nodup := by
  have hdates : ((sortByDate bars).map Bar.date).Nodup ↔ (bars.map Bar.date).Nodup :=
    ((List.mergeSort_perm bars _).map Bar.date).nodup_iff
  rw [← hdates, List.Nodup, List.pairwise_map]
  constructor
  · intro h
    refine h.imp fun {a b} hlt heq => ?_
    rw [heq] at hlt
    exact Day.lt_irrefl _ hlt
  · intro h
    refine ((pairwise_sortByDate bars).and h).imp ?_
    rintro a b ⟨hle, hne⟩
    have hnumber : a.date.number ≠ b.date.number := fun heq => hne (Day.ext heq)
    rw [Day.le_def] at hle
    rw [Day.lt_def]
    omega

/-- Two lists of the same bars are in one order if bars of one date are the same. -/
theorem sortByDate_eq_of_perm (hperm : bars.Perm others) (h : OnePerDate bars) :
    sortByDate bars = sortByDate others := by
  have hsorted : (sortByDate bars).Perm (sortByDate others) :=
    (List.mergeSort_perm bars _).trans (hperm.trans (List.mergeSort_perm others _).symm)
  refine hsorted.eq_of_pairwise (fun a b ha hb hab hba => ?_) (pairwise_sortByDate bars)
    (pairwise_sortByDate others)
  refine h a (mem_sortByDate.1 ha) b (hperm.mem_iff.2 (mem_sortByDate.1 hb)) (Day.ext ?_)
  rw [Day.le_def] at hab hba
  omega

/-- The series of an instrument as a source gives it. -/
structure IsOf (symbol exchange source : String) (bars : List Bar) : Prop where
  ascending : Ascending bars
  tagged : ∀ b ∈ bars, b.IsOf symbol exchange source

/-- The first bars of their dates are a series. -/
theorem isOf_keepFirst (h : ∀ b ∈ bars, b.IsOf symbol exchange source) :
    IsOf symbol exchange source (keepFirst bars) where
  ascending := ascending_keepFirst bars
  tagged b hb := h b (mem_of_mem_keepFirst hb)

/-- No bars are bars of any instrument. -/
theorem isOf_nil : IsOf symbol exchange source [] :=
  ⟨List.Pairwise.nil, fun _ hb => absurd hb List.not_mem_nil⟩

end Series

variable {text symbol exchange : String} {w : Window} {bars : List Bar} {b : Bar}

/-! ## Charts, rows and pages -/

namespace Yahoo

/-- A bar that is read off a quote is tagged as asked for. -/
theorem Quote.isOf_of_bar? {q : Quote} {position : Nat} {date : Day}
    (h : q.bar? position date symbol exchange = some b) : b.IsOf symbol exchange id := by
  obtain ⟨close, -, rfl⟩ := Option.map_eq_some_iff.1 h
  exact ⟨rfl, rfl, rfl⟩

/-- So are all bars of the columns of a quote, -/
theorem Quote.isOf_of_rows {q : Quote} {offset : Int} {timestamps : List Int}
    {rows : List (Option Bar)} (h : q.rows offset timestamps symbol exchange = .ok rows)
    (hb : some b ∈ rows) : b.IsOf symbol exchange id := by
  obtain ⟨-, rfl⟩ := mapM_eq_ok_iff.1 h
  obtain ⟨⟨timestamp, position⟩, -, hrow⟩ := List.mem_filterMap.1 hb
  cases hdate : dateOf? offset timestamp with
  | none => simp [hdate, Except.toOption] at hrow
  | some date =>
    simp only [hdate, Except.toOption, Option.some.injEq] at hrow
    exact isOf_of_bar? hrow

/-- and all bars of a chart. -/
theorem ChartSeries.isOf_of_bars {s : ChartSeries} (h : s.bars symbol exchange = .ok bars) :
    Series.IsOf symbol exchange id bars := by
  rw [ChartSeries.bars] at h
  split at h
  · cases h
    exact Series.isOf_nil
  · cases h
  next timestamps quote more _ _ =>
    cases hrows : quote.rows (s.offset.getD 0) timestamps symbol exchange with
    | error e =>
      rw [hrows] at h
      cases h
    | ok rows =>
      rw [hrows] at h
      cases h
      refine Series.isOf_keepFirst fun b hb => Quote.isOf_of_rows hrows ?_
      simpa using hb

/-- Parsed bars are tagged with the instrument that was asked for and with their source. -/
theorem isOf_of_parse (h : parse text symbol exchange = .ok bars) :
    Series.IsOf symbol exchange id bars := by
  rw [parse] at h
  split at h
  next chart _ =>
    rw [Chart.bars] at h
    split at h
    next s _ _ => exact ChartSeries.isOf_of_bars h
    · cases h
    · split at h <;> cases h
    · cases h
  · cases h

end Yahoo

namespace Stooq

/-- A bar of a row is tagged as asked for. -/
theorem isOf_of_bar? {heading row : List String} (h : bar? heading row symbol exchange = some b) :
    b.IsOf symbol exchange id := by
  rw [bar?] at h
  split at h
  · cases h
  · obtain ⟨column, -, h⟩ := Option.bind_eq_some_iff.1 h
    -- the volume is absent, empty or a number, and then all columns are read
    (repeat' split at h) <;>
      · simp only [Option.bind_eq_bind, Option.bind_eq_some_iff, Option.pure_def,
          Option.some.injEq] at h
        obtain ⟨volume, -, dateText, -, date, -, openPrice, -, high, -, low, -, close, -, rfl⟩ := h
        exact ⟨rfl, rfl, rfl⟩

/-- So are the bars of all rows. -/
theorem isOf_of_barsOf? {rows : List (List String)} (h : barsOf? rows symbol exchange = some bars) :
    Series.IsOf symbol exchange id bars := by
  cases rows with
  | nil =>
    cases h
    exact Series.isOf_nil
  | cons heading rows =>
    obtain ⟨listed, hlisted, rfl⟩ := Option.map_eq_some_iff.1 h
    refine Series.isOf_keepFirst fun b hb => ?_
    obtain ⟨row, -, hrow⟩ := mem_of_mapM_eq_some hlisted hb
    exact isOf_of_bar? hrow

/-- Parsed bars are tagged with the instrument that was asked for and with their source. -/
theorem isOf_of_parse (h : parse text symbol exchange = .ok bars) :
    Series.IsOf symbol exchange id bars := by
  simp only [parse] at h
  split at h
  · cases h
  · split at h
    · cases h
    · split at h
      · split at h
        next listed hlisted =>
          cases h
          exact isOf_of_barsOf? hlisted
        · cases h
      · cases h

end Stooq

namespace Ft

/-- A bar of a table row is tagged as asked for and dated in the window. -/
theorem isOf_of_rowBar? {d : Html.Document} {cells : List Nat}
    (h : rowBar? d cells symbol exchange w = .ok (some b)) :
    b.IsOf symbol exchange id ∧ w.contains b.date = true := by
  rw [rowBar?.eq_def] at h
  split at h
  next dateCell first second third fourth more =>
    split at h
    · cases h
    next date hdate =>
      split at h
      · cases h
      next hin =>
        obtain ⟨openPrice, -, h⟩ := exists_of_bind_eq_ok h
        obtain ⟨high, -, h⟩ := exists_of_bind_eq_ok h
        obtain ⟨low, -, h⟩ := exists_of_bind_eq_ok h
        obtain ⟨close, -, h⟩ := exists_of_bind_eq_ok h
        cases h
        exact ⟨⟨rfl, rfl, rfl⟩, by simpa using hin⟩
  · cases h

/-- So are the bars of all rows of a page. -/
theorem isOf_of_barsOf {d : Html.Document} (h : barsOf d symbol exchange w = .ok bars) :
    Series.IsOf symbol exchange id bars ∧ ∀ b ∈ bars, w.contains b.date = true := by
  rw [barsOf] at h
  cases hrows : (d.named "tr").mapM fun row =>
      rowBar? d (d.namedWithin row "td") symbol exchange w with
  | error e =>
    rw [hrows] at h
    cases h
  | ok rows =>
    rw [hrows] at h
    cases h
    have hrow : ∀ b ∈ rows.filterMap fun row => row,
        b.IsOf symbol exchange id ∧ w.contains b.date = true := by
      intro b hb
      obtain ⟨row, hmem, rfl⟩ := List.mem_filterMap.1 hb
      obtain ⟨cells, -, hcells⟩ := mem_of_mapM_eq_ok hrows hmem
      exact isOf_of_rowBar? hcells
    exact ⟨Series.isOf_keepFirst fun b hb => (hrow b hb).1,
      fun b hb => (hrow b (Series.mem_of_mem_keepFirst hb)).2⟩

/-- Parsed bars are tagged as asked for and dated in the window. -/
theorem isOf_of_parse (h : parse text symbol exchange w = .ok bars) :
    Series.IsOf symbol exchange id bars ∧ ∀ b ∈ bars, w.contains b.date = true := by
  rw [parse] at h
  split at h
  · exact isOf_of_barsOf h
  · cases h

end Ft

/-! ## Tables of dates -/

namespace AlphaVantage

variable {quotes others : List (String × Quote)}

/-- The bar of an entry of a table, if it can be read and its day lies in the window. -/
def rowOf (symbol exchange : String) (w : Window) (e : String × Quote) : Option Bar :=
  (bar? e.1 e.2 symbol exchange w).toOption.join

/-- The day in the window that the text of an entry names. -/
def dayOf (w : Window) (e : String × Quote) : Option Day :=
  (DatePattern.hyphenated.parse? e.1).filter fun d => w.contains d

/-- Every entry of a table can be read. -/
def Readable (symbol exchange : String) (w : Window) (quotes : List (String × Quote)) : Prop :=
  ∀ e ∈ quotes, ∃ row, bar? e.1 e.2 symbol exchange w = .ok row

/-- The bars of a table as they stand in it. -/
def rowsOf (symbol exchange : String) (w : Window) (quotes : List (String × Quote)) : List Bar :=
  quotes.filterMap (rowOf symbol exchange w)

/-- The bar of a quote has the date of its key, and is tagged as asked for. -/
theorem Quote.of_bar {q : Quote} {dateText : String} {date : Day}
    (h : q.bar dateText date symbol exchange = .ok b) :
    b.date = date ∧ b.IsOf symbol exchange id := by
  rw [Quote.bar] at h
  split at h <;>
    · obtain ⟨volume, -, h⟩ := exists_of_bind_eq_ok h
      obtain ⟨openPrice, -, h⟩ := exists_of_bind_eq_ok h
      obtain ⟨high, -, h⟩ := exists_of_bind_eq_ok h
      obtain ⟨low, -, h⟩ := exists_of_bind_eq_ok h
      obtain ⟨close, -, h⟩ := exists_of_bind_eq_ok h
      cases h
      exact ⟨rfl, rfl, rfl, rfl⟩

/-- What is read of an entry has its day and the tags that are asked for. -/
theorem of_bar? {e : String × Quote} {row : Option Bar}
    (h : bar? e.1 e.2 symbol exchange w = .ok row) :
    row.map Bar.date = dayOf w e ∧ ∀ b, row = some b → b.IsOf symbol exchange id := by
  rw [bar?] at h
  rw [dayOf]
  cases hdate : DatePattern.hyphenated.parse? e.1 with
  | none =>
    rw [hdate] at h
    cases h
  | some date =>
    simp only [hdate] at h
    rw [Option.filter_some]
    split at h
    next hin =>
      cases hbar : e.2.bar e.1 date symbol exchange with
      | error fault =>
        rw [hbar] at h
        cases h
      | ok b =>
        rw [hbar] at h
        cases h
        obtain ⟨hday, hof⟩ := Quote.of_bar hbar
        rw [if_pos hin, Option.map_some, hday]
        exact ⟨rfl, fun _ heq => Option.some.inj heq ▸ hof⟩
    next hout =>
      cases h
      rw [if_neg hout]
      exact ⟨rfl, fun _ heq => absurd heq (by simp)⟩

/-- If an entry can be read, what it comes to is its row. -/
theorem rowOf_of_bar? {e : String × Quote} {row : Option Bar}
    (h : bar? e.1 e.2 symbol exchange w = .ok row) : rowOf symbol exchange w e = row := by
  rw [rowOf, h]
  rfl

/-- The rows are what the entries come to. -/
theorem mem_rowsOf : b ∈ rowsOf symbol exchange w quotes
    ↔ ∃ e ∈ quotes, rowOf symbol exchange w e = some b := List.mem_filterMap

/-- Entries in another order have the rows in another order. -/
theorem rowsOf_perm (symbol exchange : String) (w : Window) (h : quotes.Perm others) :
    (rowsOf symbol exchange w quotes).Perm (rowsOf symbol exchange w others) :=
  h.filterMap _

/-- The bars of a table are dated by its texts. -/
theorem map_date_rowsOf (h : Readable symbol exchange w quotes) :
    (rowsOf symbol exchange w quotes).map Bar.date = quotes.filterMap (dayOf w) := by
  rw [rowsOf, List.map_filterMap]
  refine List.filterMap_congr fun e he => ?_
  obtain ⟨row, hrow⟩ := h e he
  rw [rowOf_of_bar? hrow, (of_bar? hrow).1]

/-- The rows of a readable table are tagged as asked for and dated in the window. -/
theorem of_mem_rowsOf (h : Readable symbol exchange w quotes)
    (hb : b ∈ rowsOf symbol exchange w quotes) :
    b.IsOf symbol exchange id ∧ w.contains b.date = true := by
  obtain ⟨e, he, hrow⟩ := mem_rowsOf.1 hb
  obtain ⟨row, hread⟩ := h e he
  obtain ⟨hday, hof⟩ := of_bar? hread
  rw [rowOf_of_bar? hread] at hrow
  subst hrow
  refine ⟨hof b rfl, ?_⟩
  rw [Option.map_some, dayOf] at hday
  exact (Option.filter_eq_some_iff.1 hday.symm).2

/-- A table is read if all its entries are, whatever their order, and its bars are sorted. -/
theorem barsOf_eq_ok_iff :
    barsOf quotes symbol exchange w = .ok bars
      ↔ Readable symbol exchange w quotes
        ∧ bars = Series.sortByDate (rowsOf symbol exchange w quotes) := by
  have hrows : (quotes.filterMap fun e => (bar? e.1 e.2 symbol exchange w).toOption).filterMap
      (fun row => row) = rowsOf symbol exchange w quotes := by
    rw [List.filterMap_filterMap]
    rfl
  rw [barsOf, ← hrows]
  constructor
  · intro h
    cases hread : quotes.mapM fun e => bar? e.1 e.2 symbol exchange w with
    | error fault =>
      rw [hread] at h
      cases h
    | ok rows =>
      rw [hread] at h
      cases h
      obtain ⟨hall, rfl⟩ := mapM_eq_ok_iff.1 hread
      exact ⟨hall, rfl⟩
  · rintro ⟨hall, rfl⟩
    rw [mapM_eq_ok_iff.2 ⟨hall, rfl⟩]
    rfl

/-- Whether a table can be read does not depend on the order of its entries. -/
theorem Readable.of_perm (h : Readable symbol exchange w quotes) (hperm : quotes.Perm others) :
    Readable symbol exchange w others :=
  fun e he => h e (hperm.mem_iff.2 he)

/-- An entry may come first. -/
theorem exists_perm_cons {e : String × Quote} (he : e ∈ quotes) :
    ∃ rest, quotes.Perm (e :: rest) := by
  obtain ⟨before, after, rfl⟩ := List.append_of_mem he
  exact ⟨before ++ after, List.perm_middle⟩

/-- The bars come out the same in every order of the table just if bars of one date are the
same: the entry that comes first gives the first bar of its date. -/
theorem sortByDate_rowsOf_iff :
    (∀ others, quotes.Perm others → Series.sortByDate (rowsOf symbol exchange w others)
        = Series.sortByDate (rowsOf symbol exchange w quotes))
      ↔ Series.OnePerDate (rowsOf symbol exchange w quotes) := by
  constructor
  · intro h a ha b hb hab
    have hfirst : ∀ b ∈ rowsOf symbol exchange w quotes,
        Series.at? (rowsOf symbol exchange w quotes) b.date = some b := by
      intro b hb
      obtain ⟨e, he, hrow⟩ := mem_rowsOf.1 hb
      obtain ⟨rest, hperm⟩ := exists_perm_cons he
      rw [← Series.at?_sortByDate, ← h _ hperm, Series.at?_sortByDate, rowsOf,
        List.filterMap_cons_some hrow]
      simp [Series.at?]
    have heq : some a = some b := by rw [← hfirst a ha, ← hfirst b hb, hab]
    exact Option.some.inj heq
  · intro h others hperm
    exact (Series.sortByDate_eq_of_perm (rowsOf_perm _ _ _ hperm) h).symm

/-! ## Replies -/

section Orders

variable {α : Type} {a b a' b' : Option (List α)}

/-- A list that may be absent is a rearrangement of itself. -/
theorem rel_perm_refl (a : Option (List α)) : Option.Rel List.Perm a a := by
  cases a with
  | none => exact .none
  | some xs => exact .some (.refl xs)

/-- The first of two lists that is there is rearranged if both are. -/
theorem rel_perm_or (ha : Option.Rel List.Perm a a') (hb : Option.Rel List.Perm b b') :
    Option.Rel List.Perm (a.or b) (a'.or b') := by
  cases ha with
  | some hperm => exact .some hperm
  | none => exact hb

/-- An absent list counts as an empty one. -/
theorem getD_perm (h : Option.Rel List.Perm a a') : (a.getD []).Perm (a'.getD []) := by
  cases h with
  | some hperm => exact hperm
  | none => exact .refl []

/-- Rearranging does not make a list absent. -/
theorem isSome_eq_of_rel_perm (h : Option.Rel List.Perm a a') : a'.isSome = a.isSome := by
  cases h with
  | some hperm => rfl
  | none => rfl

end Orders

/-- The entries that the bars of a reply are made of. -/
def Reply.table (r : Reply) : List (String × Quote) := (r.shares.or r.pairs).getD []

/-- The days in a window that the texts of a reply name. -/
def Reply.days (r : Reply) (w : Window) : List Day := r.table.filterMap (dayOf w)

/-- The same reply with its tables in another order. -/
structure Reply.Reordered (r r' : Reply) : Prop where
  shares : Option.Rel List.Perm r.shares r'.shares
  pairs : Option.Rel List.Perm r.pairs r'.pairs
  fault : r'.fault = r.fault
  note : r'.note = r.note
  information : r'.information = r.information

/-- The reply that a text is read as. -/
def replyOf? (text : String) : Option Reply := (Json.parse? text).bind Reply.ofJson?

/-- What may come of a text: the tables in it are gone through in any order. -/
inductive Outcome (text symbol exchange : String) (w : Window) :
    Except Failure (List Bar) → Prop
  | ofReply {r r' : Reply} (read : replyOf? text = some r) (order : r.Reordered r') :
    Outcome text symbol exchange w (r'.bars symbol exchange w)
  | unreadable (read : replyOf? text = none) :
    Outcome text symbol exchange w (.error (.malformed ("alpha vantage JSON for " ++ symbol)))

/-- A reply is a reordering of itself. -/
theorem Reply.Reordered.refl (r : Reply) : r.Reordered r :=
  ⟨rel_perm_refl _, rel_perm_refl _, rfl, rfl, rfl⟩

/-- The order in which the text has its tables is one of them. -/
theorem outcome_parse : Outcome text symbol exchange w (parse text symbol exchange w) := by
  rw [parse]
  split
  next r hread => exact .ofReply hread (.refl r)
  next hread => exact .unreadable hread

/-- Nothing stands in the place of the bars. -/
def Reply.HasBars (r : Reply) : Prop :=
  r.note = none ∧ r.information = none ∧ r.fault = none ∧ (r.shares.or r.pairs).isSome = true

/-- A reply gives bars if it has a table of them and they can be read. -/
theorem Reply.bars_eq_ok_iff {r : Reply} :
    r.bars symbol exchange w = .ok bars
      ↔ r.HasBars ∧ barsOf r.table symbol exchange w = .ok bars := by
  rw [Reply.bars, Reply.HasBars, Reply.table]
  cases r.note <;> cases r.information <;> cases r.fault <;> cases r.shares.or r.pairs <;> simp

namespace Reply.Reordered

variable {r r' : Reply}

/-- Reordering a reply rearranges its table. -/
theorem table (h : r.Reordered r') : r.table.Perm r'.table :=
  getD_perm (rel_perm_or h.shares h.pairs)

/-- Reordering does not change whether there are bars. -/
theorem hasBars (h : r.Reordered r') : r'.HasBars ↔ r.HasBars := by
  rw [HasBars, HasBars, h.note, h.information, h.fault,
    isSome_eq_of_rel_perm (rel_perm_or h.shares h.pairs)]

/-- Every order of the table that is read is one of the reply. -/
theorem exists_of_perm (h : r.HasBars) {others : List (String × Quote)}
    (hperm : r.table.Perm others) : ∃ r', r.Reordered r' ∧ r'.table = others := by
  obtain ⟨shares, pairs, fault, note, information⟩ := r
  obtain ⟨-, -, -, hsome⟩ := h
  cases shares with
  | some quotes =>
    exact ⟨⟨some others, pairs, fault, note, information⟩,
      ⟨.some hperm, rel_perm_refl pairs, rfl, rfl, rfl⟩, rfl⟩
  | none =>
    cases pairs with
    | some quotes =>
      exact ⟨⟨none, some others, fault, note, information⟩,
        ⟨.none, .some hperm, rfl, rfl, rfl⟩, rfl⟩
    | none => cases hsome

end Reply.Reordered

/-- The bars of a text are those of its table in some order of the entries, sorted. -/
theorem outcome_ok_iff {r : Reply} (hread : replyOf? text = some r) :
    Outcome text symbol exchange w (.ok bars)
      ↔ r.HasBars ∧ Readable symbol exchange w r.table
        ∧ ∃ others, r.table.Perm others
          ∧ bars = Series.sortByDate (rowsOf symbol exchange w others) := by
  constructor
  · intro h
    generalize hbars : (Except.ok bars : Except Failure (List Bar)) = outcome at h
    cases h with
    | ofReply hread' horder =>
      rw [hread] at hread'
      cases hread'
      obtain ⟨hhas, hlisted⟩ := Reply.bars_eq_ok_iff.1 hbars.symm
      obtain ⟨hall, heq⟩ := barsOf_eq_ok_iff.1 hlisted
      exact ⟨horder.hasBars.1 hhas, hall.of_perm horder.table.symm, _, horder.table, heq⟩
    | unreadable hnone => cases hbars
  · rintro ⟨hhas, hall, others, hperm, heq⟩
    obtain ⟨r', horder, rfl⟩ := Reply.Reordered.exists_of_perm hhas hperm
    have hbars : r'.bars symbol exchange w = .ok bars :=
      Reply.bars_eq_ok_iff.2
        ⟨horder.hasBars.2 hhas, barsOf_eq_ok_iff.2 ⟨hall.of_perm hperm, heq⟩⟩
    exact hbars ▸ .ofReply hread horder

/-- How the bars of a text go together with the order in which its tables are gone through. -/
structure ListsDays (text symbol exchange : String) (w : Window) : Prop where
  /-- Whether there are bars is the same in every order. -/
  settled : ∀ outcome, Outcome text symbol exchange w outcome →
    ((∃ bars, outcome = .ok bars) ↔ ∃ bars, parse text symbol exchange w = .ok bars)
  /-- They come in order of date, each of the instrument and in the window. -/
  listed : ∀ bars, Outcome text symbol exchange w (.ok bars) →
    bars.Pairwise (fun a b => a.date ≤ b.date)
      ∧ ∀ b ∈ bars, b.IsOf symbol exchange id ∧ w.contains b.date = true
  /-- No bar is lost or gained in another order. -/
  same : ∀ bars others, Outcome text symbol exchange w (.ok bars) →
    Outcome text symbol exchange w (.ok others) → bars.Perm others
  /-- There is one on a date just if no two texts name one day of the window. -/
  once : ∀ bars r, Outcome text symbol exchange w (.ok bars) → replyOf? text = some r →
    (Series.Ascending bars ↔ (r.days w).Nodup)
  /-- Their order is settled just if bars of one date are the same. -/
  fixed : ∀ bars, Outcome text symbol exchange w (.ok bars) →
    ((∀ others, Outcome text symbol exchange w (.ok others) → others = bars)
      ↔ Series.OnePerDate bars)

/-- A text that is not read as a reply has no bars. -/
theorem not_outcome_ok (hread : replyOf? text = none) :
    ¬ Outcome text symbol exchange w (.ok bars) := by
  intro h
  generalize hbars : (Except.ok bars : Except Failure (List Bar)) = outcome at h
  cases h with
  | ofReply hread' horder =>
    rw [hread] at hread'
    cases hread'
  | unreadable hnone => cases hbars

/-- Some order gives bars just if every order does. -/
theorem exists_ok_of_outcome {outcome other : Except Failure (List Bar)}
    (h : Outcome text symbol exchange w outcome) (h' : Outcome text symbol exchange w other)
    (hok : ∃ bars, outcome = .ok bars) : ∃ bars, other = .ok bars := by
  obtain ⟨bars, rfl⟩ := hok
  cases hread : replyOf? text with
  | none => exact absurd h (not_outcome_ok hread)
  | some r =>
    obtain ⟨hhas, hall, -⟩ := (outcome_ok_iff hread).1 h
    cases h' with
    | ofReply hread' horder =>
      rw [hread] at hread'
      cases hread'
      exact ⟨_, Reply.bars_eq_ok_iff.2
        ⟨horder.hasBars.2 hhas, barsOf_eq_ok_iff.2 ⟨hall.of_perm horder.table, rfl⟩⟩⟩
    | unreadable hnone =>
      rw [hread] at hnone
      cases hnone

/-- For every text, the days of the bars are those of the entries in the window. -/
theorem listsDays (text symbol exchange : String) (w : Window) :
    ListsDays text symbol exchange w := by
  -- bars only come of a text that is read as a reply, and are those of its table in some order
  have hbars : ∀ bars, Outcome text symbol exchange w (.ok bars) → ∃ r, replyOf? text = some r
      ∧ Readable symbol exchange w r.table ∧ ∃ others, r.table.Perm others
        ∧ bars = Series.sortByDate (rowsOf symbol exchange w others) := by
    intro bars h
    cases hread : replyOf? text with
    | none => exact absurd h (not_outcome_ok hread)
    | some r =>
      obtain ⟨-, hall, horder⟩ := (outcome_ok_iff hread).1 h
      exact ⟨r, rfl, hall, horder⟩
  refine ⟨fun outcome h => ?_, fun bars h => ?_, fun bars others h h' => ?_,
    fun bars r h hread => ?_, fun bars h => ?_⟩
  · exact ⟨exists_ok_of_outcome h outcome_parse, exists_ok_of_outcome outcome_parse h⟩
  · obtain ⟨r, -, hall, others, hperm, rfl⟩ := hbars bars h
    exact ⟨Series.pairwise_sortByDate _,
      fun b hb => of_mem_rowsOf (hall.of_perm hperm) (Series.mem_sortByDate.1 hb)⟩
  · obtain ⟨r, hread, -, quotes, hperm, rfl⟩ := hbars bars h
    obtain ⟨r', hread', -, quotes', hperm', rfl⟩ := hbars others h'
    rw [hread] at hread'
    cases hread'
    have hrows := rowsOf_perm symbol exchange w (hperm.symm.trans hperm')
    exact (List.mergeSort_perm _ _).trans (hrows.trans (List.mergeSort_perm _ _).symm)
  · obtain ⟨r', hread', hall, others, hperm, rfl⟩ := hbars bars h
    rw [hread] at hread'
    cases hread'
    rw [Series.ascending_sortByDate_iff, map_date_rowsOf (hall.of_perm hperm), Reply.days]
    exact (hperm.filterMap (dayOf w)).nodup_iff.symm
  · obtain ⟨r, hread, hall, quotes, hperm, rfl⟩ := hbars bars h
    obtain ⟨hhas, -⟩ := (outcome_ok_iff hread).1 h
    have horders : (∀ others, Outcome text symbol exchange w (.ok others) →
        others = Series.sortByDate (rowsOf symbol exchange w quotes))
        ↔ ∀ others, quotes.Perm others → Series.sortByDate (rowsOf symbol exchange w others)
          = Series.sortByDate (rowsOf symbol exchange w quotes) := by
      constructor
      · intro hall' others hperm'
        exact hall' _ ((outcome_ok_iff hread).2 ⟨hhas, hall, others, hperm.trans hperm', rfl⟩)
      · rintro hall' bars' h'
        obtain ⟨-, -, others, hperm', rfl⟩ := (outcome_ok_iff hread).1 h'
        exact hall' others (hperm.symm.trans hperm')
    rw [horders, sortByDate_rowsOf_iff]
    simp only [Series.OnePerDate, Series.mem_sortByDate]

end AlphaVantage

/-! ## All parsers -/

/-- What the parsers make of a text. -/
structure ParsedInOrder (text symbol exchange : String) (w : Window) : Prop where
  yahoo : ∀ bars, Yahoo.parse text symbol exchange = .ok bars →
    Series.IsOf symbol exchange Yahoo.id bars
  stooq : ∀ bars, Stooq.parse text symbol exchange = .ok bars →
    Series.IsOf symbol exchange Stooq.id bars
  ft : ∀ bars, Ft.parse text symbol exchange w = .ok bars →
    Series.IsOf symbol exchange Ft.id bars ∧ ∀ b ∈ bars, w.contains b.date = true
  /-- In whatever order its table is gone through. -/
  alphaVantage : AlphaVantage.ListsDays text symbol exchange w

/-- **What is parsed is in order of date.** The bars that are made of a text carry the ticker, the
exchange and the source, and where the window is known they lie in it. Those of Yahoo, Stooq and FT
have different dates. Those of Alpha Vantage have them, in an order that the table does not change,
unless two texts of the table name one day. -/
theorem parsed_bars_are_in_order (text symbol exchange : String) (w : Window) :
    ParsedInOrder text symbol exchange w where
  yahoo _ h := Yahoo.isOf_of_parse h
  stooq _ h := Stooq.isOf_of_parse h
  ft _ h := Ft.isOf_of_parse h
  alphaVantage := AlphaVantage.listsDays text symbol exchange w

namespace AlphaVantage

/-- A table that names 2 January 2024 twice, with different prices. -/
def twoSpellings : String :=
  "\x7b\"Time Series (Daily)\": \x7b" ++
  "\"2024-01-02\": \x7b\"1. open\":\"1\",\"2. high\":\"1\",\"3. low\":\"1\",\"4. close\":\"1\"\x7d, " ++
  "\"2024-1-2\": \x7b\"1. open\":\"2\",\"2. high\":\"2\",\"3. low\":\"2\",\"4. close\":\"2\"\x7d" ++
  "\x7d\x7d"

/-- Two spellings of one date are two entries, and both give a bar. -/
theorem exists_parse_twoSpellings : ∃ r bars, replyOf? twoSpellings = some r
    ∧ parse twoSpellings "GSK" "L" ⟨⟨19724⟩, ⟨19724⟩⟩ = .ok bars
    ∧ r.days ⟨⟨19724⟩, ⟨19724⟩⟩ = [⟨19724⟩, ⟨19724⟩]
    ∧ (rowsOf "GSK" "L" ⟨⟨19724⟩, ⟨19724⟩⟩ r.table).map Bar.openPrice = [1.0, 2.0] := by
  have hread : (replyOf? twoSpellings).map (fun r => (r.days ⟨⟨19724⟩, ⟨19724⟩⟩,
      (rowsOf "GSK" "L" ⟨⟨19724⟩, ⟨19724⟩⟩ r.table).map Bar.openPrice))
      = some ([⟨19724⟩, ⟨19724⟩], [1.0, 2.0]) := by
    decide +kernel
  have hsome : (parse twoSpellings "GSK" "L" ⟨⟨19724⟩, ⟨19724⟩⟩).toOption.isSome = true := by
    decide +kernel
  obtain ⟨r, hr, hrows⟩ := Option.map_eq_some_iff.1 hread
  obtain ⟨hdays, hprices⟩ := Prod.mk.inj hrows
  cases hparse : parse twoSpellings "GSK" "L" ⟨⟨19724⟩, ⟨19724⟩⟩ with
  | ok bars => exact ⟨r, bars, hr, rfl, hdays, hprices⟩
  | error fault =>
    rw [hparse] at hsome
    cases hsome

/-- The parser gives two bars of one day, and their order is that of the table. -/
theorem two_spellings_give_two_bars :
    (¬ ∀ text symbol exchange w bars, parse text symbol exchange w = .ok bars →
      Series.Ascending bars)
    ∧ ¬ ∀ text symbol exchange w bars others, Outcome text symbol exchange w (.ok bars) →
      Outcome text symbol exchange w (.ok others) → others = bars := by
  obtain ⟨r, bars, hr, hbars, hdays, hprices⟩ := exists_parse_twoSpellings
  have houtcome : Outcome twoSpellings "GSK" "L" ⟨⟨19724⟩, ⟨19724⟩⟩ (.ok bars) :=
    hbars ▸ outcome_parse
  obtain ⟨-, -, -, honce, hfixed⟩ := listsDays twoSpellings "GSK" "L" ⟨⟨19724⟩, ⟨19724⟩⟩
  refine ⟨fun h => ?_, fun h => ?_⟩
  · have hnodup := (honce bars r houtcome hr).1 (h _ _ _ _ _ hbars)
    rw [hdays] at hnodup
    exact absurd hnodup (by decide)
  · have hone := (hfixed bars houtcome).1 fun others => h _ _ _ _ _ _ houtcome
    obtain ⟨-, hall, others, hperm, rfl⟩ := (outcome_ok_iff hr).1 houtcome
    -- the two bars are those of the table, which are dated alike
    obtain ⟨a, rows, hrows, ha, hrest⟩ := List.map_eq_cons_iff.1 hprices
    obtain ⟨b, rest, rfl, hb, -⟩ := List.map_eq_cons_iff.1 hrest
    have hdates := map_date_rowsOf hall
    rw [hrows, ← Reply.days, hdays] at hdates
    have hbars := rowsOf_perm "GSK" "L" ⟨⟨19724⟩, ⟨19724⟩⟩ hperm
    rw [hrows] at hbars
    have hab : a = b := by
      refine hone a (Series.mem_sortByDate.2 (hbars.mem_iff.1 (by simp))) b
        (Series.mem_sortByDate.2 (hbars.mem_iff.1 (by simp))) ?_
      simp only [List.map_cons, List.cons.injEq] at hdates
      rw [hdates.1, hdates.2.1]
    rw [hab, hb] at ha
    exact absurd ha (by decide +kernel)

end AlphaVantage

end DailyBars
