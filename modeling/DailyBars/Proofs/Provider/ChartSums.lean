import DailyBars.Proofs.Provider.ChartColumns

/-! # Charts whose sums fit

The rows of a chart are read one after another, and the sum of a timestamp and the offset is formed
when its row comes up. Where each of these sums fits in 64 bits, a chart is read to its end or up to
the first timestamp that has no date, and either way there is an answer.
-/

namespace DailyBars.Yahoo

variable {q : Quote} {offset stamp : Int} {timestamps : List Int} {symbol exchange : String}

/-- The sums that are formed when rows are read fit in 64 bits. No row is read after the first
timestamp without a date. -/
def SumsFit (offset : Int) (timestamps : List Int) : Prop :=
  ∀ before stamp after, timestamps = before ++ stamp :: after →
    (∀ earlier ∈ before, ∃ d, dateOf? offset earlier = some d) → isWord (stamp + offset) = true

/-- If every sum fits, they all do. -/
theorem sumsFit_of_forall (h : ∀ stamp ∈ timestamps, isWord (stamp + offset) = true) :
    SumsFit offset timestamps := by
  rintro before stamp after rfl -
  exact h stamp (by simp)

/-- Computations that may have no result are read up to the first that fails. Where those that are
read have one, so has the reading. -/
theorem run_mapM_eq_some {ε α β : Type} {f? : α → Option (Except ε β)} {f : α → Except ε β}
    {xs : List α} (h : ∀ before x after, xs = before ++ x :: after →
      (∀ y ∈ before, ∃ b, f y = .ok b) → f? x = some (f x)) :
    (xs.mapM fun x => ExceptT.mk (f? x)).run = some (xs.mapM f) := by
  induction xs with
  | nil => rfl
  | cons x xs ih =>
    have hfirst : f? x = some (f x) := h [] x xs rfl nofun
    rw [List.mapM_cons, List.mapM_cons, ExceptT.run_bind, ExceptT.run_mk, hfirst]
    cases hx : f x with
    | error failure => rfl
    | ok row =>
      have hrest := ih fun before y after hsplit hbefore =>
        h (x :: before) y after (by rw [hsplit]; rfl)
          (List.forall_mem_cons.2 ⟨⟨row, hx⟩, hbefore⟩)
      simp only [Option.bind_eq_bind, Option.bind_some, ExceptT.run_bind, hrest]
      cases xs.mapM f with
      | error failure => rfl
      | ok rows => rfl

/-- The row of one timestamp. -/
def Quote.row (q : Quote) (offset stamp : Int) (position : Nat) (symbol exchange : String) :
    Except Failure (Option Bar) :=
  match dateOf? offset stamp with
  | none => .error (.malformed ("invalid timestamp: " ++ toString stamp))
  | some date => .ok (q.bar? position date symbol exchange)

/-- A stamp that gives a row has a date. -/
theorem Quote.exists_date_of_row {position : Nat} {row : Option Bar}
    (h : q.row offset stamp position symbol exchange = .ok row) :
    ∃ d, dateOf? offset stamp = some d := by
  unfold Quote.row at h
  split at h
  next => cases h
  next date hdate => exact ⟨date, hdate⟩

/-- A stamp whose sum fits is read. -/
theorem Quote.row?_of_isWord (h : isWord (stamp + offset) = true) (position : Nat) :
    q.row? offset stamp position symbol exchange
      = some (q.row offset stamp position symbol exchange) := by
  rw [row?, if_pos h, row]
  cases dateOf? offset stamp with
  | none => rfl
  | some date => rfl

/-- The columns of a quote are read to their end, or up to a timestamp without a date. -/
theorem Quote.rows?_of_sumsFit (h : SumsFit offset timestamps) :
    q.rows? offset timestamps symbol exchange
      = some (q.rows offset timestamps symbol exchange) := by
  refine run_mapM_eq_some (f := fun (entry : Int × Nat) =>
    q.row offset entry.1 entry.2 symbol exchange) fun before entry after hsplit hbefore =>
      row?_of_isWord ?_ entry.2
  have hstamps : timestamps = before.map Prod.fst ++ entry.1 :: after.map Prod.fst := by
    rw [← List.map_cons, ← List.map_append, ← hsplit, List.zipIdx_map_fst]
  refine h _ _ _ hstamps fun earlier hearlier => ?_
  obtain ⟨y, hy, rfl⟩ := List.mem_map.1 hearlier
  obtain ⟨row, hrow⟩ := hbefore y hy
  exact exists_date_of_row hrow

/-- The sums that are formed when a chart text is read. Only the first quote of the first series
counts. -/
def TextSumsFit (text : String) : Prop :=
  ∀ c s rest timestamps quote quotes, (Json.parse? text).bind Chart.ofJson? = some c →
    c.series = some (s :: rest) → s.timestamps = some timestamps → s.quotes = quote :: quotes →
    SumsFit (s.offset.getD 0) timestamps

/-- A chart whose sums fit is read. -/
theorem ChartSeries.bars?_of_sumsFit {s : ChartSeries}
    (h : ∀ timestamps quote quotes, s.timestamps = some timestamps → s.quotes = quote :: quotes →
      SumsFit (s.offset.getD 0) timestamps) :
    s.bars? symbol exchange = some (s.bars symbol exchange) := by
  unfold bars? bars
  cases htimestamps : s.timestamps with
  | none => rfl
  | some timestamps =>
    cases hquotes : s.quotes with
    | nil => rfl
    | cons quote quotes =>
      simp only
      rw [Quote.rows?_of_sumsFit (h timestamps quote quotes htimestamps hquotes)]
      rfl

/-- A chart text whose sums fit has an answer, bars or a failure. -/
theorem parse?_of_sumsFit {text : String} (h : TextSumsFit text) (symbol exchange : String) :
    parse? text symbol exchange = some (parse text symbol exchange) := by
  unfold parse? parse
  cases hchart : (Json.parse? text).bind Chart.ofJson? with
  | none => rfl
  | some c =>
    simp only
    unfold Chart.bars?
    split
    next s rest hseries =>
      rw [ChartSeries.bars?_of_sumsFit fun timestamps quote quotes =>
        h c s rest timestamps quote quotes hchart hseries, Chart.bars, hseries]
    next => rfl

end DailyBars.Yahoo
