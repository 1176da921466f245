import DailyBars.Bar.Series
import DailyBars.Proofs.Calendar.Window

/-! # Series as tables of dates

An ascending series has one bar on a date at most, so it is the same thing as a set of bars no two
of which share a date. `mem_keepLast` reads merging in these terms, `keepFirst_of_ascending` says
that a stored series is read as it stands, and `at?` looks a date up.
-/

namespace DailyBars

/-- No day is before itself. -/
theorem Day.lt_irrefl (d : Day) : ¬ d < d := Int.lt_irrefl d.number

/-- The bar with another ticker and exchange. -/
def Bar.tagged (symbol exchange : String) (b : Bar) : Bar := { b with symbol, exchange }

/-- Tagging a bar leaves its date. -/
@[simp] theorem Bar.tagged_date (symbol exchange : String) (b : Bar) :
    (b.tagged symbol exchange).date = b.date := rfl

namespace Series

/-! ## Bars by date -/

/-- No two bars share a date. -/
def OnePerDate (bars : List Bar) : Prop := ∀ a ∈ bars, ∀ b ∈ bars, a.date = b.date → a = b

/-- The bar of a date. -/
def at? (bars : List Bar) (d : Day) : Option Bar := bars.find? fun b => b.date = d

/-- An ascending list has one bar per date. -/
theorem onePerDate_of_ascending {bars : List Bar} (h : Ascending bars) : OnePerDate bars := by
  induction bars with
  | nil => intro a ha; cases ha
  | cons b rest ih =>
    obtain ⟨head, tail⟩ := List.pairwise_cons.1 h
    intro x hx y hy hxy
    rcases List.mem_cons.1 hx with rfl | hx' <;> rcases List.mem_cons.1 hy with rfl | hy'
    · rfl
    · exact absurd (hxy ▸ head y hy') (Day.lt_irrefl _)
    · exact absurd (hxy ▸ head x hx') (Day.lt_irrefl _)
    · exact ih tail x hx' y hy' hxy

/-- No date comes twice in an ascending list. -/
theorem nodup_dates {bars : List Bar} (h : Ascending bars) : (bars.map Bar.date).Nodup := by
  rw [List.Nodup, List.pairwise_map]
  refine h.imp fun {a b} hlt heq => ?_
  rw [heq] at hlt
  exact Day.lt_irrefl _ hlt

/-- The bar of a date is the one that is there. -/
theorem at?_eq_some {bars : List Bar} (h : OnePerDate bars) {d : Day} {b : Bar} :
    at? bars d = some b ↔ b ∈ bars ∧ b.date = d := by
  constructor
  · intro hfind
    have hdate := List.find?_some hfind
    exact ⟨List.mem_of_find?_eq_some hfind, by simpa using hdate⟩
  · rintro ⟨hb, rfl⟩
    cases hfind : at? bars b.date with
    | none =>
      have := List.find?_eq_none.1 hfind b hb
      simp at this
    | some c =>
      have hdate := List.find?_some hfind
      rw [h c (List.mem_of_find?_eq_some hfind) b hb (by simpa using hdate)]

/-- There is no bar of a date that no bar has. -/
theorem at?_eq_none {bars : List Bar} {d : Day} :
    at? bars d = none ↔ ∀ b ∈ bars, b.date ≠ d := by
  simp [at?]

/-- The first bar counts for its date, -/
theorem at?_cons_of_eq {bar : Bar} {d : Day} (h : bar.date = d) (rest : List Bar) :
    at? (bar :: rest) d = some bar :=
  List.find?_cons_of_pos (by simpa using h)

/-- and for no other. -/
theorem at?_cons_of_ne {bar : Bar} {d : Day} (h : bar.date ≠ d) (rest : List Bar) :
    at? (bar :: rest) d = at? rest d :=
  List.find?_cons_of_neg (by simpa using h)

/-- Of two lists, the first counts where it has a bar. -/
theorem at?_append (bars others : List Bar) (d : Day) :
    at? (bars ++ others) d = (at? bars d).or (at? others d) :=
  List.find?_append

/-- Two lists with the same bars, up to a change that keeps dates, agree on every date. -/
theorem at?_eq_map {bars others : List Bar} {f : Bar → Bar} (hf : ∀ b, (f b).date = b.date)
    (h : OnePerDate bars) (h' : OnePerDate others) {d : Day}
    (hmem : ∀ b, b.date = d → (b ∈ bars ↔ ∃ a ∈ others, f a = b)) :
    at? bars d = (at? others d).map f := by
  cases hother : at? others d with
  | none =>
    rw [Option.map_none, at?_eq_none]
    intro b hb hd
    obtain ⟨a, ha, rfl⟩ := (hmem b hd).1 hb
    exact at?_eq_none.1 hother a ha (hf a ▸ hd)
  | some a =>
    obtain ⟨ha, hd⟩ := (at?_eq_some h').1 hother
    have hfd : (f a).date = d := (hf a).trans hd
    exact (at?_eq_some h).2 ⟨(hmem _ hfd).2 ⟨a, ha, rfl⟩, hfd⟩

/-! ## Merging -/

/-- After a bar is laid under a series, there is a bar of its date. -/
theorem mem_layUnder_self (bar : Bar) (series : List Bar) :
    ∃ b ∈ layUnder bar series, b.date = bar.date := by
  induction series with
  | nil => exact ⟨bar, by simp [layUnder], rfl⟩
  | cons b rest ih =>
    rw [layUnder]
    split
    · exact ⟨bar, by simp, rfl⟩
    · split
      · obtain ⟨c, hc, hd⟩ := ih
        exact ⟨c, by simp [hc], hd⟩
      -- the bar is only dropped for one of its own date
      next before after =>
        refine ⟨b, by simp, ?_⟩
        apply Day.ext
        rw [Day.lt_def] at before after
        omega

/-- What lies in a series stays when a bar is laid under it. -/
theorem mem_layUnder_of_mem (bar : Bar) {x : Bar} {series : List Bar} (h : x ∈ series) :
    x ∈ layUnder bar series := by
  induction series with
  | nil => cases h
  | cons b rest ih =>
    rw [layUnder]
    split
    · exact List.mem_cons_of_mem _ h
    · split
      · rcases List.mem_cons.1 h with rfl | h
        · simp
        · exact List.mem_cons_of_mem _ (ih h)
      · exact h

/-- No bar is made up when the last of each date is kept. -/
theorem mem_of_mem_keepLast {bars : List Bar} {b : Bar} (h : b ∈ keepLast bars) : b ∈ bars := by
  induction bars with
  | nil => exact h
  | cons c rest ih =>
    rcases mem_of_mem_layUnder h with rfl | h
    · simp
    · exact List.mem_cons_of_mem _ (ih h)

/-- No date is lost. -/
theorem exists_mem_keepLast {bars : List Bar} {b : Bar} (h : b ∈ bars) :
    ∃ c ∈ keepLast bars, c.date = b.date := by
  induction bars with
  | nil => cases h
  | cons c rest ih =>
    rcases List.mem_cons.1 h with rfl | h
    · exact mem_layUnder_self _ _
    · obtain ⟨x, hx, hd⟩ := ih h
      exact ⟨x, mem_layUnder_of_mem c hx, hd⟩

/-- Bars of different dates are all kept. -/
theorem mem_keepLast {bars : List Bar} (h : OnePerDate bars) {b : Bar} :
    b ∈ keepLast bars ↔ b ∈ bars := by
  refine ⟨mem_of_mem_keepLast, fun hb => ?_⟩
  obtain ⟨c, hc, hd⟩ := exists_mem_keepLast hb
  rwa [← h c (mem_of_mem_keepLast hc) b hb hd]

/-- A merged series ascends. -/
theorem ascending_merge (base overlay : List Bar) : Ascending (merge base overlay) :=
  ascending_keepLast _

/-- Each bar of a merged series comes from one of the two lists. -/
theorem mem_of_mem_merge {base overlay : List Bar} {b : Bar} (h : b ∈ merge base overlay) :
    b ∈ base ∨ b ∈ overlay :=
  List.mem_append.1 (mem_of_mem_keepLast h)

/-- A merged series is not empty if something is laid onto it. -/
theorem merge_ne_nil (base : List Bar) {overlay : List Bar} (h : overlay ≠ []) :
    merge base overlay ≠ [] := by
  obtain ⟨b, hb⟩ := List.exists_mem_of_ne_nil overlay h
  obtain ⟨c, hc, -⟩ := exists_mem_keepLast (List.mem_append_right base hb)
  exact List.ne_nil_of_mem hc

/-- Merging bars of different dates loses none. -/
theorem mem_merge {base overlay : List Bar} (hb : OnePerDate base) (ho : OnePerDate overlay)
    (hapart : ∀ a ∈ base, ∀ b ∈ overlay, a.date = b.date → a = b) {b : Bar} :
    b ∈ merge base overlay ↔ b ∈ base ∨ b ∈ overlay := by
  rw [merge, mem_keepLast, List.mem_append]
  intro x hx y hy hxy
  rcases List.mem_append.1 hx with hx | hx <;> rcases List.mem_append.1 hy with hy | hy
  · exact hb x hx y hy hxy
  · exact hapart x hx y hy hxy
  · exact (hapart y hy x hx hxy.symm).symm
  · exact ho x hx y hy hxy

/-- A series has nothing to drop. -/
theorem keepLast_of_ascending {bars : List Bar} (h : Ascending bars) : keepLast bars = bars := by
  induction bars with
  | nil => rfl
  | cons b rest ih =>
    obtain ⟨head, tail⟩ := List.pairwise_cons.1 h
    -- each bar is laid under a series that begins after it
    show layUnder b (keepLast rest) = b :: rest
    rw [ih tail]
    cases rest with
    | nil => rfl
    | cons c rest => rw [layUnder, if_pos (head c (by simp))]

/-- Nothing is changed by bars that are not there. -/
theorem merge_nil {base : List Bar} (h : Ascending base) : merge base [] = base := by
  rw [merge, List.append_nil, keepLast_of_ascending h]

/-- A bar laid under a series is looked up where the series has none. -/
theorem at?_layUnder (bar : Bar) {series : List Bar} (h : Ascending series) (d : Day) :
    at? (layUnder bar series) d = (at? series d).or (at? [bar] d) := by
  induction series with
  | nil => rfl
  | cons b rest ih =>
    obtain ⟨head, tail⟩ := List.pairwise_cons.1 h
    rw [layUnder]
    split
    next before =>
      -- the series begins after the bar, so it has none of its date
      have hnone : bar.date = d → at? (b :: rest) d = none := by
        rintro rfl
        rw [at?_eq_none]
        intro c hc heq
        rcases List.mem_cons.1 hc with rfl | hc
        · exact Day.lt_irrefl _ (heq ▸ before)
        · exact Day.lt_irrefl _ (heq ▸ Int.lt_trans before (head c hc))
      by_cases hbar : bar.date = d
      · rw [hnone hbar, at?_cons_of_eq hbar, at?_cons_of_eq hbar, Option.none_or]
      · rw [at?_cons_of_ne hbar, at?_cons_of_ne hbar]
        exact Option.or_none.symm
    next before =>
      split
      next after =>
        by_cases hb : b.date = d
        · rw [at?_cons_of_eq hb, at?_cons_of_eq hb, Option.some_or]
        · rw [at?_cons_of_ne hb, at?_cons_of_ne hb]
          exact ih tail
      next after =>
        -- the bar is dropped for that of its own date
        have hsame : b.date = bar.date := by
          apply Day.ext
          rw [Day.lt_def] at before after
          omega
        by_cases hb : b.date = d
        · rw [at?_cons_of_eq hb, Option.some_or]
        · have hbar : at? [bar] d = none := at?_cons_of_ne (hsame ▸ hb) []
          rw [hbar, Option.or_none]

/-- The last bar of each date is the one that is kept. -/
theorem at?_keepLast (bars : List Bar) (d : Day) : at? (keepLast bars) d = at? bars.reverse d := by
  induction bars with
  | nil => rfl
  | cons b rest ih =>
    have hlaid : at? (keepLast (b :: rest)) d = (at? (keepLast rest) d).or (at? [b] d) :=
      at?_layUnder b (ascending_keepLast rest) d
    rw [hlaid, ih, List.reverse_cons, at?_append]

/-- On a date that both lists have, the overlay wins. -/
theorem at?_merge {base : List Bar} (h : Ascending base) (overlay : List Bar) (d : Day) :
    at? (merge base overlay) d = (at? overlay.reverse d).or (at? base d) := by
  have hbase : at? base d = at? base.reverse d := by
    rw [← at?_keepLast, keepLast_of_ascending h]
  rw [merge, at?_keepLast, List.reverse_append, hbase, at?_append]

/-! ## Clipping -/

/-- Clipping keeps the bars dated in the window. -/
theorem mem_clip {bars : List Bar} {w : Window} {b : Bar} :
    b ∈ clip bars w ↔ b ∈ bars ∧ w.contains b.date = true := by
  rw [clip, List.mem_filter]

/-- No bar is dated in an empty window. -/
theorem clip_of_isEmpty {w : Window} (h : w.isEmpty = true) (bars : List Bar) :
    clip bars w = [] := by
  rw [clip, List.filter_eq_nil_iff]
  intro b _
  rw [Window.contains_of_isEmpty h]
  exact Bool.false_ne_true

/-- A clipped series still ascends. -/
theorem ascending_clip {bars : List Bar} (h : Ascending bars) (w : Window) :
    Ascending (clip bars w) :=
  List.Pairwise.filter _ h

/-- A tagged series still ascends. -/
theorem ascending_tagged {bars : List Bar} (h : Ascending bars) (symbol exchange : String) :
    Ascending (bars.map (Bar.tagged symbol exchange)) := by
  rw [Ascending, List.pairwise_map]
  exact h

/-- It does not matter whether bars are tagged before or after they are clipped. -/
theorem clip_tagged (bars : List Bar) (w : Window) (symbol exchange : String) :
    clip (bars.map (Bar.tagged symbol exchange)) w
      = (clip bars w).map (Bar.tagged symbol exchange) := by
  rw [clip, clip, List.filter_map]
  rfl

/-! ## Reading -/

/-- Dropping repeats makes no bar up. -/
theorem mem_of_mem_dropRepeatsAfter {last : Day} {bars : List Bar} {b : Bar}
    (h : b ∈ dropRepeats.dropRepeatsAfter last bars) : b ∈ bars := by
  induction bars generalizing last with
  | nil => exact h
  | cons c rest ih =>
    rw [dropRepeats.dropRepeatsAfter] at h
    split at h
    · exact List.mem_cons_of_mem _ (ih h)
    · rcases List.mem_cons.1 h with rfl | h
      · simp
      · exact List.mem_cons_of_mem _ (ih h)

/-- Of bars in order of date that follow one date, those that remain come strictly after it. -/
theorem pairwise_dropRepeatsAfter {last : Day} {bars : List Bar}
    (hsorted : bars.Pairwise fun a b => a.date ≤ b.date) (hlast : ∀ b ∈ bars, last ≤ b.date) :
    (∀ b ∈ dropRepeats.dropRepeatsAfter last bars, last < b.date)
      ∧ Ascending (dropRepeats.dropRepeatsAfter last bars) := by
  induction bars generalizing last with
  | nil => exact ⟨fun b hb => absurd hb List.not_mem_nil, List.Pairwise.nil⟩
  | cons c rest ih =>
    obtain ⟨head, tail⟩ := List.pairwise_cons.1 hsorted
    rw [dropRepeats.dropRepeatsAfter]
    split
    next same => exact ih tail fun b hb => hlast b (List.mem_cons_of_mem _ hb)
    next other =>
      obtain ⟨hafter, hasc⟩ := ih tail head
      -- not before the last date, and not on it
      have hc : last < c.date := by
        have hle := hlast c (by simp)
        have hne : c.date.number ≠ last.number := fun heq => other (Day.ext heq)
        rw [Day.le_def] at hle
        rw [Day.lt_def]
        omega
      refine ⟨fun b hb => ?_, List.pairwise_cons.2 ⟨hafter, hasc⟩⟩
      rcases List.mem_cons.1 hb with rfl | hb
      · exact hc
      · exact Int.lt_trans hc (hafter b hb)

/-- The order by date is transitive, -/
theorem date_le_trans (a b c : Bar) (hab : decide (a.date ≤ b.date) = true)
    (hbc : decide (b.date ≤ c.date) = true) : decide (a.date ≤ c.date) = true := by
  simp only [decide_eq_true_eq, Day.le_def] at hab hbc ⊢
  omega

/-- and total, as sorting wants it. -/
theorem date_le_total (a b : Bar) :
    (decide (a.date ≤ b.date) || decide (b.date ≤ a.date)) = true := by
  simp only [Bool.or_eq_true, decide_eq_true_eq, Day.le_def]
  omega

/-- Sorted bars are in order of date. -/
theorem pairwise_sortByDate (bars : List Bar) :
    (sortByDate bars).Pairwise fun a b => a.date ≤ b.date := by
  have hsorted := List.pairwise_mergeSort date_le_trans date_le_total bars
  exact hsorted.imp fun h => of_decide_eq_true h

/-- Bars of one date keep their order when all are sorted. -/
theorem filter_sortByDate (bars : List Bar) (d : Day) :
    (sortByDate bars).filter (fun b => b.date = d) = bars.filter fun b => b.date = d := by
  have hsame : (bars.filter fun b => decide (b.date = d)).Pairwise
      fun a b => decide (a.date ≤ b.date) = true := by
    rw [List.pairwise_filter]
    apply List.pairwise_of_forall
    intro a b ha hb
    rw [of_decide_eq_true ha, of_decide_eq_true hb]
    exact decide_eq_true (Int.le_refl _)
  have hsub := (List.sublist_mergeSort date_le_trans date_le_total hsame
    List.filter_sublist).filter fun b => decide (b.date = d)
  rw [List.filter_filter] at hsub
  simp only [Bool.and_self] at hsub
  have hperm := (List.mergeSort_perm bars fun a b => decide (a.date ≤ b.date)).filter
    fun b => decide (b.date = d)
  exact (hsub.eq_of_length hperm.length_eq.symm).symm

/-- Bars in any order are read as a series. -/
theorem ascending_keepFirst (bars : List Bar) : Ascending (keepFirst bars) := by
  have hsorted := pairwise_sortByDate bars
  rw [keepFirst]
  cases hs : sortByDate bars with
  | nil => exact List.Pairwise.nil
  | cons b rest =>
    rw [hs] at hsorted
    obtain ⟨head, tail⟩ := List.pairwise_cons.1 hsorted
    exact List.pairwise_cons.2 (pairwise_dropRepeatsAfter tail head)

/-- No bar is made up when the first of each date is kept. -/
theorem mem_of_mem_keepFirst {bars : List Bar} {b : Bar} (h : b ∈ keepFirst bars) : b ∈ bars := by
  rw [keepFirst] at h
  cases hs : sortByDate bars with
  | nil => rw [hs] at h; cases h
  | cons c rest =>
    rw [hs] at h
    have hmem : b ∈ sortByDate bars := by
      rw [hs]
      rcases List.mem_cons.1 h with rfl | h
      · simp
      · exact List.mem_cons_of_mem _ (mem_of_mem_dropRepeatsAfter h)
    exact List.mem_mergeSort.1 hmem

/-- There is nothing to drop from an ascending series. -/
theorem dropRepeatsAfter_of_ascending {last : Day} {bars : List Bar}
    (h : ∀ b ∈ bars, last < b.date) (hasc : Ascending bars) :
    dropRepeats.dropRepeatsAfter last bars = bars := by
  induction bars generalizing last with
  | nil => rfl
  | cons c rest ih =>
    obtain ⟨head, tail⟩ := List.pairwise_cons.1 hasc
    have hne : c.date ≠ last := fun heq => absurd (heq ▸ h c (by simp)) (Day.lt_irrefl _)
    rw [dropRepeats.dropRepeatsAfter, if_neg hne, ih head tail]

/-- A series is read as it stands. -/
theorem keepFirst_of_ascending {bars : List Bar} (h : Ascending bars) : keepFirst bars = bars := by
  have hsort : sortByDate bars = bars := by
    refine List.mergeSort_of_pairwise (h.imp fun hab => ?_)
    rw [Day.lt_def] at hab
    simp only [decide_eq_true_eq, Day.le_def]
    omega
  rw [keepFirst, hsort]
  cases bars with
  | nil => rfl
  | cons b rest =>
    obtain ⟨head, tail⟩ := List.pairwise_cons.1 h
    rw [dropRepeats, dropRepeatsAfter_of_ascending head tail]

/-- Dropping repeats leaves the first bar of every other date. -/
theorem at?_dropRepeatsAfter {last d : Day} {bars : List Bar}
    (hsorted : bars.Pairwise fun a b => a.date ≤ b.date) (hlast : ∀ b ∈ bars, last ≤ b.date)
    (hne : d ≠ last) : at? (dropRepeats.dropRepeatsAfter last bars) d = at? bars d := by
  induction bars generalizing last with
  | nil => rfl
  | cons c rest ih =>
    obtain ⟨head, tail⟩ := List.pairwise_cons.1 hsorted
    rw [dropRepeats.dropRepeatsAfter]
    by_cases hc : c.date = d
    · have hnew : c.date ≠ last := fun heq => hne (hc.symm.trans heq)
      rw [if_neg hnew, at?_cons_of_eq hc, at?_cons_of_eq hc]
    · rw [at?_cons_of_ne hc]
      split
      · exact ih tail (fun b hb => hlast b (List.mem_cons_of_mem c hb)) hne
      · rw [at?_cons_of_ne hc]
        exact ih tail head fun heq => hc heq.symm

/-- The first bar of a date is still the first when all are sorted. -/
theorem at?_sortByDate (bars : List Bar) (d : Day) : at? (sortByDate bars) d = at? bars d := by
  rw [at?, at?, ← List.head?_filter, ← List.head?_filter, filter_sortByDate]

/-- The first bar of each date is the one that is kept. -/
theorem at?_keepFirst (bars : List Bar) (d : Day) : at? (keepFirst bars) d = at? bars d := by
  have hsorted := pairwise_sortByDate bars
  rw [← at?_sortByDate bars, keepFirst]
  cases hs : sortByDate bars with
  | nil => rfl
  | cons c rest =>
    rw [hs] at hsorted
    obtain ⟨head, tail⟩ := List.pairwise_cons.1 hsorted
    rw [dropRepeats]
    by_cases hc : c.date = d
    · rw [at?_cons_of_eq hc, at?_cons_of_eq hc]
    · rw [at?_cons_of_ne hc, at?_cons_of_ne hc]
      exact at?_dropRepeatsAfter tail head fun heq => hc heq.symm

/-! ## Span and length -/

/-- The span reaches from the first to the last bar. -/
theorem span_eq_some {bars : List Bar} {w : Window} : span bars = some w ↔
    ∃ first last, bars.head? = some first ∧ bars.getLast? = some last
      ∧ w = ⟨first.date, last.date⟩ := by
  rw [span]
  split
  next first last hfirst hlast => simp [hfirst, hlast, eq_comm]
  next hnone =>
    refine ⟨fun h => (by cases h), ?_⟩
    rintro ⟨first, last, hfirst, hlast, -⟩
    exact absurd hlast (hnone first last hfirst)

/-- Where there are bars there is a span, -/
theorem exists_span {bars : List Bar} (h : bars ≠ []) : ∃ w, span bars = some w := by
  cases bars with
  | nil => exact absurd rfl h
  | cons b rest => exact ⟨_, span_eq_some.2 ⟨b, _, rfl, List.getLast?_cons, rfl⟩⟩

/-- and only there. -/
theorem eq_nil_of_span_eq_none {bars : List Bar} (h : span bars = none) : bars = [] := by
  cases bars with
  | nil => rfl
  | cons b rest =>
    obtain ⟨w, hspan⟩ := exists_span (List.cons_ne_nil b rest)
    rw [h] at hspan
    cases hspan

/-- Only the dates of the bars matter. -/
theorem span_map {f : Bar → Bar} (hf : ∀ b, (f b).date = b.date) (bars : List Bar) :
    span (bars.map f) = span bars := by
  unfold span
  rw [List.head?_map, List.getLast?_map]
  cases bars.head? with
  | none => rfl
  | some first =>
    cases bars.getLast? with
    | none => rfl
    | some last => simp only [Option.map_some, hf]

/-- A series lies between its first and its last bar. -/
theorem date_mem_span {bars : List Bar} (h : Ascending bars) {w : Window}
    (hspan : span bars = some w) {b : Bar} (hb : b ∈ bars) :
    w.first ≤ b.date ∧ b.date ≤ w.last := by
  obtain ⟨first, last, hfirst, hlast, rfl⟩ := span_eq_some.1 hspan
  obtain ⟨rest, hrest⟩ := List.head?_eq_some_iff.1 hfirst
  obtain ⟨init, hinit⟩ := List.getLast?_eq_some_iff.1 hlast
  constructor
  · rw [hrest] at h hb
    rcases List.mem_cons.1 hb with rfl | hb
    · exact Int.le_refl _
    · exact Int.le_of_lt ((List.pairwise_cons.1 h).1 b hb)
  · rw [hinit] at h hb
    rcases List.mem_append.1 hb with hb | hb
    · exact Int.le_of_lt ((List.pairwise_append.1 h).2.2 b hb last (by simp))
    · rw [List.mem_singleton.1 hb]
      exact Int.le_refl _

/-- Both ends of the span are dates of bars. -/
theorem exists_mem_of_span {bars : List Bar} {w : Window} (hspan : span bars = some w) :
    (∃ b ∈ bars, b.date = w.first) ∧ ∃ b ∈ bars, b.date = w.last := by
  obtain ⟨first, last, hfirst, hlast, rfl⟩ := span_eq_some.1 hspan
  exact ⟨⟨first, List.mem_of_mem_head? hfirst, rfl⟩, ⟨last, List.mem_of_getLast? hlast, rfl⟩⟩

/-- A series has no more bars than there are days from `lo` to `hi`. -/
theorem length_le_of_ascending {bars : List Bar} (h : Ascending bars) {lo hi : Int}
    (hlohi : lo ≤ hi + 1) (hin : ∀ b ∈ bars, lo ≤ b.date.number ∧ b.date.number ≤ hi) :
    (bars.length : Int) ≤ hi - lo + 1 := by
  induction bars generalizing lo with
  | nil =>
    rw [List.length_nil]
    omega
  | cons b rest ih =>
    obtain ⟨head, tail⟩ := List.pairwise_cons.1 h
    have hb := hin b (by simp)
    -- the rest comes strictly after the first bar, so it has fewer days to lie on
    have hrest : (rest.length : Int) ≤ hi - (b.date.number + 1) + 1 :=
      ih tail (by omega) fun c hc => ⟨Day.lt_def.1 (head c hc), (hin c (by simp [hc])).2⟩
    rw [List.length_cons]
    omega

end Series
end DailyBars
