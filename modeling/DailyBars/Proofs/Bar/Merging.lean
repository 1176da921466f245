import DailyBars.Proofs.Bar.Series

/-! # Merging by date

A series is known by the bar that it has on each date (`eq_of_at?_eq`), and on each date a merge has
the last bar of all its lists, read one after another. So how lists are put together before they are
merged does not matter, as long as their order stays. `put` says how a bar comes into a series, and
`merge_eq_foldl_put` that merging is no more than this, done for each bar in turn.
-/

namespace DailyBars.Series

/-! ## The last bar of a date -/

/-- The bar is the last one of its date in the list. -/
def IsLast (bars : List Bar) (b : Bar) : Prop :=
  ∃ before after, bars = before ++ b :: after ∧ ∀ c ∈ after, c.date ≠ b.date

/-- A search from the end finds the last element that it looks for. -/
theorem find?_reverse_eq_some {α : Type} {p : α → Bool} {xs : List α} {x : α} :
    xs.reverse.find? p = some x ↔ p x = true
      ∧ ∃ before after, xs = before ++ x :: after ∧ ∀ y ∈ after, p y = false := by
  rw [List.find?_eq_some_iff_append]
  simp only [Bool.not_eq_true']
  refine and_congr_right fun _ => ⟨?_, ?_⟩
  · rintro ⟨after, before, hsplit, hnone⟩
    refine ⟨before.reverse, after.reverse, ?_, fun y hy => hnone y (List.mem_reverse.1 hy)⟩
    rw [← List.reverse_inj, hsplit]
    simp
  · rintro ⟨before, after, rfl, hnone⟩
    exact ⟨after.reverse, before.reverse, by simp, fun y hy => hnone y (List.mem_reverse.1 hy)⟩

/-- Read from the end, the bar of a date is the last one. -/
theorem at?_reverse_eq_some {bars : List Bar} {d : Day} {b : Bar} :
    at? bars.reverse d = some b ↔ b.date = d ∧ IsLast bars b := by
  rw [at?, find?_reverse_eq_some]
  simp only [decide_eq_true_eq, decide_eq_false_iff_not]
  exact and_congr_right fun hd => by rw [IsLast, hd]

/-- Read from the end, there is no bar of a date that no bar has. -/
theorem at?_reverse_eq_none {bars : List Bar} {d : Day} :
    at? bars.reverse d = none ↔ ∀ b ∈ bars, b.date ≠ d := by
  rw [at?_eq_none]
  simp only [List.mem_reverse]

/-- A series has its bar of a date, whatever else it has. -/
theorem mem_iff_at? {bars : List Bar} (h : Ascending bars) {b : Bar} :
    b ∈ bars ↔ at? bars b.date = some b := by
  rw [at?_eq_some (onePerDate_of_ascending h)]
  exact ⟨fun hb => ⟨hb, rfl⟩, fun hb => hb.1⟩

/-- The bars that are kept are the last of their dates. -/
theorem mem_keepLast_iff {bars : List Bar} {b : Bar} : b ∈ keepLast bars ↔ IsLast bars b := by
  rw [mem_iff_at? (ascending_keepLast bars), at?_keepLast, at?_reverse_eq_some]
  exact ⟨fun h => h.2, fun h => ⟨rfl, h⟩⟩

/-! ## Series by their bars -/

/-- No bar comes twice in an ascending list. -/
theorem nodup_of_ascending {bars : List Bar} (h : Ascending bars) : bars.Nodup :=
  List.Pairwise.of_map Bar.date (fun _ _ hne heq => hne (congrArg Bar.date heq)) (nodup_dates h)

/-- There is one order for the bars of a series. -/
theorem eq_of_mem_iff {bars others : List Bar} (h : Ascending bars) (h' : Ascending others)
    (hmem : ∀ b, b ∈ bars ↔ b ∈ others) : bars = others := by
  have hperm :=
    (List.perm_ext_iff_of_nodup (nodup_of_ascending h) (nodup_of_ascending h')).2 hmem
  refine hperm.eq_of_pairwise (fun a b _ _ hab hba => ?_) h h'
  exact absurd (Int.lt_trans hab hba) (Day.lt_irrefl _)

/-- Ascending lists with the same bar for every date are equal. -/
theorem eq_of_at?_eq {bars others : List Bar} (h : Ascending bars) (h' : Ascending others)
    (hat : ∀ d, at? bars d = at? others d) : bars = others :=
  eq_of_mem_iff h h' fun b => by rw [mem_iff_at? h, mem_iff_at? h', hat]

/-! ## One bar after another -/

/-- Puts a bar into a series, in place of the one of its date if there is one. -/
def put : List Bar → Bar → List Bar
  | [], bar => [bar]
  | b :: rest, bar =>
    if bar.date < b.date then bar :: b :: rest
    else if b.date < bar.date then b :: put rest bar
    else bar :: rest

/-- Of two bars of which neither is before the other, the dates are equal. -/
theorem date_eq_of_not_lt {a b : Bar} (hab : ¬ a.date < b.date) (hba : ¬ b.date < a.date) :
    a.date = b.date :=
  Day.ext (Int.le_antisymm (Int.not_lt.1 hba) (Int.not_lt.1 hab))

/-- Putting a bar adds no other. -/
theorem mem_of_mem_put {series : List Bar} {bar x : Bar} (h : x ∈ put series bar) :
    x = bar ∨ x ∈ series := by
  induction series with
  | nil => simpa [put] using h
  | cons b rest ih =>
    rw [put] at h
    split at h
    · simpa using h
    · split at h
      · rcases List.mem_cons.1 h with rfl | h
        · simp
        · exact (ih h).imp_right (List.mem_cons_of_mem b)
      · exact (List.mem_cons.1 h).imp_right (List.mem_cons_of_mem b)

/-- Putting a bar keeps the list ascending. -/
theorem ascending_put {series : List Bar} (h : Ascending series) (bar : Bar) :
    Ascending (put series bar) := by
  induction series with
  | nil => exact List.pairwise_singleton _ _
  | cons b rest ih =>
    obtain ⟨head, tail⟩ := List.pairwise_cons.1 h
    rw [put]
    split
    next before =>
      refine List.pairwise_cons.2 ⟨fun x hx => ?_, h⟩
      rcases List.mem_cons.1 hx with rfl | hx
      · exact before
      · exact Int.lt_trans before (head x hx)
    next before =>
      split
      next after =>
        refine List.pairwise_cons.2 ⟨fun x hx => ?_, ih tail⟩
        rcases mem_of_mem_put hx with rfl | hx
        · exact after
        · exact head x hx
      next after =>
        -- the new bar stands where that of its date stood
        rw [← date_eq_of_not_lt before after] at head
        exact List.pairwise_cons.2 ⟨head, tail⟩

/-- A bar that was put is the one of its date, -/
theorem at?_put_self (series : List Bar) (bar : Bar) :
    at? (put series bar) bar.date = some bar := by
  induction series with
  | nil => exact at?_cons_of_eq rfl _
  | cons b rest ih =>
    rw [put]
    split
    · exact at?_cons_of_eq rfl _
    · split
      next after =>
        have hne : b.date ≠ bar.date := fun heq => Day.lt_irrefl _ (heq ▸ after)
        rw [at?_cons_of_ne hne]
        exact ih
      next => exact at?_cons_of_eq rfl _

/-- and the other dates keep theirs. -/
theorem at?_put_of_ne {bar : Bar} {d : Day} (h : bar.date ≠ d) (series : List Bar) :
    at? (put series bar) d = at? series d := by
  induction series with
  | nil => exact at?_cons_of_ne h []
  | cons b rest ih =>
    rw [put]
    split
    · exact at?_cons_of_ne h _
    next before =>
      split
      next after =>
        by_cases hb : b.date = d
        · rw [at?_cons_of_eq hb, at?_cons_of_eq hb]
        · rw [at?_cons_of_ne hb, at?_cons_of_ne hb, ih]
      next after =>
        rw [at?_cons_of_ne h, at?_cons_of_ne (date_eq_of_not_lt before after ▸ h)]

/-- Putting many bars keeps the list ascending. -/
theorem ascending_foldl_put (bars : List Bar) {series : List Bar} (h : Ascending series) :
    Ascending (bars.foldl put series) := by
  induction bars generalizing series with
  | nil => exact h
  | cons b rest ih => exact ih (ascending_put h b)

/-- Of the bars that are put into a series one after another, the last one of each date stays. -/
theorem at?_foldl_put (bars series : List Bar) (d : Day) :
    at? (bars.foldl put series) d = (at? bars.reverse d).or (at? series d) := by
  induction bars generalizing series with
  | nil => rfl
  | cons b rest ih =>
    have hfirst : at? (put series b) d = (at? [b] d).or (at? series d) := by
      by_cases hb : b.date = d
      · subst hb
        rw [at?_put_self, at?_cons_of_eq rfl, Option.some_or]
      · rw [at?_put_of_ne hb, at?_cons_of_ne hb]
        rfl
    rw [List.foldl_cons, ih, hfirst, List.reverse_cons, at?_append, Option.or_assoc]

/-- Merging puts all bars of the base and then all bars of the overlay into an empty series. -/
theorem merge_eq_foldl_put (base overlay : List Bar) :
    merge base overlay = overlay.foldl put (base.foldl put []) := by
  rw [← List.foldl_append]
  refine eq_of_at?_eq (ascending_merge base overlay) (ascending_foldl_put _ List.Pairwise.nil)
    fun d => ?_
  rw [merge, at?_keepLast, at?_foldl_put]
  exact (Option.or_none).symm

/-! ## What a merge has -/

/-- The merge of two lists of bars, said without merging. -/
structure IsUnion (base overlay merged : List Bar) : Prop where
  ascending : Ascending merged
  /-- It has the dates of both lists and no others. -/
  dates : ∀ d, (∃ b ∈ merged, b.date = d) ↔ (∃ b ∈ base, b.date = d) ∨ ∃ b ∈ overlay, b.date = d
  /-- On each date it has the last bar of the overlay, or that of the base if the overlay has none. -/
  rows : ∀ b, b ∈ merged ↔ IsLast overlay b ∨ (∀ c ∈ overlay, c.date ≠ b.date) ∧ IsLast base b

/-- Of two lists in a row, the later one decides where it has a bar. -/
theorem at?_keepLast_append (bars others : List Bar) (d : Day) :
    at? (keepLast (bars ++ others)) d = (at? (keepLast others) d).or (at? (keepLast bars) d) := by
  rw [at?_keepLast, at?_keepLast, at?_keepLast, List.reverse_append, at?_append]

/-- A merge holds the last bars of the overlay, and those of the base on the other dates. -/
theorem mem_merge_iff {base overlay : List Bar} {b : Bar} : b ∈ merge base overlay
    ↔ IsLast overlay b ∨ (∀ c ∈ overlay, c.date ≠ b.date) ∧ IsLast base b := by
  rw [mem_iff_at? (ascending_merge base overlay), merge, at?_keepLast_append, at?_keepLast,
    at?_keepLast, Option.or_eq_some_iff, at?_reverse_eq_some, at?_reverse_eq_none,
    at?_reverse_eq_some]
  simp only [true_and]

/-- The dates of a merge are those of both lists. -/
theorem exists_mem_merge {base overlay : List Bar} {d : Day} : (∃ b ∈ merge base overlay, b.date = d)
    ↔ (∃ b ∈ base, b.date = d) ∨ ∃ b ∈ overlay, b.date = d := by
  constructor
  · rintro ⟨b, hb, hd⟩
    exact (mem_of_mem_merge hb).imp (fun h => ⟨b, h, hd⟩) fun h => ⟨b, h, hd⟩
  · rintro (⟨b, hb, rfl⟩ | ⟨b, hb, rfl⟩)
    · exact exists_mem_keepLast (List.mem_append_left overlay hb)
    · exact exists_mem_keepLast (List.mem_append_right base hb)

/-- A merge is the union in which the overlay decides. -/
theorem isUnion_merge (base overlay : List Bar) : IsUnion base overlay (merge base overlay) :=
  ⟨ascending_merge base overlay, fun _ => exists_mem_merge, fun _ => mem_merge_iff⟩

/-- No other list is the union. -/
theorem isUnion_iff {base overlay merged : List Bar} :
    IsUnion base overlay merged ↔ merged = merge base overlay := by
  constructor
  · intro h
    exact eq_of_mem_iff h.ascending (ascending_merge base overlay) fun b =>
      (h.rows b).trans mem_merge_iff.symm
  · rintro rfl
    exact isUnion_merge base overlay

/-! ## Some of the dates -/

/-- Filtering by date keeps the bars of the kept dates. -/
theorem at?_filter_date (p : Day → Bool) (bars : List Bar) (d : Day) :
    at? (bars.filter fun b => p b.date) d = if p d then at? bars d else none := by
  induction bars with
  | nil => split <;> rfl
  | cons b rest ih =>
    rw [List.filter_cons]
    by_cases hb : b.date = d
    · subst hb
      split
      · rw [at?_cons_of_eq rfl, at?_cons_of_eq rfl]
      next hout => rw [ih, if_neg hout]
    · rw [at?_cons_of_ne hb, ← ih]
      split
      · exact at?_cons_of_ne hb _
      · rfl

/-- What is kept on some of the dates depends on the bars of these dates alone. -/
theorem keepLast_filter_date (p : Day → Bool) (bars : List Bar) :
    keepLast (bars.filter fun b => p b.date) = (keepLast bars).filter fun b => p b.date := by
  refine eq_of_at?_eq (ascending_keepLast _) (List.Pairwise.filter _ (ascending_keepLast bars))
    fun d => ?_
  rw [at?_keepLast, ← List.filter_reverse, at?_filter_date, at?_filter_date, at?_keepLast]

/-! ## Merges after merges -/

/-- Keeping the last bars twice is keeping them once. -/
theorem keepLast_keepLast (bars : List Bar) : keepLast (keepLast bars) = keepLast bars :=
  keepLast_of_ascending (ascending_keepLast bars)

/-- Only what is kept of two lists matters for what is kept of both. -/
theorem keepLast_append_congr {bars bars' others others' : List Bar}
    (h : keepLast bars = keepLast bars') (h' : keepLast others = keepLast others') :
    keepLast (bars ++ others) = keepLast (bars' ++ others') := by
  refine eq_of_at?_eq (ascending_keepLast _) (ascending_keepLast _) fun d => ?_
  rw [at?_keepLast_append, h, h', ← at?_keepLast_append]

/-- Merging a list with itself keeps its last bars. -/
theorem merge_self (bars : List Bar) : merge bars bars = keepLast bars := by
  refine eq_of_at?_eq (ascending_merge bars bars) (ascending_keepLast bars) fun d => ?_
  rw [merge, at?_keepLast_append, Option.or_self]

/-- Merging is associative. -/
theorem merge_assoc (first second third : List Bar) :
    merge (merge first second) third = merge first (merge second third) :=
  calc keepLast (keepLast (first ++ second) ++ third)
      = keepLast ((first ++ second) ++ third) := keepLast_append_congr (keepLast_keepLast _) rfl
    _ = keepLast (first ++ (second ++ third)) := by rw [List.append_assoc]
    _ = keepLast (first ++ keepLast (second ++ third)) :=
        keepLast_append_congr rfl (keepLast_keepLast _).symm

/-- What was merged last changes nothing when it is merged again. -/
theorem merge_merge_self (base overlay : List Bar) :
    merge (merge base overlay) overlay = merge base overlay := by
  rw [merge_assoc, merge_self]
  exact keepLast_append_congr rfl (keepLast_keepLast overlay)

/-- Answers that are merged one after another are merged like one. -/
theorem foldl_merge (base : List Bar) (answers : List (List Bar)) :
    answers.foldl merge (keepLast base) = merge base answers.flatten := by
  induction answers generalizing base with
  | nil => rw [List.foldl_nil, List.flatten_nil, merge, List.append_nil]
  | cons answer rest ih =>
    have hnext : merge (keepLast base) answer = keepLast (base ++ answer) :=
      keepLast_append_congr (keepLast_keepLast base) rfl
    rw [List.foldl_cons, hnext, ih, merge, merge, List.flatten_cons, List.append_assoc]

/-- The first answer makes a series of any base. -/
theorem foldl_merge_cons (base answer : List Bar) (rest : List (List Bar)) :
    (answer :: rest).foldl merge base = merge base (answer :: rest).flatten := by
  rw [List.foldl_cons, merge, foldl_merge, merge, merge, List.flatten_cons, List.append_assoc]

end DailyBars.Series
