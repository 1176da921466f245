import Mathlib.Data.List.Basic
import DailyBars.Fx.Rates
import DailyBars.Proofs.Bar.Series

/-! # The rate as of a date

Of the closes that can be rates, the one as of a date is the latest that is not after it, or else the
first of all. So one usable close is enough for every date there is, before it or after it.
-/

namespace DailyBars.Rates

/-- The bars whose closes are rates; of two bars of one date the later counts. -/
def quotes (bars : List Bar) : List Bar := Series.keepLast (bars.filter isUsable)

/-- The rate is the latest on or before the day, or the earliest if all of them are after it. -/
def IsAsOf (bars : List Bar) (d : Day) (rate : Float) : Prop :=
  ∃ q ∈ quotes bars, q.close = rate
    ∧ (q.date ≤ d ∧ (∀ other ∈ quotes bars, other.date ≤ d → other.date ≤ q.date)
      ∨ d < q.date ∧ ∀ other ∈ quotes bars, q.date ≤ other.date)

/-- Some bar has a close that can be a rate. -/
def AnyUsable (bars : List Bar) : Prop := ∃ q ∈ bars, isUsable q = true

/-- The quotes of a pair are ascending. -/
theorem ascending_quotes (bars : List Bar) : Series.Ascending (quotes bars) :=
  Series.ascending_keepLast _

/-- There are none just if no bar can be used. -/
theorem quotes_eq_nil {bars : List Bar} : quotes bars = [] ↔ ¬ AnyUsable bars := by
  constructor
  · rintro hnil ⟨q, hq, husable⟩
    obtain ⟨other, hother, -⟩ :=
      Series.exists_mem_keepLast (List.mem_filter.2 ⟨hq, husable⟩)
    rw [← quotes, hnil] at hother
    cases hother
  · intro hnone
    rw [List.eq_nil_iff_forall_not_mem]
    intro q hq
    obtain ⟨hmem, husable⟩ := List.mem_filter.1 (Series.mem_of_mem_keepLast hq)
    exact hnone ⟨q, hmem, husable⟩

/-- The rate as of a date is found among the quotes from the latest on, and if none is found it is
that of the first. -/
theorem asOf_ofBars (bars : List Bar) (d : Day) : (ofBars bars).asOf d
    = (((quotes bars).reverse.find? fun q => decide (q.date ≤ d)).or (quotes bars).head?).map
      Bar.close := by
  unfold asOf ofBars
  rw [List.find?_map, List.getLast?_map, List.getLast?_reverse, ← Option.map_or, Option.map_map]
  rfl

/-- The quote found is the latest that is not after the date. -/
theorem latest_of_find? {bars : List Bar} {d : Day} {q : Bar}
    (h : (quotes bars).reverse.find? (fun q => decide (q.date ≤ d)) = some q) :
    q ∈ quotes bars ∧ q.date ≤ d ∧ ∀ other ∈ quotes bars, other.date ≤ d → other.date ≤ q.date := by
  obtain ⟨hle, before, after, hsplit, hbefore⟩ := List.find?_eq_some_iff_append.1 h
  have hmem : ∀ other, other ∈ quotes bars ↔ other ∈ before ++ q :: after := by
    intro other
    rw [← hsplit, List.mem_reverse]
  refine ⟨(hmem q).2 (by simp), of_decide_eq_true hle, fun other hother hd => ?_⟩
  rcases List.mem_append.1 ((hmem other).1 hother) with hlater | hrest
  · -- what comes before it in the search is after the date
    have hnot := hbefore other hlater
    simp only [decide_eq_true hd, Bool.not_true, Bool.false_eq_true] at hnot
  · rcases List.mem_cons.1 hrest with rfl | hearlier
    · exact Int.le_refl _
    · have hdescending := List.pairwise_reverse.2 (ascending_quotes bars)
      rw [hsplit] at hdescending
      have hcons := (List.pairwise_append.1 hdescending).2.1
      exact Int.le_of_lt ((List.pairwise_cons.1 hcons).1 other hearlier)

/-- The first quote is the earliest. -/
theorem earliest_of_head? {bars : List Bar} {q : Bar} (h : (quotes bars).head? = some q) :
    q ∈ quotes bars ∧ ∀ other ∈ quotes bars, q.date ≤ other.date := by
  obtain ⟨rest, hsplit⟩ := List.head?_eq_some_iff.1 h
  have hascending := ascending_quotes bars
  rw [hsplit] at hascending ⊢
  refine ⟨by simp, fun other hother => ?_⟩
  rcases List.mem_cons.1 hother with rfl | hlater
  · exact Int.le_refl _
  · exact Int.le_of_lt ((List.pairwise_cons.1 hascending).1 other hlater)

/-- Two quotes of which neither comes after the other are one. -/
theorem quote_unique {bars : List Bar} {p q : Bar} (hp : p ∈ quotes bars) (hq : q ∈ quotes bars)
    (hpq : p.date ≤ q.date) (hqp : q.date ≤ p.date) : p = q := by
  apply Series.onePerDate_of_ascending (ascending_quotes bars) p hp q hq
  exact Day.ext (Int.le_antisymm hpq hqp)

/-- The rate as of a date is that of the latest quote up to it, or of the first one. -/
theorem asOf_eq_some {bars : List Bar} {d : Day} {rate : Float} :
    (ofBars bars).asOf d = some rate ↔ IsAsOf bars d rate := by
  rw [asOf_ofBars, Option.map_eq_some_iff]
  cases hfind : (quotes bars).reverse.find? fun q => decide (q.date ≤ d) with
  | some q =>
    obtain ⟨hmem, hle, hlatest⟩ := latest_of_find? hfind
    simp only [Option.some_or, Option.some.injEq, exists_eq_left']
    constructor
    · rintro rfl
      exact ⟨q, hmem, rfl, Or.inl ⟨hle, hlatest⟩⟩
    · rintro ⟨p, hp, rfl, ⟨hpd, hplatest⟩ | ⟨hdp, hpfirst⟩⟩
      · rw [quote_unique hp hmem (hlatest p hp hpd) (hplatest q hmem hle)]
      · exact absurd (Int.le_trans (hpfirst q hmem) hle) (Int.not_le.2 hdp)
  | none =>
    have hafter : ∀ q ∈ quotes bars, ¬ q.date ≤ d := by
      intro q hq
      have hnot := List.find?_eq_none.1 hfind q (List.mem_reverse.2 hq)
      rwa [decide_eq_true_eq] at hnot
    rw [Option.none_or]
    constructor
    · rintro ⟨q, hhead, rfl⟩
      obtain ⟨hmem, hearliest⟩ := earliest_of_head? hhead
      exact ⟨q, hmem, rfl, Or.inr ⟨Int.not_le.1 (hafter q hmem), hearliest⟩⟩
    · rintro ⟨p, hp, rfl, ⟨hpd, -⟩ | ⟨-, hpfirst⟩⟩
      · exact absurd hpd (hafter p hp)
      · obtain ⟨q, hhead⟩ : ∃ q, (quotes bars).head? = some q := by
          rw [← Option.isSome_iff_exists, List.isSome_head?]
          exact List.ne_nil_of_mem hp
        obtain ⟨hmem, hearliest⟩ := earliest_of_head? hhead
        exact ⟨q, hhead, by rw [quote_unique hp hmem (hpfirst q hmem) (hearliest p hp)]⟩

/-- Whether there is a rate does not depend on the date. -/
theorem asOf_eq_none {bars : List Bar} {d : Day} :
    (ofBars bars).asOf d = none ↔ ¬ AnyUsable bars := by
  rw [asOf_ofBars, Option.map_eq_none_iff, Option.or_eq_none_iff, List.head?_eq_none_iff,
    quotes_eq_nil]
  refine ⟨fun h => h.2, fun h => ⟨?_, h⟩⟩
  rw [quotes_eq_nil.2 h]
  rfl

end DailyBars.Rates
