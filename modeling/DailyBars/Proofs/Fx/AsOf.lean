import DailyBars.Proofs.Bar.Merging
import DailyBars.Proofs.Fx.Rates
import DailyBars.Proofs.Number.Value

/-! # Which rate is picked for a date

A bar can be used if its close is a positive number. Of the usable bars of one date the last counts,
and of those of several dates the latest that is not after the date asked for. If all of them are
after it, the earliest is taken; so one usable bar is enough for every date. Once there is a usable
bar on or before the date, what comes later is not looked at.
-/

namespace DailyBars

namespace Rates

/-! ## Usable closes -/

/-- What is not finite has no value, so a usable close is one with a positive value. -/
theorem isUsable_iff {b : Bar} : isUsable b = true ↔ 0 < Number.value b.close := by
  have hfinite : b.close.isFinite = b.close.toModel.unpack.isFinite := rfl
  have hpositive : 0 < b.close
      ↔ Float.Model.UnpackedFloat.lt (.zero .positive) b.close.toModel.unpack = true :=
    decide_eq_true_iff
  rw [isUsable, Bool.and_eq_true, decide_eq_true_iff, hfinite, hpositive, Number.value]
  cases b.close.toModel.unpack with
  | infinity sign => exact iff_of_false (fun h => Bool.false_ne_true h.1) (lt_irrefl _)
  | notANumber => exact iff_of_false (fun h => Bool.false_ne_true h.1) (lt_irrefl _)
  | zero sign => exact iff_of_false (fun h => Bool.false_ne_true h.2) (lt_irrefl _)
  | finite sign m e hm =>
    have hm : (0 : ℚ) < m := by exact_mod_cast hm
    have hvalue : (0 : ℚ) < m * 2 ^ e := by positivity
    cases sign with
    | positive => exact iff_of_true ⟨rfl, rfl⟩ hvalue
    | negative =>
      exact iff_of_false (fun h => Bool.false_ne_true h.2) (not_lt.2 (neg_nonpos.2 hvalue.le))

/-! ## The quote of a date -/

variable {bars : List Bar} {d : Day}

/-- The bar is the last usable one of its date. -/
def IsQuote (bars : List Bar) (q : Bar) : Prop := Series.IsLast (bars.filter isUsable) q

/-- The bar whose close is the rate for a date. -/
inductive IsPicked (bars : List Bar) (d : Day) (q : Bar) : Prop where
  /-- There are usable bars up to the date, and the bar is the last one of the latest of their
  dates. -/
  | upTo (quote : IsQuote bars q) (le : q.date ≤ d)
    (latest : ∀ b ∈ bars, isUsable b = true → b.date ≤ d → b.date ≤ q.date)
  /-- All usable bars are after the date, and the bar is the last one of the earliest of theirs. -/
  | after (quote : IsQuote bars q) (lt : d < q.date)
    (earliest : ∀ b ∈ bars, isUsable b = true → q.date ≤ b.date)

/-- The quotes are the last usable bars of their dates. -/
theorem mem_quotes {q : Bar} : q ∈ quotes bars ↔ IsQuote bars q := Series.mem_keepLast_iff

/-- The quotes have the dates of the usable bars. -/
theorem forall_quotes {P : Day → Prop} :
    (∀ q ∈ quotes bars, P q.date) ↔ ∀ b ∈ bars, isUsable b = true → P b.date := by
  constructor
  · intro h b hb husable
    obtain ⟨q, hq, hdate⟩ := Series.exists_mem_keepLast (List.mem_filter.2 ⟨hb, husable⟩)
    exact hdate ▸ h q hq
  · intro h q hq
    obtain ⟨hmem, husable⟩ := List.mem_filter.1 (Series.mem_of_mem_keepLast hq)
    exact h q hmem husable

/-- A picked quote is the latest up to the date, or the earliest after it. -/
theorem isPicked_iff {q : Bar} : IsPicked bars d q ↔ q ∈ quotes bars
    ∧ (q.date ≤ d ∧ (∀ other ∈ quotes bars, other.date ≤ d → other.date ≤ q.date)
      ∨ d < q.date ∧ ∀ other ∈ quotes bars, q.date ≤ other.date) := by
  have hlatest : (∀ other ∈ quotes bars, other.date ≤ d → other.date ≤ q.date)
      ↔ ∀ b ∈ bars, isUsable b = true → b.date ≤ d → b.date ≤ q.date :=
    forall_quotes (P := fun x => x ≤ d → x ≤ q.date)
  have hearliest : (∀ other ∈ quotes bars, q.date ≤ other.date)
      ↔ ∀ b ∈ bars, isUsable b = true → q.date ≤ b.date :=
    forall_quotes (P := fun x => q.date ≤ x)
  rw [hlatest, hearliest, mem_quotes]
  constructor
  · rintro (⟨hquote, hle, hl⟩ | ⟨hquote, hlt, he⟩)
    · exact ⟨hquote, Or.inl ⟨hle, hl⟩⟩
    · exact ⟨hquote, Or.inr ⟨hlt, he⟩⟩
  · rintro ⟨hquote, ⟨hle, hl⟩ | ⟨hlt, he⟩⟩
    · exact .upTo hquote hle hl
    · exact .after hquote hlt he

/-- A rate as of a date is the close of a picked quote. -/
theorem asOf_eq_some_iff {rate : Float} :
    (ofBars bars).asOf d = some rate ↔ ∃ q, IsPicked bars d q ∧ q.close = rate := by
  rw [asOf_eq_some, IsAsOf]
  simp only [isPicked_iff]
  constructor
  · rintro ⟨q, hq, hclose, hplace⟩
    exact ⟨q, ⟨hq, hplace⟩, hclose⟩
  · rintro ⟨q, ⟨hq, hplace⟩, hclose⟩
    exact ⟨q, hq, hclose, hplace⟩

/-- At most one quote is picked. -/
theorem isPicked_unique {p q : Bar} (hp : IsPicked bars d p) (hq : IsPicked bars d q) : p = q := by
  obtain ⟨hpmem, hp⟩ := isPicked_iff.1 hp
  obtain ⟨hqmem, hq⟩ := isPicked_iff.1 hq
  rcases hp with ⟨hple, hplatest⟩ | ⟨hplt, hpearliest⟩
    <;> rcases hq with ⟨hqle, hqlatest⟩ | ⟨hqlt, hqearliest⟩
  · exact quote_unique hpmem hqmem (hqlatest p hpmem hple) (hplatest q hqmem hqle)
  · exact absurd (Int.le_trans (hqearliest p hpmem) hple) (Int.not_le.2 hqlt)
  · exact absurd (Int.le_trans (hpearliest q hqmem) hqle) (Int.not_le.2 hplt)
  · exact quote_unique hpmem hqmem (hpearliest q hqmem) (hqearliest p hpmem)

/-! ## No rate, and no fallback -/

/-- No bar can be used just if each one cannot. -/
theorem not_anyUsable : ¬ AnyUsable bars ↔ ∀ b ∈ bars, isUsable b = false := by
  simp only [AnyUsable, not_exists, not_and, Bool.not_eq_true]

/-- There are no rates just if no bar can be used. -/
theorem isEmpty_ofBars : (ofBars bars).isEmpty = true ↔ ∀ b ∈ bars, isUsable b = false := by
  rw [isEmpty, ofBars, List.isEmpty_iff, List.map_eq_nil_iff, List.reverse_eq_nil_iff, ← quotes,
    quotes_eq_nil, not_anyUsable]

/-- Some of the bars has no rate on its date. -/
def lacks (r : Rates) (priced : List Bar) : Bool := priced.any fun b => (r.asOf b.date).isNone

/-- One bar lacks a rate only where all of them do. -/
theorem lacks_ofBars {priced : List Bar} : (ofBars bars).lacks priced = true
    ↔ priced ≠ [] ∧ ∀ b ∈ bars, isUsable b = false := by
  rw [lacks, List.any_eq_true]
  simp only [Option.isNone_iff_eq_none, asOf_eq_none, not_anyUsable]
  constructor
  · rintro ⟨b, hb, hnone⟩
    exact ⟨List.ne_nil_of_mem hb, hnone⟩
  · rintro ⟨hne, hnone⟩
    obtain ⟨b, hb⟩ := List.exists_mem_of_ne_nil priced hne
    exact ⟨b, hb, hnone⟩

/-- A constant that is only looked up when a rate is lacking is found where it is needed. -/
theorem or_of_lacks {priced : List Bar} (constant : Option Float) {b : Bar} (hb : b ∈ priced) :
    ((ofBars bars).asOf b.date).or (if (ofBars bars).lacks priced then constant else none)
      = ((ofBars bars).asOf b.date).or constant := by
  split
  next => rfl
  next hlacks =>
    have hrate : (ofBars bars).asOf b.date ≠ none := by
      rw [Ne, asOf_eq_none, not_anyUsable]
      exact fun hnone => hlacks (lacks_ofBars.2 ⟨List.ne_nil_of_mem hb, hnone⟩)
    obtain ⟨rate, hsome⟩ := Option.ne_none_iff_exists'.1 hrate
    rw [hsome, Option.some_or, Option.some_or]

/-! ## Later bars -/

/-- The bars of the dates up to one. -/
def barsUpTo (bars : List Bar) (d : Day) : List Bar := bars.filter fun b => decide (b.date ≤ d)

/-- A quote of a date is known from the bars up to that date. -/
theorem quotes_barsUpTo :
    quotes (barsUpTo bars d) = (quotes bars).filter fun q => decide (q.date ≤ d) := by
  rw [quotes, quotes, barsUpTo, List.filter_comm]
  exact Series.keepLast_filter_date (fun x => decide (x ≤ d)) _

/-- Once there is a usable bar up to the date, the rate is the last quote up to it. -/
theorem asOf_eq_getLast? (h : ∃ b ∈ bars, isUsable b = true ∧ b.date ≤ d) :
    (ofBars bars).asOf d = (quotes (barsUpTo bars d)).getLast?.map Bar.close := by
  obtain ⟨b, hb, husable, hle⟩ := h
  obtain ⟨q, hq, hdate⟩ := Series.exists_mem_keepLast (List.mem_filter.2 ⟨hb, husable⟩)
  have hsome : ((quotes bars).reverse.find? fun q => decide (q.date ≤ d)).isSome = true :=
    List.find?_isSome.2 ⟨q, List.mem_reverse.2 hq, by simpa [hdate] using hle⟩
  rw [asOf_ofBars, Option.or_of_isSome hsome, quotes_barsUpTo, ← List.head?_filter,
    List.filter_reverse, List.head?_reverse]

/-- So bars of later dates do not matter. -/
theorem asOf_congr {others : List Bar} (h : ∃ b ∈ bars, isUsable b = true ∧ b.date ≤ d)
    (hsame : barsUpTo others d = barsUpTo bars d) :
    (ofBars others).asOf d = (ofBars bars).asOf d := by
  have hothers : ∃ b ∈ others, isUsable b = true ∧ b.date ≤ d := by
    obtain ⟨b, hb, husable, hle⟩ := h
    have hmem : b ∈ barsUpTo others d := by
      rw [hsame]
      exact List.mem_filter.2 ⟨hb, decide_eq_true hle⟩
    exact ⟨b, (List.mem_filter.1 hmem).1, husable, hle⟩
  rw [asOf_eq_getLast? h, asOf_eq_getLast? hothers, hsame]

/-! ## Rates as of dates -/

/-- Which rate there is for a date. -/
structure AsOf (bars : List Bar) (d : Day) : Prop where
  /-- It is the close of the bar that is picked, and only one is. -/
  picked : ∀ rate, (ofBars bars).asOf d = some rate ↔ ∃ q, IsPicked bars d q ∧ q.close = rate
  unique : ∀ p q, IsPicked bars d p → IsPicked bars d q → p = q
  /-- There is none if no bar is usable. -/
  none_iff : (ofBars bars).asOf d = none ↔ ∀ b ∈ bars, isUsable b = false
  /-- With a usable bar up to the date, bars after it can be added or taken away anywhere. -/
  later : (∃ b ∈ bars, isUsable b = true ∧ b.date ≤ d) → ∀ others,
    barsUpTo others d = barsUpTo bars d → (ofBars others).asOf d = (ofBars bars).asOf d

/-- What rates have for a list of bars that are to be priced. -/
structure Prices (bars priced : List Bar) : Prop where
  empty_iff : (ofBars bars).isEmpty = true ↔ ∀ b ∈ bars, isUsable b = false
  /-- A rate is lacking for all of them or for none, -/
  lacks_iff : (ofBars bars).lacks priced = true ↔ priced ≠ [] ∧ (ofBars bars).isEmpty = true
  /-- so a constant rate need not be looked up for each. -/
  constant : ∀ constant, ∀ b ∈ priced,
    ((ofBars bars).asOf b.date).or (if (ofBars bars).lacks priced then constant else none)
      = ((ofBars bars).asOf b.date).or constant

end Rates

/-- **The rate as of a date is the last usable close of the latest date up to it**, or else of the
earliest date after it, for bars in any order, with any number of bars of one date and any closes.
Only if no bar is usable there is none, and then there is none for any date. -/
theorem rates_are_picked_by_date (bars : List Bar) :
    (∀ b, Rates.isUsable b = true ↔ 0 < Number.value b.close) ∧ (∀ d, Rates.AsOf bars d)
      ∧ ∀ priced, Rates.Prices bars priced := by
  refine ⟨fun _ => Rates.isUsable_iff, fun d => ?_, fun priced => ?_⟩
  · exact ⟨fun _ => Rates.asOf_eq_some_iff, fun _ _ => Rates.isPicked_unique,
      Rates.asOf_eq_none.trans Rates.not_anyUsable, fun h _ => Rates.asOf_congr h⟩
  · refine ⟨Rates.isEmpty_ofBars, ?_, fun constant _ => Rates.or_of_lacks constant⟩
    rw [Rates.lacks_ofBars, Rates.isEmpty_ofBars]

/-- Quotes of 8, 2 and 4 January 2024, and closes that are none. On the 6th the second one of the 4th
still holds, and on the 1st that of the 2nd is taken. -/
example :
    ([19728, 19723].map fun n =>
      (Rates.ofBars ([(8, 0.80), (4, 0.5), (2, 0.78), (4, 0.79), (4, 0.0 / 0.0), (5, 1.0 / 0.0),
        (5, 0.0), (6, -0.79)].map fun e => .flat ⟨19722 + e.1⟩ e.2 0 "USDGBP" "FX" "yahoo")).asOf ⟨n⟩)
      = [some 0.79, some 0.78] :=
  rfl

end DailyBars
