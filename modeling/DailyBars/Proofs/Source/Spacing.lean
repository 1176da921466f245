import Mathlib.Tactic.Linarith
import DailyBars.Proofs.Number.Quotient
import DailyBars.Source.Limiter

/-! # The time between two requests

A budget of so many requests per minute spaces them by a minute divided by their number. The division
and the conversion to nanoseconds are both rounded; the outcome is still a whole number of nanoseconds
nearest to the exact quotient.
-/

namespace DailyBars

/-- The duration is a minute divided by `rate`, rounded to nanoseconds. -/
def Duration.IsMinuteOver (d : Duration) (rate : Nat) : Prop :=
  2 * (d.nanos * rate) ≤ 2 * 60000000000 + rate ∧ 2 * 60000000000 ≤ 2 * (d.nanos * rate) + rate

namespace Number

/-- A rounded result times `scale` is rounded as the exact multiple of its significand is. -/
theorem scaled_carried (m scale : Nat) {k : Nat} (hk : 1 < k) :
    Binary.scaled .toEven ⟨false, (carried m (-k)).1, (carried m (-k)).2⟩ scale
      = roundQuotient .toEven (m * scale) (2 ^ k) := by
  unfold carried
  split
  next htop =>
    have hnegative : ¬ (0 : Int) ≤ -k + 1 := by omega
    have hexponent : (-(-(k : Int) + 1)).toNat = k - 1 := by omega
    have hdouble : 2 ^ k = 2 ^ (k - 1) * 2 := by
      rw [← Nat.pow_succ, Nat.succ_eq_add_one, Nat.sub_add_cancel (Nat.le_of_lt hk)]
    have hscale : 2 ^ 53 * scale = 2 ^ 52 * scale * 2 := by omega
    rw [Binary.scaled, if_neg hnegative, hexponent, htop, hdouble, hscale,
      roundQuotient_mul_mul_right _ _ _ (by decide)]
    rfl
  next =>
    have hnegative : ¬ (0 : Int) ≤ -k := by omega
    have hexponent : (-(-(k : Int))).toNat = k := by omega
    rw [Binary.scaled, if_neg hnegative, hexponent]
    rfl

end Number

namespace Limits

/-- The spacing of a budget is a minute over its rate, to the nearest nanosecond. -/
theorem isMinuteOver_spacingOf {rate : Nat} (hpos : 0 < rate) (hrate : rate < 2 ^ 32) :
    (spacingOf rate).IsMinuteOver rate := by
  have hminute : (60.0 : Float) = Float.ofNat 60 := rfl
  obtain ⟨k, hlo, hhi, hquotient⟩ := Number.isNormal_quotient (a := 60) (c := rate) (by decide)
    (by decide) hpos (by omega)
  have hk : 1 < k := by
    by_contra hsmall
    have hpow : 2 ^ k ≤ 2 ^ 1 := Nat.pow_le_pow_right (by decide) (by omega)
    omega
  obtain ⟨m, hm⟩ : ∃ m, m = Number.roundQuotient .toEven (60 * 2 ^ k) rate := ⟨_, rfl⟩
  rw [← hm] at hquotient
  have hspacing : (spacingOf rate).nanos = Number.roundQuotient .toEven (m * 1000000000) (2 ^ k) := by
    rw [spacingOf, hminute, hquotient.read]
    exact Number.scaled_carried m 1000000000 hk
  obtain ⟨hdown, hup⟩ := Number.roundQuotient_near .toEven (60 * 2 ^ k) hpos
  obtain ⟨hdown', hup'⟩ := Number.roundQuotient_near .toEven (m * 1000000000) (Nat.two_pow_pos k)
  rw [← hm] at hdown hup
  rw [← hspacing] at hdown' hup'
  unfold Duration.IsMinuteOver
  generalize (spacingOf rate).nanos = d at hdown' hup' ⊢
  generalize 2 ^ k = p at *
  -- a quotient that is off by a nanosecond more would be half a unit off before it was rounded
  have hprecise : rate * 1000000000 < p := by omega
  constructor
  · by_contra hfar
    have hfar' : 2 * 60000000000 + rate + 1 ≤ 2 * (d * rate) := by omega
    have hscaled := Nat.mul_le_mul_right p hfar'
    have hseconds := Nat.mul_le_mul_right 1000000000 hdown
    have hnanos := Nat.mul_le_mul_right rate hdown'
    linarith
  · by_contra hfar
    have hfar' : 2 * (d * rate) + rate + 1 ≤ 2 * 60000000000 := by omega
    have hscaled := Nat.mul_le_mul_right p hfar'
    have hseconds := Nat.mul_le_mul_right 1000000000 hup
    have hnanos := Nat.mul_le_mul_right rate hup'
    linarith

/-- Not even a budget of one request per minute spaces them by much more than a minute. -/
theorem addable_spacingOf {rate : Nat} (hpos : 0 < rate) (hrate : rate < 2 ^ 32) :
    (spacingOf rate).addable = spacingOf rate := by
  obtain ⟨hle, -⟩ := isMinuteOver_spacingOf hpos hrate
  have hshort : (spacingOf rate).nanos ≤ (spacingOf rate).nanos * rate := Nat.le_mul_of_pos_right _ hpos
  refine if_pos ?_
  show (spacingOf rate).nanos ≤ 9223372036854775807000000
  omega

/-! ## Budgets -/

/-- This is the budget of the source: of several the last counts, and one of no requests is none. -/
def Allots (limits : Limits) (source : String) (rate : Nat) : Prop :=
  0 < rate ∧ ∃ before after, limits.budgets = before ++ (source, rate) :: after
    ∧ ∀ b ∈ after, b.1 = source → b.2 = 0

/-- The source has no budget. -/
def Unlimited (limits : Limits) (source : String) : Prop :=
  ∀ b ∈ limits.budgets, b.1 = source → b.2 = 0

/-- A budget gives a spacing, -/
theorem spacing?_of_allots {limits : Limits} {source : String} {rate : Nat}
    (h : limits.Allots source rate) : limits.spacing? source = some (spacingOf rate) := by
  obtain ⟨hpos, before, after, hbudgets, hafter⟩ := h
  have hnone : after.reverse.find? (fun b => b.1 == source && b.2 != 0) = none := by
    rw [List.find?_eq_none]
    intro b hb hmatches
    simp only [Bool.and_eq_true, beq_iff_eq, bne_iff_ne] at hmatches
    exact hmatches.2 (hafter b (List.mem_reverse.1 hb) hmatches.1)
  have hfound : (limits.budgets.reverse.find? fun b => b.1 == source && b.2 != 0)
      = some (source, rate) := by
    rw [hbudgets, List.reverse_append, List.reverse_cons, List.append_assoc, List.find?_append, hnone]
    simp [Nat.ne_of_gt hpos]
  rw [spacing?, hfound]
  rfl

/-- and no budget none. -/
theorem spacing?_of_unlimited {limits : Limits} {source : String} (h : limits.Unlimited source) :
    limits.spacing? source = none := by
  have hnone : (limits.budgets.reverse.find? fun b => b.1 == source && b.2 != 0) = none := by
    rw [List.find?_eq_none]
    intro b hb hmatches
    simp only [Bool.and_eq_true, beq_iff_eq, bne_iff_ne] at hmatches
    exact hmatches.2 (h b (List.mem_reverse.1 hb) hmatches.1)
  rw [spacing?, hnone]
  rfl

end Limits
end DailyBars
