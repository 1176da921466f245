import DailyBars.Proofs.Number.Quotient

/-! # Shares as numbers

The quotient of two counts is their exact ratio up to one part in `2 ^ 53`. Two ratios with one
denominator are further apart than that as long as the denominator is below `2 ^ 52`, so the quotient
still tells which ratio it is of.
-/

namespace DailyBars.Number

open Float.Model Float.Model.UnpackedFloat

/-! ## Exact values -/

/-- The exact value of a finite number. Everything else counts as zero. -/
def value (x : Float) : ℚ :=
  match x.toModel.unpack with
  | .finite .positive m e _ => m * 2 ^ e
  | .finite .negative m e _ => -(m * 2 ^ e)
  | _ => 0

/-- The value of a normal number is its mantissa times a power of two, -/
theorem IsNormal.value_eq {x : Float} {m : Nat} {e : Int} (h : IsNormal x m e) :
    value x = m * 2 ^ e := by
  obtain ⟨hpos, hunpacked⟩ := h.unpacked
  rw [value, hunpacked]

/-- which is positive. -/
theorem IsNormal.value_pos {x : Float} {m : Nat} {e : Int} (h : IsNormal x m e) : 0 < value x := by
  have hm : 0 < m := Nat.lt_of_lt_of_le (Nat.two_pow_pos 52) h.lo
  rw [h.value_eq]
  positivity

/-- The order of the places is that of the values. -/
theorem IsNormal.value_lt_value {x y : Float} {m m' : Nat} {e e' : Int} (hx : IsNormal x m e)
    (hy : IsNormal y m' e') (hrank : rank m e < rank m' e') : value x < value y := by
  have hlo' := hy.lo
  have hhi := hx.hi
  have hhi' := hy.hi
  rw [hx.value_eq, hy.value_eq]
  unfold rank at hrank
  rcases Int.lt_trichotomy e e' with hlt | rfl | hgt
  · -- with a larger exponent any significand gives a larger number
    have hm : (m : ℚ) < 2 ^ 53 := by exact_mod_cast hhi
    have hm' : (2 : ℚ) ^ 52 ≤ m' := by exact_mod_cast hlo'
    have he : (2 : ℚ) ^ (e + 1) ≤ 2 ^ e' := zpow_le_zpow_right₀ (by norm_num) (by omega)
    calc (m : ℚ) * 2 ^ e < 2 ^ 53 * 2 ^ e := by gcongr
      _ = 2 ^ 52 * 2 ^ (e + 1) := by rw [zpow_add_one₀ two_ne_zero]; ring
      _ ≤ m' * 2 ^ e' := by gcongr
  · have hm : (m : ℚ) < m' := by
      have hlt : m < m' := by omega
      exact_mod_cast hlt
    gcongr
  · have hlo := hx.lo
    omega

/-- Normal numbers of one rank are the same. -/
theorem IsNormal.eq_of_rank_eq {x y : Float} {m m' : Nat} {e e' : Int} (hx : IsNormal x m e)
    (hy : IsNormal y m' e') (hrank : rank m e = rank m' e') : m = m' ∧ e = e' := by
  have hlo := hx.lo
  have hhi := hx.hi
  have hlo' := hy.lo
  have hhi' := hy.hi
  unfold rank at hrank
  omega

/-- Comparing numbers is comparing what they are worth. -/
theorem HasRank.lt_iff_value {x y : Float} {r s : Int} (hx : HasRank x r) (hy : HasRank y s) :
    x < y ↔ value x < value y := by
  rw [hx.lt_iff hy]
  have hzero : ∀ z : Float, z.toModel.unpack = .zero .positive → value z = 0 := by
    intro z hz
    rw [value, hz]
  rcases hx with ⟨hx, rfl⟩ | ⟨m, e, hx, rfl⟩
  · rcases hy with ⟨hy, rfl⟩ | ⟨m', e', hy, rfl⟩
    · simp [hzero x hx, hzero y hy]
    · rw [hzero x hx]
      exact iff_of_true hy.rank_pos hy.value_pos
  · rcases hy with ⟨hy, rfl⟩ | ⟨m', e', hy, rfl⟩
    · rw [hzero y hy]
      exact iff_of_false (Int.not_lt.2 (Int.le_of_lt hx.rank_pos)) (not_lt.2 hx.value_pos.le)
    · refine ⟨hx.value_lt_value hy, fun hlt => ?_⟩
      rcases Int.lt_trichotomy (rank m e) (rank m' e') with h | h | h
      · exact h
      · -- there is one number at a place
        obtain ⟨rfl, rfl⟩ := hx.eq_of_rank_eq hy h
        rw [hx.value_eq, hy.value_eq] at hlt
        exact absurd hlt (lt_irrefl _)
      · exact absurd hlt (not_lt.2 (hy.value_lt_value hx h).le)

/-- Floats are compared as their values. -/
theorem HasRank.le_iff_value {x y : Float} {r s : Int} (hx : HasRank x r) (hy : HasRank y s) :
    x ≤ y ↔ value x ≤ value y := by
  rw [hx.le_iff hy, ← not_lt, ← hy.lt_iff hx, hy.lt_iff_value hx, not_lt]

/-! ## Shares -/

/-- The number is `a` out of `n`, up to one part in `2 ^ 53`. -/
def IsShare (x : Float) (a n : Nat) : Prop := |value x - a / n| ≤ a / n / 2 ^ 53

/-- A value of one is the share of everything. -/
theorem isShare_one {x : Float} {n : Nat} (hx : value x = 1) (hn : 0 < n) : IsShare x n n := by
  have hnpos : (n : ℚ) ≠ 0 := by exact_mod_cast Nat.ne_of_gt hn
  rw [IsShare, hx, div_self hnpos, sub_self, abs_zero]
  positivity

/-- A carry changes the digits and not the number. -/
theorem value_carried (m : Nat) (e : Int) :
    ((carried m e).1 : ℚ) * 2 ^ (carried m e).2 = m * 2 ^ e := by
  unfold carried
  split
  next h =>
    rw [h, zpow_add_one₀ two_ne_zero]
    push_cast
    ring
  next => rfl

/-- The quotient of two counts is what the one is out of the other. -/
theorem isShare_quotient {a n : Nat} (ha : a < 2 ^ 53) (hn : 0 < n) (hn' : n < 2 ^ 53) :
    IsShare (Float.ofNat a / Float.ofNat n) a n := by
  rcases Nat.eq_zero_or_pos a with rfl | hapos
  · obtain ⟨hzero, -⟩ | ⟨m, e, hnormal, hrank⟩ := hasRank_zero_div (isNormal_ofNat hn hn')
    · rw [IsShare, value, hzero]
      simp
    · exact absurd hnormal.rank_pos (hrank ▸ Int.lt_irrefl 0)
  obtain ⟨k, hlo, -, hx⟩ := isNormal_quotient hapos ha hn hn'
  obtain ⟨habove, hbelow⟩ := roundQuotient_near .toEven (a * 2 ^ k) hn
  obtain ⟨m, hm⟩ : ∃ m, m = roundQuotient .toEven (a * 2 ^ k) n := ⟨_, rfl⟩
  rw [← hm] at hx habove hbelow
  have hvalue : value (Float.ofNat a / Float.ofNat n) = m / 2 ^ k := by
    rw [hx.value_eq, value_carried, zpow_neg, zpow_natCast, ← div_eq_mul_inv]
  have habove : (2 : ℚ) * (m * n) ≤ 2 * (a * 2 ^ k) + n := by exact_mod_cast habove
  have hbelow : (2 : ℚ) * (a * 2 ^ k) ≤ 2 * (m * n) + n := by exact_mod_cast hbelow
  have hlo : (2 : ℚ) ^ 52 * n ≤ a * 2 ^ k := by exact_mod_cast hlo
  have hnpos : (0 : ℚ) < n := by exact_mod_cast hn
  have hscale : (0 : ℚ) < 2 ^ k := by positivity
  -- both sides times the denominators
  have hdifference : (m : ℚ) / 2 ^ k - a / n = (m * n - a * 2 ^ k) / (2 ^ k * n) := by
    rw [div_sub_div _ _ hscale.ne' hnpos.ne', mul_comm (a : ℚ)]
  have hbound : (a : ℚ) / n / 2 ^ 53 * (2 ^ k * n) = a * 2 ^ k / 2 ^ 53 := by
    field_simp
  rw [IsShare, hvalue, hdifference, abs_div, abs_of_pos (mul_pos hscale hnpos),
    div_le_iff₀ (mul_pos hscale hnpos), hbound, abs_le]
  constructor
  · linarith
  · linarith

/-- A share is off by at most one part in 2 ^ 53. -/
theorem IsShare.mul_near {x : Float} {a n : Nat} (h : IsShare x a n) (hn : 0 < n) :
    value x * n - a ≤ a / 2 ^ 53 ∧ a - value x * n ≤ a / 2 ^ 53 := by
  have hnpos : (0 : ℚ) < n := by exact_mod_cast hn
  obtain ⟨hbelow, habove⟩ := abs_le.1 h
  have hcancel : (a : ℚ) / n * n = a := div_mul_cancel₀ _ hnpos.ne'
  have hspread : (a : ℚ) / n / 2 ^ 53 * n = a / 2 ^ 53 := by
    rw [div_mul_eq_mul_div, hcancel]
  have hbelow := mul_le_mul_of_nonneg_right hbelow hnpos.le
  have habove := mul_le_mul_of_nonneg_right habove hnpos.le
  rw [sub_mul, hcancel, hspread] at habove
  rw [sub_mul, neg_mul, hcancel, hspread] at hbelow
  constructor
  · exact habove
  · linarith

section Counts

variable {x : Float} {a n : Nat} (hn : 0 < n) (hn' : n < 2 ^ 52)
include hn hn'

/-- A number is the share of no more than one count. -/
theorem IsShare.unique {b : Nat} (ha : IsShare x a n) (hb : IsShare x b n) (han : a ≤ n)
    (hbn : b ≤ n) : a = b := by
  obtain ⟨ha₁, ha₂⟩ := ha.mul_near hn
  obtain ⟨hb₁, hb₂⟩ := hb.mul_near hn
  have hsum : (a : ℚ) + b < 2 ^ 53 := by
    have hsum : a + b < 2 ^ 53 := by omega
    exact_mod_cast hsum
  have hab : (a : ℚ) < b + 1 := by linarith
  have hba : (b : ℚ) < a + 1 := by linarith
  have hab : a < b + 1 := by exact_mod_cast hab
  have hba : b < a + 1 := by exact_mod_cast hba
  omega

/-- A share below one is no more than the whole. -/
theorem IsShare.le_of_lt_one (h : IsShare x a n) (hlt : value x < 1) : a ≤ n := by
  by_contra hmore
  obtain ⟨-, habove⟩ := h.mul_near hn
  have hnpos : (0 : ℚ) < n := by exact_mod_cast hn
  have hn' : (n : ℚ) < 2 ^ 52 := by exact_mod_cast hn'
  have hmore : (n : ℚ) + 1 ≤ a := by exact_mod_cast Nat.lt_of_not_le hmore
  have hwhole : value x * n < n := by
    rw [mul_lt_iff_lt_one_left hnpos]
    exact hlt
  linarith

/-- A share of one or more is no less than the whole. -/
theorem IsShare.le_of_one_le (h : IsShare x a n) (hle : 1 ≤ value x) : n ≤ a := by
  by_contra hless
  obtain ⟨hbelow, -⟩ := h.mul_near hn
  have hnpos : (0 : ℚ) < n := by exact_mod_cast hn
  have hn' : (n : ℚ) < 2 ^ 52 := by exact_mod_cast hn'
  have hless : (a : ℚ) + 1 ≤ n := by exact_mod_cast Nat.lt_of_not_le hless
  have hwhole : (n : ℚ) ≤ value x * n := by
    rw [le_mul_iff_one_le_left hnpos]
    exact hle
  linarith

end Counts

end DailyBars.Number
