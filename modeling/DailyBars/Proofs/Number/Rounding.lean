import Mathlib
import DailyBars.Number.Binary

/-! # Rounding to the nearest number

A quotient of whole numbers is rounded to the nearest whole number, and of two that are equally near
to the even one. The arithmetic of binary64 rounds every exact result in this way, to a number with
53 binary digits, although it only ever sees the digits of the result, a round bit and a sticky bit.
-/

namespace DailyBars.Number

/-! ## Rounded quotients -/

/-- A rounded quotient is off by at most one half. -/
theorem roundQuotient_near (tie : Tie) (num : Nat) {den : Nat} (h : 0 < den) :
    2 * (roundQuotient tie num den * den) ≤ 2 * num + den
      ∧ 2 * num ≤ 2 * (roundQuotient tie num den * den) + den := by
  have hdivide := Nat.div_add_mod num den
  have hrest := Nat.mod_lt num h
  rw [Nat.mul_comm den] at hdivide
  have hnext : (num / den + 1) * den = num / den * den + den := Nat.succ_mul _ _
  unfold roundQuotient
  simp only
  split
  · omega
  · split
    · omega
    · -- half way between two whole numbers either one is near
      cases tie with
      | up =>
        simp only
        omega
      | toEven =>
        simp only
        split
        · omega
        · omega

/-- What divides evenly is not rounded. -/
theorem roundQuotient_mul_right (tie : Tie) (n : Nat) {den : Nat} (h : 0 < den) :
    roundQuotient tie (n * den) den = n := by
  unfold roundQuotient
  simp only [Nat.mul_mod_left, Nat.mul_div_cancel _ h, Nat.mul_zero, if_pos h]

/-- Only the value of the fraction counts. -/
theorem roundQuotient_mul_mul_right (tie : Tie) (num den : Nat) {k : Nat} (h : 0 < k) :
    roundQuotient tie (num * k) (den * k) = roundQuotient tie num den := by
  have hlt : ∀ a b : Nat, 2 * (a * k) < b * k ↔ 2 * a < b := by
    intro a b
    rw [← Nat.mul_assoc]
    exact Nat.mul_lt_mul_right h
  have hgt : ∀ a b : Nat, b * k < 2 * (a * k) ↔ b < 2 * a := by
    intro a b
    rw [← Nat.mul_assoc]
    exact Nat.mul_lt_mul_right h
  unfold roundQuotient
  simp only [Nat.mul_div_mul_right _ _ h, Nat.mul_mod_mul_right, hlt, hgt]

/-- A larger fraction is not rounded to a smaller number. -/
theorem roundQuotient_mono {num num' : Nat} (den : Nat) (hle : num ≤ num') :
    roundQuotient .toEven num den ≤ roundQuotient .toEven num' den := by
  have hquotient : num / den ≤ num' / den := Nat.div_le_div_right hle
  have hdivide := Nat.div_add_mod num den
  have hdivide' := Nat.div_add_mod num' den
  rcases Nat.lt_or_eq_of_le hquotient with hlt | heq
  · -- with another whole number between them, they can at most be rounded to it
    have hup : roundQuotient .toEven num den ≤ num / den + 1 := by
      unfold roundQuotient
      simp only
      repeat' split
      all_goals omega
    have hdown : num' / den ≤ roundQuotient .toEven num' den := by
      unfold roundQuotient
      simp only
      repeat' split
      all_goals omega
    omega
  · -- with the same whole part, the remainders are compared with one half
    rw [← heq] at hdivide'
    have hrest : num % den ≤ num' % den := by omega
    unfold roundQuotient
    simp only [← heq]
    repeat' split
    all_goals omega

/-! ## Digits with a round bit and a sticky bit -/

open Float.Model Float.Model.UnpackedFloat

/-- The digits of a quotient before the point, with what the two bits say about those after it. -/
def digitsOf (num den : Nat) : ExtendedMantissa :=
  .ofMantissaAndAccuracy (num / den) (accuracyOfFraction (num % den) den)

/-- The digits of a quotient are its integral part. -/
theorem digitsOf_mantissa (num den : Nat) : (digitsOf num den).mantissa = num / den := by
  unfold digitsOf ExtendedMantissa.ofMantissaAndAccuracy
  split <;> rfl

/-- What the two bits say about the digits after the point. -/
theorem digitsOf_bits (num den : Nat) :
    (digitsOf num den).roundBit = decide (den ≤ 2 * (num % den) ∧ num % den ≠ 0)
      ∧ (digitsOf num den).stickyBit
        = decide (2 * (num % den) ≠ den ∧ num % den ≠ 0) := by
  unfold digitsOf accuracyOfFraction
  by_cases hzero : num % den = 0
  · simp [hzero, ExtendedMantissa.ofMantissaAndAccuracy]
  · rw [if_neg hzero]
    rcases Nat.lt_trichotomy (2 * (num % den)) den with hlt | heq | hgt
    · rw [Nat.compare_eq_lt.2 hlt]
      simp [ExtendedMantissa.ofMantissaAndAccuracy, hzero]
      omega
    · rw [Nat.compare_eq_eq.2 heq]
      simp [ExtendedMantissa.ofMantissaAndAccuracy, hzero]
      omega
    · rw [Nat.compare_eq_gt.2 hgt]
      simp [ExtendedMantissa.ofMantissaAndAccuracy, hzero]
      omega

/-- The bits are enough to round the quotient. -/
theorem roundedMantissa_digitsOf (num : Nat) {den : Nat} (h : 0 < den) :
    (digitsOf num den).roundedMantissa = roundQuotient .toEven num den := by
  unfold digitsOf accuracyOfFraction roundQuotient
  by_cases hzero : num % den = 0
  · rw [if_pos hzero, hzero, if_pos h]
    rfl
  · rw [if_neg hzero]
    rcases Nat.lt_trichotomy (2 * (num % den)) den with hlt | heq | hgt
    · rw [Nat.compare_eq_lt.2 hlt, if_pos hlt]
      rfl
    · rw [Nat.compare_eq_eq.2 heq, if_neg (by omega), if_neg (by omega)]
      show num / den + num / den % 2 = _
      simp only
      split
      · omega
      · omega
    · rw [Nat.compare_eq_gt.2 hgt, if_neg (by omega), if_pos hgt]
      rfl

/-- Dropping a digit halves the quotient. -/
theorem shiftRightOne_digitsOf (num : Nat) {den : Nat} (h : 0 < den) :
    (digitsOf num den).shiftRightOne = digitsOf num (den * 2) := by
  have hhalf : num / (den * 2) = num / den / 2 := (Nat.div_div_eq_div_mul ..).symm
  have hrest : num % (den * 2) = num % den + den * (num / den % 2) := Nat.mod_mul
  have hsmall := Nat.mod_lt num h
  obtain ⟨hround, hsticky⟩ := digitsOf_bits num den
  obtain ⟨hround', hsticky'⟩ := digitsOf_bits num (den * 2)
  rw [hrest] at hround' hsticky'
  have heta : ∀ x : ExtendedMantissa, x = ⟨x.mantissa, x.roundBit, x.stickyBit⟩ := fun _ => rfl
  rw [heta (digitsOf num (den * 2)), ExtendedMantissa.shiftRightOne, ExtendedMantissa.mk.injEq,
    digitsOf_mantissa, digitsOf_mantissa, hround, hsticky, hround', hsticky']
  refine ⟨hhalf.symm, ?_, ?_⟩
  · -- the digit that is dropped says whether the rest is at least one half
    rcases Nat.mod_two_eq_zero_or_one (num / den) with hbit | hbit
    · simp only [hbit, Nat.mul_zero]
      simp
      omega
    · simp only [hbit, Nat.mul_one]
      simp
      omega
  · rcases Nat.mod_two_eq_zero_or_one (num / den) with hbit | hbit
    · simp only [hbit, Nat.mul_zero, ← Bool.decide_or]
      congr 1
      apply propext
      omega
    · simp only [hbit, Nat.mul_one, ← Bool.decide_or]
      congr 1
      apply propext
      omega

/-- Dropping digits divides the quotient by a power of two. -/
theorem digitsOf_shiftRight (num : Nat) {den : Nat} (h : 0 < den) (k : Nat) :
    digitsOf num den >>> k = digitsOf num (den * 2 ^ k) := by
  induction k with
  | zero =>
    rw [Nat.pow_zero, Nat.mul_one]
    rfl
  | succ k ih =>
    have hstep : digitsOf num den >>> (k + 1) = (digitsOf num den >>> k).shiftRightOne := rfl
    rw [hstep, ih, shiftRightOne_digitsOf num (Nat.mul_pos h (Nat.two_pow_pos k)), Nat.pow_succ,
      Nat.mul_assoc]

/-! ## Rounding to 53 digits -/

/-- The positive number `m * 2 ^ e`. -/
def StandsFor (u : Float.Model.UnpackedFloat) (m : Nat) (e : Int) : Prop :=
  ∃ h, u = .finite .positive m e h

/-- A significand and its exponent. A significand that was rounded up to `2 ^ 53` has a digit too
many, which is a zero. -/
def carried (m : Nat) (e : Int) : Nat × Int := if m = 2 ^ 53 then (2 ^ 52, e + 1) else (m, e)

/-- The logarithm of a number between two powers of two. -/
theorem log2_of_bounds {n k : Nat} (hlo : 2 ^ k ≤ n) (hhi : n < 2 ^ (k + 1)) : n.log2 = k := by
  have hpos : n ≠ 0 := Nat.ne_of_gt (Nat.lt_of_lt_of_le (Nat.two_pow_pos k) hlo)
  exact (Nat.log2_eq_iff hpos).2 ⟨hlo, hhi⟩

/-- The digits up to the exponent at which 53 of them are left. -/
theorem shiftToTargetExponent_digitsOf (num : Nat) {den : Nat} (k : Nat) (e : Int) (h : 0 < den)
    (hlo : 2 ^ 52 * (den * 2 ^ k) ≤ num) (hhi : num < 2 ^ 53 * (den * 2 ^ k))
    (he : -1074 ≤ e + k) :
    shiftToTargetExponent Format.binary64 (num / den) e (accuracyOfFraction (num % den) den)
      = (digitsOf num (den * 2 ^ k), e + k) := by
  have hlog : (num / den).log2 = 52 + k := by
    apply log2_of_bounds
    · rw [Nat.le_div_iff_mul_le h, Nat.pow_add, Nat.mul_assoc, Nat.mul_comm (2 ^ k)]
      exact hlo
    · have hpow : 2 ^ (52 + k + 1) * den = 2 ^ 53 * (den * 2 ^ k) := by ring
      rw [Nat.div_lt_iff_lt_mul h, hpow]
      exact hhi
  have htarget : Format.binary64.targetExponent (totalExponent (num / den) e) = e + k := by
    simp only [Format.targetExponent, totalExponent, hlog, Format.mantissaBits, Format.minExponent]
    omega
  have hshift : (e + k - e).toNat = k := by omega
  unfold shiftToTargetExponent shiftToExponent
  simp only [htarget, hshift]
  rw [← digitsOf_shiftRight num h k]
  rfl

/-- A rounded significand has no digits to lose but the one that is carried. -/
theorem shiftToTargetExponent_rounded {m : Nat} {e : Int} (hlo : 2 ^ 52 ≤ m) (hhi : m ≤ 2 ^ 53)
    (he : -1074 ≤ e) :
    (shiftToTargetExponent Format.binary64 m e .exact).map ExtendedMantissa.mantissa id
      = carried m e := by
  have hexact : ∀ n, accuracyOfFraction (n % 1) 1 = .exact := by
    intro n
    rw [Nat.mod_one]
    rfl
  unfold carried
  split
  next htop =>
    have hshift := shiftToTargetExponent_digitsOf m 1 e Nat.one_pos (by omega) (by omega) (by omega)
    rw [Nat.div_one, hexact] at hshift
    rw [hshift, Prod.map_apply, digitsOf_mantissa, htop]
    rfl
  next htop =>
    have hshift := shiftToTargetExponent_digitsOf m 0 e Nat.one_pos (by omega) (by omega) (by omega)
    rw [Nat.div_one, hexact] at hshift
    rw [hshift, Prod.map_apply, digitsOf_mantissa]
    simp

/-- A quotient of 53 digits is rounded to one, or up to the next power of two, -/
theorem roundQuotient_bounds {num den : Nat} (h : 0 < den) (hlo : 2 ^ 52 * den ≤ num)
    (hhi : num < 2 ^ 53 * den) :
    2 ^ 52 ≤ roundQuotient .toEven num den ∧ roundQuotient .toEven num den ≤ 2 ^ 53 := by
  have hfirst := roundQuotient_mono den hlo
  have hlast := roundQuotient_mono den (Nat.le_of_lt hhi)
  rw [roundQuotient_mul_right .toEven _ h] at hfirst hlast
  exact ⟨hfirst, hlast⟩

/-- which is carried to 53 digits again. -/
theorem carried_bounds {m : Nat} (e : Int) (hlo : 2 ^ 52 ≤ m) (hhi : m ≤ 2 ^ 53) :
    2 ^ 52 ≤ (carried m e).1 ∧ (carried m e).1 < 2 ^ 53 := by
  unfold carried
  split
  · simp only
    omega
  · simp only
    omega

/-- An exact result is rounded to the number with 53 digits that is nearest to it. -/
theorem standsFor_roundWithAccuracy (num : Nat) {den : Nat} (k : Nat) (e : Int) (h : 0 < den)
    (hlo : 2 ^ 52 * (den * 2 ^ k) ≤ num) (hhi : num < 2 ^ 53 * (den * 2 ^ k))
    (he : -1074 ≤ e + k) :
    StandsFor (roundWithAccuracy Format.binary64 .positive (num / den) e
        (accuracyOfFraction (num % den) den))
      (carried (roundQuotient .toEven num (den * 2 ^ k)) (e + k)).1
      (carried (roundQuotient .toEven num (den * 2 ^ k)) (e + k)).2 := by
  have hden : 0 < den * 2 ^ k := Nat.mul_pos h (Nat.two_pow_pos k)
  obtain ⟨hmlo, hmhi⟩ := roundQuotient_bounds hden hlo hhi
  have hpos := (carried_bounds (e + k) hmlo hmhi).1
  have hcarried := shiftToTargetExponent_rounded hmlo hmhi he
  unfold roundWithAccuracy
  rw [shiftToTargetExponent_digitsOf num k e h hlo hhi he]
  simp only
  rw [roundedMantissa_digitsOf num hden]
  generalize shiftToTargetExponent Format.binary64 (roundQuotient .toEven num (den * 2 ^ k)) (e + k)
    .exact = shifted at hcarried ⊢
  rw [← hcarried] at hpos ⊢
  have hne : shifted.1.mantissa ≠ 0 :=
    Nat.ne_of_gt (Nat.lt_of_lt_of_le (Nat.two_pow_pos 52) hpos)
  rw [dif_neg hne]
  exact ⟨Nat.pos_of_ne_zero hne, rfl⟩

/-- A number with 53 digits is rounded to itself. -/
theorem standsFor_roundWithAccuracy_exact {m k : Nat} {e : Int} (hlo : 2 ^ 52 ≤ m)
    (hhi : m < 2 ^ 53) (he : -1074 ≤ e) :
    StandsFor (roundWithAccuracy Format.binary64 .positive (m * 2 ^ k) (e - k) .exact) m e := by
  have hk : 0 < 2 ^ k := Nat.two_pow_pos k
  have hexact : accuracyOfFraction (m * 2 ^ k % 1) 1 = .exact := by
    rw [Nat.mod_one]
    rfl
  have hsum : e - k + k = e := by omega
  have hround := standsFor_roundWithAccuracy (m * 2 ^ k) k (e - k) Nat.one_pos
    (by rw [Nat.one_mul]; exact Nat.mul_le_mul_right _ hlo)
    (by rw [Nat.one_mul]; exact Nat.mul_lt_mul_of_pos_right hhi hk) (by omega)
  rw [Nat.one_mul, Nat.div_one, hexact, roundQuotient_mul_right _ _ hk, hsum, carried,
    if_neg (by omega)] at hround
  exact hround

end DailyBars.Number
