import DailyBars.Proofs.Number.Quotient

/-! # Multiplication by one

The product of a number with one has all digits of the number and 52 zeros more, which rounding
drops again. So multiplying by one gives back the same number, bit for bit, whatever it is.
-/

namespace DailyBars.Number

open Float.Model Float.Model.UnpackedFloat

/-- A significand and an exponent as they come out of the bits of a number: with the exponent
lowered as far as 53 digits allow, and no further than that of the smallest number. -/
def Canonical (m : Nat) (e : Int) : Prop :=
  Format.binary64.targetExponent (totalExponent m e) = e

/-- A mantissa of 53 digits is canonical, -/
theorem canonical_of_digits {m : Nat} {e : Int} (hlo : 2 ^ 52 ≤ m) (hhi : m < 2 ^ 53)
    (he : -1074 ≤ e) : Canonical m e := by
  simp only [Canonical, Format.targetExponent, totalExponent, log2_of_bounds hlo hhi,
    Format.mantissaBits, Format.minExponent]
  omega

/-- and so is a shorter one with the smallest exponent. -/
theorem canonical_of_smallest {m : Nat} (hpos : 0 < m) (hhi : m < 2 ^ 52) :
    Canonical m (-1074) := by
  have hlog : m.log2 < 52 := (Nat.log2_lt (Nat.ne_of_gt hpos)).2 hhi
  simp only [Canonical, Format.targetExponent, totalExponent, Format.mantissaBits,
    Format.minExponent]
  omega

/-- Every number has canonical parts. -/
theorem canonical_of_unpack {x : Float} {s : Sign} {m : Nat} {e : Int} {hpos : 0 < m}
    (h : x.toModel.unpack = .finite s m e hpos) : Canonical m e := by
  obtain ⟨b, hb⟩ : ∃ b : BitVec Format.binary64.numBits, b = x.toModel.toBits.toBitVec := ⟨_, rfl⟩
  rw [Float.Model.unpack, ← hb, UnpackedFloat.unpack] at h
  have hfraction : (unpackMantissa b).toNat < 2 ^ 52 := (unpackMantissa b).isLt
  simp only at h
  split at h
  · split at h
    · cases h
    · cases h
  · split at h
    next hfirst =>
      split at h
      · cases h
      · injection h with hs hm he
        have hexponent : e = -1074 := by
          rw [← he, hfirst]
          rfl
        rw [hexponent]
        exact canonical_of_smallest hpos (by omega)
    next hfirst =>
      injection h with hs hm he
      have hdigits : (1#1 ++ unpackMantissa b).toNat = 2 ^ 52 + (unpackMantissa b).toNat :=
        toNat_significand (unpackMantissa b)
      have hsome : (unpackExponent b).toNat ≠ 0 := fun hzero => hfirst (BitVec.eq_of_toNat_eq hzero)
      have hscale : ((unpackExponent b).toNat : Int) - (1023 + 52) = e := he
      exact canonical_of_digits (by omega) (by omega) (by omega)

/-! ## Products -/

/-- Multiplying by a power of two adds its exponent to the logarithm. -/
theorem log2_mul_two_pow {m : Nat} (hpos : 0 < m) (k : Nat) : (m * 2 ^ k).log2 = m.log2 + k := by
  induction k with
  | zero => rw [Nat.pow_zero, Nat.mul_one, Nat.add_zero]
  | succ k ih =>
    have hdouble : m * 2 ^ (k + 1) = 2 * (m * 2 ^ k) := by ring
    have hne : m * 2 ^ k ≠ 0 := Nat.ne_of_gt (Nat.mul_pos hpos (Nat.two_pow_pos k))
    rw [hdouble, Nat.log2_two_mul hne, ih, Nat.add_assoc]

/-- The zeros after the last digit are shifted out. -/
theorem shiftToTargetExponent_of_canonical {m : Nat} {e : Int} (hpos : 0 < m) (h : Canonical m e)
    (k : Nat) :
    shiftToTargetExponent Format.binary64 (m * 2 ^ k) (e - k) .exact
      = (digitsOf (m * 2 ^ k) (2 ^ k), e) := by
  have htarget : Format.binary64.targetExponent (totalExponent (m * 2 ^ k) (e - k)) = e := by
    have htotal : totalExponent (m * 2 ^ k) (e - k) = totalExponent m e := by
      rw [totalExponent, totalExponent, log2_mul_two_pow hpos]
      omega
    rw [htotal]
    exact h
  have hshift : (e - (e - k)).toNat = k := by omega
  have hexponent : e - (k : Int) + k = e := by omega
  have hexact : ExtendedMantissa.ofMantissaAndAccuracy (m * 2 ^ k) .exact
      = digitsOf (m * 2 ^ k) 1 := by
    rw [digitsOf, Nat.mod_one, Nat.div_one]
    rfl
  unfold shiftToTargetExponent shiftToExponent
  simp only [htarget, hshift, hexponent, hexact]
  rw [digitsOf_shiftRight _ Nat.one_pos, Nat.one_mul]

/-- A number with zeros after its last digit is rounded to the number. -/
theorem roundWithAccuracy_of_canonical {m : Nat} {e : Int} (s : Sign) (hpos : 0 < m)
    (h : Canonical m e) (k : Nat) :
    roundWithAccuracy Format.binary64 s (m * 2 ^ k) (e - k) .exact = .finite s m e hpos := by
  have hround : (digitsOf (m * 2 ^ k) (2 ^ k)).roundedMantissa = m := by
    rw [roundedMantissa_digitsOf _ (Nat.two_pow_pos k),
      roundQuotient_mul_right _ _ (Nat.two_pow_pos k)]
  -- what is left needs no further shift
  have hagain := shiftToTargetExponent_of_canonical hpos h 0
  rw [Nat.pow_zero, Nat.mul_one, Int.natCast_zero, Int.sub_zero] at hagain
  unfold roundWithAccuracy
  rw [shiftToTargetExponent_of_canonical hpos h k]
  simp only [hround, hagain, digitsOf_mantissa, Nat.div_one]
  rw [dif_neg (Nat.ne_of_gt hpos)]

/-- The parts of one. -/
theorem unpack_one :
    (1.0 : Float).toModel.unpack = .finite .positive (2 ^ 52) (-52) (by decide) := by
  have hbits : (1.0 : Float) = Float.ofBits 0x3FF0000000000000 := by
    show Float.ofScientific 10 true 1 = _
    unfold Float.ofScientific
    rfl
  rw [hbits]
  rfl

/-- Multiplying by one changes nothing. -/
theorem product_one (x : Float) : x * 1.0 = x := by
  have hproduct : UnpackedFloat.mul Format.binary64 x.toModel.unpack
      (.finite .positive (2 ^ 52) (-52) (by decide)) = x.toModel.unpack := by
    generalize hunpacked : x.toModel.unpack = u
    cases u with
    | infinity s => cases s <;> rfl
    | notANumber => rfl
    | zero s => cases s <;> rfl
    | finite s m e hpos =>
      have hsign : s * .positive = s := by cases s <;> rfl
      show roundWithAccuracy Format.binary64 (s * .positive) (m * 2 ^ 52) (e + -52) .exact = _
      rw [hsign]
      exact roundWithAccuracy_of_canonical s hpos (canonical_of_unpack hunpacked) 52
  rw [← unpack_one] at hproduct
  have hpacked : x * 1.0 = ⟨Float.Model.pack x.toModel.unpack⟩ := by
    show (⟨Float.Model.pack (UnpackedFloat.mul Format.binary64 x.toModel.unpack
      (1.0 : Float).toModel.unpack)⟩ : Float) = _
    rw [hproduct]
  rw [hpacked]
  exact Float.ofBits_toBits x

/-- Unpacked floats may be multiplied either way round. -/
theorem unpacked_comm (a b : UnpackedFloat) :
    UnpackedFloat.mul Format.binary64 a b = UnpackedFloat.mul Format.binary64 b a := by
  have hsign : ∀ s t : Sign, s * t = t * s := by
    intro s t
    cases s <;> cases t <;> rfl
  cases a <;> cases b <;> simp only [UnpackedFloat.mul, hsign, Nat.mul_comm, Int.add_comm]

/-- The order of the factors does not matter. -/
theorem product_comm (x y : Float) : x * y = y * x := by
  show (⟨Float.Model.pack (UnpackedFloat.mul Format.binary64 x.toModel.unpack
    y.toModel.unpack)⟩ : Float) = ⟨Float.Model.pack (UnpackedFloat.mul Format.binary64
      y.toModel.unpack x.toModel.unpack)⟩
  rw [unpacked_comm]

/-- One is neutral on the left. -/
theorem one_product (x : Float) : 1.0 * x = x := by
  rw [product_comm, product_one]

end DailyBars.Number
