import DailyBars.Proofs.Number.Rounding

/-! # Quotients of counts

The floating-point quotient of two counts is the exact quotient rounded to 53 binary digits. So a
larger count divided by the same one never gives a smaller number, although neither the numbers nor
their order are those of exact arithmetic.
-/

namespace DailyBars.Number

open Float.Model Float.Model.UnpackedFloat

/-- The number is `m * 2 ^ e` with a significand of 53 digits. -/
structure IsNormal (x : Float) (m : Nat) (e : Int) : Prop where
  unpacked : StandsFor x.toModel.unpack m e
  lo : 2 ^ 52 ≤ m
  hi : m < 2 ^ 53
  lowest : -1074 ≤ e

/-! ## Bits -/

/-- What is packed as positive has the positive sign. -/
theorem unpackSign_packComponents (exponent : BitVec 11) (fraction : BitVec 52) :
    unpackSign (packComponents Format.binary64 .positive exponent fraction) = 0#1 := by
  show (0#1 ++ exponent ++ fraction).extractLsb' 63 1 = 0#1
  rw [BitVec.extractLsb'_append_eq_of_le (by decide), BitVec.extractLsb'_append_eq_of_le (by decide)]
  rfl

/-- The first digit of a significand is not stored. -/
theorem toNat_significand (fraction : BitVec 52) :
    (1#1 ++ fraction).toNat = 2 ^ 52 + fraction.toNat := by
  show 2 ^ 52 ||| fraction.toNat = _
  rw [Nat.or_comm, Nat.or_two_pow_eq_add_of_lt fraction.isLt, Nat.add_comm]

/-- The bits of a number with 53 digits. -/
theorem pack_of_digits {m : Nat} {e : Int} (hpos : 0 < m) (hlo : 2 ^ 52 ≤ m) (hhi : m < 2 ^ 53)
    (he : -1074 ≤ e) (he' : e ≤ 971) :
    UnpackedFloat.pack Format.binary64 (.finite .positive m e hpos)
      = packComponents Format.binary64 .positive (BitVec.ofNat 11 (e + 1075).toNat)
        (BitVec.ofNat 52 m) := by
  have hlog : m.log2 + 1 = Format.binary64.mantissaBits := by
    rw [log2_of_bounds hlo hhi]
    rfl
  have hexponent : (e + Format.binary64.exponentBias
      + Format.binary64.mantissaBitsWithoutImplicit).toNat = (e + 1075).toNat := by
    show (e + 1023 + 52).toNat = _
    omega
  have hfinite : ¬ 2 ^ Format.binary64.exponentBits ≤ (e + 1075).toNat + 1 := by
    show ¬ 2 ^ 11 ≤ (e + 1075).toNat + 1
    omega
  simp only [UnpackedFloat.pack, hexponent]
  rw [if_neg hfinite, if_pos hlog]

/-- A number with 53 digits comes out of its bits as it went in. -/
theorem unpack_pack {m : Nat} {e : Int} (hpos : 0 < m) (hlo : 2 ^ 52 ≤ m) (hhi : m < 2 ^ 53)
    (he : -1074 ≤ e) (he' : e ≤ 971) :
    (Float.Model.pack (.finite .positive m e hpos)).unpack = .finite .positive m e hpos := by
  obtain ⟨biased, hbiased⟩ : ∃ b : Nat, b = (e + 1075).toNat := ⟨_, rfl⟩
  have hexponent : (BitVec.ofNat 11 biased).toNat = biased := by
    rw [BitVec.toNat_ofNat]
    omega
  -- neither the exponent of infinity nor that of the numbers with fewer digits
  have hother : ∀ b : BitVec 11, b.toNat ≠ biased → BitVec.ofNat 11 biased ≠ b := by
    intro b hb h
    rw [← h] at hb
    exact hb hexponent
  have hnotLast : BitVec.ofNat 11 biased ≠ -1#11 := by
    apply hother
    show 2047 ≠ biased
    omega
  have hnotFirst : BitVec.ofNat 11 biased ≠ 0#11 := by
    apply hother
    show 0 ≠ biased
    omega
  have hdigits : (1#1 ++ BitVec.ofNat 52 m).toNat = m := by
    rw [toNat_significand, BitVec.toNat_ofNat]
    omega
  show UnpackedFloat.unpack Format.binary64
    (UnpackedFloat.pack Format.binary64 (.finite .positive m e hpos)) = _
  rw [pack_of_digits hpos hlo hhi he he', ← hbiased]
  simp only [UnpackedFloat.unpack, unpackMantissa_packComponents, unpackExponent_packComponents,
    unpackSign_packComponents]
  rw [if_neg hnotLast, if_neg hnotFirst]
  simp only [hdigits, hexponent, UnpackedFloat.finite.injEq, true_and]
  refine ⟨rfl, ?_⟩
  show (biased : Int) - (1023 + 52) = e
  omega

/-- A result that was rounded is a number with 53 digits. -/
theorem isNormal_pack {u : Float.Model.UnpackedFloat} {m : Nat} {e : Int} (hlo : 2 ^ 52 ≤ m)
    (hhi : m ≤ 2 ^ 53) (he : -1074 ≤ e) (he' : e ≤ 970)
    (hu : StandsFor u (carried m e).1 (carried m e).2) :
    IsNormal ⟨Float.Model.pack u⟩ (carried m e).1 (carried m e).2 := by
  obtain ⟨hpos, rfl⟩ := hu
  obtain ⟨hfirst, hlast⟩ := carried_bounds e hlo hhi
  have hexponent : e ≤ (carried m e).2 ∧ (carried m e).2 ≤ e + 1 := by
    unfold carried
    split
    · simp only
      omega
    · simp only
      omega
  exact ⟨⟨hpos, unpack_pack hpos hfirst hlast (by omega) (by omega)⟩, hfirst, hlast, by omega⟩

/-! ## Counts -/

/-- A number below 2 ^ 53 has at most 53 digits. -/
theorem log2_le_of_lt {n : Nat} (hpos : 0 < n) (hn : n < 2 ^ 53) : n.log2 ≤ 52 :=
  Nat.le_of_lt_succ ((Nat.log2_lt (Nat.ne_of_gt hpos)).2 hn)

/-- A count with as many zeros after it as make 53 digits. -/
theorem digits_bounds {n : Nat} (hpos : 0 < n) (hn : n < 2 ^ 53) :
    2 ^ 52 ≤ n * 2 ^ (52 - n.log2) ∧ n * 2 ^ (52 - n.log2) < 2 ^ 53 := by
  obtain ⟨hlo, hhi⟩ := (Nat.log2_eq_iff (Nat.ne_of_gt hpos)).1 rfl
  have hlog := log2_le_of_lt hpos hn
  have hfirst : 2 ^ n.log2 * 2 ^ (52 - n.log2) = 2 ^ 52 := by
    rw [← Nat.pow_add, Nat.add_sub_cancel' hlog]
  have hlast : 2 ^ (n.log2 + 1) * 2 ^ (52 - n.log2) = 2 ^ 53 := by
    rw [Nat.pow_succ, Nat.mul_right_comm, hfirst, ← Nat.pow_succ]
  rw [← hfirst, ← hlast]
  exact ⟨Nat.mul_le_mul_right _ hlo, Nat.mul_lt_mul_of_pos_right hhi (Nat.two_pow_pos _)⟩

/-- A natural below 2 ^ 53 stands for itself, its digits shifted to the full width. -/
theorem standsFor_ofNat {n : Nat} (hpos : 0 < n) (hn : n < 2 ^ 53) :
    StandsFor (UnpackedFloat.ofNat Format.binary64 n) (n * 2 ^ (52 - n.log2)) (n.log2 - 52) := by
  obtain ⟨hlo, hhi⟩ := digits_bounds hpos hn
  have hlog := log2_le_of_lt hpos hn
  have htarget : Format.binary64.targetExponent (totalExponent n 0) = n.log2 - 52 := by
    simp only [Format.targetExponent, totalExponent, Format.mantissaBits, Format.minExponent]
    omega
  have hshift : ((0 : Int) - (n.log2 - 52)).toNat = 52 - n.log2 := by omega
  have hexponent : (0 : Int) - ((52 - n.log2 : Nat) : Int) = n.log2 - 52 := by omega
  have hround : UnpackedFloat.ofNat Format.binary64 n = roundWithAccuracy Format.binary64 .positive
      (n * 2 ^ (52 - n.log2)) (n.log2 - 52) .exact := by
    have hcompare : compare (n : Int) 0 = .gt := by
      rw [Int.compare_eq_gt]
      omega
    simp only [UnpackedFloat.ofNat, UnpackedFloat.ofInt, UnpackedFloat.normalize, hcompare,
      Int.toNat_natCast, UnpackedFloat.round, htarget, decreaseExponent, hshift, hexponent,
      Nat.shiftLeft_eq]
  have hexact := standsFor_roundWithAccuracy_exact (k := 0) (e := n.log2 - 52) hlo hhi (by omega)
  rw [hround]
  simpa using hexact

/-- A count below `2 ^ 53` is a number exactly. -/
theorem isNormal_ofNat {n : Nat} (hpos : 0 < n) (hn : n < 2 ^ 53) :
    IsNormal (Float.ofNat n) (n * 2 ^ (52 - n.log2)) (n.log2 - 52) := by
  obtain ⟨hlo, hhi⟩ := digits_bounds hpos hn
  have hlog := log2_le_of_lt hpos hn
  -- a count is converted, and multiplied by one
  have hproduct : Float.ofNat n
      = ⟨Float.Model.ofUInt64 n.toUInt64⟩ * Float.ofBits 0x3FF0000000000000 := by
    show Float.ofScientific n false 0 = _
    unfold Float.ofScientific
    rw [dif_pos ⟨hn, by decide⟩]
    rfl
  have hcount : StandsFor (Float.Model.ofUInt64 n.toUInt64).unpack (n * 2 ^ (52 - n.log2))
      (n.log2 - 52) := by
    obtain ⟨h, hunpacked⟩ := standsFor_ofNat hpos hn
    have hword : n.toUInt64.toNat = n := by
      rw [Nat.toUInt64_eq, UInt64.toNat_ofNat']
      omega
    show StandsFor (Float.Model.pack (UnpackedFloat.ofNat Format.binary64 n.toUInt64.toNat)).unpack
      _ _
    rw [hword, hunpacked, unpack_pack h hlo hhi (by omega) (by omega)]
    exact ⟨h, rfl⟩
  have hone : StandsFor (Float.ofBits 0x3FF0000000000000).toModel.unpack (2 ^ 52) (-52) :=
    ⟨by decide, rfl⟩
  obtain ⟨h₁, hcount⟩ := hcount
  obtain ⟨h₂, hone⟩ := hone
  have hround := standsFor_roundWithAccuracy_exact (k := 52) (e := n.log2 - 52) hlo hhi (by omega)
  have hmul : StandsFor (UnpackedFloat.mul Format.binary64
      (.finite .positive (n * 2 ^ (52 - n.log2)) (n.log2 - 52) h₁)
      (.finite .positive (2 ^ 52) (-52) h₂)) (n * 2 ^ (52 - n.log2)) (n.log2 - 52) := hround
  rw [← hcount, ← hone] at hmul
  rw [hproduct]
  have hfits : carried (n * 2 ^ (52 - n.log2)) (n.log2 - 52)
      = (n * 2 ^ (52 - n.log2), (n.log2 - 52 : Int)) := by
    rw [carried, if_neg (by omega)]
  have hpacked := isNormal_pack hlo (Nat.le_of_lt hhi) (e := n.log2 - 52) (by omega) (by omega)
    (by rw [hfits]; exact hmul)
  rw [hfits] at hpacked
  exact hpacked

/-! ## Division -/

/-- The quotient of two numbers is the exact one, rounded to 53 digits. -/
theorem IsNormal.div {x y : Float} {m₁ m₂ k : Nat} {e₁ e₂ : Int} (hx : IsNormal x m₁ e₁)
    (hy : IsNormal y m₂ e₂) (hk : k ≤ 53) (hlo : 2 ^ 52 * m₂ ≤ m₁ * 2 ^ k)
    (hhi : m₁ * 2 ^ k < 2 ^ 53 * m₂) (he : -1021 ≤ e₁ - e₂) (he' : e₁ - e₂ ≤ 970) :
    IsNormal (x / y) (carried (roundQuotient .toEven (m₁ * 2 ^ k) m₂) (e₁ - e₂ - k)).1
      (carried (roundQuotient .toEven (m₁ * 2 ^ k) m₂) (e₁ - e₂ - k)).2 := by
  have hm₂ : 0 < m₂ := Nat.lt_of_lt_of_le (Nat.two_pow_pos 52) hy.lo
  have hlog₁ : m₁.log2 = 52 := log2_of_bounds hx.lo hx.hi
  have hlog₂ : m₂.log2 = 52 := log2_of_bounds hy.lo hy.hi
  -- the digits are found 53 places beyond the point, of which one may be too many
  have htarget : min (e₁ - e₂) (Format.binary64.targetExponent
      (totalExponent m₁ e₁ - totalExponent m₂ e₂)) = e₁ - e₂ - 53 := by
    simp only [Format.targetExponent, totalExponent, hlog₁, hlog₂, Format.mantissaBits,
      Format.minExponent]
    omega
  have hshift : (e₁ - e₂ - (e₁ - e₂ - 53)).toNat = 53 := by omega
  have hscale : m₁ * 2 ^ 53 = m₁ * 2 ^ k * 2 ^ (53 - k) := by
    rw [Nat.mul_assoc, ← Nat.pow_add, Nat.add_sub_cancel' hk]
  have hspare : 0 < 2 ^ (53 - k) := Nat.two_pow_pos _
  have hround := standsFor_roundWithAccuracy (m₁ * 2 ^ 53) (53 - k) (e₁ - e₂ - 53) hm₂
    (by rw [hscale, ← Nat.mul_assoc]; exact Nat.mul_le_mul_right _ hlo)
    (by rw [hscale, ← Nat.mul_assoc]; exact Nat.mul_lt_mul_of_pos_right hhi hspare) (by omega)
  have hexponent : e₁ - e₂ - 53 + ((53 - k : Nat) : Int) = e₁ - e₂ - k := by omega
  rw [hscale, roundQuotient_mul_mul_right _ _ _ hspare, hexponent, ← hscale] at hround
  obtain ⟨hfirst, hlast⟩ := roundQuotient_bounds hm₂ hlo hhi
  obtain ⟨h₁, hx'⟩ := hx.unpacked
  obtain ⟨h₂, hy'⟩ := hy.unpacked
  have hdiv : StandsFor (UnpackedFloat.div Format.binary64 x.toModel.unpack y.toModel.unpack)
      (carried (roundQuotient .toEven (m₁ * 2 ^ k) m₂) (e₁ - e₂ - k)).1
      (carried (roundQuotient .toEven (m₁ * 2 ^ k) m₂) (e₁ - e₂ - k)).2 := by
    rw [hx', hy']
    simp only [UnpackedFloat.div, divCore, htarget, hshift, Nat.shiftLeft_eq]
    exact hround
  exact isNormal_pack hfirst hlast (by omega) (by omega) hdiv

/-- The quotient of two counts is the exact one with a significand of 53 digits. -/
theorem isNormal_quotient {a c : Nat} (ha : 0 < a) (ha' : a < 2 ^ 53) (hc : 0 < c)
    (hc' : c < 2 ^ 53) :
    ∃ k : Nat, 2 ^ 52 * c ≤ a * 2 ^ k ∧ a * 2 ^ k < 2 ^ 53 * c
      ∧ IsNormal (Float.ofNat a / Float.ofNat c) (carried (roundQuotient .toEven (a * 2 ^ k) c) (-k)).1
        (carried (roundQuotient .toEven (a * 2 ^ k) c) (-k)).2 := by
  have hx := isNormal_ofNat ha ha'
  have hy := isNormal_ofNat hc hc'
  have hlogA := log2_le_of_lt ha ha'
  have hlogC := log2_le_of_lt hc hc'
  have hxlo := hx.lo
  have hxhi := hx.hi
  have hylo := hy.lo
  have hyhi := hy.hi
  obtain ⟨j, hj, hj', hlo, hhi⟩ : ∃ j, 52 ≤ j ∧ j ≤ 53
      ∧ 2 ^ 52 * (c * 2 ^ (52 - c.log2)) ≤ a * 2 ^ (52 - a.log2) * 2 ^ j
      ∧ a * 2 ^ (52 - a.log2) * 2 ^ j < 2 ^ 53 * (c * 2 ^ (52 - c.log2)) := by
    by_cases hlt : a * 2 ^ (52 - a.log2) < c * 2 ^ (52 - c.log2)
    · exact ⟨53, by omega, by omega, by omega, by omega⟩
    · exact ⟨52, by omega, by omega, by omega, by omega⟩
  have hdiv := hx.div hy hj' hlo hhi (by omega) (by omega)
  -- the zeros after the counts cancel
  have hscale : a * 2 ^ (52 - a.log2) * 2 ^ j
      = a * 2 ^ (j + c.log2 - a.log2) * 2 ^ (52 - c.log2) := by
    rw [Nat.mul_assoc, Nat.mul_assoc, ← Nat.pow_add, ← Nat.pow_add]
    congr 2
    omega
  have hspare : 0 < 2 ^ (52 - c.log2) := Nat.two_pow_pos _
  have hexponent : (a.log2 - 52 : Int) - (c.log2 - 52) - j = -((j + c.log2 - a.log2 : Nat) : Int) := by
    omega
  rw [hscale, roundQuotient_mul_mul_right _ _ _ hspare, hexponent] at hdiv
  rw [hscale, ← Nat.mul_assoc] at hlo hhi
  exact ⟨j + c.log2 - a.log2, Nat.le_of_mul_le_mul_right hlo hspare,
    Nat.lt_of_mul_lt_mul_right hhi, hdiv⟩

/-! ## Order -/

/-- The place of `m * 2 ^ e` among the numbers with 53 digits. -/
def rank (m : Nat) (e : Int) : Int := (e + 1075) * 2 ^ 53 + m

/-- The number is zero, or it has 53 digits; its place among all of these. -/
def HasRank (x : Float) (r : Int) : Prop :=
  x.toModel.unpack = .zero .positive ∧ r = 0 ∨ ∃ m e, IsNormal x m e ∧ r = rank m e

/-- The rank of a normal number is positive. -/
theorem IsNormal.rank_pos {x : Float} {m : Nat} {e : Int} (h : IsNormal x m e) : 0 < rank m e := by
  have hlo := h.lo
  have he := h.lowest
  unfold rank
  omega

/-- Ranks are not negative. -/
theorem HasRank.nonneg {x : Float} {r : Int} (h : HasRank x r) : 0 ≤ r := by
  rcases h with ⟨-, rfl⟩ | ⟨m, e, h, rfl⟩
  · exact Int.le_refl 0
  · exact Int.le_of_lt h.rank_pos

/-- The exponents are compared first, and then the significands. -/
theorem compare_rank {x y : Float} {m m' : Nat} {e e' : Int} (hx : IsNormal x m e)
    (hy : IsNormal y m' e') :
    (Ord.compare e e').then (Ord.compare m m') = compare (rank m e) (rank m' e') := by
  have hlo := hx.lo
  have hhi := hx.hi
  have hlo' := hy.lo
  have hhi' := hy.hi
  unfold rank
  rcases Int.lt_trichotomy e e' with hlt | heq | hgt
  · rw [Int.compare_eq_lt.2 hlt, Int.compare_eq_lt.2 (by omega)]
    rfl
  · subst heq
    rw [Int.compare_eq_eq.2 rfl]
    show Ord.compare m m' = _
    rcases Nat.lt_trichotomy m m' with hm | hm | hm
    · rw [Nat.compare_eq_lt.2 hm, Int.compare_eq_lt.2 (by omega)]
    · rw [Nat.compare_eq_eq.2 hm, Int.compare_eq_eq.2 (by omega)]
    · rw [Nat.compare_eq_gt.2 hm, Int.compare_eq_gt.2 (by omega)]
  · rw [Int.compare_eq_gt.2 hgt, Int.compare_eq_gt.2 (by omega)]
    rfl

/-- How two numbers compare is how their places do. -/
theorem HasRank.compare {x y : Float} {r s : Int} (hx : HasRank x r) (hy : HasRank y s) :
    x.toModel.unpack.compare y.toModel.unpack = some (compare r s) := by
  rcases hx with ⟨hx, rfl⟩ | ⟨m, e, hx, rfl⟩
  · rcases hy with ⟨hy, rfl⟩ | ⟨m', e', hy, rfl⟩
    · rw [hx, hy]
      rfl
    · have hpos := hy.rank_pos
      obtain ⟨h', hy⟩ := hy.unpacked
      rw [hx, hy, Int.compare_eq_lt.2 hpos]
      rfl
  · rcases hy with ⟨hy, rfl⟩ | ⟨m', e', hy, rfl⟩
    · have hpos := hx.rank_pos
      obtain ⟨h, hx⟩ := hx.unpacked
      rw [hx, hy, Int.compare_eq_gt.2 hpos]
      rfl
    · have hrank := compare_rank hx hy
      obtain ⟨h, hx⟩ := hx.unpacked
      obtain ⟨h', hy⟩ := hy.unpacked
      rw [hx, hy, ← hrank]
      rfl

/-- Floats are compared as their ranks, -/
theorem HasRank.le_iff {x y : Float} {r s : Int} (hx : HasRank x r) (hy : HasRank y s) :
    x ≤ y ↔ r ≤ s := by
  have hle : x ≤ y ↔ x.toModel.unpack.le y.toModel.unpack = true := by
    show decide (x.toModel ≤ y.toModel) = true ↔ _
    rw [decide_eq_true_iff]
    rfl
  rw [hle, UnpackedFloat.le, hx.compare hy]
  simp only [Option.any_some, Int.isLE_compare]

/-- strictly as well. -/
theorem HasRank.lt_iff {x y : Float} {r s : Int} (hx : HasRank x r) (hy : HasRank y s) :
    x < y ↔ r < s := by
  have hlt : x < y ↔ x.toModel.unpack.lt y.toModel.unpack = true := by
    show decide (x.toModel < y.toModel) = true ↔ _
    rw [decide_eq_true_iff]
    rfl
  rw [hlt, UnpackedFloat.lt, hx.compare hy, ← Int.compare_eq_lt]
  simp

/-- Carrying preserves the order of the mantissas. -/
theorem rank_carried_mono {m m' : Nat} (e : Int) (hle : m ≤ m') (hhi : m' ≤ 2 ^ 53) :
    rank (carried m e).1 (carried m e).2 ≤ rank (carried m' e).1 (carried m' e).2 := by
  unfold carried rank
  split
  · split
    · omega
    · omega
  · split
    · simp only
      omega
    · simp only
      omega

/-- With a smaller exponent, a number is no larger. -/
theorem rank_carried_le {m m' : Nat} {e e' : Int} (hlt : e < e') (hhi : m ≤ 2 ^ 53)
    (hlo' : 2 ^ 52 ≤ m') :
    rank (carried m e).1 (carried m e).2 ≤ rank (carried m' e').1 (carried m' e').2 := by
  unfold carried rank
  split
  · split
    · simp only
      omega
    · simp only
      omega
  · split
    · simp only
      omega
    · simp only
      omega

/-- Zero divided by a normal number has rank zero. -/
theorem hasRank_zero_div {y : Float} {m : Nat} {e : Int} (hy : IsNormal y m e) :
    HasRank (Float.ofNat 0 / y) 0 := by
  obtain ⟨h, hy⟩ := hy.unpacked
  refine Or.inl ⟨?_, rfl⟩
  show (Float.Model.pack (UnpackedFloat.div Format.binary64 (.zero .positive)
    y.toModel.unpack)).unpack = _
  rw [hy]
  simp only [UnpackedFloat.div]
  show (Float.Model.pack (.zero .positive)).unpack = .zero .positive
  rfl

/-- A larger count divided by the same one is no smaller a number. -/
theorem exists_rank_quotient_le {a b c : Nat} (hab : a ≤ b) (hb : b < 2 ^ 53) (hc : 0 < c)
    (hc' : c < 2 ^ 53) :
    ∃ r s, HasRank (Float.ofNat a / Float.ofNat c) r ∧ HasRank (Float.ofNat b / Float.ofNat c) s
      ∧ r ≤ s := by
  have hzero := hasRank_zero_div (isNormal_ofNat hc hc')
  rcases Nat.eq_zero_or_pos b with rfl | hbpos
  · rw [Nat.le_zero.1 hab]
    exact ⟨0, 0, hzero, hzero, Int.le_refl 0⟩
  obtain ⟨k', hlo', hhi', hy⟩ := isNormal_quotient hbpos hb hc hc'
  rcases Nat.eq_zero_or_pos a with rfl | hapos
  · exact ⟨0, _, hzero, Or.inr ⟨_, _, hy, rfl⟩, Int.le_of_lt hy.rank_pos⟩
  obtain ⟨k, hlo, hhi, hx⟩ := isNormal_quotient hapos (Nat.lt_of_le_of_lt hab hb) hc hc'
  refine ⟨_, _, Or.inr ⟨_, _, hx, rfl⟩, Or.inr ⟨_, _, hy, rfl⟩, ?_⟩
  obtain ⟨hmlo, hmhi⟩ := roundQuotient_bounds hc hlo hhi
  obtain ⟨hmlo', hmhi'⟩ := roundQuotient_bounds hc hlo' hhi'
  -- the larger count needs no more zeros after it
  rcases Nat.lt_trichotomy k k' with hlt | rfl | hgt
  · exfalso
    have hdouble : a * 2 ^ k * 2 ≤ b * 2 ^ k' := by
      rw [Nat.mul_assoc, ← Nat.pow_succ]
      exact Nat.mul_le_mul hab (Nat.pow_le_pow_right (by decide) hlt)
    omega
  · exact rank_carried_mono _ (roundQuotient_mono c (Nat.mul_le_mul_right _ hab)) hmhi'
  · exact rank_carried_le (by omega) hmhi hmlo'

/-! ## Exact values -/

section Fields

variable {x : Float} {b : BitVec Format.binary64.numBits} (h : b = x.toModel.toBits.toBitVec)
include h

/-- The exponent is the eleven bits above the mantissa, -/
theorem toNat_unpackExponent :
    (unpackExponent b).toNat = x.toBits.toNat / 0x10000000000000 % 0x800 := by
  show b.toNat >>> 52 % 2 ^ 11 = _
  rw [Nat.shiftRight_eq_div_pow, h]
  rfl

/-- which is the lowest 52 bits. -/
theorem toNat_unpackMantissa : (unpackMantissa b).toNat = x.toBits.toNat % 0x10000000000000 := by
  rw [h]
  rfl

/-- The sign of a positive number is no bit. -/
theorem testBit_of_positive (hpositive : Sign.ofBitVec (unpackSign b) = .positive) :
    x.toBits.toNat.testBit 63 = false := by
  have hsign : (unpackSign b).toNat = x.toBits.toNat / 2 ^ 63 % 2 := by
    rw [← Nat.shiftRight_eq_div_pow, h]
    rfl
  rw [Nat.testBit_eq_decide_div_mod_eq, decide_eq_false_iff_not]
  intro hbit
  rw [hbit] at hsign
  rw [Sign.ofBitVec, if_neg] at hpositive
  · cases hpositive
  · intro hzero
    rw [hzero] at hsign
    cases hsign

end Fields

/-- The parts of a number with 53 digits are read off its bits. -/
theorem IsNormal.read {x : Float} {m : Nat} {e : Int} (h : IsNormal x m e) :
    Number.read x = .finite ⟨false, m, e⟩ := by
  obtain ⟨b, hb⟩ : ∃ b : BitVec Format.binary64.numBits, b = x.toModel.toBits.toBitVec := ⟨_, rfl⟩
  obtain ⟨hpos, hu⟩ := h.unpacked
  have hlo := h.lo
  have hexponent := toNat_unpackExponent hb
  have hfraction := toNat_unpackMantissa hb
  rw [Float.Model.unpack, ← hb, UnpackedFloat.unpack] at hu
  simp only at hu
  split at hu
  · split at hu
    · cases hu
    · cases hu
  next hlast =>
    split at hu
    · split at hu
      · cases hu
      · -- a number below the smallest with 53 digits
        injection hu with hs hm he
        rw [hfraction] at hm
        omega
    next hfirst =>
      injection hu with hs hm he
      have hdigits : 0x10000000000000 + x.toBits.toNat % 0x10000000000000 = m := by
        rw [← hm, ← hfraction]
        exact (toNat_significand (unpackMantissa b)).symm
      have hscale : ((x.toBits.toNat / 0x10000000000000 % 0x800 : Nat) : Int) - (1023 + 52) = e := by
        rw [← he, ← hexponent]
        rfl
      have hnotLast : x.toBits.toNat / 0x10000000000000 % 0x800 ≠ 2047 := by
        rw [← hexponent]
        exact fun hall => hlast (BitVec.eq_of_toNat_eq hall)
      have hnotFirst : x.toBits.toNat / 0x10000000000000 % 0x800 ≠ 0 := by
        rw [← hexponent]
        exact fun hnone => hfirst (BitVec.eq_of_toNat_eq hnone)
      show readBits x.toBits = _
      unfold readBits
      simp only [testBit_of_positive hb hs]
      rw [if_neg hnotLast, if_neg hnotFirst, hdigits, ← hscale]
      rfl

end DailyBars.Number
