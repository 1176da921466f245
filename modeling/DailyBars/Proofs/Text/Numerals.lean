import Mathlib.Algebra.Group.Nat.Defs
import DailyBars.Text.Basic
import DailyBars.Number.Reader

/-! # Numerals read back

Words of sixteen digits in base sixteen and padded decimals give back the number they were
written from.
-/

namespace DailyBars.Text

/-- A written digit in base sixteen has its own value. -/
theorem hexValue?_digitChar {n : Nat} (h : n < 16) : hexValue? (Nat.digitChar n) = some n := by
  have hall : ∀ k < 16, hexValue? (Nat.digitChar k) = some k := by decide
  exact hall n h

/-- There are as many places as asked for. -/
theorem length_hexPlaces (count n : Nat) : (hexPlaces count n).length = count := by
  induction count generalizing n with
  | zero => rfl
  | succ count ih => rw [hexPlaces, List.length_append, ih, List.length_singleton]

/-- Digits read back are the number that they are the last digits of. -/
theorem ofHexPlaces?_hexPlaces {count n : Nat} (h : n < 16 ^ count) :
    ofHexPlaces? (hexPlaces count n) = some n := by
  induction count generalizing n with
  | zero =>
    have hn : n = 0 := by simpa using h
    rw [hn]; rfl
  | succ count ih =>
    have hdiv : n / 16 < 16 ^ count := by
      rw [Nat.pow_succ] at h
      omega
    have hlast : hexValue? (Nat.digitChar (n % 16)) = some (n % 16) :=
      hexValue?_digitChar (Nat.mod_lt _ (by decide))
    have hinit := ih hdiv
    rw [ofHexPlaces?] at hinit ⊢
    rw [hexPlaces, List.foldlM_append, hinit]
    simp only [Option.bind_eq_bind, Option.bind_some, List.foldlM_cons, List.foldlM_nil, hlast,
      Option.map_some, Option.pure_def]
    rw [Option.some.injEq]
    omega

/-- A word read back is the word that was written. -/
@[simp] theorem ofHexWord?_hexWord (w : UInt64) : ofHexWord? (hexWord w) = some w := by
  have hw : w.toNat < 16 ^ 16 := w.toNat_lt
  rw [ofHexWord?, hexWord, if_pos (length_hexPlaces _ _), ofHexPlaces?_hexPlaces hw]
  simp

/-! ## Padded decimals -/

/-- A padded number is its digits after zeros. -/
theorem toList_padded (width n : Nat) :
    (padded width n).toList
      = List.replicate (width - (Nat.toDigits 10 n).length) '0' ++ Nat.toDigits 10 n := by
  simp [padded, padLeft, ← String.length_toList]

/-- Every character of it is a digit, -/
theorem isDigit_of_mem_padded {width n : Nat} {c : Char} (h : c ∈ (padded width n).toList) :
    c.isDigit = true := by
  rw [toList_padded, List.mem_append] at h
  rcases h with h | h
  · rw [List.eq_of_mem_replicate h]; rfl
  · exact Nat.isDigit_of_mem_toDigits (b := 10) (by decide) (by decide) h

/-- A padded decimal read back is the number that was written. -/
theorem ofDigits_padded (width n : Nat) : Number.ofDigits (padded width n).toList = n := by
  have hfold : ∀ cs : List Char, Number.ofDigits cs = Nat.ofDigitChars 10 cs 0 := by
    intro cs
    rw [Nat.ofDigitChars_eq_foldl, Number.ofDigits]
    simp only [Nat.mul_comm]
  rw [hfold, toList_padded, Nat.ofDigitChars_append, Nat.ofDigitChars_replicate_zero, Nat.mul_zero,
    Nat.ofDigitChars_ten_toDigits]

/-- A number with no more digits than the width is written in exactly that width. -/
theorem length_padded {width n : Nat} (hw : 0 < width) (h : n < 10 ^ width) :
    (padded width n).toList.length = width := by
  have hlen : (Nat.toDigits 10 n).length ≤ width := (Nat.length_toDigits_le_iff (by decide) hw).2 h
  rw [toList_padded, List.length_append, List.length_replicate]
  omega

/-- and there is at least one. -/
theorem padded_ne_nil (width n : Nat) : (padded width n).toList ≠ [] := by
  rw [toList_padded]
  have := Nat.toDigits_ne_nil (b := 10) (n := n)
  simp [this]

end DailyBars.Text
