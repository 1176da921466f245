import Mathlib
import DailyBars.Text.Basic

/-! # Spellings of one text

Texts that differ in the case of their letters, or in the white space around them, are brought to
one form by folding and trimming. Doing either twice changes nothing more, and it does not matter
which comes first.
-/

namespace DailyBars.Text

/-- The letters are those from A to Z and from a to z. -/
theorem toNat_of_isAlpha {c : Char} (h : c.isAlpha = true) :
    65 ≤ c.toNat ∧ c.toNat ≤ 90 ∨ 97 ≤ c.toNat ∧ c.toNat ≤ 122 := by
  simp only [Char.isAlpha, Char.isUpper, Char.isLower, Bool.or_eq_true, Bool.and_eq_true,
    decide_eq_true_eq, ge_iff_le, UInt32.le_iff_toNat_le] at h
  exact h

/-- Nothing but a letter has another case. -/
theorem toUpper_of_isAlpha_eq_false {c : Char} (h : c.isAlpha = false) : c.toUpper = c := by
  refine Char.toUpper_eq_of_not_isLower fun hlower => ?_
  rw [Char.isAlpha, hlower, Bool.or_true] at h
  cases h

/-- Only a letter changes in upper case. -/
theorem eq_of_toUpper_eq {c d : Char} (h : c.toUpper = d) (hd : d.isAlpha = false) : c = d := by
  rw [← h, Char.isAlpha_toUpper_eq_isAlpha] at hd
  rwa [toUpper_of_isAlpha_eq_false hd] at h

/-- A letter is not blank, -/
theorem isBlank_of_isAlpha {c : Char} (h : c.isAlpha = true) : isBlank c = false := by
  have hcode := toNat_of_isAlpha h
  rw [isBlank]
  simp only [Bool.or_eq_false_iff, Bool.and_eq_false_iff, decide_eq_false_iff_not,
    beq_eq_false_iff_ne]
  omega

/-- and neither is a digit. -/
theorem isBlank_of_isAlphanumeric {c : Char} (h : isAlphanumeric c = true) : isBlank c = false := by
  rw [isAlphanumeric, Bool.or_eq_true] at h
  rcases h with halpha | hdigit
  · exact isBlank_of_isAlpha halpha
  · have hcode : 48 ≤ c.toNat ∧ c.toNat ≤ 57 := by
      simp only [Char.isDigit, Bool.and_eq_true, decide_eq_true_eq, ge_iff_le,
        UInt32.le_iff_toNat_le] at hdigit
      exact hdigit
    rw [isBlank]
    simp only [Bool.or_eq_false_iff, Bool.and_eq_false_iff, decide_eq_false_iff_not,
      beq_eq_false_iff_ne]
    omega

/-- Letters stay letters and all else stays itself, so what is blank stays so. -/
theorem isBlank_toUpper (c : Char) : isBlank c.toUpper = isBlank c := by
  cases halpha : c.isAlpha with
  | true =>
    rw [isBlank_of_isAlpha halpha, isBlank_of_isAlpha (by rwa [Char.isAlpha_toUpper_eq_isAlpha])]
  | false => rw [toUpper_of_isAlpha_eq_false halpha]

/-- Dropping blanks commutes with upper case, -/
theorem dropWhile_isBlank_map_toUpper (cs : List Char) :
    (cs.map Char.toUpper).dropWhile isBlank = (cs.dropWhile isBlank).map Char.toUpper := by
  rw [List.dropWhile_map]
  congr 2
  funext c
  exact isBlank_toUpper c

/-- and so does trimming. -/
theorem trim_upper (s : String) : trim (upper s) = upper (trim s) := by
  unfold trim upper trimLeft trimRight
  simp only [String.toList_ofList, dropWhile_isBlank_map_toUpper, ← List.map_reverse]

/-- What was trimmed begins with no white space, and trimming its end leaves that so. -/
theorem trim_trim (s : String) : trim (trim s) = trim s := by
  unfold trim
  rw [String.toList_ofList]
  have hleft : ∀ cs : List Char, trimLeft (trimRight (trimLeft cs)) = trimRight (trimLeft cs) := by
    intro cs
    obtain ⟨rest, hrest⟩ : trimRight (trimLeft cs) <+: trimLeft cs := by
      rw [← List.reverse_suffix, trimRight, List.reverse_reverse]
      exact List.dropWhile_suffix _
    have hhead := List.head?_dropWhile_not isBlank cs
    rw [← trimLeft, ← hrest] at hhead
    cases htrimmed : trimRight (trimLeft cs) with
    | nil => rfl
    | cons c tail =>
      rw [htrimmed, List.cons_append, List.head?_cons] at hhead
      exact List.dropWhile_cons_of_neg (Bool.eq_false_iff.1 hhead)
  have hright : ∀ cs : List Char, trimRight (trimRight cs) = trimRight cs := by
    intro cs
    simp only [trimRight, List.reverse_reverse, List.dropWhile_idempotent]
  rw [hleft, hright]

/-- The upper case of a text is that of its characters. -/
theorem toList_upper (s : String) : (upper s).toList = s.toList.map Char.toUpper := by
  rw [upper, String.toList_ofList]

/-- A text is empty just if its upper case is. -/
theorem isEmpty_upper (s : String) : (upper s).isEmpty = s.isEmpty := by
  rw [Bool.eq_iff_iff, String.isEmpty_iff, String.isEmpty_iff, ← String.toList_eq_nil_iff,
    ← String.toList_eq_nil_iff, toList_upper, List.map_eq_nil_iff]

/-- Letters take one byte in either case. -/
theorem utf8Size_toUpper (c : Char) : c.toUpper.utf8Size = c.utf8Size := by
  cases halpha : c.isAlpha with
  | true =>
    have hsize : ∀ d : Char, d.isAlpha = true → d.utf8Size = 1 := by
      intro d hd
      have hcode := toNat_of_isAlpha hd
      rw [Char.utf8Size_eq_one_iff, UInt32.le_iff_toNat_le]
      show d.toNat ≤ 127
      omega
    rw [hsize c halpha, hsize _ (by rwa [Char.isAlpha_toUpper_eq_isAlpha])]
  | false => rw [toUpper_of_isAlpha_eq_false halpha]

/-- Upper case does not change the size in bytes. -/
theorem utf8ByteSize_upper (s : String) : (upper s).utf8ByteSize = s.utf8ByteSize := by
  rw [← String.utf8Len_toList, ← String.utf8Len_toList, toList_upper]
  induction s.toList with
  | nil => rfl
  | cons c cs ih =>
    rw [List.map_cons, String.utf8Len_cons, String.utf8Len_cons, ih, utf8Size_toUpper]

/-- Where nothing is blank, nothing is dropped, -/
theorem dropWhile_isBlank_eq_self {cs : List Char} (h : ∀ c ∈ cs, isBlank c = false) :
    cs.dropWhile isBlank = cs := by
  cases cs with
  | nil => rfl
  | cons c rest =>
    exact List.dropWhile_cons_of_neg (Bool.eq_false_iff.1 (h c List.mem_cons_self))

/-- and nothing trimmed. -/
theorem trim_eq_self {s : String} (h : ∀ c ∈ s.toList, isBlank c = false) : trim s = s := by
  have hreverse : ∀ c ∈ s.toList.reverse, isBlank c = false :=
    fun c hc => h c (List.mem_reverse.1 hc)
  rw [trim, trimLeft, dropWhile_isBlank_eq_self h, trimRight, dropWhile_isBlank_eq_self hreverse,
    List.reverse_reverse, String.ofList_toList]

/-- Upper case twice is upper case once. -/
theorem upper_upper (s : String) : upper (upper s) = upper s := by
  simp only [upper, String.toList_ofList, List.map_map, Function.comp_def,
    Char.toUpper_toUpper_eq_toUpper]

/-- Two texts have the same letters just if they agree in upper case. -/
theorem sameLetters_iff {s t : String} : sameLetters s t = true ↔ upper s = upper t := by
  rw [sameLetters, beq_iff_eq, ← toList_upper, ← toList_upper, String.toList_inj]

/-- The case of the first text does not matter. -/
theorem sameLetters_upper (s t : String) : sameLetters (upper s) t = sameLetters s t := by
  simp only [sameLetters, upper, String.toList_ofList, List.map_map, Function.comp_def,
    Char.toUpper_toUpper_eq_toUpper]

/-- A text in upper case has no small letter. -/
theorem upper_ne_of_isLower {s t : String} {c : Char} (hc : c ∈ t.toList)
    (hlower : c.isLower = true) : upper s ≠ t := by
  rintro rfl
  rw [upper, String.toList_ofList, List.mem_map] at hc
  obtain ⟨d, -, rfl⟩ := hc
  rw [Char.isLower_toUpper_eq_false] at hlower
  cases hlower

end DailyBars.Text
