import Mathlib.Data.List.TakeWhile
import Mathlib.Data.String.Basic
import DailyBars.Instrument.Exchange

/-! # Well-formed codes

A ticker or an exchange code passes its check exactly when it has some characters, not too many, and
none but those that are allowed. A text is split at the last occurrence of a mark in one way.
-/

namespace DailyBars

namespace Text

/-- There are no more characters than bytes, -/
theorem length_le_utf8Len (cs : List Char) : cs.length ≤ String.utf8Len cs := by
  induction cs with
  | nil => exact Nat.le_refl 0
  | cons c cs ih =>
    have hsize : 0 < c.utf8Size := c.utf8Size_pos
    rw [List.length_cons, String.utf8Len_cons]
    omega

/-- in a text as well. -/
theorem length_le_utf8ByteSize (s : String) : s.length ≤ s.utf8ByteSize := by
  rw [← String.length_toList, ← String.utf8Len_toList]
  exact length_le_utf8Len s.toList

end Text

/-! ## Checks -/

namespace CodeKind

variable {kind : CodeKind} {code : String}

/-- A code of this kind. -/
structure WellFormed (kind : CodeKind) (code : String) : Prop where
  nonempty : code ≠ ""
  /-- In bytes. -/
  short : code.utf8ByteSize ≤ kind.maxLength
  allowed : ∀ c ∈ code.toList, kind.allows c = true

/-- A code that passes the check is well formed, -/
theorem wellFormed_of_check (h : kind.check code = .ok ()) : kind.WellFormed code := by
  rw [check] at h
  split at h
  · cases h
  next hempty =>
    split at h
    · cases h
    next hsize =>
      split at h
      · cases h
      next hnone =>
        exact ⟨by simpa using hempty, Nat.not_lt.1 hsize, by simpa using hnone⟩

/-- and a well-formed one passes, -/
theorem check_of_wellFormed (h : kind.WellFormed code) : kind.check code = .ok () := by
  have hempty : ¬ code.isEmpty = true := by simpa using h.nonempty
  have hnone : (code.toList.find? fun c => !kind.allows c) = none := by simpa using h.allowed
  rw [check, if_neg hempty, if_neg (Nat.not_lt.2 h.short), hnone]

/-- so the check decides which codes are well formed. -/
theorem check_eq_ok_iff : kind.check code = .ok () ↔ kind.WellFormed code :=
  ⟨wellFormed_of_check, check_of_wellFormed⟩

/-- A malformed code has a fault. -/
theorem exists_fault (h : ¬ kind.WellFormed code) : ∃ fault, kind.check code = .error fault := by
  cases hcheck : kind.check code with
  | ok u => exact absurd (wellFormed_of_check hcheck) h
  | error fault => exact ⟨fault, rfl⟩

end CodeKind

namespace Exchange

/-- One to eight ASCII letters and digits. -/
structure IsCode (code : String) : Prop where
  nonempty : 1 ≤ code.length
  short : code.length ≤ 8
  alphanumeric : ∀ c ∈ code.toList, Text.isAlphanumeric c = true

/-- No character takes less than a byte. -/
theorem isCode_of_wellFormed {code : String} (h : CodeKind.exchange.WellFormed code) :
    IsCode code where
  nonempty := by
    have hne : code.length ≠ 0 := by simpa using h.nonempty
    exact Nat.one_le_iff_ne_zero.2 hne
  short := Nat.le_trans (Text.length_le_utf8ByteSize code) h.short
  alphanumeric := h.allowed

end Exchange

/-! ## Splitting a text -/

namespace Ticker

variable {mark : Char} {cs before after : List Char}

/-- What is not in a list is not in its reverse. -/
theorem all_ne_reverse (h : mark ∉ cs) : ∀ c ∈ cs.reverse, (c != mark) = true := by
  intro c hc
  rw [bne_iff_ne]
  rintro rfl
  exact h (List.mem_reverse.1 hc)

/-- A list is split at its last mark, -/
theorem splitLast_append (before : List Char) (h : mark ∉ after) :
    splitLast mark (before ++ mark :: after) = some (before, after) := by
  have hreverse : (before ++ mark :: after).reverse = after.reverse ++ mark :: before.reverse := by
    simp
  rw [splitLast, hreverse, List.takeWhile_append_of_pos (all_ne_reverse h),
    List.dropWhile_append_of_pos (all_ne_reverse h)]
  simp

/-- and not at all without a mark, -/
theorem splitLast_of_notMem (h : mark ∉ cs) : splitLast mark cs = none := by
  rw [splitLast, List.dropWhile_eq_nil_iff.2 (all_ne_reverse h)]

/-- A text with the mark has a last one. -/
theorem exists_last (h : mark ∈ cs) :
    ∃ before after, cs = before ++ mark :: after ∧ mark ∉ after := by
  obtain ⟨after, before, hsplit, hnone⟩ := List.eq_append_cons_of_mem (List.mem_reverse.2 h)
  refine ⟨before.reverse, after.reverse, ?_, fun hmem => hnone (List.mem_reverse.1 hmem)⟩
  rw [← List.reverse_reverse cs, hsplit]
  simp

/-- which are the only ways to split it. -/
theorem splitLast_eq_some_iff :
    splitLast mark cs = some (before, after) ↔ cs = before ++ mark :: after ∧ mark ∉ after := by
  constructor
  · intro h
    by_cases hmem : mark ∈ cs
    · obtain ⟨before', after', rfl, hlast⟩ := exists_last hmem
      rw [splitLast_append before' hlast] at h
      cases h
      exact ⟨rfl, hlast⟩
    · rw [splitLast_of_notMem hmem] at h
      cases h
  · rintro ⟨rfl, hlast⟩
    exact splitLast_append before hlast

end Ticker
end DailyBars
