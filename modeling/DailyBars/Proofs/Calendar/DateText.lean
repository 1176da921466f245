import DailyBars.Calendar.Pattern
import DailyBars.Proofs.Calendar.Civil
import DailyBars.Proofs.Text.Numerals

/-! # Dates read back

A written date is taken apart again by the pattern of a year, a month and a day: every part ends
where the next character is no digit.
-/

namespace DailyBars.DatePattern

/-- No digit comes first. -/
def NoDigitFirst (cs : List Char) : Prop := ∀ c rest, cs = c :: rest → c.isDigit = false

/-- No digit comes first in nothing, -/
theorem noDigitFirst_nil : NoDigitFirst [] := fun _ _ h => by cases h

/-- nor behind another character. -/
theorem noDigitFirst_cons {c : Char} (h : c.isDigit = false) (rest : List Char) :
    NoDigitFirst (c :: rest) := fun _ _ heq => by
  cases heq
  exact h

/-- A number is taken up to the first character that is no digit. -/
theorem takeNumber?_append {most : Nat} {digits rest : List Char}
    (hdigits : ∀ c ∈ digits, c.isDigit = true) (hne : digits ≠ []) (hmost : digits.length ≤ most)
    (hrest : NoDigitFirst rest) :
    takeNumber? most (digits ++ rest) = some (Number.ofDigits digits, rest) := by
  -- what is left of the limit takes nothing more
  have hstop : (rest.take (most - digits.length)).takeWhile Char.isDigit = [] := by
    cases rest with
    | nil => simp
    | cons c rest =>
      cases most - digits.length with
      | zero => rfl
      | succ n => simp [hrest c rest rfl]
  have htake : ((digits ++ rest).take most).takeWhile Char.isDigit = digits := by
    rw [List.take_append, List.take_of_length_le hmost, List.takeWhile_append_of_pos hdigits, hstop,
      List.append_nil]
  have hempty : digits.isEmpty = false := by simpa using hne
  rw [takeNumber?]
  simp only [htake, hempty, List.drop_left, Bool.false_eq_true, if_false]

/-- A digit is not blank. -/
theorem isBlank_of_isDigit {c : Char} (h : c.isDigit = true) : Text.isBlank c = false := by
  have hrange : 48 ≤ c.toNat ∧ c.toNat ≤ 57 := Char.isDigit_iff_toNat.1 h
  simp only [Text.isBlank, Bool.or_eq_false_iff, Bool.and_eq_false_iff, decide_eq_false_iff_not,
    beq_eq_false_iff_ne]
  omega

/-- There is nothing to trim before digits. -/
theorem trimLeft_append {digits rest : List Char} (hdigits : ∀ c ∈ digits, c.isDigit = true)
    (hne : digits ≠ []) : Text.trimLeft (digits ++ rest) = digits ++ rest := by
  cases digits with
  | nil => exact absurd rfl hne
  | cons c digits =>
    have hblank := isBlank_of_isDigit (hdigits c (by simp))
    simp [Text.trimLeft, hblank]

/-- A padded number is taken as far as it goes. -/
theorem takeNumber?_padded {most width n : Nat} {rest : List Char}
    (hmost : (Text.padded width n).toList.length ≤ most) (hrest : NoDigitFirst rest) :
    takeNumber? most ((Text.padded width n).toList ++ rest) = some (n, rest) := by
  rw [takeNumber?_append (fun c hc => Text.isDigit_of_mem_padded hc) (Text.padded_ne_nil _ _) hmost
    hrest, Text.ofDigits_padded]

/-- A year without a sign has at most four digits. -/
theorem takeYear?_of_isDigit {c : Char} (h : c.isDigit = true) (cs : List Char) :
    takeYear? (c :: cs) = (takeNumber? 4 (c :: cs)).map fun (n, rest) => ((n : Int), rest) := by
  rw [takeYear?.eq_def]
  split
  next heq =>
    cases heq
    exact absurd h (by decide)
  next heq =>
    cases heq
    exact absurd h (by decide)
  next => rfl

/-- A written year is taken back, with its sign. -/
theorem takeYear?_yearText (year : Int) {rest : List Char} (hrest : NoDigitFirst rest) :
    takeYear? (Text.trimLeft ((Day.yearText year).toList ++ rest)) = some (year, rest) := by
  rw [Day.yearText]
  split
  -- four digits, without a sign
  next hshort =>
    have hdigits : ∀ c ∈ (Text.padded 4 year.toNat).toList, c.isDigit = true :=
      fun c hc => Text.isDigit_of_mem_padded hc
    have hlen : (Text.padded 4 year.toNat).toList.length = 4 :=
      Text.length_padded (by decide) (by omega)
    have htake : takeNumber? 4 ((Text.padded 4 year.toNat).toList ++ rest)
        = some (year.toNat, rest) := takeNumber?_padded (by omega) hrest
    have hback : (year.toNat : Int) = year := by omega
    rw [trimLeft_append hdigits (Text.padded_ne_nil _ _)]
    cases hcs : (Text.padded 4 year.toNat).toList with
    | nil => exact absurd hcs (Text.padded_ne_nil _ _)
    | cons c cs =>
      rw [hcs] at hdigits htake
      rw [List.cons_append] at htake ⊢
      rw [takeYear?_of_isDigit (hdigits c (by simp)), htake]
      simp only [Option.map_some, hback]
  -- a longer year has a sign, and all of its digits are taken
  next hlong =>
    have htake : takeNumber? ((Text.padded 4 year.natAbs).toList ++ rest).length
        ((Text.padded 4 year.natAbs).toList ++ rest) = some (year.natAbs, rest) :=
      takeNumber?_padded (by rw [List.length_append]; omega) hrest
    split
    next hneg =>
      have hback : -(year.natAbs : Int) = year := by omega
      have htext : ("-" ++ Text.padded 4 year.natAbs).toList ++ rest
          = '-' :: ((Text.padded 4 year.natAbs).toList ++ rest) := by simp
      have htrim : ∀ cs, Text.trimLeft ('-' :: cs) = '-' :: cs := fun _ => rfl
      rw [htext, htrim, takeYear?, htake]
      simp only [Option.map_some, hback]
    next hpos =>
      have hback : (year.natAbs : Int) = year := by omega
      have htext : ("+" ++ Text.padded 4 year.natAbs).toList ++ rest
          = '+' :: ((Text.padded 4 year.natAbs).toList ++ rest) := by simp
      have htrim : ∀ cs, Text.trimLeft ('+' :: cs) = '+' :: cs := fun _ => rfl
      rw [htext, htrim, takeYear?, htake]
      simp only [Option.map_some, hback]

/-- Two padded digits are read back. -/
theorem takeNumber?_two {n : Nat} (hn : n < 100) {rest : List Char} (hrest : NoDigitFirst rest) :
    takeNumber? 2 (Text.trimLeft ((Text.padded 2 n).toList ++ rest)) = some (n, rest) := by
  have hlen : (Text.padded 2 n).toList.length = 2 := Text.length_padded (by decide) hn
  rw [trimLeft_append (fun c hc => Text.isDigit_of_mem_padded hc) (Text.padded_ne_nil _ _),
    takeNumber?_padded (by omega) hrest]

/-- A written day is read back. -/
theorem parse?_text {d : Day} (h : d.InCalendar) : spacedHyphenated.parse? d.text = some d := by
  obtain ⟨⟨hm0, hm1⟩, ⟨hd0, hd1⟩, -⟩ := Day.toCivil_spec d
  have hmonth : d.toCivil.month < 100 := by omega
  have hday : d.toCivil.day < 100 := by
    have hlast := Day.daysInMonth_le d.toCivil.year d.toCivil.month
    omega
  have htext : d.text.toList = (Day.yearText d.toCivil.year).toList
      ++ '-' :: ((Text.padded 2 d.toCivil.month).toList
        ++ '-' :: ((Text.padded 2 d.toCivil.day).toList ++ [])) := by
    simp [Day.text]
  have hhyphen : ∀ cs, NoDigitFirst ('-' :: cs) := noDigitFirst_cons (by decide)
  have htrim : ∀ cs, Text.trimLeft ('-' :: cs) = '-' :: cs := fun _ => rfl
  have htrim' : Text.trimLeft [] = [] := rfl
  have hcivil := Day.ofCivil?_toCivil h
  rw [parse?, htext]
  simp only [spacedHyphenated, List.foldlM_cons, List.foldlM_nil, take?,
    takeYear?_yearText _ (hhyphen _), takeNumber?_two hmonth (hhyphen _),
    takeNumber?_two hday noDigitFirst_nil, htrim, htrim', Option.map_some, Option.bind_eq_bind,
    Option.bind_some, if_true, Option.pure_def, List.isEmpty_nil, Found.toDay?]
  show (Day.ofCivil? d.toCivil).bind some = some d
  rw [hcivil, Option.bind_some]

/-- Whatever a pattern reads is a day of the calendar. -/
theorem inCalendar_of_parse? {pattern : DatePattern} {text : String} {d : Day}
    (h : pattern.parse? text = some d) : d.InCalendar := by
  simp only [parse?, Option.bind_eq_bind, Option.bind_eq_some_iff] at h
  obtain ⟨⟨found, rest⟩, -, hfound⟩ := h
  split at hfound
  · simp only [Found.toDay?, Option.bind_eq_bind, Option.bind_eq_some_iff] at hfound
    obtain ⟨year, -, month, -, day, -, named, hnamed, hweekday⟩ := hfound
    have hd : named = d := by
      split at hweekday
      · split at hweekday
        · exact Option.some.inj hweekday
        · cases hweekday
      · exact Option.some.inj hweekday
    exact hd ▸ Day.inCalendar_of_ofCivil? hnamed
  · cases hfound

end DailyBars.DatePattern
