import DailyBars.Json.Reader
import DailyBars.Json.Writer

/-! # Plain texts in JSON

A text without quotation marks, backslashes and control characters is written as it stands
between quotation marks, and scanning it gives one token.
-/

namespace DailyBars.Json

/-- Nothing in the text has to be escaped. -/
def Plain (s : String) : Prop := ∀ c ∈ s.toList, c ≠ '"' ∧ c ≠ '\\' ∧ 0x20 ≤ c.toNat

instance (s : String) : Decidable (Plain s) :=
  decidable_of_iff (s.toList.all fun c => decide (c ≠ '"' ∧ c ≠ '\\' ∧ 0x20 ≤ c.toNat))
    (by simp only [Plain, List.all_eq_true, decide_eq_true_eq])

/-- Plain texts may be joined. -/
theorem Plain.append {s t : String} (hs : Plain s) (ht : Plain t) : Plain (s ++ t) := by
  intro c hc
  rw [String.toList_append, List.mem_append] at hc
  exact hc.elim (hs c) (ht c)

/-- A plain character is written as it is, -/
theorem escape_of_plain {c : Char} (h : c ≠ '"' ∧ c ≠ '\\' ∧ 0x20 ≤ c.toNat) : escape c = [c] := by
  obtain ⟨hquote, hbackslash, hcontrol⟩ := h
  have hne : ∀ d : Char, d.toNat < 0x20 → c ≠ d := by
    rintro d hd rfl
    omega
  rw [escape, if_neg hquote, if_neg hbackslash, if_neg (hne _ (by decide)),
    if_neg (hne _ (by decide)), if_neg (hne _ (by decide)), if_neg (hne _ (by decide)),
    if_neg (hne _ (by decide)), if_neg (by omega)]

/-- and a plain text between quotes. -/
theorem toList_writeText {s : String} (h : Plain s) :
    (writeText s).toList = '"' :: (s.toList ++ ['"']) := by
  have hescape : ∀ cs : List Char, (∀ c ∈ cs, c ≠ '"' ∧ c ≠ '\\' ∧ 0x20 ≤ c.toNat) →
      cs.flatMap escape = cs := by
    intro cs hcs
    induction cs with
    | nil => rfl
    | cons c cs ih =>
      rw [List.flatMap_cons, escape_of_plain (hcs c (by simp)), ih fun d hd => hcs d (by simp [hd])]
      rfl
  rw [writeText, hescape _ h, String.toList_ofList]
  rfl

/-- No character is a surrogate, so nothing is left to pair. -/
theorem pairSurrogates_toNat (cs : List Char) : pairSurrogates (cs.map Char.toNat) = some cs := by
  induction cs with
  | nil => rfl
  | cons c cs ih =>
    have hvalid : c.toNat < 0xD800 ∨ 0xDFFF < c.toNat ∧ c.toNat < 0x110000 := c.valid
    have hlead : ¬ (0xD800 ≤ c.toNat ∧ c.toNat < 0xDC00) := by omega
    have htrail : ¬ (0xDC00 ≤ c.toNat ∧ c.toNat < 0xE000) := by omega
    rw [List.map_cons, pairSurrogates.eq_def]
    simp only [if_neg hlead, if_neg htrail, ih, Option.map_some, Char.ofNat_toNat]

/-- The characters of a plain text are all taken into it. -/
theorem foldlM_step_text {cs : List Char} (h : ∀ c ∈ cs, c ≠ '"' ∧ c ≠ '\\' ∧ 0x20 ≤ c.toNat)
    (tokens : List Token) (codes : List Nat) (rest : List Char) :
    (cs ++ rest).foldlM Scan.step ⟨tokens, .text codes⟩
      = rest.foldlM Scan.step ⟨tokens, .text ((cs.map Char.toNat).reverse ++ codes)⟩ := by
  induction cs generalizing codes with
  | nil => rfl
  | cons c cs ih =>
    obtain ⟨hquote, hbackslash, hcontrol⟩ := h c (by simp)
    have hstep : Scan.step ⟨tokens, .text codes⟩ c = some ⟨tokens, .text (c.toNat :: codes)⟩ := by
      have hlow : ¬ c.toNat < 0x20 := by omega
      simp [Scan.step, hquote, hbackslash, hlow]
    rw [List.cons_append, List.foldlM_cons, hstep]
    simp only [Option.bind_eq_bind, Option.bind_some]
    rw [ih fun d hd => h d (by simp [hd])]
    simp

/-- A written plain text is one token. -/
theorem foldlM_step_writeText {s : String} (h : Plain s) (tokens : List Token) (rest : List Char) :
    ((writeText s).toList ++ rest).foldlM Scan.step ⟨tokens, .nothing⟩
      = rest.foldlM Scan.step ⟨.text (some s) :: tokens, .nothing⟩ := by
  have hopen : Scan.step ⟨tokens, .nothing⟩ '"' = some ⟨tokens, .text []⟩ := rfl
  -- the codes were collected in reverse
  have hclose : Scan.step ⟨tokens, .text (s.toList.map Char.toNat).reverse⟩ '"'
      = some ⟨.text (some s) :: tokens, .nothing⟩ := by
    simp [Scan.step, pairSurrogates_toNat]
  rw [toList_writeText h, List.cons_append, List.foldlM_cons, hopen, List.append_assoc]
  simp only [Option.bind_eq_bind, Option.bind_some]
  rw [foldlM_step_text h, List.append_nil, List.singleton_append, List.foldlM_cons, hclose]
  rfl

end DailyBars.Json
