import DailyBars.Instrument.Resolution
import DailyBars.Proofs.Instrument.Codes
import DailyBars.Proofs.Text.Letters

/-! # Tickers with a suffix

A ticker is read with its suffix if that is the code of a known exchange and something comes before
it, and as a whole otherwise. The case of its letters makes no difference, neither to what is read
nor to the fault that is found.
-/

namespace DailyBars

/-! ## Case of letters -/

namespace CodeKind

variable {kind : CodeKind} {code : String}

/-- Letters are allowed in every kind of code. -/
theorem allows_of_isAlpha {c : Char} (h : c.isAlpha = true) : kind.allows c = true := by
  cases kind with
  | ticker => simp [allows, Text.isAlphanumeric, h]
  | exchange => simp [allows, Text.isAlphanumeric, h]

/-- No white space is allowed. -/
theorem isBlank_of_allows {c : Char} (h : kind.allows c = true) : Text.isBlank c = false := by
  cases kind with
  | ticker =>
    rw [allows, Bool.or_eq_true] at h
    rcases h with halphanumeric | hmark
    · exact Text.isBlank_of_isAlphanumeric halphanumeric
    · simp only [decide_eq_true_eq, List.mem_cons, List.not_mem_nil, or_false] at hmark
      rcases hmark with rfl | rfl | rfl | rfl | rfl | rfl | rfl <;> decide
  | exchange => exact Text.isBlank_of_isAlphanumeric h

/-- There is nothing to trim from a well-formed code. -/
theorem trim_of_wellFormed (h : kind.WellFormed code) : Text.trim code = code :=
  Text.trim_eq_self fun c hc => isBlank_of_allows (h.allowed c hc)

/-- Whether a character is allowed does not depend on its case, -/
theorem allows_toUpper (c : Char) : kind.allows c.toUpper = kind.allows c := by
  cases halpha : c.isAlpha with
  | true =>
    rw [allows_of_isAlpha halpha, allows_of_isAlpha (by rwa [Char.isAlpha_toUpper_eq_isAlpha])]
  | false => rw [Text.toUpper_of_isAlpha_eq_false halpha]

/-- A character that is not allowed is no letter, so the same fault is found in either case. -/
theorem check_upper (kind : CodeKind) (code : String) :
    kind.check (Text.upper code) = kind.check code := by
  have hfind : ((Text.upper code).toList.find? fun c => !kind.allows c)
      = code.toList.find? fun c => !kind.allows c := by
    rw [Text.toList_upper, List.find?_map]
    simp only [Function.comp_def, allows_toUpper]
    cases hfound : code.toList.find? fun c => !kind.allows c with
    | none => rfl
    | some c =>
      have hrefused := List.find?_some hfound
      have halpha : c.isAlpha = false := by
        by_contra hletter
        rw [allows_of_isAlpha (by simpa using hletter)] at hrefused
        cases hrefused
      rw [Option.map_some, Text.toUpper_of_isAlpha_eq_false halpha]
  rw [check, check, Text.isEmpty_upper, Text.utf8ByteSize_upper, hfind]

/-- and neither does whether a code is well formed. -/
theorem wellFormed_upper : kind.WellFormed (Text.upper code) ↔ kind.WellFormed code := by
  rw [← check_eq_ok_iff, check_upper, check_eq_ok_iff]

end CodeKind

namespace Exchange

/-- An exchange is known just if it is spelled like a listed one, -/
theorem isKnown_iff {code : String} :
    isKnown code = true ↔ ∃ e ∈ all, Text.upper e.code = Text.upper code := by
  simp only [isKnown, find?, List.find?_isSome, Text.sameLetters_iff]

/-- in any case. -/
theorem isKnown_congr {code other : String} (h : Text.upper code = Text.upper other) :
    isKnown code = isKnown other := by
  rw [Bool.eq_iff_iff, isKnown_iff, isKnown_iff, h]

/-- Known exchanges are well formed. -/
theorem wellFormed_of_isKnown {code : String} (h : isKnown code = true) :
    CodeKind.exchange.WellFormed code := by
  have hall : ∀ e ∈ all, CodeKind.exchange.check (Text.upper e.code) = .ok () := by
    decide
  obtain ⟨e, he, heq⟩ := isKnown_iff.1 h
  rw [← CodeKind.wellFormed_upper, ← heq]
  exact CodeKind.wellFormed_of_check (hall e he)

end Exchange

/-! ## Suffixes -/

namespace Ticker

/-- The text after the last dot of a ticker is the code of a known exchange, and something comes
before that dot. -/
structure HasSuffix (ticker base suffix : String) : Prop where
  split : ticker = base ++ "." ++ suffix
  last : '.' ∉ suffix.toList
  base_ne : base ≠ ""
  known : Exchange.isKnown suffix = true

/-- The symbol and the exchange that a ticker names: what comes before its suffix and that suffix,
or else the whole ticker and no exchange. -/
inductive Reads (ticker : String) : String → Option String → Prop
  | suffixed {base suffix : String} (h : HasSuffix ticker base suffix) :
    Reads ticker (Text.upper base) (some (Text.upper suffix))
  | bare (h : ∀ base suffix, ¬ HasSuffix ticker base suffix) : Reads ticker (Text.upper ticker) none

variable {ticker base suffix : String}

/-- A ticker with a suffix is split at it. -/
theorem HasSuffix.splitSuffix (h : HasSuffix ticker base suffix) :
    splitSuffix ticker = (base, some suffix) := by
  have hchars : ticker.toList = base.toList ++ '.' :: suffix.toList := by
    rw [h.split]
    simp
  have hbase : base.toList.isEmpty = false := by simpa using h.base_ne
  have hsuffix : suffix.toList.isEmpty = false := by
    simpa using (Exchange.wellFormed_of_isKnown h.known).nonempty
  rw [Ticker.splitSuffix, hchars, splitLast_append base.toList h.last]
  simp only [hbase, hsuffix, Bool.or_self, Bool.false_eq_true, if_false, String.ofList_toList]

/-- A ticker that is split has a suffix if that is known. -/
theorem hasSuffix_of_splitSuffix (h : splitSuffix ticker = (base, some suffix))
    (hknown : Exchange.isKnown suffix = true) : HasSuffix ticker base suffix := by
  rw [Ticker.splitSuffix] at h
  split at h
  next before after hsplit =>
    obtain ⟨hchars, hlast⟩ := splitLast_eq_some_iff.1 hsplit
    split at h
    · cases h
    next hempty =>
      cases h
      refine ⟨?_, by rwa [String.toList_ofList], ?_, hknown⟩
      · rw [← String.toList_inj, hchars]
        simp
      · rintro hnil
        have hbefore : before = [] := by simpa using congrArg String.toList hnil
        exact hempty (by simp [hbefore])
  · cases h

/-- A ticker is read as it is split. -/
theorem reads_splitKnownSuffix (ticker : String) :
    Reads ticker (Instrument.splitKnownSuffix ticker).1 (Instrument.splitKnownSuffix ticker).2 := by
  by_cases hsuffix : ∃ base suffix, HasSuffix ticker base suffix
  · obtain ⟨base, suffix, h⟩ := hsuffix
    rw [Instrument.splitKnownSuffix, h.splitSuffix]
    simp only [h.known, if_true]
    exact .suffixed h
  · have hnone : ∀ base suffix, ¬ HasSuffix ticker base suffix :=
      fun base suffix h => hsuffix ⟨base, suffix, h⟩
    rw [Instrument.splitKnownSuffix]
    split
    next base suffix hsplit =>
      rw [if_neg fun hknown => hnone base suffix (hasSuffix_of_splitSuffix hsplit hknown)]
      exact .bare hnone
    · exact .bare hnone

/-- A ticker is read in one way. -/
theorem Reads.unique {symbol symbol' : String} {exchange exchange' : Option String}
    (h : Reads ticker symbol exchange) (h' : Reads ticker symbol' exchange') :
    symbol = symbol' ∧ exchange = exchange' := by
  cases h with
  | suffixed h =>
    cases h' with
    | suffixed h' =>
      have heq := h.splitSuffix.symm.trans h'.splitSuffix
      cases heq
      exact ⟨rfl, rfl⟩
    | bare h' => exact absurd h (h' _ _)
  | bare h =>
    cases h' with
    | suffixed h' => exact absurd h' (h _ _)
    | bare h' => exact ⟨rfl, rfl⟩

/-- It is read in no other way. -/
theorem reads_iff {symbol : String} {exchange : Option String} :
    Reads ticker symbol exchange ↔ Instrument.splitKnownSuffix ticker = (symbol, exchange) := by
  constructor
  · intro h
    obtain ⟨hsymbol, hexchange⟩ := (reads_splitKnownSuffix ticker).unique h
    exact Prod.ext hsymbol hexchange
  · intro h
    have hreads := reads_splitKnownSuffix ticker
    rwa [h] at hreads

/-- A dot has no other case, so every spelling of a ticker is split at the same place. -/
theorem HasSuffix.respelled {other : String} (h : HasSuffix ticker base suffix)
    (hother : Text.upper other = Text.upper ticker) :
    ∃ base' suffix', HasSuffix other base' suffix' ∧ Text.upper base' = Text.upper base
      ∧ Text.upper suffix' = Text.upper suffix := by
  have hchars : other.toList.map Char.toUpper
      = base.toList.map Char.toUpper ++ '.' :: suffix.toList.map Char.toUpper := by
    rw [← Text.toList_upper, hother, h.split, Text.toList_upper]
    simp
  obtain ⟨before, rest, hsplit, hbefore, hrest⟩ := List.map_eq_append_iff.1 hchars
  obtain ⟨d, after, rfl, hd, hafter⟩ := List.map_eq_cons_iff.1 hrest
  have hdot : d = '.' := Text.eq_of_toUpper_eq hd (by decide)
  have hbase : Text.upper (String.ofList before) = Text.upper base := by
    rw [Text.upper, Text.upper, String.toList_ofList, hbefore]
  have hsuffix : Text.upper (String.ofList after) = Text.upper suffix := by
    rw [Text.upper, Text.upper, String.toList_ofList, hafter]
  refine ⟨String.ofList before, String.ofList after, ⟨?_, ?_, ?_, ?_⟩, hbase, hsuffix⟩
  · rw [← String.toList_inj, hsplit, hdot]
    simp
  · rw [String.toList_ofList]
    intro hmem
    have hupper : '.' ∈ after.map Char.toUpper := List.mem_map.2 ⟨'.', hmem, rfl⟩
    rw [hafter] at hupper
    obtain ⟨c, hc, hcdot⟩ := List.mem_map.1 hupper
    rw [Text.eq_of_toUpper_eq hcdot (by decide)] at hc
    exact h.last hc
  · intro hnil
    have hempty := Text.isEmpty_upper base
    rw [← hbase, hnil] at hempty
    exact h.base_ne (String.isEmpty_iff.1 hempty.symm)
  · rw [Exchange.isKnown_congr hsuffix]
    exact h.known

/-- A respelled ticker is read alike. -/
theorem Reads.respelled {other symbol : String} {exchange : Option String}
    (h : Reads ticker symbol exchange) (hother : Text.upper other = Text.upper ticker) :
    Reads other symbol exchange := by
  cases h with
  | suffixed h =>
    obtain ⟨base, suffix, h', hbase, hsuffix⟩ := h.respelled hother
    rw [← hbase, ← hsuffix]
    exact .suffixed h'
  | bare h =>
    rw [← hother]
    refine .bare fun base suffix h' => ?_
    obtain ⟨base', suffix', h'', -, -⟩ := h'.respelled hother.symm
    exact h base' suffix' h''

/-- The symbol is a ticker, and the exchange of a suffix is well formed. -/
theorem Reads.wellFormed {symbol : String} {exchange : Option String}
    (h : Reads ticker symbol exchange) (hticker : CodeKind.ticker.WellFormed ticker) :
    CodeKind.ticker.WellFormed symbol
      ∧ ∀ code ∈ exchange, CodeKind.exchange.WellFormed code := by
  cases h with
  | @suffixed base suffix h =>
    have hchars : ticker.toList = base.toList ++ '.' :: suffix.toList := by
      rw [h.split]
      simp
    have hbase : CodeKind.ticker.WellFormed base := by
      refine ⟨h.base_ne, ?_, fun c hc => hticker.allowed c ?_⟩
      · refine Nat.le_trans ?_ hticker.short
        rw [← String.utf8Len_toList, ← String.utf8Len_toList, hchars]
        exact String.utf8Len_le_of_prefix (List.prefix_append _ _)
      · rw [hchars]
        exact List.mem_append_left _ hc
    refine ⟨CodeKind.wellFormed_upper.2 hbase, ?_⟩
    rintro code ⟨⟩
    exact CodeKind.wellFormed_upper.2 (Exchange.wellFormed_of_isKnown h.known)
  | bare h => exact ⟨CodeKind.wellFormed_upper.2 hticker, nofun⟩

end Ticker

end DailyBars
