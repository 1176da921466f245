import DailyBars.Proofs.Instrument.Codes
import DailyBars.Store.Storage

/-! # Names of files tell keys apart

An exchange code has no underscore, so the last underscore of a name is where ticker and exchange
meet, and it has no dot, so the first dot after that is where the ending begins. No two well-formed
keys share a file. The two files of a key, and the name under which a text is kept out of the way,
end in different characters.
-/

namespace DailyBars

namespace SeriesKey

/-- Ticker and exchange are well formed. -/
def Valid (k : SeriesKey) : Prop := k.check = .ok ()

/-- A key is valid just if both its codes are well formed. -/
theorem valid_iff {k : SeriesKey} :
    k.Valid ↔ CodeKind.ticker.WellFormed k.symbol ∧ CodeKind.exchange.WellFormed k.exchange := by
  rw [← CodeKind.check_eq_ok_iff, ← CodeKind.check_eq_ok_iff, Valid, check, Ticker.check,
    Exchange.check]
  cases CodeKind.ticker.check k.symbol with
  | error fault => exact ⟨nofun, nofun⟩
  | ok u => exact (and_iff_right rfl).symm

/-- The exchange of a valid key has no underscore -/
theorem underscore_notMem_exchange {k : SeriesKey} (h : k.Valid) : '_' ∉ k.exchange.toList :=
  fun hmem => absurd ((valid_iff.1 h).2.allowed _ hmem) (by decide)

/-- and no dot. -/
theorem dot_notMem_exchange {k : SeriesKey} (h : k.Valid) : '.' ∉ k.exchange.toList :=
  fun hmem => absurd ((valid_iff.1 h).2.allowed _ hmem) (by decide)

/-- What neither code may hold is not in their text. -/
theorem notMem_text {k : SeriesKey} (h : k.Valid) {c : Char}
    (hticker : CodeKind.ticker.allows c = false) (hexchange : CodeKind.exchange.allows c = false) :
    c ∉ k.text.toList := by
  obtain ⟨hs, he⟩ := valid_iff.1 h
  have hmark : CodeKind.ticker.allows '_' = true := by decide
  intro hmem
  have hparts : c ∈ k.symbol.toList ∨ c = '_' ∨ c ∈ k.exchange.toList := by
    simpa [text, or_assoc] using hmem
  rcases hparts with hin | rfl | hin
  · exact absurd (hs.allowed c hin) (by simp [hticker])
  · exact absurd hmark (by simp [hticker])
  · exact absurd (he.allowed c hin) (by simp [hexchange])

/-- A text is split in one way at its last mark. -/
theorem append_mark_inj {mark : Char} {s e s' e' : List Char} (he : mark ∉ e) (he' : mark ∉ e')
    (h : s ++ mark :: e = s' ++ mark :: e') : s = s' ∧ e = e' := by
  have hsplit := Ticker.splitLast_append s he
  rw [h, Ticker.splitLast_append s' he', Option.some.injEq, Prod.mk.injEq] at hsplit
  exact ⟨hsplit.1.symm, hsplit.2.symm⟩

/-- A text is split in one way at its first mark. -/
theorem append_mark_inj_left {mark : Char} {s e s' e' : List Char} (hs : mark ∉ s) (hs' : mark ∉ s')
    (h : s ++ mark :: e = s' ++ mark :: e') : s = s' ∧ e = e' := by
  have hreverse : e.reverse ++ mark :: s.reverse = e'.reverse ++ mark :: s'.reverse := by
    simpa using congrArg List.reverse h
  obtain ⟨he, hs⟩ := append_mark_inj (fun hmem => hs (List.mem_reverse.1 hmem))
    (fun hmem => hs' (List.mem_reverse.1 hmem)) hreverse
  exact ⟨List.reverse_inj.1 hs, List.reverse_inj.1 he⟩

/-- What follows the text of a key in the name of a file: it begins with a dot and has no
underscore. -/
def IsEnding (ending : String) : Prop :=
  ending.toList.head? = some '.' ∧ '_' ∉ ending.toList

instance (ending : String) : Decidable (IsEnding ending) := inferInstanceAs (Decidable (_ ∧ _))

/-- Behind the last underscore stands the exchange, and behind that, from its first dot on, the
ending. -/
theorem eq_of_text_append {k l : SeriesKey} (hk : k.Valid) (hl : l.Valid) {ending ending' : String}
    (he : IsEnding ending) (he' : IsEnding ending') (h : k.text ++ ending = l.text ++ ending') :
    k = l ∧ ending = ending' := by
  have hchars : k.symbol.toList ++ '_' :: (k.exchange.toList ++ ending.toList)
      = l.symbol.toList ++ '_' :: (l.exchange.toList ++ ending'.toList) := by
    have hlists := congrArg String.toList h
    simpa [text] using hlists
  have hmark : ∀ {j : SeriesKey} {e : String}, j.Valid → IsEnding e →
      '_' ∉ j.exchange.toList ++ e.toList := by
    intro j e hj hending hmem
    exact (List.mem_append.1 hmem).elim (underscore_notMem_exchange hj) hending.2
  obtain ⟨hsymbol, hrest⟩ := append_mark_inj (hmark hk he) (hmark hl he') hchars
  obtain ⟨tail, htail⟩ := List.head?_eq_some_iff.1 he.1
  obtain ⟨tail', htail'⟩ := List.head?_eq_some_iff.1 he'.1
  rw [htail, htail'] at hrest
  obtain ⟨hexchange, hsame⟩ := append_mark_inj_left (dot_notMem_exchange hk)
    (dot_notMem_exchange hl) hrest
  refine ⟨?_, String.toList_inj.1 (by rw [htail, htail', hsame])⟩
  cases k
  cases l
  exact congrArg₂ SeriesKey.mk (String.toList_inj.1 hsymbol) (String.toList_inj.1 hexchange)

/-- The extension of a series is an ending, -/
theorem isEnding_seriesExtension : IsEnding seriesExtension := by decide

/-- and so is that of a span. -/
theorem isEnding_span : IsEnding ".span.json" := by decide

/-- Valid keys with the same series name are equal, -/
theorem seriesName_injective {k l : SeriesKey} (hk : k.Valid) (hl : l.Valid)
    (h : k.seriesName = l.seriesName) : k = l :=
  (eq_of_text_append hk hl isEnding_seriesExtension isEnding_seriesExtension h).1

/-- and so are those with the same span name. -/
theorem spanName_injective {k l : SeriesKey} (hk : k.Valid) (hl : l.Valid)
    (h : k.spanName = l.spanName) : k = l :=
  (eq_of_text_append hk hl isEnding_span isEnding_span h).1

/-- A series name ends in t, -/
theorem getLast?_seriesName (k : SeriesKey) : k.seriesName.toList.getLast? = some 't' := by
  simp [seriesName, seriesExtension]

/-- a span name in n, -/
theorem getLast?_spanName (k : SeriesKey) : k.spanName.toList.getLast? = some 'n' := by
  simp [spanName]

/-- The name is that of the series or of the span of a key. -/
def Owns (k : SeriesKey) (name : String) : Prop := name = k.seriesName ∨ name = k.spanName

/-- so that no series name is a span name. -/
theorem seriesName_ne_spanName (k l : SeriesKey) : k.seriesName ≠ l.spanName := by
  intro h
  have hlast := getLast?_seriesName k
  rw [h, getLast?_spanName] at hlast
  cases hlast

/-- No two well-formed keys share a file. -/
theorem eq_of_owns {k l : SeriesKey} (hk : k.Valid) (hl : l.Valid) {name : String}
    (hkn : k.Owns name) (hln : l.Owns name) : k = l := by
  rcases hkn with rfl | rfl <;> rcases hln with h | h
  · exact seriesName_injective hk hl h
  · exact absurd h (seriesName_ne_spanName k l)
  · exact absurd h.symm (seriesName_ne_spanName l k)
  · exact spanName_injective hk hl h

/-- No key owns a quarantined name. -/
theorem not_owns_quarantinedName (k : SeriesKey) (name : String) :
    ¬ k.Owns (quarantinedName name) := by
  have hlast : (quarantinedName name).toList.getLast? = some 'd' := by simp [quarantinedName]
  rintro (h | h)
  · rw [h, getLast?_seriesName] at hlast
    cases hlast
  · rw [h, getLast?_spanName] at hlast
    cases hlast

end SeriesKey
end DailyBars
