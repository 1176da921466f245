import DailyBars.Proofs.Store.LocalFolder
import DailyBars.Proofs.Text.Letters

/-! # The names of a key

A key has a series file and a span file, and each of them may be drafted or put out of the way under
a name of its own. Tickers may hold dots and underscores, and end like any of these names; still no
name belongs to two keys, each is the name of one entry of a folder, and from the name of a series
file its key is read back.
-/

namespace DailyBars

/-- A name that leads to one entry of a folder: it has no separator, and is neither the folder
itself nor the one around it. -/
structure IsComponent (name : String) : Prop where
  slash : '/' ∉ name.toList
  backslash : '\\' ∉ name.toList
  ne_dot : name ≠ "."
  ne_dots : name ≠ ".."
  join : ∀ root : TreePath, root.join name = root ++ [name]

namespace SeriesKey

/-- The names of the series and the span, of their drafts, and of what is left of them when they are
put out of the way. -/
def names (k : SeriesKey) : List String :=
  [k.seriesName, k.spanName].flatMap fun name => [name, draftName name, quarantinedName name]

/-- What follows the text of a key in its names. -/
def endings : List String :=
  [seriesExtension, ".span.json"].flatMap fun name => [name, draftName name, quarantinedName name]

/-- The names of a key are its text with each of the endings. -/
theorem names_eq_map (k : SeriesKey) : k.names = endings.map (k.text ++ ·) := by
  simp [names, endings, seriesName, spanName, draftName, quarantinedName, String.append_assoc]

/-- Each of them is an ending. -/
theorem isEnding_of_mem {ending : String} (h : ending ∈ endings) : IsEnding ending := by
  have hall : ∀ e ∈ endings, IsEnding e := by decide
  exact hall ending h

/-- All names of two keys are different. -/
theorem nodup_names {k l : SeriesKey} (hk : k.Valid) (hl : l.Valid) (hne : k ≠ l) :
    (k.names ++ l.names).Nodup := by
  have hendings : endings.Nodup := by decide
  have hown : ∀ {j : SeriesKey}, j.Valid → (endings.map (j.text ++ ·)).Nodup := by
    intro j hj
    refine hendings.map_on fun e he e' he' heq => ?_
    exact (eq_of_text_append hj hj (isEnding_of_mem he) (isEnding_of_mem he') heq).2
  rw [names_eq_map, names_eq_map, List.nodup_append]
  refine ⟨hown hk, hown hl, fun n hn n' hn' heq => hne ?_⟩
  obtain ⟨e, he, rfl⟩ := List.mem_map.1 hn
  obtain ⟨e', he', rfl⟩ := List.mem_map.1 hn'
  exact (eq_of_text_append hk hl (isEnding_of_mem he) (isEnding_of_mem he') heq).1

/-- The names of a valid key are those of entries -/
theorem isEntry_of_mem_names {k : SeriesKey} (hk : k.Valid) {name : String} (h : name ∈ k.names) :
    IsEntry name := by
  obtain ⟨file, hfile, hname⟩ := List.mem_flatMap.1 h
  have hisFile : IsFile file := ⟨k, hk, by simpa [Owns] using hfile⟩
  simp only [List.mem_cons, List.not_mem_nil, or_false] at hname
  rcases hname with rfl | rfl | rfl
  · exact hisFile.isEntry
  · exact hisFile.isEntry_draftName
  · exact hisFile.isEntry_quarantinedName

/-- and single components of a path. -/
theorem isComponent_of_mem_names {k : SeriesKey} (hk : k.Valid) {name : String}
    (h : name ∈ k.names) : IsComponent name := by
  have hentry := isEntry_of_mem_names hk h
  obtain ⟨c, hlast, hc⟩ := hentry.last
  have hdot : ∀ other : String, other.toList.getLast? = some '.' → name ≠ other := by
    rintro other hother rfl
    rw [hlast, Option.some.injEq] at hother
    exact hc hother
  refine ⟨hentry.slash, ?_, hdot "." (by decide), hdot ".." (by decide), hentry.join⟩
  rw [names_eq_map] at h
  obtain ⟨e, he, rfl⟩ := List.mem_map.1 h
  have hendings : ∀ e ∈ endings, '\\' ∉ e.toList := by decide
  rw [String.toList_append, List.mem_append, not_or]
  exact ⟨notMem_text hk (by decide) (by decide), hendings e he⟩

/-! ## Reading a key back -/

/-- The key of a request that is not refused. -/
structure Accepted (k : SeriesKey) : Prop where
  valid : k.Valid
  ofRequest : ∃ symbol exchange, k = of symbol exchange

/-- Such a key is trimmed and in upper case already. -/
theorem Accepted.of_eq {k : SeriesKey} (h : k.Accepted) : of k.symbol k.exchange = k := by
  obtain ⟨symbol, exchange, rfl⟩ := h.ofRequest
  simp only [of, Text.trim_upper, Text.trim_trim, Text.upper_upper]

/-- A series name is recognised, -/
theorem isSeriesName_seriesName (k : SeriesKey) : isSeriesName k.seriesName = true := by
  rw [isSeriesName, List.isSuffixOf_iff_suffix, seriesName, String.toList_append]
  exact List.suffix_append _ _

/-- and ends in t. -/
theorem getLast?_of_isSeriesName {name : String} (h : isSeriesName name = true) :
    name.toList.getLast? = some 't' := by
  obtain ⟨stem, hstem⟩ := List.isSuffixOf_iff_suffix.1 h
  rw [← hstem]
  simp [seriesExtension]

/-- A valid key is read back from its series name. -/
theorem ofSeriesName?_seriesName {k : SeriesKey} (hk : k.Valid) :
    ofSeriesName? k.seriesName = some (of k.symbol k.exchange) := by
  obtain ⟨hsymbol, hexchange⟩ := valid_iff.1 hk
  have hstem : k.seriesName.toList.take (k.seriesName.length - seriesExtension.length)
      = k.symbol.toList ++ '_' :: k.exchange.toList := by
    have hlength : k.seriesName.length - seriesExtension.length = k.text.toList.length := by
      rw [seriesName, String.length_append, Nat.add_sub_cancel, String.length_toList]
    rw [hlength, seriesName, String.toList_append, List.take_left]
    simp [text]
  have hs : k.symbol.toList.isEmpty = false := by simpa using hsymbol.nonempty
  have he : k.exchange.toList.isEmpty = false := by simpa using hexchange.nonempty
  rw [ofSeriesName?, if_pos k.isSeriesName_seriesName, hstem]
  simp only [Ticker.splitLast_append _ (underscore_notMem_exchange hk), hs, he, Bool.or_self,
    Bool.false_eq_true, if_false, String.ofList_toList]

/-- No other name of a key ends like that of a series file. -/
theorem ofSeriesName?_of_ne {k : SeriesKey} {name : String} (h : name ∈ k.names)
    (hne : name ≠ k.seriesName) : ofSeriesName? name = none := by
  refine if_neg fun hname => ?_
  have hlast := getLast?_of_isSeriesName hname
  rw [names_eq_map] at h
  obtain ⟨e, he, rfl⟩ := List.mem_map.1 h
  have hendings : ∀ e ∈ endings, e.toList.getLast? = some 't' → e = seriesExtension := by decide
  have hnonempty : ∀ e ∈ endings, e.toList ≠ [] := by decide
  rw [String.toList_append, List.getLast?_append_of_ne_nil _ (hnonempty e he)] at hlast
  rw [hendings e he hlast] at hne
  exact hne rfl

/-- The names of a key are its own. -/
structure Identified (k : SeriesKey) : Prop where
  apart : ∀ l : SeriesKey, l.Valid → k ≠ l → (k.names ++ l.names).Nodup
  components : ∀ n ∈ k.names, IsComponent n
  readBack : k.Accepted → ofSeriesName? k.seriesName = some k
  others : ∀ n ∈ k.names, n ≠ k.seriesName → ofSeriesName? n = none

/-- Its names identify it. -/
theorem Valid.identified {k : SeriesKey} (hk : k.Valid) : k.Identified where
  apart _ hl hne := nodup_names hk hl hne
  components _ hn := isComponent_of_mem_names hk hn
  readBack haccepted := by rw [ofSeriesName?_seriesName hk, haccepted.of_eq]
  others _ hn hne := ofSeriesName?_of_ne hn hne

end SeriesKey
end DailyBars
