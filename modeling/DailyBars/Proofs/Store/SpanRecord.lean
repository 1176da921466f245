import DailyBars.Proofs.Calendar.DateText
import DailyBars.Proofs.Json.PlainText
import DailyBars.Store.Coverage

/-! # Checked spans read back

A checked span whose days are days of the calendar is read back from its JSON record, and every
record that can be read has days of the calendar.
-/

namespace DailyBars

/-- A padded number needs no escapes, -/
theorem Text.plain_padded (width n : Nat) : Json.Plain (Text.padded width n) := by
  intro c hc
  have hdigit : c.isDigit = true := Text.isDigit_of_mem_padded hc
  have hrange : 48 ≤ c.toNat ∧ c.toNat ≤ 57 := Char.isDigit_iff_toNat.1 hdigit
  refine ⟨?_, ?_, by omega⟩
  · rintro rfl
    exact absurd hdigit (by decide)
  · rintro rfl
    exact absurd hdigit (by decide)

/-- nor does a year, -/
theorem Day.plain_yearText (year : Int) : Json.Plain (Day.yearText year) := by
  have hplus : Json.Plain "+" := by decide
  have hminus : Json.Plain "-" := by decide
  rw [Day.yearText]
  split
  · exact Text.plain_padded _ _
  · refine Json.Plain.append ?_ (Text.plain_padded _ _)
    split
    · exact hminus
    · exact hplus

/-- nor a date. -/
theorem Day.plain_text (d : Day) : Json.Plain d.text := by
  have hhyphen : Json.Plain "-" := by decide
  exact ((((Day.plain_yearText _).append hhyphen).append (Text.plain_padded _ _)).append
    hhyphen).append (Text.plain_padded _ _)

namespace CheckedSpan

/-- The days of the span are days of the calendar. -/
structure InCalendar (s : CheckedSpan) : Prop where
  first : s.first.InCalendar
  last : s.last.InCalendar
  checkedOn : s.checkedOn.InCalendar

/-- The tokens of a written span. -/
theorem tokens?_toJson (s : CheckedSpan) : Json.tokens? s.toJson.toList = some
    [.openObject, .text (some "start"), .colon, .text (some s.first.text), .comma,
      .text (some "end"), .colon, .text (some s.last.text), .comma,
      .text (some "checked_on"), .colon, .text (some s.checkedOn.text), .closeObject] := by
  have hstart : Json.Plain "start" := by decide
  have hend : Json.Plain "end" := by decide
  have hchecked : Json.Plain "checked_on" := by decide
  have hjoin : ∀ a b c : String, ",".intercalate [a, b, c] = a ++ "," ++ b ++ "," ++ c :=
    fun _ _ _ => rfl
  have htext : s.toJson.toList = '\x7b' :: ((Json.writeText "start").toList ++ (':' ::
      ((Json.writeText s.first.text).toList ++ (',' :: ((Json.writeText "end").toList ++ (':' ::
      ((Json.writeText s.last.text).toList ++ (',' ::
      ((Json.writeText "checked_on").toList ++ (':' ::
      ((Json.writeText s.checkedOn.text).toList ++ ['\x7d']))))))))))) := by
    simp [toJson, Json.writeRecord, fieldNames, hjoin]
  have hmark : ∀ (tokens : List Json.Token) (c : Char) (t : Json.Token) (rest : List Char),
      Json.Scan.step ⟨tokens, .nothing⟩ c = some ⟨t :: tokens, .nothing⟩ →
      (c :: rest).foldlM Json.Scan.step ⟨tokens, .nothing⟩
        = rest.foldlM Json.Scan.step ⟨t :: tokens, .nothing⟩ := by
    intro tokens c t rest h
    rw [List.foldlM_cons, h]
    rfl
  have hcolon : ∀ tokens rest, (':' :: rest).foldlM Json.Scan.step ⟨tokens, .nothing⟩
      = rest.foldlM Json.Scan.step ⟨.colon :: tokens, .nothing⟩ := fun _ _ => hmark _ _ _ _ rfl
  have hcomma : ∀ tokens rest, (',' :: rest).foldlM Json.Scan.step ⟨tokens, .nothing⟩
      = rest.foldlM Json.Scan.step ⟨.comma :: tokens, .nothing⟩ := fun _ _ => hmark _ _ _ _ rfl
  rw [Json.tokens?, htext, hmark _ _ .openObject _ rfl, Json.foldlM_step_writeText hstart, hcolon,
    Json.foldlM_step_writeText s.first.plain_text, hcomma, Json.foldlM_step_writeText hend, hcolon,
    Json.foldlM_step_writeText s.last.plain_text, hcomma, Json.foldlM_step_writeText hchecked,
    hcolon, Json.foldlM_step_writeText s.checkedOn.plain_text, hmark _ _ .closeObject _ rfl]
  rfl

/-- A span is read back from its record. -/
theorem parse?_toJson {s : CheckedSpan} (h : s.InCalendar) : parse? s.toJson = some s := by
  have hjson : Json.parse? s.toJson = some (.object [(some "start", .text (some s.first.text)),
      (some "end", .text (some s.last.text)),
      (some "checked_on", .text (some s.checkedOn.text))]) := by
    rw [Json.parse?, tokens?_toJson]
    rfl
  have hday : ∀ d : Day, d.InCalendar → Day.ofJson? (.text (some d.text)) = some d :=
    fun d hd => DatePattern.parse?_text hd
  have hfields : Json.fields? fieldNames fieldNames.length
      (.object [(some "start", .text (some s.first.text)), (some "end", .text (some s.last.text)),
        (some "checked_on", .text (some s.checkedOn.text))])
      = some [some (.text (some s.first.text)), some (.text (some s.last.text)),
          some (.text (some s.checkedOn.text))] := by
    simp [Json.fields?, fieldNames, List.filter]
  rw [parse?, hjson, Option.bind_some, ofJson?, hfields]
  simp [hday _ h.first, hday _ h.last, hday _ h.checkedOn]

/-- Only spans of days of the calendar can be read. -/
theorem inCalendar_of_parse? {text : String} {s : CheckedSpan} (h : parse? text = some s) :
    s.InCalendar := by
  have hday : ∀ {v : Json} {d : Day}, Day.ofJson? v = some d → d.InCalendar := by
    intro v d hd
    rw [Day.ofJson?, Option.bind_eq_some_iff] at hd
    obtain ⟨text, -, htext⟩ := hd
    exact DatePattern.inCalendar_of_parse? htext
  rw [parse?, Option.bind_eq_some_iff] at h
  obtain ⟨v, -, hv⟩ := h
  rw [ofJson?, Option.bind_eq_bind, Option.bind_eq_some_iff] at hv
  obtain ⟨fields, -, hfields⟩ := hv
  split at hfields
  next first last checkedOn =>
    simp only [Option.bind_eq_bind, Option.bind_eq_some_iff, Option.pure_def] at hfields
    obtain ⟨_, -, first', hfirst, _, -, last', hlast, _, -, checkedOn', hchecked, heq⟩ := hfields
    cases heq
    exact ⟨hday hfirst, hday hlast, hday hchecked⟩
  next => cases hfields

end CheckedSpan
end DailyBars
