import DailyBars.Bar.Record

/-! # What a stored series accounts for

Beside the rows of a series stands a record of the dates that the sources were asked about,
rows or not. The days between the first and the last that is accounted for count as covered,
and what a request still needs are at most two windows, one on each side of them.
-/

namespace DailyBars

/-- The dates that the sources were asked about, and the day on which they last were. -/
structure CheckedSpan where
  first : Day
  last : Day
  checkedOn : Day
deriving DecidableEq, Repr

namespace CheckedSpan

/-- The span of a window that was checked on a day. -/
def of (w : Window) (checkedOn : Day) : CheckedSpan := ⟨w.first, w.last, checkedOn⟩

/-- The part of the span that still counts on a later day. The bar of the day of the check may
not have been out then, so from the next day on that day no longer counts. -/
def settledWith {μ : Type → Type} [Monad μ] (r : Reckoning μ) (s : CheckedSpan) (today : Day) :
    μ (Option Window) := do
  let last ←
    if s.checkedOn < today ∧ s.checkedOn ≤ s.last then r.day s.checkedOn.previous else pure s.last
  let w : Window := ⟨s.first, last⟩
  pure (if w.isEmpty then none else some w)

/-- The part of the span that still counts on a later day. -/
def settled (s : CheckedSpan) (today : Day) : Option Window := Id.run (s.settledWith .endless today)

/-- The same, if the day before the check is in the calendar. -/
def settled? (s : CheckedSpan) (today : Day) : Option (Option Window) := s.settledWith .within today

/-- What still counts of a span, if there is one. -/
def settledOf? (checked : Option CheckedSpan) (today : Day) : Option (Option Window) :=
  match checked with
  | none => some none
  | some s => s.settled? today

/-- A span is trimmed to the day before it was checked, once a later day has come. -/
theorem settled_def (s : CheckedSpan) (today : Day) : s.settled today
    = let last :=
        if s.checkedOn < today ∧ s.checkedOn ≤ s.last then s.checkedOn.previous else s.last
      let w : Window := ⟨s.first, last⟩
      if w.isEmpty then none else some w := by
  unfold settled settledWith
  split <;> rfl

/-- The names of the fields, in the order in which they are written. -/
def fieldNames : List String := ["start", "end", "checked_on"]

/-- The span as a JSON record. -/
def toJson (s : CheckedSpan) : String :=
  Json.writeRecord (fieldNames.zip
    [Json.writeText s.first.text, Json.writeText s.last.text, Json.writeText s.checkedOn.text])

/-- The span of a JSON record, which needs all its fields. -/
def ofJson? (v : Json) : Option CheckedSpan := do
  match ← v.fields? fieldNames fieldNames.length with
  | [first, last, checkedOn] =>
    pure ⟨← Day.ofJson? (← first), ← Day.ofJson? (← last), ← Day.ofJson? (← checkedOn)⟩
  | _ => none

/-- The span that a JSON text describes. -/
def parse? (text : String) : Option CheckedSpan := (Json.parse? text).bind ofJson?

end CheckedSpan

/-- How far a covered span reaches into a requested window. -/
inductive Coverage where
  | none
  | full
  /-- What is missing, before the span and after it. -/
  | part (missing : List Window)
deriving DecidableEq, Repr

namespace Coverage

section

variable {μ : Type → Type} [Monad μ]

/-- What is missing of a window before the covered one. -/
def beforeWith (r : Reckoning μ) (c w : Window) : μ (List Window) :=
  if w.first < c.first then do pure [⟨w.first, ← r.day c.first.previous⟩] else pure []

/-- What is missing of a window after the covered one. -/
def afterWith (r : Reckoning μ) (c w : Window) : μ (List Window) :=
  if c.last < w.last then do pure [⟨← r.day c.last.next, w.last⟩] else pure []

/-- What `covered` leaves missing of a window. A missing range runs from the edge of the window
to the day beside the span, so that the two together have no gap. -/
def assessWith (r : Reckoning μ) (covered : Option Window) (w : Window) : μ Coverage :=
  match covered with
  | .none => pure .none
  | some c =>
    if c.first ≤ w.first ∧ w.last ≤ c.last then pure .full
    else do
      let before ← beforeWith r c w
      let after ← afterWith r c w
      pure (.part (before ++ after))

end

/-- What `covered` leaves missing of a window. -/
def assess (covered : Option Window) (w : Window) : Coverage :=
  Id.run (assessWith .endless covered w)

/-- The same, if the days beside the span are in the calendar. -/
def assess? (covered : Option Window) (w : Window) : Option Coverage := assessWith .within covered w

/-- What is missing runs up to the day before the span, and on from the day after it. -/
theorem assess_def (covered : Option Window) (w : Window) : assess covered w
    = match covered with
      | .none => .none
      | some c =>
        if c.first ≤ w.first ∧ w.last ≤ c.last then .full
        else
          .part ((if w.first < c.first then [⟨w.first, c.first.previous⟩] else []) ++
            (if c.last < w.last then [⟨c.last.next, w.last⟩] else [])) := by
  cases covered with
  | none => rfl
  | some c =>
    unfold assess assessWith beforeWith afterWith
    simp only
    split
    · rfl
    · split <;> split <;> rfl

/-- The windows to ask for. -/
def missing (w : Window) : Coverage → List Window
  | none => [w]
  | full => []
  | part missing => missing

end Coverage

/-- The hull of two windows of which either may be absent. -/
def Window.hull? : Option Window → Option Window → Option Window
  | some a, some b => some (a.hull b)
  | some a, none => some a
  | none, b => b

end DailyBars
