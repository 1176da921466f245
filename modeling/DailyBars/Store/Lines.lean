/-! # Lists of texts as one text

Each text of a list becomes a line. A line break inside a text is written as a backslash and
an `n`, and a backslash is written twice, so every list of texts has one written form and
can be read back.
-/

namespace DailyBars.Lines

/-- A text without line breaks. -/
def escape : List Char → List Char
  | [] => []
  | c :: rest =>
    if c = '\n' then '\\' :: 'n' :: escape rest
    else if c = '\\' then '\\' :: '\\' :: escape rest
    else c :: escape rest

/-- The texts as lines, each with a line break at its end. -/
def join (texts : List (List Char)) : List Char :=
  texts.flatMap fun t => escape t ++ ['\n']

/-- The texts of lines, where `line` holds what has been read of the first line, in reverse.
The last line needs its line break. -/
def splitFrom (line : List Char) : List Char → Option (List (List Char))
  | [] => if line = [] then some [] else none
  | '\n' :: rest => (splitFrom [] rest).map (line.reverse :: ·)
  | '\\' :: 'n' :: rest => splitFrom ('\n' :: line) rest
  | '\\' :: '\\' :: rest => splitFrom ('\\' :: line) rest
  | c :: rest => if c = '\\' then none else splitFrom (c :: line) rest

/-- The texts of lines. -/
def split (cs : List Char) : Option (List (List Char)) := splitFrom [] cs

/-- An escaped line is split off at its end. -/
theorem splitFrom_escape (t rest line : List Char) :
    splitFrom line (escape t ++ '\n' :: rest) =
      (splitFrom [] rest).map ((line.reverse ++ t) :: ·) := by
  induction t generalizing line with
  | nil => simp [escape, splitFrom]
  | cons c t ih =>
    by_cases hn : c = '\n'
    · subst hn; simp [escape, splitFrom, ih]
    · by_cases hb : c = '\\'
      · subst hb; simp [escape, splitFrom, ih]
      · simp only [escape, hn, hb, if_false, List.cons_append]
        rw [splitFrom.eq_def]
        split <;> simp_all

/-- Reading the lines of a list gives the list back. -/
theorem split_join (texts : List (List Char)) : split (join texts) = some texts := by
  induction texts with
  | nil => rfl
  | cons t texts ih =>
    have h := splitFrom_escape t (join texts) []
    simp only [split] at ih
    simp only [split, join, List.flatMap_cons, List.append_assoc, List.singleton_append]
    rw [show List.flatMap (fun t => escape t ++ ['\n']) texts = join texts from rfl, h, ih]
    simp

end DailyBars.Lines
