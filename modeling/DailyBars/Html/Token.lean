import DailyBars.Html.Reference

/-! # Words of a page

A page is cut into texts, start tags and end tags. What a text is, and whether tags count at
all, depends on the element that it is in, so a word is read with the kind of content that is
expected.
-/

namespace DailyBars.Html

/-- A start tag. Of several attributes of one name the first counts. -/
structure Tag where
  name : String
  attributes : List (String × String) := []
  selfClosing : Bool := false
deriving DecidableEq, Repr

/-- What a piece of text is made of. -/
inductive TextKind where
  | blank
  | null
  | visible
deriving DecidableEq, Repr

/-- A word of a page. -/
inductive Token where
  | text (kind : TextKind) (chars : List Char)
  | startTag (tag : Tag)
  | endTag (name : String)
  /-- A comment or a document type, of which nothing is kept. -/
  | aside
deriving DecidableEq, Repr

/-- What the content of an element may hold. -/
inductive Content where
  /-- Texts with references, and tags. -/
  | markup
  /-- One text with references. -/
  | referenced
  /-- One text as it is. -/
  | raw
  /-- One text in which a comment can hide an end tag. -/
  | script
  /-- The rest of the page as one text. -/
  | plain
deriving DecidableEq, Repr

/-- The white space of a page. -/
def isSpace (c : Char) : Bool := c == ' ' || c == '\n' || c == '\t' || c == '\x0C' || c == '\r'

/-- What a character is as a text. -/
def kindOf (c : Char) : TextKind :=
  if c = '\x00' then .null else if isSpace c then .blank else .visible

/-! ## Tags -/

/-- The end of a name in a tag. -/
def endsName (c : Char) : Bool := isSpace c || c == '/' || c == '>'

/-- A name in lower case. -/
def nameOf (cs : List Char) : String :=
  String.ofList (cs.map fun c => if c = '\x00' then replacement else c.toLower)

/-- The value after an equals sign and what follows it. There is none when the page ends
first. -/
def value? (cs : List Char) : Option (List Char × List Char) :=
  match cs.dropWhile isSpace with
  | [] => none
  | '>' :: rest => some ([], '>' :: rest)
  | c :: rest =>
    if c = '"' ∨ c = '\'' then
      match rest.dropWhile (· != c) with
      | [] => none
      | _ :: after => some (rest.takeWhile (· != c), after)
    else
      let ends := fun (d : Char) => isSpace d || d == '>'
      some ((c :: rest).takeWhile (!ends ·), (c :: rest).dropWhile (!ends ·))

/-- An attribute, whose name begins with any character, and what follows it. -/
def attribute? (first : Char) (cs : List Char) : Option ((String × String) × List Char) :=
  let ends := fun (d : Char) => endsName d || d == '='
  let name := nameOf (first :: cs.takeWhile (!ends ·))
  let rest := cs.dropWhile (!ends ·)
  match rest.dropWhile isSpace with
  | '=' :: after =>
    (value? after).map fun (value, rest) => ((name, String.ofList (resolve true value)), rest)
  | _ => some ((name, ""), rest)

/-- A value that is read leaves no more than there was, -/
theorem value?_length {cs value rest : List Char} (h : value? cs = some (value, rest)) :
    rest.length ≤ cs.length := by
  have hs : (cs.dropWhile isSpace).length ≤ cs.length := (List.dropWhile_sublist _).length_le
  unfold value? at h
  split at h
  · simp at h
  · rename_i r e
    simp only [Option.some.injEq, Prod.mk.injEq] at h
    rw [← h.2]; rw [e] at hs; exact hs
  · rename_i c r _ e
    rw [e] at hs
    split at h
    · have hr : (r.dropWhile (· != c)).length ≤ r.length := (List.dropWhile_sublist _).length_le
      split at h
      · simp at h
      · rename_i d after ea
        simp only [Option.some.injEq, Prod.mk.injEq] at h
        rw [ea] at hr; rw [← h.2]
        simp only [List.length_cons] at hs hr; omega
    · simp only [Option.some.injEq, Prod.mk.injEq] at h
      rw [← h.2]
      exact Nat.le_trans (List.dropWhile_sublist _).length_le hs

/-- and so does an attribute. -/
theorem attribute?_length {c : Char} {cs rest : List Char} {a : String × String}
    (h : attribute? c cs = some (a, rest)) : rest.length ≤ cs.length := by
  unfold attribute? at h
  simp only at h
  generalize hr : cs.dropWhile _ = r at h
  have hrl : r.length ≤ cs.length := hr ▸ (List.dropWhile_sublist _).length_le
  have hs : (r.dropWhile isSpace).length ≤ r.length := (List.dropWhile_sublist _).length_le
  split at h
  · rename_i after e
    rw [e] at hs
    obtain ⟨⟨v, r'⟩, hv, heq⟩ := Option.map_eq_some_iff.1 h
    simp only [Prod.mk.injEq] at heq
    have := value?_length hv
    simp only [List.length_cons] at hs
    rw [← heq.2]; omega
  · simp only [Option.some.injEq, Prod.mk.injEq] at h
    rw [← h.2]; exact hrl

/-- The attributes up to the end of a tag, in reverse, whether the tag closes itself, and what
follows it. There is no tag when the page ends first. -/
def attributesFrom (found : List (String × String)) (cs : List Char) :
    Option (List (String × String) × Bool × List Char) :=
  match cs with
  | [] => none
  | '>' :: rest => some (found, false, rest)
  | '/' :: '>' :: rest => some (found, true, rest)
  | c :: rest =>
    if isSpace c || c == '/' then attributesFrom found rest
    else
      match _h : attribute? c rest with
      | none => none
      | some (a, after) =>
        attributesFrom (if found.any (·.1 == a.1) then found else a :: found) after
termination_by cs.length
decreasing_by
  · simp
  · have := attribute?_length _h; simp; omega

/-- The tag that begins with a name, and what follows it. -/
def tag? (cs : List Char) : Option (Tag × List Char) :=
  (attributesFrom [] (cs.dropWhile (!endsName ·))).map fun (attributes, selfClosing, rest) =>
    ({ name := nameOf (cs.takeWhile (!endsName ·)), attributes := attributes.reverse, selfClosing },
      rest)

/-! ## Comments -/

/-- What follows a comment, given what follows its first dashes. -/
def afterComment : List Char → List Char
  | [] => []
  | '-' :: '-' :: '>' :: rest => rest
  | '-' :: '-' :: '!' :: '>' :: rest => rest
  | _ :: rest => afterComment rest

/-- What follows a comment, which may end with the dashes that begin it. -/
def afterCommentStart : List Char → List Char
  | '>' :: rest => rest
  | '-' :: '>' :: rest => rest
  | cs => afterComment cs

/-- What follows the next closing bracket. -/
def afterBracket (cs : List Char) : List Char := (cs.dropWhile (· != '>')).drop 1

/-- The text of a section up to its brackets, in reverse, and what follows them. -/
def sectionFrom (found : List Char) : List Char → List Char × List Char
  | [] => (found, [])
  | ']' :: ']' :: '>' :: rest => (found, rest)
  | c :: rest => sectionFrom (c :: found) rest

/-! ## Elements with one text -/

/-- The text goes on with the end tag of an element. -/
def isEndOf (name : String) (cs : List Char) : Bool :=
  match cs with
  | '<' :: '/' :: rest =>
    let n := name.length
    nameOf (rest.take n) == name &&
      match rest.drop n with
      | c :: _ => endsName c
      | [] => false
  | _ => false

/-- The text before the end tag of an element, in reverse before what was found so far, and the
rest from there on. -/
def rawText (name : String) (found : List Char) : List Char → List Char × List Char
  | [] => (found, [])
  | c :: rest =>
    if isEndOf name (c :: rest) then (found, c :: rest) else rawText name (c :: found) rest

/-- Where in a script a character stands: in the script proper, in a comment of it, or in a
script inside such a comment; in the last two with the number of dashes just before, up to
two. -/
inductive ScriptPlace where
  | plain
  | comment (dashes : Nat)
  | nested (dashes : Nat)
deriving DecidableEq, Repr

/-- The dashes before the next character. -/
def dashesAfter (dashes : Nat) (c : Char) : Nat := if c = '-' then min (dashes + 1) 2 else 0

/-- The place after a character of a script and before the rest. -/
def ScriptPlace.next (p : ScriptPlace) (c : Char) (rest : List Char) : ScriptPlace :=
  match p with
  | .plain =>
    if c = '<' ∧ rest.take 3 = ['!', '-', '-'] then .comment 0 else .plain
  | .comment dashes =>
    if c = '>' ∧ dashes = 2 then .plain
    else if c = '<' ∧ nameOf (rest.take 6) = "script" ∧ ((rest.drop 6).head?.any endsName) then
      .nested 0
    else .comment (dashesAfter dashes c)
  | .nested dashes =>
    if c = '>' ∧ dashes = 2 then .plain
    else if isEndOf "script" (c :: rest) then .comment 0
    else .nested (dashesAfter dashes c)

/-- An end tag does not count here. -/
def ScriptPlace.isNested : ScriptPlace → Bool
  | .nested _ => true
  | _ => false

/-- The text of a script, in reverse before what was found so far, and the rest from its end tag
on. -/
def scriptText (place : ScriptPlace) (found : List Char) : List Char → List Char × List Char
  | [] => (found, [])
  | c :: rest =>
    if !place.isNested && isEndOf "script" (c :: rest) then (found, c :: rest)
    else scriptText (place.next c rest) (c :: found) rest

/-- A text in which what cannot be shown is replaced. -/
def shown (cs : List Char) : List Char := cs.map fun c => if c = '\x00' then replacement else c

/-! ## Words -/

/-- The word that begins with a bracket, before the rest. Inside foreign markup there are
sections of text. -/
def bracket (foreign : Bool) (cs : List Char) : Option Token × List Char :=
  match cs with
  | '!' :: '-' :: '-' :: rest => (some .aside, afterCommentStart rest)
  | '!' :: rest =>
    if foreign && "[CDATA[".toList.isPrefixOf rest then
      let (text, after) := sectionFrom [] (rest.drop 7)
      (some (.text .visible (shown text.reverse)), after)
    else (some .aside, afterBracket rest)
  | '?' :: rest => (some .aside, afterBracket rest)
  | '/' :: '>' :: rest => (none, rest)
  | '/' :: c :: rest =>
    if c.isAlpha then
      match tag? (c :: rest) with
      | some (tag, rest) => (some (.endTag tag.name), rest)
      | none => (none, [])
    else (some .aside, afterBracket (c :: rest))
  | c :: rest =>
    if c.isAlpha then
      match tag? (c :: rest) with
      | some (tag, rest) => (some (.startTag tag), rest)
      | none => (none, [])
    else (some (.text .visible ['<']), c :: rest)
  | [] => (some (.text .visible ['<']), [])

/-- The next word of markup. -/
def markupWord (foreign : Bool) (c : Char) (rest : List Char) : Option Token × List Char :=
  if c = '<' then bracket foreign rest
  else if c = '&' then
    match reference? false rest with
    | some (length, characters) =>
      let kind := match characters with
        | [d] => kindOf d
        | _ => .visible
      (some (.text kind characters), rest.drop length)
    | none => (some (.text .visible ['&']), rest)
  else
    let same := fun (d : Char) => d != '<' && d != '&' && kindOf d == kindOf c
    (some (.text (kindOf c) (c :: rest.takeWhile same)), rest.dropWhile same)

/-- The next word of an element with one text, `read` giving the text in reverse and the rest
from the end tag on. -/
def textWord (read : List Char → List Char × List Char) (finish : List Char → List Char)
    (name : String) (cs : List Char) : Option Token × List Char :=
  if isEndOf name cs then
    match tag? (cs.drop 2) with
    | some (tag, rest) => (some (.endTag tag.name), rest)
    | none => (none, [])
  else
    let (text, rest) := read cs
    (some (.text .visible (finish text.reverse)), rest)

/-- The next word of a page, inside an element of that name and content. -/
def word (content : Content) (name : String) (foreign : Bool) (c : Char) (rest : List Char) :
    Option Token × List Char :=
  match content with
  | .markup => markupWord foreign c rest
  | .referenced => textWord (rawText name []) (resolve false) name (c :: rest)
  | .raw => textWord (rawText name []) shown name (c :: rest)
  | .script => textWord (scriptText .plain []) shown name (c :: rest)
  | .plain => (some (.text .visible (shown (c :: rest))), [])

end DailyBars.Html
