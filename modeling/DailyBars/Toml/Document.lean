import DailyBars.Toml.Scalar

/-! # TOML documents

A document is read line by line. A header names the table that the following lines fill; a
key of several parts reaches into tables within it. Each table is defined once: by a header,
by keys that reach into it, or in one piece inside braces, and what was defined in one way is
not added to in another.
-/

namespace DailyBars.Toml

/-- A part of a document under construction. A table is implied when only the tables within it
were named so far, and dotted when it came from a key of several parts. -/
inductive Node where
  | value (v : Toml)
  | table (implied dotted : Bool) (entries : List (String × Node))
  /-- The tables of an array of tables, the latest first. -/
  | tables (items : List (List (String × Node)))

/-- The entries of a table under construction. -/
abbrev Entries := List (String × Node)

/-- Puts a node under a name, in the place of the one that is there. -/
def setNode (name : String) (node : Node) : Entries → Entries
  | [] => [(name, node)]
  | e :: rest => if e.1 = name then (name, node) :: rest else e :: setNode name node rest

mutual

/-- The value of a finished part. -/
def Node.toToml : Node → Toml
  | .value v => v
  | .table _ _ entries => .table (entriesToToml entries)
  | .tables items => .array (itemsToToml items).reverse

/-- The values of the entries of a finished table. -/
def entriesToToml : List (String × Node) → List (String × Toml)
  | [] => []
  | (name, node) :: rest => (name, node.toToml) :: entriesToToml rest

/-- The tables of a finished array of tables. -/
def itemsToToml : List (List (String × Node)) → List Toml
  | [] => []
  | entries :: rest => .table (entriesToToml entries) :: itemsToToml rest

end

/-! ## Putting tables together -/

/-- Adds a node to a table under a key that may reach into tables within it. The table it
reaches has to come from another such key, and those on the way may only be implied. -/
def addDotted (node : Node) : List String → Entries → Option Entries
  | [], _ => none
  | [name], entries =>
    if (entries.lookup name).isSome then none else some (entries ++ [(name, node)])
  | name :: rest, entries =>
    match entries.lookup name with
    | none => (addDotted node rest []).map fun inner =>
        entries ++ [(name, .table true true inner)]
    | some (.table true dotted inner) =>
      if rest.length = 1 ∧ !dotted then none
      else (addDotted node rest inner).map fun inner =>
        setNode name (.table true dotted inner) entries
    | some (.tables (latest :: others)) =>
      if rest.length = 1 then none
      else (addDotted node rest latest).map fun latest =>
        setNode name (.tables (latest :: others)) entries
    | some _ => none

/-- Works on the table that a header's leading keys name. Tables on the way are implied if they
were not there; of an array of tables the latest counts. -/
def inTable {α : Type} (work : Entries → Option (α × Entries)) :
    List String → Entries → Option (α × Entries)
  | [], entries => work entries
  | name :: rest, entries =>
    match entries.lookup name with
    | none => (inTable work rest []).map fun (a, inner) =>
        (a, entries ++ [(name, .table true false inner)])
    | some (.table implied dotted inner) => (inTable work rest inner).map fun (a, inner) =>
        (a, setNode name (.table implied dotted inner) entries)
    | some (.tables (latest :: others)) => (inTable work rest latest).map fun (a, latest) =>
        (a, setNode name (.tables (latest :: others)) entries)
    | some _ => none

/-- A document under construction: the tables that are finished, and the one that is being
filled with the keys that lead to it. -/
structure Draft where
  root : Entries := []
  path : List String := []
  isArray : Bool := false
  current : Entries := []

namespace Draft

/-- Puts the table that is being filled in its place. -/
def finish (d : Draft) : Option Entries :=
  match d.path.getLast? with
  | none => some d.current
  | some name =>
    (inTable (fun entries =>
      match entries.lookup name, d.isArray with
      | none, false => some ((), entries ++ [(name, .table false false d.current)])
      | some (.tables items), true => some ((), setNode name (.tables (d.current :: items)) entries)
      | _, _ => none) d.path.dropLast d.root).map (·.2)

/-- Begins a table. It may have been implied before, but not defined. -/
def beginTable (d : Draft) (path : List String) : Option Draft := do
  let root ← d.finish
  let name ← path.getLast?
  let (current, root) ← inTable (fun entries =>
    match entries.lookup name with
    | none => some ([], entries)
    | some (.table true false inner) => some (inner, entries.filter fun e => e.1 != name)
    | some _ => none) path.dropLast root
  pure { root, path, isArray := false, current }

/-- Begins another table of an array of tables. -/
def beginItem (d : Draft) (path : List String) : Option Draft := do
  let root ← d.finish
  let name ← path.getLast?
  let (_, root) ← inTable (fun entries =>
    match entries.lookup name with
    | none => some ((), entries ++ [(name, .tables [])])
    | some (.tables _) => some ((), entries)
    | some _ => none) path.dropLast root
  pure { root, path, isArray := true, current := [] }

/-- Adds a value to the table that is being filled. -/
def add (d : Draft) (key : List String) (v : Toml) : Option Draft :=
  (addDotted (.value v) key d.current).map fun current => { d with current }

end Draft

/-! ## Reading -/

/-- The greatest number of arrays within arrays, and of parts of a key. -/
def maxDepth : Nat := 79

/-- Takes one part of a key. -/
def takeName? (cs : List Char) : Option (String × List Char) :=
  match cs with
  | '"' :: rest => (basicText [] rest).map fun (name, rest) => (String.ofList name, rest)
  | '\'' :: rest => (literalText [] rest).map fun (name, rest) => (String.ofList name, rest)
  | _ =>
    let name := cs.takeWhile isBareKeyChar
    if name.isEmpty then none else some (String.ofList name, cs.dropWhile isBareKeyChar)

/-- Takes a key of at most `most` parts with dots between them, and the blanks around them. -/
def takeKey? : (most : Nat) → List Char → Option (List String × List Char)
  | 0, _ => none
  | most + 1, cs => do
    let (name, rest) ← takeName? (cs.dropWhile isBlank)
    match rest.dropWhile isBlank with
    | '.' :: rest => (takeKey? most rest).map fun (names, rest) => (name :: names, rest)
    | rest => some ([name], rest)

/-- Skips blanks, line breaks and comments between the items of an array. -/
def skipFiller (inComment : Bool) : List Char → Option (List Char)
  | '\n' :: rest => skipFiller false rest
  | '\r' :: '\n' :: rest => skipFiller false rest
  | c :: rest =>
    if inComment then (if isTextChar c then skipFiller true rest else none)
    else if isBlank c then skipFiller false rest
    else if c == '#' then skipFiller true rest
    else some (c :: rest)
  | [] => some []

mutual

/-- Takes a value. At most `depth` arrays and tables in braces may be open, and `fuel` bounds
the number of steps. -/
def takeValue? : (fuel depth : Nat) → List Char → Option (Toml × List Char)
  | 0, _, _ => none
  | fuel + 1, depth, cs =>
    match cs with
    | '"' :: _ | '\'' :: _ => (takeText? cs).map fun (t, rest) => (.text (String.ofList t), rest)
    | '[' :: rest =>
      if depth = 0 then none
      else (takeItems? fuel (depth - 1) rest).map fun (items, rest) => (.array items, rest)
    | '\x7b' :: rest =>
      if depth = 0 then none
      else
        match rest.dropWhile isBlank with
        | '\x7d' :: rest => some (.table [], rest)
        | rest => (takeMembers? fuel (depth - 1) [] rest).map fun (entries, rest) =>
            (.table (entriesToToml entries), rest)
    | _ => takeWord? cs

/-- Takes the items of an array and its closing bracket. A comma may follow the last item. -/
def takeItems? : (fuel depth : Nat) → List Char → Option (List Toml × List Char)
  | 0, _, _ => none
  | fuel + 1, depth, cs => do
    match ← skipFiller false cs with
    | ']' :: rest => some ([], rest)
    | cs =>
      let (v, rest) ← takeValue? fuel depth cs
      match ← skipFiller false rest with
      | ',' :: rest => (takeItems? fuel depth rest).map fun (items, rest) => (v :: items, rest)
      | ']' :: rest => some ([v], rest)
      | _ => none

/-- Takes the entries of a table in braces and its closing brace. No comma follows the last
entry. -/
def takeMembers? : (fuel depth : Nat) → Entries → List Char → Option (Entries × List Char)
  | 0, _, _, _ => none
  | fuel + 1, depth, entries, cs => do
    let (key, rest) ← takeKey? maxDepth cs
    match rest with
    | '=' :: rest =>
      let (v, rest) ← takeValue? fuel depth (rest.dropWhile isBlank)
      let entries ← addDotted (.value v) key entries
      match rest.dropWhile isBlank with
      | ',' :: rest => takeMembers? fuel depth entries rest
      | '\x7d' :: rest => some (entries, rest)
      | _ => none
    | _ => none

end

/-- Takes the rest of a line: blanks and a comment. -/
def endLine? (cs : List Char) : Option (List Char) :=
  let rest := match cs.dropWhile isBlank with
    | '#' :: rest => rest.dropWhile isTextChar
    | rest => rest
  match rest with
  | [] => some []
  | '\n' :: rest => some rest
  | '\r' :: '\n' :: rest => some rest
  | _ => none

/-- Takes a line that is not blank: a header, or a key with its value. -/
def takeLine? (d : Draft) (cs : List Char) : Option (Draft × List Char) := do
  match cs with
  | '[' :: '[' :: rest =>
    let (path, rest) ← takeKey? maxDepth rest
    match rest with
    | ']' :: ']' :: rest => (d.beginItem path).map fun d => (d, rest)
    | _ => none
  | '[' :: rest =>
    let (path, rest) ← takeKey? maxDepth rest
    match rest with
    | ']' :: rest => (d.beginTable path).map fun d => (d, rest)
    | _ => none
  | _ =>
    let (key, rest) ← takeKey? maxDepth cs
    match rest with
    | '=' :: rest =>
      let (v, rest) ← takeValue? (rest.length + 1) maxDepth (rest.dropWhile isBlank)
      (d.add key v).map fun d => (d, rest)
    | _ => none

/-- Takes all lines. Each takes at least one character, so as much fuel as there are
characters is enough. -/
def takeLines? : (fuel : Nat) → Draft → List Char → Option Entries
  | 0, d, cs => if cs.isEmpty then d.finish else none
  | fuel + 1, d, cs => do
    match cs.dropWhile isBlank with
    | [] => d.finish
    | '#' :: rest => takeLines? fuel d (← endLine? ('#' :: rest))
    | '\n' :: rest => takeLines? fuel d rest
    | '\r' :: '\n' :: rest => takeLines? fuel d rest
    | cs =>
      let (d, rest) ← takeLine? d cs
      takeLines? fuel d (← endLine? rest)

/-- The table that a TOML text describes. A byte order mark at its start is passed over. -/
def parse? (text : String) : Option Toml :=
  let cs := match text.toList with
    | '\uFEFF' :: rest => rest
    | cs => cs
  (takeLines? (cs.length + 1) {} cs).map fun entries => .table (entriesToToml entries)

end DailyBars.Toml
