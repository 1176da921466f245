import DailyBars.Html.Document
import DailyBars.Html.Token

/-! # Documents under construction

While a page is read, some elements are open: what comes next lies in the innermost of them.
The formatting elements that are in force are kept besides, because they go on in the next
paragraph or cell. Here are the steps in which the rules of the page change these two lists
and the document.
-/

namespace DailyBars.Html

/-- Which rules are in force. -/
inductive Mode where
  | initial
  | beforeHead
  | head
  | afterHead
  | body
  | text
  | table
  | tableText
  | caption
  | columns
  | rows
  | row
  | cell
  | select
  | selectInTable
  | template
  | afterBody
  | frames
  | afterFrames
  | afterPage
  | afterFramePage
deriving DecidableEq, Repr

/-- A document under construction. -/
structure Construction where
  doc : Document := .empty
  /-- The open elements, the innermost first. -/
  opened : List Nat := []
  /-- The formatting elements in force, the latest first; `none` separates those of a cell or
  the like from those outside it. -/
  formatting : List (Option Nat) := []
  mode : Mode := .initial
  /-- The rules that come back into force after a text. -/
  resumed : Mode := .initial
  /-- The rules of the open templates, the innermost first. -/
  templates : List Mode := []
  /-- Texts between the cells of a table, the latest first. -/
  pending : List (TextKind × List Char) := []
  head : Option Nat := none
  form : Option Nat := none
  /-- Frames may still take the place of the body. -/
  mayHaveFrames : Bool := true
  /-- A line break that comes next does not count. -/
  skipsBreak : Bool := false
  /-- What is put into a table goes before it. -/
  fostering : Bool := false
  /-- Only a part of a page is read, as the content of a body. -/
  isPart : Bool := false
  content : Content := .markup
deriving Repr

namespace Construction

/-! ## Looking at the open elements -/

/-- The element is one of the page's own language with one of these names. -/
def isOneOf (c : Construction) (names : List String) (id : Nat) : Bool :=
  let e := c.doc.get id
  e.space == .html && names.contains e.name

/-- The innermost open element is one of these. -/
def inside (c : Construction) (names : List String) : Bool := c.opened.head?.any (c.isOneOf names)

/-- One of these is open. -/
def within (c : Construction) (names : List String) : Bool := c.opened.any (c.isOneOf names)

/-- Whether a target is met among open elements, from the innermost out, before a boundary. -/
def reaches (target boundary : Nat → Bool) : List Nat → Bool
  | [] => false
  | id :: rest => target id || (!boundary id && reaches target boundary rest)

/-- Text in a formula is in the page's own language again. -/
def isFormulaText (e : Element) : Bool :=
  e.space == .math && ["mi", "mo", "mn", "ms", "mtext"].contains e.name

/-- Some elements of a drawing hold the page's own language. -/
def isDrawingText (e : Element) : Bool :=
  e.space == .svg && ["foreignobject", "desc", "title"].contains e.name

/-- Elements that most searches do not look beyond. -/
def isBoundary (c : Construction) (more : List String) (id : Nat) : Bool :=
  let e := c.doc.get id
  c.isOneOf (["applet", "caption", "html", "table", "td", "th", "marquee", "object", "template"] ++
    more) id || isFormulaText e || isDrawingText e

/-- One of these is open, not beyond a boundary. -/
def has (c : Construction) (names : List String) : Bool :=
  reaches (c.isOneOf names) (c.isBoundary []) c.opened

/-- A paragraph is open, not beyond a button. -/
def hasParagraph (c : Construction) : Bool :=
  reaches (c.isOneOf ["p"]) (c.isBoundary ["button"]) c.opened

/-- One of these is open, not beyond a list. -/
def hasInList (c : Construction) (names : List String) : Bool :=
  reaches (c.isOneOf names) (c.isBoundary ["ol", "ul"]) c.opened

/-- The elements that hold a table, and the table. -/
def tableBounds : List String := ["html", "table", "template"]

/-- One of these is open in the innermost table. -/
def hasInTable (c : Construction) (names : List String) : Bool :=
  reaches (c.isOneOf names) (c.isOneOf tableBounds) c.opened

/-- A choice is open with nothing but options in it. -/
def hasSelect (c : Construction) : Bool :=
  reaches (c.isOneOf ["select"]) (fun id => !c.isOneOf ["optgroup", "option"] id) c.opened

/-! ## Closing elements -/

/-- Closes the innermost element. -/
def close (c : Construction) : Construction := { c with opened := c.opened.drop 1 }

/-- Closes elements up to the innermost of these, and it too. -/
def closeThrough (c : Construction) (names : List String) : Construction :=
  { c with opened := (c.opened.dropWhile (!c.isOneOf names ·)).drop 1 }

/-- Closes elements up to the innermost of these, which stays open. -/
def closeTo (c : Construction) (names : List String) : Construction :=
  { c with opened := c.opened.dropWhile (!c.isOneOf names ·) }

/-- Elements whose end tag may be left out. -/
def impliedEnds : List String :=
  ["dd", "dt", "li", "option", "optgroup", "p", "rb", "rp", "rt", "rtc"]

/-- Closes elements whose end tag may be left out, but for one name. -/
def closeImplied (c : Construction) (except : String) : Construction :=
  { c with opened := c.opened.dropWhile (c.isOneOf (impliedEnds.filter (· != except))) }

/-- Closes an open paragraph. -/
def closeParagraph (c : Construction) : Construction :=
  if c.hasParagraph then c.closeThrough ["p"] else c

/-- Takes an element out of the open ones. -/
def forget (c : Construction) (id : Nat) : Construction :=
  { c with opened := c.opened.filter (· != id) }

/-- Drops the formatting elements of a cell or the like. -/
def dropFormatting (c : Construction) : Construction :=
  { c with formatting := (c.formatting.dropWhile (·.isSome)).drop 1 }

/-- Separates the formatting elements of a cell or the like from those outside it. -/
def fence (c : Construction) : Construction := { c with formatting := none :: c.formatting }

/-! ## Opening elements -/

/-- Where something goes that is put into an open table: before the table, unless a template
in it takes it up. -/
def fosterSpot (c : Construction) : List Nat → Document.Spot
  | [] => .inside (c.opened.getLast?.getD 0)
  | id :: rest =>
    if c.isOneOf ["template"] id then .inside id
    else if c.isOneOf ["table"] id then
      if (c.doc.get id).parent.isSome then .before id else .inside (rest.head?.getD 0)
    else c.fosterSpot rest

/-- Where something goes that is put into an element. -/
def spotIn (c : Construction) (target : Nat) : Document.Spot :=
  if c.fostering && c.isOneOf ["table", "tbody", "tfoot", "thead", "tr"] target then
    c.fosterSpot c.opened
  else .inside target

/-- Where the next part of the page goes. -/
def spot (c : Construction) : Document.Spot := c.spotIn (c.opened.head?.getD 0)

/-- Puts a new element where the next part of the page goes, and gives its number. -/
def add (c : Construction) (name : String) (attributes : List (String × String)) (space : Space) :
    Nat × Construction :=
  let spot := c.spot
  let (id, doc) := c.doc.create { name, attributes, space }
  (id, { c with doc := doc.putElement id spot })

/-- Opens a new element. -/
def openIn (c : Construction) (space : Space) (tag : Tag) : Construction :=
  let (id, c) := c.add tag.name tag.attributes space
  { c with opened := id :: c.opened }

/-- Opens a new element of the page's own language. -/
def openTag (c : Construction) (tag : Tag) : Construction := c.openIn .html tag

/-- Opens a new element without attributes. -/
def openNamed (c : Construction) (name : String) : Construction := c.openTag { name }

/-- Puts a new element that holds nothing. -/
def putTag (c : Construction) (tag : Tag) : Construction :=
  (c.add tag.name tag.attributes .html).2

/-- Puts a text where the next part of the page goes. -/
def putText (c : Construction) (chars : List Char) : Construction :=
  { c with doc := c.doc.putText chars c.spot }

/-- Opens an element with one text. -/
def openText (c : Construction) (tag : Tag) (content : Content) : Construction :=
  let c := c.openTag tag
  { c with resumed := c.mode, mode := .text, content }

/-- The rules that the open elements call for. -/
def modeOf (c : Construction) : List Nat → Mode
  | [] => .body
  | id :: rest =>
    let last := rest.isEmpty
    if last && c.isPart then .body
    else
      let e := c.doc.get id
      if e.space ≠ .html then c.modeOf rest
      else
        match e.name with
        | "select" =>
          match rest.find? (c.isOneOf ["template", "table"]) with
          | some outer => if c.isOneOf ["table"] outer then .selectInTable else .select
          | none => .select
        | "td" | "th" => if last then c.modeOf rest else .cell
        | "tr" => .row
        | "tbody" | "thead" | "tfoot" => .rows
        | "caption" => .caption
        | "colgroup" => .columns
        | "table" => .table
        | "template" => c.templates.head?.getD .body
        | "head" => if last then c.modeOf rest else .head
        | "body" => .body
        | "frameset" => .frames
        | "html" => if c.head.isSome then .afterHead else .beforeHead
        | _ => c.modeOf rest

/-- Puts the rules into force that the open elements call for. -/
def reset (c : Construction) : Construction := { c with mode := c.modeOf c.opened }

/-! ## Formatting elements -/

/-- Opens the formatting elements again that are in force but not open. -/
def reopen (c : Construction) : Construction :=
  let missing := c.formatting.takeWhile fun entry => entry.any fun id => !c.opened.contains id
  missing.reverse.foldl (fun c entry =>
    match entry with
    | none => c
    | some id =>
      let e := c.doc.get id
      let (copy, c) := c.add e.name e.attributes .html
      { c with
        opened := copy :: c.opened
        formatting := c.formatting.map fun f => if f = some id then some copy else f }) c

/-- The formatting elements in force since the last fence, the latest first. -/
def formattingHere (c : Construction) : List Nat :=
  (c.formatting.takeWhile (·.isSome)).filterMap id

/-- Two lists of attributes are the same but for their order. -/
def sameAttributes (a b : List (String × String)) : Bool :=
  a.length == b.length && a.all b.contains

/-- Opens a formatting element. Of three that are alike the earliest goes out of force. -/
def openFormatting (c : Construction) (tag : Tag) : Construction :=
  let alike := c.formattingHere.filter fun id =>
    let e := c.doc.get id
    e.name == tag.name && sameAttributes e.attributes tag.attributes
  let formatting :=
    if alike.length < 3 then c.formatting
    else match alike.getLast? with
      | some earliest => c.formatting.filter (· != some earliest)
      | none => c.formatting
  let (id, c) := { c with formatting }.add tag.name tag.attributes .html
  { c with opened := id :: c.opened, formatting := some id :: c.formatting }

/-- Elements that paragraphs and formatting do not reach across. -/
def specials : List String := [
  "address", "applet", "area", "article", "aside", "base", "basefont", "bgsound", "blockquote",
  "body", "br", "button", "caption", "center", "col", "colgroup", "dd", "details", "dir", "div",
  "dl", "dt", "embed", "fieldset", "figcaption", "figure", "footer", "form", "frame", "frameset",
  "h1", "h2", "h3", "h4", "h5", "h6", "head", "header", "hgroup", "hr", "html", "iframe", "img",
  "input", "isindex", "li", "link", "listing", "main", "marquee", "menu", "meta", "nav", "noembed",
  "noframes", "noscript", "object", "ol", "p", "param", "plaintext", "pre", "script", "section",
  "select", "source", "style", "summary", "table", "tbody", "td", "template", "textarea", "tfoot",
  "th", "thead", "title", "tr", "track", "ul", "wbr", "xmp"]

/-- Closes the innermost element of a name with all that is open in it, unless a special element
is in between. -/
def closeOrdinary (c : Construction) (name : String) : Construction :=
  if reaches (c.isOneOf [name]) (c.isOneOf specials) c.opened then
    let rest := (c.opened.dropWhile (!c.isOneOf [name] ·)).drop 1
    { c with opened := rest }
  else c

/-- What goes on when a formatting element ends inside a block: the block and what was put into
it move out of the element, and copies of the elements between them take its place. -/
structure Rearrangement where
  construction : Construction
  /-- The copies that stay open, the outermost first. -/
  kept : List Nat := []
  /-- What has moved last. -/
  moved : Nat
  /-- The copy after which the formatting element stays in force. -/
  after : Option Nat := none
  /-- How many elements have been looked at. -/
  count : Nat := 0

/-- Looks at one element between the block and the formatting element. -/
def rearrange (r : Rearrangement) (id : Nat) : Rearrangement :=
  let c := r.construction
  let count := r.count + 1
  if 3 < count then
    { r with construction := { c with formatting := c.formatting.filter (· != some id) }, count }
  else if !c.formatting.contains (some id) then { r with count }
  else
    let e := c.doc.get id
    let (copy, doc) := c.doc.create { name := e.name, attributes := e.attributes }
    let doc := (doc.detach r.moved).putElement r.moved (.inside copy)
    { construction :=
        { c with doc, formatting := c.formatting.map fun f => if f = some id then some copy else f }
      kept := copy :: r.kept
      moved := copy
      after := some (r.after.getD copy)
      count }

/-- Puts a formatting element into force next after another one. -/
def inForceAfter (entry previous : Nat) : List (Option Nat) → List (Option Nat)
  | [] => [some entry]
  | f :: rest =>
    if f = some previous then some entry :: f :: rest else f :: inForceAfter entry previous rest

/-- Ends a formatting element that reaches into a block: `block` is the outermost special element
that is open in it. -/
def splitAround (c : Construction) (target block : Nat) : Construction :=
  let above := c.opened.takeWhile (· != block)
  let between := ((c.opened.dropWhile (· != block)).drop 1).takeWhile (· != target)
  let outside := (c.opened.dropWhile (· != target)).drop 1
  let r := between.foldl rearrange { construction := c, moved := block }
  let c := r.construction
  let doc := c.doc.detach r.moved
  let spot := { c with doc }.spotIn (outside.head?.getD 0)
  let doc := doc.putElement r.moved spot
  let e := doc.get target
  let (copy, doc) := doc.create { name := e.name, attributes := e.attributes }
  let doc := (doc.moveContent block copy).putElement copy (.inside block)
  let formatting := match r.after with
    | none => c.formatting.map fun f => if f = some target then some copy else f
    | some previous => (inForceAfter copy previous c.formatting).filter (· != some target)
  { c with doc, formatting, opened := above ++ [copy, block] ++ r.kept.reverse ++ outside }

/-- Ends formatting elements of a name, at most so many times. -/
def endFormattingFrom : Nat → String → Construction → Construction
  | 0, _, c => c
  | rounds + 1, name, c =>
    match c.formattingHere.find? fun id => (c.doc.get id).name == name with
    | none => c.closeOrdinary name
    | some target =>
      if !c.opened.contains target then
        { c with formatting := c.formatting.filter (· != some target) }
      else if !reaches (· == target) (c.isBoundary []) c.opened then c
      else
        match (c.opened.takeWhile (· != target)).reverse.find? (c.isOneOf specials) with
        | none =>
          { c with
            opened := (c.opened.dropWhile (· != target)).drop 1
            formatting := c.formatting.filter (· != some target) }
        | some block => endFormattingFrom rounds name (c.splitAround target block)

/-- Ends a formatting element. -/
def endFormatting (c : Construction) (name : String) : Construction :=
  match c.opened with
  | id :: _ =>
    if c.isOneOf [name] id && !c.formatting.contains (some id) then c.close
    else endFormattingFrom 8 name c
  | [] => c

end Construction
end DailyBars.Html
