import DailyBars.Html.Construction

/-! # Where the words of a page go

For each mode, what a word of the page does to the document under construction. A word that a
mode has no use for may be given on to another mode, so the rules say of every word whether
it has been taken.
-/

namespace DailyBars.Html

namespace Construction

/-- What became of a word: it has been taken, or it is still to be taken. -/
inductive Step where
  | done (c : Construction)
  | again (c : Construction)

namespace Step

/-- The construction after a step. -/
def after : Step → Construction
  | done c => c
  | again c => c

/-- Changes the construction after a step. -/
def map (f : Construction → Construction) : Step → Step
  | done c => done (f c)
  | again c => again (f c)

end Step

/-- The word is still to be taken, under other rules. -/
def pass (c : Construction) (mode : Mode) : Step := .again { c with mode }

/-- The word is taken, and other rules come into force. -/
def turn (c : Construction) (mode : Mode) : Step := .done { c with mode }

/-- Frames may no longer take the place of the body. -/
def noFrames (c : Construction) : Construction := { c with mayHaveFrames := false }

/-- Gives the outermost element more attributes. -/
def extendRoot (c : Construction) (tag : Tag) : Step :=
  if c.within ["template"] then .done c
  else .done { c with doc := c.doc.addAttributes (c.opened.getLast?.getD 0) tag.attributes }

/-! ## Before the body -/

/-- Words that belong into the head of a page. -/
def headTags : List String :=
  ["base", "basefont", "bgsound", "link", "meta", "noframes", "script", "style", "template", "title"]

/-- The end of a template. -/
def endTemplate (c : Construction) : Step :=
  if c.within ["template"] then
    let c := (c.closeThrough ["template"]).dropFormatting
    .done { c with templates := c.templates.drop 1 }.reset
  else .done c

/-- A tag in the head, if it belongs there. -/
def headTag? (c : Construction) (tag : Tag) : Option Construction :=
  match tag.name with
  | "base" | "basefont" | "bgsound" | "link" | "meta" => some (c.putTag tag)
  | "title" => some (c.openText tag .referenced)
  | "noframes" | "style" | "noscript" => some (c.openText tag .raw)
  | "script" => some (c.openText tag .script)
  | "template" =>
    let c := (c.openTag tag).fence.noFrames
    some { c with mode := .template, templates := .template :: c.templates }
  | _ => none

/-- The rules of the head. -/
def headRule (c : Construction) (t : Token) : Step :=
  let leave := c.close.pass .afterHead
  match t with
  | .text .blank chars => .done (c.putText chars)
  | .aside => .done c
  | .startTag tag =>
    if tag.name = "html" then c.extendRoot tag
    else if tag.name = "head" then .done c
    else match c.headTag? tag with
      | some c => .done c
      | none => leave
  | .endTag "head" => c.close.turn .afterHead
  | .endTag "template" => c.endTemplate
  | .endTag "body" | .endTag "html" | .endTag "br" => leave
  | .endTag _ => .done c
  | .text _ _ => leave

/-- The rules at the very start of a page. -/
def initialRule (c : Construction) (t : Token) : Step :=
  let root := fun (tag : Tag) =>
    let (id, doc) := c.doc.create { name := "html", attributes := tag.attributes }
    { c with doc := doc.putElement id (.inside 0), opened := [id] }
  match t with
  | .text .blank _ | .aside => .done c
  | .startTag tag =>
    if tag.name = "html" then (root tag).turn .beforeHead
    else (root { name := "html" }).pass .beforeHead
  | .endTag "head" | .endTag "body" | .endTag "html" | .endTag "br" | .text _ _ =>
    (root { name := "html" }).pass .beforeHead
  | .endTag _ => .done c

/-- The rules before the head. -/
def beforeHeadRule (c : Construction) (t : Token) : Step :=
  let begin := fun (tag : Tag) =>
    let c := c.openTag tag
    { c with head := c.opened.head? }
  match t with
  | .text .blank _ | .aside => .done c
  | .startTag tag =>
    if tag.name = "html" then c.extendRoot tag
    else if tag.name = "head" then (begin tag).turn .head
    else (begin { name := "head" }).pass .head
  | .endTag "head" | .endTag "body" | .endTag "html" | .endTag "br" | .text _ _ =>
    (begin { name := "head" }).pass .head
  | .endTag _ => .done c

/-- The rules between the head and the body. -/
def afterHeadRule (c : Construction) (t : Token) : Step :=
  let leave := (c.openNamed "body").pass .body
  match t with
  | .text .blank chars => .done (c.putText chars)
  | .aside => .done c
  | .startTag tag =>
    if tag.name = "html" then c.extendRoot tag
    else if tag.name = "body" then (c.openTag tag).noFrames.turn .body
    else if tag.name = "frameset" then (c.openTag tag).turn .frames
    else if tag.name = "head" then .done c
    else if headTags.contains tag.name then
      let head := c.head.getD 0
      ({ c with opened := head :: c.opened }.headRule t).map (·.forget head)
    else leave
  | .endTag "template" => c.endTemplate
  | .endTag "body" | .endTag "html" | .endTag "br" | .text _ _ => leave
  | .endTag _ => .done c

/-! ## In the body -/

/-- A heading. -/
def headings : List String := ["h1", "h2", "h3", "h4", "h5", "h6"]

/-- Closes the item of a list that the next item ends. -/
def closeItem (c : Construction) (names : List String) : Construction :=
  let barriers := specials.filter fun s => !(["address", "div", "p"].contains s)
  match c.opened.find? fun id => c.isOneOf names id || c.isOneOf barriers id with
  | some id => if c.isOneOf names id then c.closeThrough [(c.doc.get id).name] else c
  | none => c

/-- An input that is not shown. -/
def isHidden (tag : Tag) : Bool :=
  (tag.attributes.lookup "type").any fun v => nameOf v.toList == "hidden"

/-- A link ends one that is open. -/
def closeLink (c : Construction) : Construction :=
  match c.formattingHere.find? fun id => (c.doc.get id).name == "a" with
  | some id =>
    let c := c.endFormatting "a"
    { c with
      formatting := c.formatting.filter (· != some id)
      opened := c.opened.filter (· != id) }
  | none => c

/-- An element of a formula or a drawing. -/
def openForeign (c : Construction) (space : Space) (tag : Tag) : Construction :=
  if tag.selfClosing then (c.add tag.name tag.attributes space).2 else c.openIn space tag

/-- The frames of a page take the place of its body. -/
def replaceBody (c : Construction) (tag : Tag) : Step :=
  match c.opened.reverse with
  | root :: body :: _ =>
    if c.mayHaveFrames && c.isOneOf ["body"] body then
      ({ c with doc := c.doc.detach body, opened := [root] }.openTag tag).turn .frames
    else .done c
  | _ => .done c

/-- Gives the body more attributes. -/
def extendBody (c : Construction) (tag : Tag) : Construction :=
  match c.opened.reverse with
  | _ :: body :: _ =>
    if c.isOneOf ["body"] body && !c.within ["template"] then
      { c with doc := c.doc.addAttributes body tag.attributes }.noFrames
    else c
  | _ => c

/-- A form. There are none inside another, but for those of templates. -/
def openForm (c : Construction) (tag : Tag) : Construction :=
  let free := c.within ["template"]
  if c.form.isSome && !free then c
  else
    let c := c.closeParagraph.openTag tag
    if free then c else { c with form := c.opened.head? }

/-- The choices of a page have rules of their own. -/
def openSelect (c : Construction) (tag : Tag) : Construction :=
  let inTable := [Mode.table, .caption, .rows, .row, .cell].contains c.mode
  let c := (c.reopen.openTag tag).noFrames
  { c with mode := if inTable then .selectInTable else .select }

/-- A start tag in the body. -/
def bodyStart (c : Construction) (tag : Tag) : Step :=
  match tag.name with
  | "html" => c.extendRoot tag
  | "base" | "basefont" | "bgsound" | "link" | "meta" | "noframes" | "script" | "style"
  | "template" | "title" => c.headRule (.startTag tag)
  | "body" => .done (c.extendBody tag)
  | "frameset" => c.replaceBody tag
  | "address" | "article" | "aside" | "blockquote" | "center" | "details" | "dialog" | "dir"
  | "div" | "dl" | "fieldset" | "figcaption" | "figure" | "footer" | "header" | "hgroup" | "main"
  | "menu" | "nav" | "ol" | "p" | "search" | "section" | "summary" | "ul" =>
    .done (c.closeParagraph.openTag tag)
  | "h1" | "h2" | "h3" | "h4" | "h5" | "h6" =>
    let c := c.closeParagraph
    .done ((if c.inside headings then c.close else c).openTag tag)
  | "pre" | "listing" =>
    .done { (c.closeParagraph.openTag tag).noFrames with skipsBreak := true }
  | "form" => .done (c.openForm tag)
  | "li" => .done ((c.noFrames.closeItem ["li"]).closeParagraph.openTag tag)
  | "dd" | "dt" => .done ((c.noFrames.closeItem ["dd", "dt"]).closeParagraph.openTag tag)
  | "plaintext" => .done { c.closeParagraph.openTag tag with content := .plain }
  | "button" =>
    let c := if c.has ["button"] then c.closeThrough ["button"] else c
    .done (c.reopen.openTag tag).noFrames
  | "a" => .done (c.closeLink.reopen.openFormatting tag)
  | "b" | "big" | "code" | "em" | "font" | "i" | "s" | "small" | "strike" | "strong" | "tt"
  | "u" => .done (c.reopen.openFormatting tag)
  | "nobr" =>
    let c := c.reopen
    let c := if c.has ["nobr"] then (c.endFormatting "nobr").reopen else c
    .done (c.openFormatting tag)
  | "applet" | "marquee" | "object" => .done (c.reopen.openTag tag).fence.noFrames
  | "table" => (c.closeParagraph.openTag tag).noFrames.turn .table
  | "area" | "br" | "embed" | "img" | "keygen" | "wbr" => .done (c.reopen.putTag tag).noFrames
  | "image" => .done (c.reopen.putTag { tag with name := "img" }).noFrames
  | "input" =>
    let c := c.reopen.putTag tag
    .done (if isHidden tag then c else c.noFrames)
  | "param" | "source" | "track" => .done (c.putTag tag)
  | "hr" => .done (c.closeParagraph.putTag tag).noFrames
  | "textarea" => .done { c.noFrames.openText tag .referenced with skipsBreak := true }
  | "xmp" => .done (c.closeParagraph.reopen.noFrames.openText tag .raw)
  | "iframe" => .done (c.noFrames.openText tag .raw)
  | "noembed" | "noscript" => .done (c.openText tag .raw)
  | "select" => .done (c.openSelect tag)
  | "optgroup" | "option" =>
    .done ((if c.inside ["option"] then c.close else c).reopen.openTag tag)
  | "rb" | "rtc" => .done ((if c.has ["ruby"] then c.closeImplied "" else c).openTag tag)
  | "rp" | "rt" => .done ((if c.has ["ruby"] then c.closeImplied "rtc" else c).openTag tag)
  | "math" => .done (c.reopen.openForeign .math tag)
  | "svg" => .done (c.reopen.openForeign .svg tag)
  | "caption" | "col" | "colgroup" | "frame" | "head" | "tbody" | "td" | "tfoot" | "th"
  | "thead" | "tr" => .done c
  | _ => .done (c.reopen.openTag tag)

/-- The end of a form. Outside templates, elements in it stay open. -/
def endForm (c : Construction) : Construction :=
  if c.within ["template"] then
    if c.has ["form"] then c.closeThrough ["form"] else c
  else
    match c.form with
    | none => c
    | some form =>
      let c := { c with form := none }
      if reaches (· == form) (c.isBoundary []) c.opened then (c.closeImplied "").forget form
      else c

/-- An end tag in the body. -/
def bodyEnd (c : Construction) (name : String) : Step :=
  match name with
  | "template" => c.endTemplate
  | "body" => if c.has ["body"] then c.turn .afterBody else .done c
  | "html" => if c.has ["body"] then c.pass .afterBody else .done c
  | "address" | "article" | "aside" | "blockquote" | "button" | "center" | "details" | "dialog"
  | "dir" | "div" | "dl" | "fieldset" | "figcaption" | "figure" | "footer" | "header" | "hgroup"
  | "listing" | "main" | "menu" | "nav" | "ol" | "pre" | "search" | "section" | "summary" | "ul" =>
    .done (if c.has [name] then c.closeThrough [name] else c)
  | "form" => .done c.endForm
  | "p" => .done (if c.hasParagraph then c else c.openNamed "p").closeParagraph
  | "li" => .done (if c.hasInList ["li"] then c.closeThrough ["li"] else c)
  | "dd" | "dt" => .done (if c.has [name] then c.closeThrough [name] else c)
  | "h1" | "h2" | "h3" | "h4" | "h5" | "h6" =>
    .done (if c.has headings then c.closeThrough headings else c)
  | "a" | "b" | "big" | "code" | "em" | "font" | "i" | "nobr" | "s" | "small" | "strike"
  | "strong" | "tt" | "u" => .done (c.endFormatting name)
  | "applet" | "marquee" | "object" =>
    .done (if c.has [name] then (c.closeThrough [name]).dropFormatting else c)
  | "br" => c.bodyStart { name := "br" }
  | _ => .done (c.closeOrdinary name)

/-- The rules of the body. -/
def bodyRule (c : Construction) (t : Token) : Step :=
  match t with
  | .text .null _ | .aside => .done c
  | .text .blank chars => .done (c.reopen.putText chars)
  | .text .visible chars => .done (c.reopen.putText chars).noFrames
  | .startTag tag => c.bodyStart tag
  | .endTag name => c.bodyEnd name

/-- The rules of an element with one text. -/
def textRule (c : Construction) (t : Token) : Step :=
  match t with
  | .text _ chars => .done (c.putText chars)
  | .endTag _ => { c.close with content := .markup }.turn c.resumed
  | .startTag _ | .aside => .done c

/-! ## In tables -/

/-- The rules of the body for a word that has no place in a table. -/
def fosterRule (c : Construction) (t : Token) : Step :=
  ({ c with fostering := true }.bodyRule t).map fun c => { c with fostering := false }

/-- Parts of a table. -/
def tableParts : List String :=
  ["caption", "col", "colgroup", "tbody", "td", "tfoot", "th", "thead", "tr"]

/-- Groups of rows. -/
def rowGroups : List String := ["tbody", "tfoot", "thead"]

/-- A start tag in a table. -/
def tableStart (c : Construction) (tag : Tag) : Step :=
  let c' := c.closeTo tableBounds
  match tag.name with
  | "caption" => (c'.fence.openTag tag).turn .caption
  | "colgroup" => (c'.openTag tag).turn .columns
  | "col" => (c'.openNamed "colgroup").pass .columns
  | "tbody" | "tfoot" | "thead" => (c'.openTag tag).turn .rows
  | "td" | "th" | "tr" => (c'.openNamed "tbody").pass .rows
  | "table" =>
    if c.hasInTable ["table"] then .again (c.closeThrough ["table"]).reset else .done c
  | "style" | "script" | "template" => c.headRule (.startTag tag)
  | "input" => if isHidden tag then .done (c.putTag tag) else c.fosterRule (.startTag tag)
  | "form" =>
    if c.form.isSome || c.within ["template"] then .done c
    else
      let (id, c) := c.add tag.name tag.attributes .html
      .done { c with form := some id }
  | _ => c.fosterRule (.startTag tag)

/-- The rules of a table. -/
def tableRule (c : Construction) (t : Token) : Step :=
  match t with
  | .text _ _ =>
    if c.inside ["table", "tbody", "template", "tfoot", "thead", "tr"] then
      { c with resumed := c.mode }.pass .tableText
    else c.fosterRule t
  | .aside => .done c
  | .startTag tag => c.tableStart tag
  | .endTag "table" =>
    if c.hasInTable ["table"] then .done (c.closeThrough ["table"]).reset else .done c
  | .endTag "template" => c.endTemplate
  | .endTag name =>
    if (["body", "html"] ++ tableParts).contains name then .done c else c.fosterRule t

/-- Puts texts between the cells of a table: white space into the table, and everything as soon
as there is more before the table. -/
def putPending (c : Construction) : Construction :=
  let texts := c.pending.reverse
  let c := { c with pending := [] }
  if texts.any (·.1 == .visible) then
    texts.foldl (fun c (kind, chars) => (c.fosterRule (.text kind chars)).after) c
  else texts.foldl (fun c (_, chars) => c.putText chars) c

/-- The rules of texts between the cells of a table. -/
def tableTextRule (c : Construction) (t : Token) : Step :=
  match t with
  | .text .null _ => .done c
  | .text kind chars => .done { c with pending := (kind, chars) :: c.pending }
  | _ => c.putPending.pass c.resumed

/-- Closes a caption. -/
def closeCaption (c : Construction) : Construction := (c.closeThrough ["caption"]).dropFormatting

/-- The rules of a caption. -/
def captionRule (c : Construction) (t : Token) : Step :=
  let leave := if c.hasInTable ["caption"] then c.closeCaption.pass .table else .done c
  match t with
  | .startTag tag => if tableParts.contains tag.name then leave else c.bodyRule t
  | .endTag "caption" =>
    if c.hasInTable ["caption"] then c.closeCaption.turn .table else .done c
  | .endTag "table" => leave
  | .endTag name =>
    if (["body", "html"] ++ tableParts).contains name then .done c else c.bodyRule t
  | _ => c.bodyRule t

/-- The rules of a group of columns. -/
def columnsRule (c : Construction) (t : Token) : Step :=
  let leave := if c.inside ["colgroup"] then c.close.pass .table else .done c
  match t with
  | .text .blank chars => .done (c.putText chars)
  | .aside => .done c
  | .startTag tag =>
    match tag.name with
    | "html" => c.extendRoot tag
    | "col" => .done (c.putTag tag)
    | "template" => c.headRule t
    | _ => leave
  | .endTag "colgroup" => if c.inside ["colgroup"] then c.close.turn .table else .done c
  | .endTag "col" => .done c
  | .endTag "template" => c.endTemplate
  | _ => leave

/-- The rules between rows. -/
def rowsRule (c : Construction) (t : Token) : Step :=
  let c' := c.closeTo (["html", "template"] ++ rowGroups)
  let leave := if c.hasInTable rowGroups then c'.close.pass .table else .done c
  match t with
  | .startTag tag =>
    match tag.name with
    | "tr" => (c'.openTag tag).turn .row
    | "td" | "th" => (c'.openNamed "tr").pass .row
    | "caption" | "col" | "colgroup" | "tbody" | "tfoot" | "thead" => leave
    | _ => c.tableRule t
  | .endTag "table" => leave
  | .endTag name =>
    if rowGroups.contains name then
      if c.hasInTable [name] then c'.close.turn .table else .done c
    else if (["body", "html"] ++ tableParts).contains name then .done c
    else c.tableRule t
  | _ => c.tableRule t

/-- The rules between cells. -/
def rowRule (c : Construction) (t : Token) : Step :=
  let c' := c.closeTo ["html", "template", "tr"]
  let leave := if c.hasInTable ["tr"] then c'.close.pass .rows else .done c
  match t with
  | .startTag tag =>
    match tag.name with
    | "td" | "th" => (c'.openTag tag).fence.turn .cell
    | "caption" | "col" | "colgroup" | "tbody" | "tfoot" | "thead" | "tr" => leave
    | _ => c.tableRule t
  | .endTag "tr" => if c.hasInTable ["tr"] then c'.close.turn .rows else .done c
  | .endTag "table" => leave
  | .endTag name =>
    if rowGroups.contains name then if c.hasInTable [name] then leave else .done c
    else if (["body", "html"] ++ tableParts).contains name then .done c
    else c.tableRule t
  | _ => c.tableRule t

/-- Closes a cell. -/
def closeCell (c : Construction) : Construction := (c.closeThrough ["td", "th"]).dropFormatting

/-- The rules of a cell. -/
def cellRule (c : Construction) (t : Token) : Step :=
  match t with
  | .startTag tag =>
    if tableParts.contains tag.name then
      if c.hasInTable ["td", "th"] then c.closeCell.pass .row else .done c
    else c.bodyRule t
  | .endTag name =>
    match name with
    | "td" | "th" =>
      if c.hasInTable [name] then (c.closeThrough [name]).dropFormatting.turn .row else .done c
    | "body" | "caption" | "col" | "colgroup" | "html" => .done c
    | "table" | "tbody" | "tfoot" | "thead" | "tr" =>
      if c.hasInTable [name] then c.closeCell.pass .row else .done c
    | _ => c.bodyRule t
  | _ => c.bodyRule t

/-! ## Choices and templates -/

/-- The end of a group of options, with the option in it. -/
def endOptions (c : Construction) : Construction :=
  let c := match c.opened with
    | a :: b :: _ => if c.isOneOf ["option"] a && c.isOneOf ["optgroup"] b then c.close else c
    | _ => c
  if c.inside ["optgroup"] then c.close else c

/-- Ends a choice. -/
def endSelect (c : Construction) : Construction :=
  if c.hasSelect then (c.closeThrough ["select"]).reset else c

/-- The rules of a choice. -/
def selectRule (c : Construction) (t : Token) : Step :=
  let c' := if c.inside ["option"] then c.close else c
  match t with
  | .text .null _ | .aside => .done c
  | .text _ chars => .done (c.putText chars)
  | .startTag tag =>
    match tag.name with
    | "html" => c.extendRoot tag
    | "option" => .done (c'.openTag tag)
    | "optgroup" => .done ((if c'.inside ["optgroup"] then c'.close else c').openTag tag)
    | "hr" => .done ((if c'.inside ["optgroup"] then c'.close else c').putTag tag)
    | "select" => .done c.endSelect
    | "input" | "keygen" | "textarea" => if c.hasSelect then .again c.endSelect else .done c
    | "script" | "template" => c.headRule t
    | _ => .done c
  | .endTag "optgroup" => .done c.endOptions
  | .endTag "option" => .done c'
  | .endTag "select" => .done c.endSelect
  | .endTag "template" => c.endTemplate
  | .endTag _ => .done c

/-- Parts of a table that end a choice in it. -/
def choiceEnds : List String := ["caption", "table", "tbody", "tfoot", "thead", "tr", "td", "th"]

/-- The rules of a choice in a table. -/
def selectInTableRule (c : Construction) (t : Token) : Step :=
  let leave := Step.again (c.closeThrough ["select"]).reset
  match t with
  | .startTag tag => if choiceEnds.contains tag.name then leave else c.selectRule t
  | .endTag name =>
    if choiceEnds.contains name then if c.hasInTable [name] then leave else .done c
    else c.selectRule t
  | _ => c.selectRule t

/-- The rules of a template, which depend on the first tag in it. -/
def templateRule (c : Construction) (t : Token) : Step :=
  let become := fun (mode : Mode) => { c with templates := mode :: c.templates.drop 1 }.pass mode
  match t with
  | .startTag tag =>
    if headTags.contains tag.name then c.headRule t
    else match tag.name with
      | "caption" | "colgroup" | "tbody" | "tfoot" | "thead" => become .table
      | "col" => become .columns
      | "tr" => become .rows
      | "td" | "th" => become .row
      | _ => become .body
  | .endTag "template" => c.endTemplate
  | .endTag _ => .done c
  | _ => c.bodyRule t

/-! ## After the body -/

/-- The rules after the body. -/
def afterBodyRule (c : Construction) (t : Token) : Step :=
  match t with
  | .text .blank _ => c.bodyRule t
  | .aside => .done c
  | .endTag "html" => if c.isPart then .done c else c.turn .afterPage
  | .startTag tag => if tag.name = "html" then c.extendRoot tag else c.pass .body
  | _ => c.pass .body

/-- The rules of frames. -/
def framesRule (c : Construction) (t : Token) : Step :=
  match t with
  | .text .blank chars => .done (c.putText chars)
  | .startTag tag =>
    match tag.name with
    | "html" => c.extendRoot tag
    | "frameset" => .done (c.openTag tag)
    | "frame" => .done (c.putTag tag)
    | "noframes" => c.headRule t
    | _ => .done c
  | .endTag "frameset" =>
    if c.opened.length ≤ 1 then .done c
    else
      let c := c.close
      if c.isPart || c.inside ["frameset"] then .done c else c.turn .afterFrames
  | _ => .done c

/-- The rules after the frames. -/
def afterFramesRule (c : Construction) (t : Token) : Step :=
  match t with
  | .text .blank chars => .done (c.putText chars)
  | .startTag tag =>
    if tag.name = "html" then c.extendRoot tag
    else if tag.name = "noframes" then c.headRule t
    else .done c
  | .endTag "html" => c.turn .afterFramePage
  | _ => .done c

/-- The rules after the page. -/
def afterPageRule (c : Construction) (t : Token) : Step :=
  match t with
  | .text .blank _ => c.bodyRule t
  | .aside => .done c
  | .startTag tag => if tag.name = "html" then c.extendRoot tag else c.pass .body
  | _ => c.pass .body

/-- The rules after a page with frames. -/
def afterFramePageRule (c : Construction) (t : Token) : Step :=
  match t with
  | .text .blank _ => c.bodyRule t
  | .startTag tag =>
    if tag.name = "html" then c.extendRoot tag
    else if tag.name = "noframes" then c.headRule t
    else .done c
  | _ => .done c

/-! ## All rules -/

/-- The rules in force. -/
def rule (c : Construction) (t : Token) : Step :=
  match c.mode with
  | .initial => c.initialRule t
  | .beforeHead => c.beforeHeadRule t
  | .head => c.headRule t
  | .afterHead => c.afterHeadRule t
  | .body => c.bodyRule t
  | .text => c.textRule t
  | .table => c.tableRule t
  | .tableText => c.tableTextRule t
  | .caption => c.captionRule t
  | .columns => c.columnsRule t
  | .rows => c.rowsRule t
  | .row => c.rowRule t
  | .cell => c.cellRule t
  | .select => c.selectRule t
  | .selectInTable => c.selectInTableRule t
  | .template => c.templateRule t
  | .afterBody => c.afterBodyRule t
  | .frames => c.framesRule t
  | .afterFrames => c.afterFramesRule t
  | .afterPage => c.afterPageRule t
  | .afterFramePage => c.afterFramePageRule t

/-! ## Drawings and formulas -/

/-- The innermost open element. -/
def innermost (c : Construction) : Element := c.doc.get (c.opened.head?.getD 0)

/-- The word belongs to a drawing or a formula. -/
def isForeign (c : Construction) (t : Token) : Bool :=
  let e := c.innermost
  if e.space = .html then false
  else
    match t with
    | .text _ _ => !(isFormulaText e || isDrawingText e)
    | .startTag tag =>
      !((isFormulaText e && !(["mglyph", "malignmark"].contains tag.name)) || isDrawingText e ||
        (e.space == .math && e.name == "annotation-xml" && tag.name == "svg"))
    | _ => true

/-- Tags of the page's own language that end drawings and formulas. -/
def foreignEnds : List String := [
  "b", "big", "blockquote", "body", "br", "center", "code", "dd", "div", "dl", "dt", "em", "embed",
  "h1", "h2", "h3", "h4", "h5", "h6", "head", "hr", "i", "img", "li", "listing", "menu", "meta",
  "nobr", "ol", "p", "pre", "ruby", "s", "small", "span", "strong", "strike", "sub", "sup", "table",
  "tt", "u", "ul", "var"]

/-- The tag ends drawings and formulas. -/
def endsForeign (tag : Tag) : Bool :=
  foreignEnds.contains tag.name ||
    (tag.name == "font" && tag.attributes.any fun a => ["color", "face", "size"].contains a.1)

/-- Closes drawings and formulas. -/
def leaveForeign (c : Construction) : Construction :=
  { c with opened := c.opened.dropWhile fun id =>
      let e := c.doc.get id
      !(e.space == .html || isFormulaText e || isDrawingText e) }

/-- The end tag of an element of a drawing or a formula: the open elements after it, or nothing
when an element of the page's own language is met first. -/
def closeForeign? (c : Construction) (name : String) : List Nat → Option (List Nat)
  | [] => some c.opened
  | [_] => some c.opened
  | id :: rest =>
    let e := c.doc.get id
    if e.space = .html then none
    else if e.name = name then some rest
    else c.closeForeign? name rest

/-- The rules of drawings and formulas. -/
def foreignRule (c : Construction) (t : Token) : Step :=
  match t with
  | .text .null chars => .done (c.putText (shown chars))
  | .text .blank chars => .done (c.putText chars)
  | .text .visible chars => .done (c.putText chars).noFrames
  | .aside => .done c
  | .startTag tag =>
    if endsForeign tag then c.leaveForeign.rule t
    else .done (c.openForeign c.innermost.space tag)
  | .endTag name =>
    if name = "p" ∨ name = "br" then c.leaveForeign.rule t
    else
      match c.closeForeign? name c.opened with
      | some opened => .done { c with opened }
      | none => c.rule t

/-- Takes a word, given on at most so many times. -/
def takeFrom : Nat → Token → Construction → Construction
  | 0, _, c => c
  | turns + 1, t, c =>
    match if c.isForeign t then c.foreignRule t else c.rule t with
    | .done c => c
    | .again c => takeFrom turns t c

/-- Takes a word. Each time that it is given on, an element is closed or the mode moves on. -/
def take (c : Construction) (t : Token) : Construction :=
  takeFrom (2 * c.opened.length + c.templates.length + 16) t c

/-- Takes a word, of which a line break at its front may not count. -/
def takeWord (c : Construction) (t : Token) : Construction :=
  let skips := c.skipsBreak
  let c := { c with skipsBreak := false }
  match t with
  | .text kind ('\n' :: rest) =>
    if skips then if rest.isEmpty then c else c.take (.text kind rest) else c.take t
  | t => c.take t

end Construction

/-! ## Whole pages -/

/-- Reads words until the page ends, at most so many. -/
def readFrom : Nat → List Char → Construction → Construction
  | 0, _, c => c
  | _, [], c => c
  | words + 1, first :: rest, c =>
    let e := c.innermost
    match word c.content e.name (e.space != .html) first rest with
    | (some t, rest) => readFrom words rest (c.takeWord t)
    | (none, rest) => readFrom words rest c

/-- Line breaks written in one way, in reverse before what was found so far. -/
def normalBreaks (found : List Char) : List Char → List Char
  | [] => found
  | '\r' :: '\n' :: rest => normalBreaks ('\n' :: found) rest
  | c :: rest => normalBreaks ((if c = '\r' then '\n' else c) :: found) rest

/-- The characters of a page, without the mark that may begin it. -/
def charactersOfPage (page : String) : List Char :=
  let cs := match page.toList with
    | '\uFEFF' :: rest => rest
    | cs => cs
  (normalBreaks [] cs).reverse

/-- Reads a page into a document under construction. Every word takes a character. -/
def read (c : Construction) (page : String) : Document :=
  let cs := charactersOfPage page
  let c := readFrom cs.length cs c
  c.putPending.doc

namespace Document

/-- The document of a page. -/
def ofPage (page : String) : Document := read {} page

/-- The document of a part of a page, read as the content of a body. -/
def ofPart (part : String) : Document :=
  let (id, doc) := Document.empty.create { name := "html" }
  read { doc := doc.putElement id (.inside 0), opened := [id], mode := .body, isPart := true } part

end Document
end DailyBars.Html
