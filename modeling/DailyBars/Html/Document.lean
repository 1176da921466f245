/-! # Documents

The elements of a page, numbered in the order in which they came to be, each with what it
holds. Number zero is the document itself, which holds the outermost element. An element may
have been taken out again; then it lies in nothing.
-/

namespace DailyBars.Html

/-- The language that an element belongs to. -/
inductive Space where
  | html
  | svg
  | math
deriving DecidableEq, Repr

/-- A part of the content of an element. -/
inductive Child where
  | element (id : Nat)
  | text (chars : List Char)
deriving DecidableEq, Repr

/-- An element: its name, its attributes, the element it lies in, and its content, the last
part first. -/
structure Element where
  name : String
  space : Space := .html
  attributes : List (String × String) := []
  parent : Option Nat := none
  content : List Child := []
deriving Repr, Inhabited

/-- The elements by number. -/
structure Document where
  elements : Array Element
deriving Repr

namespace Document

/-- A document that holds nothing. -/
def empty : Document := ⟨#[{ name := "" }]⟩

/-- The element of a number. -/
def get (d : Document) (id : Nat) : Element := (d.elements[id]?).getD default

/-- Changes one element. -/
def change (d : Document) (id : Nat) (f : Element → Element) : Document :=
  ⟨d.elements.modify id f⟩

/-- A new element that lies in nothing, and its number. -/
def create (d : Document) (e : Element) : Nat × Document :=
  (d.elements.size, ⟨d.elements.push e⟩)

/-! ## Changing the content -/

/-- Where a part of a content goes: to the end of an element, or before an element. -/
inductive Spot where
  | inside (parent : Nat)
  | before (sibling : Nat)
deriving DecidableEq, Repr

/-- Puts a part before a sibling, in a list with the last part first. -/
def putBefore (sibling : Nat) (part : Child) : List Child → List Child
  | [] => [part]
  | c :: rest => if c = .element sibling then c :: part :: rest else c :: putBefore sibling part rest

/-- Puts a part at a spot, and says which element it lies in then. -/
def put (d : Document) (part : Child) : Spot → Document × Option Nat
  | .inside parent => (d.change parent fun e => { e with content := part :: e.content }, some parent)
  | .before sibling =>
    match (d.get sibling).parent with
    | some parent =>
      (d.change parent fun e => { e with content := putBefore sibling part e.content }, some parent)
    | none => (d, none)

/-- Puts a text at a spot. -/
def putText (d : Document) (chars : List Char) (s : Spot) : Document := (d.put (.text chars) s).1

/-- Puts an element that lies in nothing at a spot. -/
def putElement (d : Document) (id : Nat) (s : Spot) : Document :=
  let (d, parent) := d.put (.element id) s
  d.change id fun e => { e with parent }

/-- Takes an element out of the one it lies in. -/
def detach (d : Document) (id : Nat) : Document :=
  match (d.get id).parent with
  | some parent =>
    (d.change parent fun e => { e with content := e.content.filter (· != .element id) }).change id
      fun e => { e with parent := none }
  | none => d

/-- Moves the content of an element to the end of another. -/
def moveContent (d : Document) (source target : Nat) : Document :=
  let content := (d.get source).content
  let d := d.change source fun e => { e with content := [] }
  let d := d.change target fun e => { e with content := content ++ e.content }
  content.foldl (fun d part => match part with
    | .element id => d.change id fun e => { e with parent := some target }
    | .text _ => d) d

/-- Gives an element the attributes that it does not have yet. -/
def addAttributes (d : Document) (id : Nat) (attributes : List (String × String)) : Document :=
  d.change id fun e =>
    { e with attributes := e.attributes ++ attributes.filter fun a => !e.attributes.any (·.1 == a.1) }

/-! ## Reading -/

/-- The value of an attribute. -/
def attribute? (d : Document) (id : Nat) (name : String) : Option String :=
  (d.get id).attributes.lookup name

/-- The elements that lie in something, in the order in which they came to be. -/
def attached (d : Document) : List Nat :=
  (List.range d.elements.size).filter fun id => (d.get id).parent.isSome

/-- The elements of a name, in the order in which they came to be. -/
def named (d : Document) (name : String) : List Nat :=
  d.attached.filter fun id => (d.get id).name == name

/-- The parts of an element and of the elements in it, in the order of the page, as far as they
lie at most `depth` deep. -/
def partsWithin (d : Document) : Nat → Nat → List Child
  | 0, _ => []
  | depth + 1, id => (d.get id).content.reverse.flatMap fun part =>
    match part with
    | .element inner => .element inner :: d.partsWithin depth inner
    | .text chars => [.text chars]

/-- The parts of an element and of the elements in it. No element is deeper than there are
elements. -/
def parts (d : Document) (id : Nat) : List Child := d.partsWithin d.elements.size id

/-- The elements of a name within an element, in the order of the page. -/
def namedWithin (d : Document) (id : Nat) (name : String) : List Nat :=
  (d.parts id).filterMap fun part =>
    match part with
    | .element inner => if (d.get inner).name == name then some inner else none
    | .text _ => none

/-- The texts within an element, one after another. -/
def text (d : Document) (id : Nat) : String :=
  String.ofList ((d.parts id).flatMap fun part =>
    match part with
    | .element _ => []
    | .text chars => chars)

end Document
end DailyBars.Html
