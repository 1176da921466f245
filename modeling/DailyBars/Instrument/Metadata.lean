import DailyBars.Json.Reader
import DailyBars.Store.FileTree
import DailyBars.Text.Basic
import DailyBars.Instrument.Symbol

/-! # Documents about instruments

Documents lie in folders named for exchanges, one file per ticker; a folder for cash holds one
file per currency. A library is what is found under several roots, which are searched in
order. Names of folders and files count in any case.
-/

namespace DailyBars

/-- What a document says about an instrument. -/
structure Metadata where
  symbol : String
  /-- In place of the folder's name. -/
  exchange : Option String
  name : Option String
  /-- The currency that prices are quoted in. -/
  currency : Option String
  isin : Option String
  kind : Option String
deriving DecidableEq, Repr

namespace Metadata

/-- The names of the fields. -/
def fieldNames : List String := ["symbol", "exchange", "name", "currency", "isin", "kind"]

/-- The document of a JSON record, in which every field may be left out. -/
def ofJson? (v : Json) : Option Metadata := do
  match ← v.fields? fieldNames 0 with
  | [symbol, exchange, name, currency, isin, kind] =>
    pure
      { symbol := ← match symbol with
          | none => some ""
          | some v => v.toText?
        exchange := ← Json.optionalField? Json.toText? exchange
        name := ← Json.optionalField? Json.toText? name
        currency := ← Json.optionalField? Json.toText? currency
        isin := ← Json.optionalField? Json.toText? isin
        kind := ← Json.optionalField? Json.toText? kind }
  | _ => none

/-- The document that a JSON text describes. -/
def parse? (text : String) : Option Metadata := (Json.parse? text).bind ofJson?

end Metadata

/-- A folder and its files in the order in which they are listed. A file that cannot be read
has no text. -/
structure MetadataFolder where
  name : String
  files : List (String × Option String)
deriving Repr

/-- A document that was found: the exchange it stands for, and the root, folder and file it
lies in. -/
structure MetadataHit where
  exchange : String
  doc : Metadata
  root : Nat
  folder : String
  file : String
deriving Repr

/-- The folders of a root with their files, in the order in which they are listed. -/
abbrev RootListing := List (String × List (String × Option String))

/-- For each root, its folders in order of name. -/
structure MetadataLibrary where
  roots : List (List MetadataFolder) := []
deriving Repr

namespace MetadataFolder

/-- The folder of cash. -/
def cash : String := "CASH"

/-- The folder holds cash, whatever the case of its name. -/
def isCash (f : MetadataFolder) : Bool := Text.sameLetters f.name cash

/-- The file is the document of a symbol: its name is the symbol, in any case, with `.json`
after it. -/
def isDocumentOf (symbol file : String) : Bool :=
  match Ticker.splitLast '.' file.toList with
  | some (stem, extension) =>
    !stem.isEmpty && extension == "json".toList && Text.sameLetters (String.ofList stem) symbol
  | none => false

/-- The document of a symbol in a folder that stands for `exchange`. Only the first file of
that name is looked at. -/
def find? (f : MetadataFolder) (exchange symbol : String) (root : Nat) : Option MetadataHit := do
  let (file, text) ← f.files.find? fun file => isDocumentOf symbol file.1
  let doc ← Metadata.parse? (← text)
  let doc := if doc.symbol.isEmpty then { doc with symbol := Text.upper symbol } else doc
  let own := doc.exchange.filter fun e => !(Text.trim e).isEmpty
  pure ⟨Text.upper (own.getD exchange), doc, root, f.name, file⟩

end MetadataFolder

namespace MetadataLibrary

/-- The document of a symbol: that of the first folder, by root and then by name, that has
one. The folder of cash is left out. -/
def find? (l : MetadataLibrary) (symbol : String) : Option MetadataHit :=
  l.roots.zipIdx.findSome? fun (folders, root) =>
    folders.findSome? fun f => if f.isCash then none else f.find? f.name symbol root

/-- The document of a currency in the first folder of cash of each root. -/
def findCash? (l : MetadataLibrary) (symbol : String) : Option MetadataHit :=
  l.roots.zipIdx.findSome? fun (folders, root) =>
    (folders.find? MetadataFolder.isCash).bind fun f => f.find? MetadataFolder.cash symbol root

/-- The folders of a listing in order of name. Their files stay as they are listed. -/
def foldersOf (listing : RootListing) : List MetadataFolder :=
  (listing.map fun e => ⟨e.1, e.2⟩).mergeSort fun f g => decide (f.name ≤ g.name)

/-- The library of several roots, as they are listed. -/
def ofListings (roots : List RootListing) : MetadataLibrary := ⟨roots.map foldersOf⟩

end MetadataLibrary

namespace RootListing

/-- The files of a folder with their texts. -/
def filesOf (entries : List (String × FileTree)) : List (String × Option String) :=
  entries.map fun
    | (name, .file text) => (name, some text)
    | (name, .folder _) => (name, none)

/-- The folders that lie under a path; none when there is no such folder. -/
def under (t : FileTree) (path : TreePath) : RootListing :=
  match t.list path with
  | .ok entries => entries.filterMap fun
    | (name, .folder inner) => some (name, filesOf inner)
    | (_, .file _) => none
  | .error _ => []

end RootListing

/-- The library under several roots. -/
def MetadataLibrary.ofTree (t : FileTree) (roots : List TreePath) : MetadataLibrary :=
  .ofListings (roots.map (RootListing.under t))

end DailyBars
