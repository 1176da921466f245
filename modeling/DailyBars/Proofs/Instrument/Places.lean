import DailyBars.Instrument.Metadata
import DailyBars.Proofs.Tables
import DailyBars.Proofs.Text.Letters

/-! # Folders that are searched

Of the files in a folder that have the name of a document, only the first is looked at. If it is
none, the folder has no document, and the search goes on to the next one.
-/

namespace DailyBars

/-! ## Places -/

/-- The same folder with its files in another order. -/
structure MetadataFolder.Relisted (f g : MetadataFolder) : Prop where
  name : f.name = g.name
  files : f.files.Perm g.files

/-- A folder that is searched, with the number of its root and the exchange that it stands for. -/
structure Place where
  root : Nat
  folder : MetadataFolder
  label : String

namespace Place

/-- The hit that a file of the folder is, if its document can be read. -/
def hit? (p : Place) (symbol : String) (file : String × Option String) : Option MetadataHit :=
  (file.2.bind Metadata.parse?).map fun doc =>
    let doc := if doc.symbol.isEmpty then { doc with symbol := Text.upper symbol } else doc
    let own := doc.exchange.filter fun e => !(Text.trim e).isEmpty
    ⟨Text.upper (own.getD p.label), doc, p.root, p.folder.name, file.1⟩

/-- The files that have the name of the symbol's document, as they are listed. -/
def candidates (p : Place) (symbol : String) : List (String × Option String) :=
  p.folder.files.filter fun file => MetadataFolder.isDocumentOf symbol file.1

/-- What is found in the folder. -/
def look (symbol : String) (p : Place) : Option MetadataHit :=
  p.folder.find? p.label symbol p.root

/-- Some file of the folder is a document of the symbol that can be read. -/
def Holds (symbol : String) (p : Place) : Prop :=
  ∃ file ∈ p.candidates symbol, ∃ hit, p.hit? symbol file = some hit

/-- No more than one file has the name of the symbol's document. -/
def OneFile (symbol : String) (p : Place) : Prop :=
  ∀ file ∈ p.candidates symbol, ∀ other ∈ p.candidates symbol, file = other

/-- The same folder of the same root, with its files in another order. -/
structure Relisted (p q : Place) : Prop where
  root : p.root = q.root
  folder : p.folder.Relisted q.folder
  label : p.label = q.label

variable {p q : Place} {symbol symbol' : String}

/-- The first file of the name decides. -/
theorem look_eq (symbol : String) (p : Place) :
    p.look symbol = (p.candidates symbol).head?.bind (p.hit? symbol) := by
  rw [candidates, List.head?_filter, look, MetadataFolder.find?]
  cases p.folder.files.find? fun file => MetadataFolder.isDocumentOf symbol file.1 with
  | none => rfl
  | some file =>
    obtain ⟨name, text⟩ := file
    cases text with
    | none => rfl
    | some text =>
      show (Metadata.parse? text).bind _ = (Metadata.parse? text).map _
      cases Metadata.parse? text <;> rfl

/-- Where there is no file for a symbol, nothing is found. -/
theorem look_of_not_holds (h : ¬ p.Holds symbol) : p.look symbol = none := by
  rw [look_eq]
  cases hhead : (p.candidates symbol).head? with
  | none => rfl
  | some file =>
    rw [Option.bind_some, Option.eq_none_iff_forall_ne_some]
    exact fun hit hhit => h ⟨file, List.mem_of_head? hhead, hit, hhit⟩

/-- A single file is found in any order. -/
theorem look_of_oneFile (h : p.OneFile symbol) {file : String × Option String}
    (hfile : file ∈ p.candidates symbol) : p.look symbol = p.hit? symbol file := by
  rw [look_eq]
  cases hhead : (p.candidates symbol).head? with
  | none =>
    rw [List.head?_eq_none_iff.1 hhead] at hfile
    cases hfile
  | some first => rw [Option.bind_some, h first (List.mem_of_head? hhead) file hfile]

/-- What is found is read from the first candidate. -/
theorem of_look {hit : MetadataHit} (h : p.look symbol = some hit) :
    ∃ file, (p.candidates symbol).head? = some file ∧ p.hit? symbol file = some hit := by
  rw [look_eq] at h
  exact Option.bind_eq_some_iff.1 h

/-- A hit names its place. -/
theorem of_hit? {file : String × Option String} {hit : MetadataHit}
    (h : p.hit? symbol file = some hit) :
    hit.root = p.root ∧ hit.folder = p.folder.name ∧ hit.file = file.1
      ∧ hit.exchange = Text.upper
        ((hit.doc.exchange.filter fun e => !(Text.trim e).isEmpty).getD p.label) := by
  obtain ⟨doc, -, rfl⟩ := Option.map_eq_some_iff.1 h
  exact ⟨rfl, rfl, rfl, rfl⟩

/-- Only the letters of a symbol count, not their case. -/
theorem look_congr (h : Text.upper symbol = Text.upper symbol') (p : Place) :
    p.look symbol = p.look symbol' := by
  have hdocument : MetadataFolder.isDocumentOf symbol = MetadataFolder.isDocumentOf symbol' := by
    funext file
    unfold MetadataFolder.isDocumentOf
    split
    next stem extension _ =>
      have hletters : Text.sameLetters (String.ofList stem) symbol
          = Text.sameLetters (String.ofList stem) symbol' := by
        rw [Bool.eq_iff_iff, Text.sameLetters_iff, Text.sameLetters_iff, h]
      rw [hletters]
    next => rfl
  have hhit : p.hit? symbol = p.hit? symbol' := by
    funext file
    rw [hit?, hit?, h]
  rw [look_eq, look_eq, candidates, candidates, hdocument, hhit]

namespace Relisted

/-- Listing a place in another order rearranges its candidates, -/
theorem candidates (h : Relisted p q) (symbol : String) :
    (p.candidates symbol).Perm (q.candidates symbol) :=
  h.folder.files.filter _

/-- and changes nothing of what a file says, -/
theorem hit? (h : Relisted p q) (symbol : String) : p.hit? symbol = q.hit? symbol := by
  funext file
  rw [Place.hit?, Place.hit?, h.root, h.folder.name, h.label]

/-- of whether there is a file for a symbol, -/
theorem holds_iff (h : Relisted p q) : p.Holds symbol ↔ q.Holds symbol := by
  unfold Holds
  simp only [h.hit? symbol, (h.candidates symbol).mem_iff]

/-- or only one. -/
theorem oneFile (h : Relisted p q) (hone : p.OneFile symbol) : q.OneFile symbol := by
  intro file hfile other hother
  exact hone file ((h.candidates symbol).mem_iff.2 hfile) other
    ((h.candidates symbol).mem_iff.2 hother)

end Relisted

/-! ## Searching places -/

/-- The first hit. -/
def search (places : List Place) (symbol : String) : Option MetadataHit :=
  places.findSome? (look symbol)

/-- The first place that holds a document of the symbol. -/
def IsFirst (places : List Place) (symbol : String) (p : Place) : Prop :=
  ∃ before after, places = before ++ p :: after ∧ p.Holds symbol
    ∧ ∀ q ∈ before, ¬ q.Holds symbol

variable {places others : List Place}

/-- If no place holds the symbol, nothing is found. -/
theorem search_of_none (h : ∀ p ∈ places, ¬ p.Holds symbol) : search places symbol = none :=
  List.findSome?_eq_none_iff.2 fun p hp => look_of_not_holds (h p hp)

/-- What the first place gives is found. -/
theorem search_of_isFirst (h : IsFirst places symbol p) {hit : MetadataHit}
    (hhit : p.look symbol = some hit) : search places symbol = some hit := by
  obtain ⟨before, after, rfl, -, hbefore⟩ := h
  rw [search, List.findSome?_append, ← search, search_of_none hbefore, Option.none_or,
    List.findSome?_cons, hhit]

/-- The first place that holds a symbol is the head, or the first of the tail if the head does not.
-/
theorem isFirst_cons : IsFirst (p :: places) symbol q
    ↔ p.Holds symbol ∧ q = p ∨ ¬ p.Holds symbol ∧ IsFirst places symbol q := by
  constructor
  · rintro ⟨before, after, hsplit, hholds, hbefore⟩
    cases before with
    | nil =>
      obtain ⟨rfl, -⟩ := List.cons.inj hsplit
      exact Or.inl ⟨hholds, rfl⟩
    | cons r before =>
      obtain ⟨rfl, rfl⟩ := List.cons.inj hsplit
      obtain ⟨hp, hrest⟩ := List.forall_mem_cons.1 hbefore
      exact Or.inr ⟨hp, before, after, rfl, hholds, hrest⟩
  · rintro (⟨hholds, rfl⟩ | ⟨hp, before, after, rfl, hholds, hbefore⟩)
    · exact ⟨[], places, rfl, hholds, fun _ h => absurd h List.not_mem_nil⟩
    · exact ⟨p :: before, after, rfl, hholds, List.forall_mem_cons.2 ⟨hp, hbefore⟩⟩

/-- If some place holds the symbol, there is a first one, -/
theorem exists_isFirst (h : ∃ p ∈ places, p.Holds symbol) : ∃ p, IsFirst places symbol p := by
  induction places with
  | nil =>
    obtain ⟨p, hp, -⟩ := h
    cases hp
  | cons q rest ih =>
    by_cases hq : q.Holds symbol
    · exact ⟨q, isFirst_cons.2 (Or.inl ⟨hq, rfl⟩)⟩
    · obtain ⟨p, hp, hholds⟩ := h
      have hrest : p ∈ rest :=
        (List.mem_cons.1 hp).resolve_left fun heq => hq (heq ▸ hholds)
      obtain ⟨first, hfirst⟩ := ih ⟨p, hrest, hholds⟩
      exact ⟨first, isFirst_cons.2 (Or.inr ⟨hq, hfirst⟩)⟩

/-- which is one of the places -/
theorem IsFirst.mem (h : IsFirst places symbol p) : p ∈ places := by
  obtain ⟨before, after, rfl, -⟩ := h
  exact List.mem_append_right before List.mem_cons_self

/-- and holds the symbol. -/
theorem IsFirst.holds (h : IsFirst places symbol p) : p.Holds symbol := by
  obtain ⟨-, -, -, hholds, -⟩ := h
  exact hholds

/-- The first place stays first when everything is listed otherwise. -/
theorem IsFirst.relisted (hrel : List.Forall₂ Relisted places others)
    (h : IsFirst places symbol p) : ∃ q, Relisted p q ∧ IsFirst others symbol q := by
  induction hrel with
  | nil => cases h.mem
  | @cons a b _ _ hab _ ih =>
    rcases isFirst_cons.1 h with ⟨hholds, rfl⟩ | ⟨ha, hrest⟩
    · exact ⟨b, hab, isFirst_cons.2 (Or.inl ⟨hab.holds_iff.1 hholds, rfl⟩)⟩
    · obtain ⟨q, hpq, hq⟩ := ih hrest
      exact ⟨q, hpq, isFirst_cons.2 (Or.inr ⟨fun hb => ha (hab.holds_iff.2 hb), hq⟩)⟩

/-- If no place holds the symbol, none does when listed in another order. -/
theorem search_relisted_of_none (hrel : List.Forall₂ Relisted places others)
    (h : ∀ p ∈ places, ¬ p.Holds symbol) : search others symbol = none := by
  refine search_of_none fun q hq hholds => ?_
  obtain ⟨p, hp, hpq⟩ := exists_left_of_forall₂ hrel hq
  exact h p hp (hpq.holds_iff.2 hholds)

/-- A document without a second file beside it is found in any order. -/
theorem search_relisted_of_oneFile (hrel : List.Forall₂ Relisted places others)
    (h : IsFirst places symbol p) (hone : p.OneFile symbol) {file : String × Option String}
    (hfile : file ∈ p.candidates symbol) : search others symbol = p.hit? symbol file := by
  obtain ⟨held, hheld, hit, hhit⟩ := h.holds
  obtain ⟨q, hpq, hq⟩ := h.relisted hrel
  have hlook := look_of_oneFile (hpq.oneFile hone) ((hpq.candidates symbol).mem_iff.1 hheld)
  rw [← hpq.hit? symbol, hhit] at hlook
  rw [search_of_isFirst hq hlook, hone file hfile held hheld, hhit]

/-- A hit comes from the first file of the name in its place. -/
theorem of_search {hit : MetadataHit} (h : search places symbol = some hit) :
    ∃ p ∈ places, ∃ file, (p.candidates symbol).head? = some file
      ∧ p.hit? symbol file = some hit := by
  obtain ⟨p, hp, hlook⟩ := List.exists_of_findSome?_eq_some h
  exact ⟨p, hp, of_look hlook⟩

end Place
end DailyBars
