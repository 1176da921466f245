import DailyBars.Proofs.Instrument.Places
import Mathlib.Data.List.Nodup

/-! # Documents in every listing

A directory is listed in any order. Folders are put in order of name before they are searched, so
their listing does not matter. Their files stay as they are listed, so a second file of a document's
name may come before the document and hide it. A search depends on the listing exactly if there is
such a file beside the document that it should find.
-/

namespace DailyBars

/-! ## Directories -/

namespace RootListing

/-- Folders have different names, and so have the files of each. -/
def Distinct (l : RootListing) : Prop :=
  (l.map Prod.fst).Nodup ∧ ∀ e ∈ l, (e.2.map Prod.fst).Nodup

instance (l : RootListing) : Decidable l.Distinct := inferInstanceAs (Decidable (_ ∧ _))

/-- The same roots with their folders in another order, and with the files of each in another
order. -/
def Relisted (roots others : List RootListing) : Prop :=
  List.Forall₂ (Reordered List.Perm) roots others

/-- The files with that of a name first. -/
def lead (name : String) (files : List (String × Option String)) : List (String × Option String) :=
  files.filter (fun f => f.1 == name) ++ files.filter fun f => !(f.1 == name)

/-- Moving a file to the front rearranges the files. -/
theorem perm_lead (name : String) (files : List (String × Option String)) :
    files.Perm (lead name files) :=
  (List.filter_append_perm _ files).symm

/-- A listed file can be moved to the front. -/
theorem lead_eq_cons {file : String × Option String} {files : List (String × Option String)}
    (hnames : (files.map Prod.fst).Nodup) (hfile : file ∈ files) :
    ∃ rest, lead file.1 files = file :: rest := by
  have hnamed : file ∈ files.filter fun f => f.1 == file.1 :=
    List.mem_filter.2 ⟨hfile, beq_self_eq_true file.1⟩
  obtain ⟨first, rest, hcons⟩ := List.exists_cons_of_ne_nil (List.ne_nil_of_mem hnamed)
  -- no other file has its name
  obtain ⟨hin, hname⟩ := List.mem_filter.1 (hcons ▸ List.mem_cons_self)
  rw [lead, hcons, List.inj_on_of_nodup_map hnames hin hfile (beq_iff_eq.1 hname)]
  exact ⟨_, rfl⟩

/-- The listing with the file of a name first in every folder. -/
def leading (name : String) (roots : List RootListing) : List RootListing :=
  roots.map fun l => l.map fun e => (e.1, lead name e.2)

/-- Listing a file first everywhere is another listing of the same. -/
theorem relisted_leading (name : String) (roots : List RootListing) :
    Relisted roots (leading name roots) :=
  List.forall₂_map_right_iff.2 (List.forall₂_same.2 fun _ _ =>
    Reordered.map fun e _ => perm_lead name e.2)

/-- A listing is a listing of the same. -/
theorem Relisted.refl (roots : List RootListing) : Relisted roots roots :=
  List.forall₂_same.2 fun l _ => ⟨l, .refl l, List.forall₂_same.2 fun e _ => ⟨rfl, .refl e.2⟩⟩

end RootListing

namespace Place

/-- The leading file is the first of the name. -/
theorem head?_candidates_of_lead {p : Place} {symbol : String} {file : String × Option String}
    {files : List (String × Option String)} (hled : p.folder.files = RootListing.lead file.1 files)
    (hnames : (p.folder.files.map Prod.fst).Nodup) (hfile : file ∈ p.candidates symbol) :
    (p.candidates symbol).head? = some file := by
  obtain ⟨hmem, hdocument⟩ := List.mem_filter.1 hfile
  rw [hled] at hmem hnames
  have hperm := RootListing.perm_lead file.1 files
  obtain ⟨rest, hrest⟩ := RootListing.lead_eq_cons ((hperm.map Prod.fst).nodup_iff.2 hnames)
    (hperm.mem_iff.2 hmem)
  rw [candidates, hled, hrest, List.head?_filter]
  exact List.find?_cons_of_pos hdocument

end Place

namespace MetadataLibrary

/-! ### Folders in order -/

/-- The folders are those that are listed. -/
theorem mem_foldersOf {l : RootListing} {f : MetadataFolder} :
    f ∈ foldersOf l ↔ (f.name, f.files) ∈ l := by
  rw [foldersOf, List.mem_mergeSort, List.mem_map]
  constructor
  · rintro ⟨e, he, rfl⟩
    exact he
  · exact fun h => ⟨_, h, rfl⟩

/-- The folders come in order of their names. -/
theorem pairwise_foldersOf (l : RootListing) :
    (foldersOf l).Pairwise fun f g => f.name ≤ g.name := by
  have htrans : ∀ f g h : MetadataFolder, decide (f.name ≤ g.name) = true →
      decide (g.name ≤ h.name) = true → decide (f.name ≤ h.name) = true := by
    simp only [decide_eq_true_eq]
    exact fun _ _ _ => String.le_trans
  have htotal : ∀ f g : MetadataFolder,
      (decide (f.name ≤ g.name) || decide (g.name ≤ f.name)) = true := by
    simp only [Bool.or_eq_true, decide_eq_true_eq]
    exact fun f g => String.le_total f.name g.name
  exact (List.pairwise_mergeSort htrans htotal _).imp fun h => of_decide_eq_true h

/-- One listed folder is the whole library. -/
theorem ofListings_singleton (e : String × List (String × Option String)) :
    ofListings [[e]] = ⟨[[⟨e.1, e.2⟩]]⟩ :=
  congrArg (fun folders => MetadataLibrary.mk [folders]) (List.mergeSort_singleton _)

variable {l m : RootListing}

/-- Folders of one name are one folder. -/
theorem eq_of_name_eq (h : l.Distinct) {f g : MetadataFolder} (hf : f ∈ foldersOf l)
    (hg : g ∈ foldersOf l) (hname : f.name = g.name) : f = g := by
  have heq := List.inj_on_of_nodup_map h.1 (mem_foldersOf.1 hf) (mem_foldersOf.1 hg) hname
  cases f
  cases g
  cases heq
  rfl

/-- The order in which folders are listed does not matter. -/
theorem foldersOf_perm (h : l.Distinct) (hperm : l.Perm m) : foldersOf l = foldersOf m := by
  have hfolders : (foldersOf l).Perm (foldersOf m) :=
    (List.mergeSort_perm _ _).trans ((hperm.map _).trans (List.mergeSort_perm _ _).symm)
  refine hfolders.eq_of_pairwise (fun f g hf hg hfg hgf => ?_) (pairwise_foldersOf l)
    (pairwise_foldersOf m)
  exact eq_of_name_eq h hf (hfolders.mem_iff.2 hg) (String.le_antisymm hfg hgf)

/-- Folders with the same names are put in the same order. -/
theorem foldersOf_relisted (h : l.Distinct) (hrel : Reordered List.Perm l m) :
    List.Forall₂ MetadataFolder.Relisted (foldersOf l) (foldersOf m) := by
  obtain ⟨middle, hperm, hsame⟩ := hrel
  rw [foldersOf_perm h hperm]
  -- both are the pairs of related folders in order of their common names
  obtain ⟨hlength, hzip⟩ := List.forall₂_iff_zip.1 hsame
  have hleft : ((middle.zip m).mergeSort fun z z' => decide (z.1.1 ≤ z'.1.1)).map
      (fun z => ⟨z.1.1, z.1.2⟩) = foldersOf middle := by
    rw [List.map_mergeSort (s := fun f g : MetadataFolder => decide (f.name ≤ g.name))
      fun _ _ _ _ => rfl, foldersOf]
    conv_rhs => rw [← List.map_fst_zip (Nat.le_of_eq hlength), List.map_map]
    rfl
  have hright : ((middle.zip m).mergeSort fun z z' => decide (z.1.1 ≤ z'.1.1)).map
      (fun z => ⟨z.2.1, z.2.2⟩) = foldersOf m := by
    have hnames : ∀ z ∈ middle.zip m, z.1.1 = z.2.1 := fun z hz => (hzip hz).1
    rw [List.map_mergeSort (s := fun f g : MetadataFolder => decide (f.name ≤ g.name))
      fun z hz z' hz' => by rw [hnames z hz, hnames z' hz'], foldersOf]
    conv_rhs => rw [← List.map_snd_zip (Nat.le_of_eq hlength.symm), List.map_map]
    rfl
  rw [← hleft, ← hright, List.forall₂_map_left_iff, List.forall₂_map_right_iff, List.forall₂_same]
  intro z hz
  obtain ⟨hname, hfiles⟩ := hzip (List.mem_mergeSort.1 hz)
  exact ⟨hname, hfiles⟩

/-- No two folders share a name, so their names ascend. -/
theorem pairwise_lt_foldersOf (h : l.Distinct) :
    (foldersOf l).Pairwise fun f g => f.name < g.name := by
  have hperm : ((foldersOf l).map MetadataFolder.name).Perm (l.map Prod.fst) := by
    have := (List.mergeSort_perm (l.map fun e => (⟨e.1, e.2⟩ : MetadataFolder)) fun f g =>
      decide (f.name ≤ g.name)).map MetadataFolder.name
    rwa [List.map_map] at this
  have hnames : (foldersOf l).Pairwise fun f g => f.name ≠ g.name :=
    List.pairwise_map.1 (hperm.nodup_iff.2 h.1)
  exact (pairwise_foldersOf l).imp₂ (fun _ _ => lt_of_le_of_ne) hnames

end MetadataLibrary

/-! ## What is searched -/

/-- The place comes before another one, by root and then by name. -/
def Place.Before (p q : Place) : Prop :=
  p.root < q.root ∨ p.root = q.root ∧ p.folder.name < q.folder.name

/-- Of two places at most one is before the other. -/
theorem Place.Before.asymm {p q : Place} (h : p.Before q) : ¬ q.Before p := by
  rintro (hroot | ⟨hroot, hname⟩)
  · rcases h with h | ⟨h, -⟩
    · exact absurd h (Nat.lt_asymm hroot)
    · exact absurd hroot (h ▸ Nat.lt_irrefl _)
  · rcases h with h | ⟨-, h⟩
    · exact absurd h (hroot ▸ Nat.lt_irrefl _)
    · exact lt_asymm h hname

/-- What a document is asked for. -/
inductive Wanted
  /-- An instrument, outside of the folders of cash. -/
  | instrument
  /-- A currency, in the first folder of cash. -/
  | cash

namespace Wanted

/-- The hit of a library. -/
def look (l : MetadataLibrary) : Wanted → String → Option MetadataHit
  | .instrument => l.find?
  | .cash => l.findCash?

/-- The exchange that a folder stands for. -/
def label : Wanted → String → String
  | .instrument, folder => folder
  | .cash, _ => MetadataFolder.cash

/-- The folder is searched. -/
def Chosen (l : RootListing) : Wanted → MetadataFolder → Prop
  | .instrument, f => (f.name, f.files) ∈ l ∧ f.isCash = false
  | .cash, f => (f.name, f.files) ∈ l ∧ f.isCash = true
      ∧ ∀ g : MetadataFolder, (g.name, g.files) ∈ l → g.isCash = true → f.name ≤ g.name

/-- A chosen folder is listed. -/
theorem Chosen.listed {l : RootListing} {wanted : Wanted} {f : MetadataFolder}
    (h : wanted.Chosen l f) : (f.name, f.files) ∈ l := by
  cases wanted with
  | instrument => exact h.1
  | cash => exact h.1

/-- The folders that are searched, out of all in order of name. -/
def takes : Wanted → List MetadataFolder → List MetadataFolder
  | .instrument, folders => folders.filter fun f => !f.isCash
  | .cash, folders => (folders.find? MetadataFolder.isCash).toList

/-- Folders are taken in their order. -/
theorem takes_sublist (wanted : Wanted) (folders : List MetadataFolder) :
    (wanted.takes folders).Sublist folders := by
  cases wanted with
  | instrument => exact List.filter_sublist
  | cash =>
    rw [takes]
    cases hfind : folders.find? MetadataFolder.isCash with
    | none => exact List.nil_sublist folders
    | some f => exact List.singleton_sublist.2 (List.mem_of_find?_eq_some hfind)

/-- The folders that are taken are the chosen ones. -/
theorem mem_takes_iff {l : RootListing} (h : l.Distinct) {wanted : Wanted} {f : MetadataFolder} :
    f ∈ wanted.takes (MetadataLibrary.foldersOf l) ↔ wanted.Chosen l f := by
  cases wanted with
  | instrument =>
    rw [takes, List.mem_filter, MetadataLibrary.mem_foldersOf, Chosen, Bool.not_eq_true']
  | cash =>
    rw [takes, Option.mem_toList, Chosen]
    -- the first folder of cash has the least name of them
    have hleast : ∀ {g : MetadataFolder},
        (MetadataLibrary.foldersOf l).find? MetadataFolder.isCash = some g →
        (g.name, g.files) ∈ l ∧ g.isCash = true ∧ ∀ g' : MetadataFolder, (g'.name, g'.files) ∈ l →
          g'.isCash = true → g.name ≤ g'.name := by
      intro g hfind
      obtain ⟨hcash, before, after, hsplit, hbefore⟩ := List.find?_eq_some_iff_append.1 hfind
      refine ⟨MetadataLibrary.mem_foldersOf.1 (List.mem_of_find?_eq_some hfind), hcash, ?_⟩
      intro g' hg' hcash'
      have hmem := MetadataLibrary.mem_foldersOf.2 hg'
      have hsorted := MetadataLibrary.pairwise_foldersOf l
      rw [hsplit] at hmem hsorted
      rcases List.mem_append.1 hmem with hin | hin
      · have hnot := hbefore g' hin
        rw [hcash'] at hnot
        cases hnot
      · rcases List.mem_cons.1 hin with rfl | hlater
        · exact String.le_refl _
        · exact List.rel_of_pairwise_cons (List.pairwise_append.1 hsorted).2.1 hlater
    constructor
    · exact hleast
    · rintro ⟨hmem, hcash, hfirst⟩
      cases hfind : (MetadataLibrary.foldersOf l).find? MetadataFolder.isCash with
      | none =>
        exact absurd hcash (List.find?_eq_none.1 hfind f (MetadataLibrary.mem_foldersOf.2 hmem))
      | some g =>
        obtain ⟨hg, hgcash, hgfirst⟩ := hleast hfind
        have hname := String.le_antisymm (hgfirst f hmem hcash) (hfirst g hg hgcash)
        rw [MetadataLibrary.eq_of_name_eq h (MetadataLibrary.mem_foldersOf.2 hg)
          (MetadataLibrary.mem_foldersOf.2 hmem) hname]

/-- The same folders are taken from another listing. -/
theorem takes_relisted (wanted : Wanted) {folders others : List MetadataFolder}
    (h : List.Forall₂ MetadataFolder.Relisted folders others) :
    List.Forall₂ MetadataFolder.Relisted (wanted.takes folders) (wanted.takes others) := by
  have hcash : ∀ {f g : MetadataFolder}, f.Relisted g → f.isCash = g.isCash := by
    intro f g hfg
    rw [MetadataFolder.isCash, MetadataFolder.isCash, hfg.name]
  cases wanted with
  | instrument =>
    refine List.rel_filter (fun {f g} hfg => ?_) h
    show (!f.isCash) = true ↔ (!g.isCash) = true
    rw [hcash hfg]
  | cash =>
    simp only [takes]
    induction h with
    | nil => exact .nil
    | @cons f g _ _ hfg _ ih =>
      rw [List.find?_cons, List.find?_cons, ← hcash hfg]
      cases f.isCash with
      | true => exact .cons hfg .nil
      | false => exact ih

/-- The places of a numbered root. -/
def placesOf (wanted : Wanted) (e : List MetadataFolder × Nat) : List Place :=
  (wanted.takes e.1).map fun f => ⟨e.2, f, wanted.label f.name⟩

/-- The places of a library in the order of the search. -/
def places (wanted : Wanted) (l : MetadataLibrary) : List Place :=
  l.roots.zipIdx.flatMap wanted.placesOf

/-- Looking for an instrument goes through the folders that are not of cash. -/
theorem search_placesOf_instrument (folders : List MetadataFolder) (root : Nat) (symbol : String) :
    Place.search (placesOf .instrument (folders, root)) symbol
      = folders.findSome? fun f => if f.isCash then none else f.find? f.name symbol root := by
  rw [placesOf, takes]
  induction folders with
  | nil => rfl
  | cons f rest ih =>
    rw [List.findSome?_cons, ← ih, List.filter_cons]
    cases f.isCash <;> rfl

/-- Looking for cash goes to the first folder of cash. -/
theorem search_placesOf_cash (folders : List MetadataFolder) (root : Nat) (symbol : String) :
    Place.search (placesOf .cash (folders, root)) symbol
      = (folders.find? MetadataFolder.isCash).bind fun f =>
          f.find? MetadataFolder.cash symbol root := by
  rw [placesOf, takes]
  cases folders.find? MetadataFolder.isCash with
  | none => rfl
  | some f => exact List.findSome?_singleton

/-- A library is searched place by place. -/
theorem look_eq_search (l : MetadataLibrary) (wanted : Wanted) (symbol : String) :
    wanted.look l symbol = Place.search (wanted.places l) symbol := by
  have hroots : ∀ numbered : List (List MetadataFolder × Nat),
      Place.search (numbered.flatMap wanted.placesOf) symbol
        = numbered.findSome? fun e => Place.search (wanted.placesOf e) symbol := by
    intro numbered
    induction numbered with
    | nil => rfl
    | cons e rest ih =>
      rw [List.flatMap_cons, Place.search, List.findSome?_append, ← Place.search, ← Place.search,
        ih, List.findSome?_cons]
      cases Place.search (wanted.placesOf e) symbol <;> rfl
  rw [places, hroots]
  cases wanted with
  | instrument =>
    exact congrArg (List.findSome? · _)
      (funext fun e => (search_placesOf_instrument e.1 e.2 symbol).symm)
  | cash =>
    exact congrArg (List.findSome? · _) (funext fun e => (search_placesOf_cash e.1 e.2 symbol).symm)

variable {roots others : List RootListing} {wanted : Wanted} {symbol symbol' : String} {p q : Place}

/-- Letter case does not matter to a lookup. -/
theorem look_congr (h : Text.upper symbol = Text.upper symbol') (l : MetadataLibrary)
    (wanted : Wanted) : wanted.look l symbol = wanted.look l symbol' := by
  rw [look_eq_search, look_eq_search]
  exact congrArg (List.findSome? · _) (funext fun p => Place.look_congr h p)

/-- The places of a lookup are the taken folders of each root. -/
theorem mem_places : p ∈ wanted.places (.ofListings roots) ↔ ∃ l, roots[p.root]? = some l
    ∧ p.folder ∈ wanted.takes (MetadataLibrary.foldersOf l)
    ∧ p.label = wanted.label p.folder.name := by
  rw [places, List.mem_flatMap]
  constructor
  · rintro ⟨⟨folders, root⟩, hroot, hp⟩
    obtain ⟨f, hf, rfl⟩ := List.mem_map.1 hp
    rw [List.mem_zipIdx_iff_getElem?, MetadataLibrary.ofListings, List.getElem?_map] at hroot
    obtain ⟨l, hl, rfl⟩ := Option.map_eq_some_iff.1 hroot
    exact ⟨l, hl, hf, rfl⟩
  · rintro ⟨l, hl, hf, hlabel⟩
    refine ⟨(MetadataLibrary.foldersOf l, p.root), ?_, List.mem_map.2 ⟨p.folder, hf, ?_⟩⟩
    · rw [List.mem_zipIdx_iff_getElem?, MetadataLibrary.ofListings, List.getElem?_map, hl]
      rfl
    · rw [← hlabel]

/-- Places are searched in order of root and name. -/
theorem pairwise_places (h : ∀ l ∈ roots, l.Distinct) (wanted : Wanted) :
    (wanted.places (.ofListings roots)).Pairwise Place.Before := by
  refine List.pairwise_flatMap.2 ⟨?_, ?_⟩
  · rintro ⟨folders, root⟩ he
    obtain ⟨l, hl, rfl⟩ := List.mem_map.1 (List.fst_mem_of_mem_zipIdx he)
    refine List.pairwise_map.2 (((MetadataLibrary.pairwise_lt_foldersOf (h l hl)).sublist
      (wanted.takes_sublist _)).imp fun hname => Or.inr ⟨rfl, hname⟩)
  · have hnumbers : ((MetadataLibrary.ofListings roots).roots.zipIdx.map Prod.snd).Pairwise
        (· < ·) := by
      rw [List.zipIdx_map_snd]
      exact List.pairwise_lt_range' 1
    refine (List.pairwise_map.1 hnumbers).imp fun {e e'} hroot p hp q hq => Or.inl ?_
    obtain ⟨f, -, rfl⟩ := List.mem_map.1 hp
    obtain ⟨g, -, rfl⟩ := List.mem_map.1 hq
    exact hroot

/-- Every listing has the same places, but for the order of their files. -/
theorem places_relisted (h : ∀ l ∈ roots, l.Distinct) (hrel : RootListing.Relisted roots others)
    (wanted : Wanted) : List.Forall₂ Place.Relisted (wanted.places (.ofListings roots))
      (wanted.places (.ofListings others)) := by
  have hnumbered : ∀ n, List.Forall₂
      (fun e e' => List.Forall₂ MetadataFolder.Relisted e.1 e'.1 ∧ e.2 = e'.2)
      ((roots.map MetadataLibrary.foldersOf).zipIdx n)
      ((others.map MetadataLibrary.foldersOf).zipIdx n) := by
    induction hrel with
    | nil => exact fun _ => .nil
    | cons hl _ ih =>
      obtain ⟨hdistinct, hrest⟩ := List.forall_mem_cons.1 h
      exact fun n => .cons ⟨MetadataLibrary.foldersOf_relisted hdistinct hl, rfl⟩ (ih hrest (n + 1))
  refine List.rel_flatMap (hnumbered 0) fun {e e'} ⟨hfolders, hroot⟩ => ?_
  rw [placesOf, placesOf, List.forall₂_map_left_iff, List.forall₂_map_right_iff]
  exact (wanted.takes_relisted hfolders).imp fun f g hfg =>
    ⟨hroot, hfg, congrArg wanted.label hfg.name⟩

/-- In the listing that leads with a name, every place does. -/
theorem exists_lead {name : String}
    (hp : p ∈ wanted.places (.ofListings (RootListing.leading name roots))) :
    ∃ files, p.folder.files = RootListing.lead name files := by
  obtain ⟨l, hl, hf, -⟩ := mem_places.1 hp
  rw [RootListing.leading, List.getElem?_map] at hl
  obtain ⟨l, -, rfl⟩ := Option.map_eq_some_iff.1 hl
  have hlisted := MetadataLibrary.mem_foldersOf.1 ((wanted.takes_sublist _).subset hf)
  obtain ⟨e, -, heq⟩ := List.mem_map.1 hlisted
  exact ⟨e.2, (congrArg Prod.snd heq).symm⟩

/-! ### The first place -/

/-- The place is a folder of the listings that is searched. -/
structure Searched (wanted : Wanted) (roots : List RootListing) (p : Place) : Prop where
  chosen : ∃ l, roots[p.root]? = some l ∧ wanted.Chosen l p.folder
  label : p.label = wanted.label p.folder.name

/-- The place is the first by root and name that is searched and holds a document of the symbol. -/
structure Earliest (wanted : Wanted) (roots : List RootListing) (symbol : String) (p : Place) :
    Prop where
  searched : wanted.Searched roots p
  holds : p.Holds symbol
  before : ∀ q, wanted.Searched roots q → q.Holds symbol → q = p ∨ p.Before q

/-- The places of a lookup are those that are searched. -/
theorem searched_iff (h : ∀ l ∈ roots, l.Distinct) :
    wanted.Searched roots p ↔ p ∈ wanted.places (.ofListings roots) := by
  rw [mem_places]
  constructor
  · rintro ⟨⟨l, hl, hchosen⟩, hlabel⟩
    exact ⟨l, hl, (mem_takes_iff (h l (List.mem_of_getElem? hl))).2 hchosen, hlabel⟩
  · rintro ⟨l, hl, htaken, hlabel⟩
    exact ⟨⟨l, hl, (mem_takes_iff (h l (List.mem_of_getElem? hl))).1 htaken⟩, hlabel⟩

/-- The first place that holds a document is the earliest, -/
theorem earliest_of_isFirst (h : ∀ l ∈ roots, l.Distinct)
    (hfirst : Place.IsFirst (wanted.places (.ofListings roots)) symbol p) :
    wanted.Earliest roots symbol p := by
  refine ⟨(searched_iff h).2 hfirst.mem, hfirst.holds, fun q hq hholds => ?_⟩
  have hmem := (searched_iff h).1 hq
  have hpairs := pairwise_places h wanted
  obtain ⟨before, after, hsplit, -, hbefore⟩ := hfirst
  rw [hsplit] at hmem hpairs
  rcases List.mem_append.1 hmem with hin | hin
  · exact absurd hholds (hbefore q hin)
  · refine (List.mem_cons.1 hin).imp_right fun hlater => ?_
    exact List.rel_of_pairwise_cons (List.pairwise_append.1 hpairs).2.1 hlater

/-- and the other way round. -/
theorem isFirst_iff (h : ∀ l ∈ roots, l.Distinct) :
    Place.IsFirst (wanted.places (.ofListings roots)) symbol p
      ↔ wanted.Earliest roots symbol p := by
  refine ⟨earliest_of_isFirst h, fun hp => ?_⟩
  obtain ⟨q, hfirst⟩ := Place.exists_isFirst ⟨p, (searched_iff h).1 hp.searched, hp.holds⟩
  have hq := earliest_of_isFirst h hfirst
  rcases hp.before q hq.searched hq.holds with rfl | hpq
  · exact hfirst
  · rcases hq.before p hp.searched hp.holds with rfl | hqp
    · exact hfirst
    · exact absurd hqp hpq.asymm

/-- A searched place is known by its root and the name of its folder. -/
theorem Searched.eq (h : ∀ l ∈ roots, l.Distinct) (hp : wanted.Searched roots p)
    (hq : wanted.Searched roots q) (hroot : p.root = q.root)
    (hname : p.folder.name = q.folder.name) : p = q := by
  obtain ⟨⟨l, hl, hchosen⟩, hlabel⟩ := hp
  obtain ⟨⟨m, hm, hchosen'⟩, hlabel'⟩ := hq
  rw [← hroot, hl] at hm
  cases hm
  have hfolder := MetadataLibrary.eq_of_name_eq (h l (List.mem_of_getElem? hl))
    (MetadataLibrary.mem_foldersOf.2 hchosen.listed)
    (MetadataLibrary.mem_foldersOf.2 hchosen'.listed) hname
  rw [← hname, ← hlabel] at hlabel'
  cases p
  cases q
  cases hroot
  cases hfolder
  cases hlabel'
  rfl

/-! ### The hit in a listing -/

/-- A hit is a document of a searched place. -/
theorem of_look (h : ∀ l ∈ roots, l.Distinct) (hrel : RootListing.Relisted roots others)
    {hit : MetadataHit} (hlook : wanted.look (.ofListings others) symbol = some hit) :
    ∃ p, wanted.Searched roots p ∧ ∃ q ∈ wanted.places (.ofListings others), p.Relisted q
      ∧ ∃ file, (q.candidates symbol).head? = some file ∧ p.hit? symbol file = some hit := by
  rw [look_eq_search] at hlook
  obtain ⟨q, hq, file, hhead, hhit⟩ := Place.of_search hlook
  obtain ⟨p, hp, hpq⟩ := exists_left_of_forall₂ (places_relisted h hrel wanted) hq
  rw [← hpq.hit? symbol] at hhit
  exact ⟨p, (searched_iff h).2 hp, q, hq, hpq, file, hhead, hhit⟩

/-- No file is listed twice in a searched place. -/
theorem Searched.nodup (h : ∀ l ∈ roots, l.Distinct) (hp : wanted.Searched roots p) :
    (p.folder.files.map Prod.fst).Nodup := by
  obtain ⟨l, hl, hchosen⟩ := hp.chosen
  exact (h l (List.mem_of_getElem? hl)).2 _ hchosen.listed

/-- A candidate that is listed first is the one that decides. -/
theorem head?_candidates_leading (h : ∀ l ∈ roots, l.Distinct) (hp : wanted.Searched roots p)
    {file : String × Option String} (hfile : file ∈ p.candidates symbol) (hpq : p.Relisted q)
    (hq : q ∈ wanted.places (.ofListings (RootListing.leading file.1 roots))) :
    (q.candidates symbol).head? = some file := by
  obtain ⟨files, hled⟩ := exists_lead hq
  have hnames := ((hpq.folder.files.map Prod.fst).nodup_iff).1 (hp.nodup h)
  exact Place.head?_candidates_of_lead hled hnames ((hpq.candidates symbol).mem_iff.1 hfile)

/-- A document of the first place is found if it is listed first. -/
theorem look_leading (h : ∀ l ∈ roots, l.Distinct) (hp : wanted.Earliest roots symbol p)
    {file : String × Option String} (hfile : file ∈ p.candidates symbol) {hit : MetadataHit}
    (hhit : p.hit? symbol file = some hit) :
    wanted.look (.ofListings (RootListing.leading file.1 roots)) symbol = some hit := by
  have hrel := places_relisted h (RootListing.relisted_leading file.1 roots) wanted
  obtain ⟨q, hpq, hq⟩ := ((isFirst_iff h).2 hp).relisted hrel
  have hhead := head?_candidates_leading h hp.searched hfile hpq hq.mem
  rw [look_eq_search]
  refine Place.search_of_isFirst hq ?_
  rw [Place.look_eq, hhead, Option.bind_some, ← hpq.hit? symbol, hhit]

/-- If no listing changes the hit, there is no second file beside it. -/
theorem oneFile_of_look_eq (h : ∀ l ∈ roots, l.Distinct)
    (hsame : ∀ others, RootListing.Relisted roots others →
      wanted.look (.ofListings others) symbol = wanted.look (.ofListings roots) symbol)
    (hp : wanted.Earliest roots symbol p) : p.OneFile symbol := by
  obtain ⟨found, hfound, hit, hhit⟩ := hp.holds
  have hall : ∀ file ∈ p.candidates symbol, file = found := by
    intro file hfile
    have hlook :
        wanted.look (.ofListings (RootListing.leading file.1 roots)) symbol = some hit := by
      rw [hsame _ (RootListing.relisted_leading file.1 roots),
        ← hsame _ (RootListing.relisted_leading found.1 roots), look_leading h hp hfound hhit]
    -- the same hit is in the same folder, whose first file is now this one
    obtain ⟨p', hp', q, hq, hpq, first, hhead, hhit'⟩ :=
      of_look h (RootListing.relisted_leading file.1 roots) hlook
    obtain ⟨hroot, hfolder, hname, -⟩ := Place.of_hit? hhit
    obtain ⟨hroot', hfolder', hname', -⟩ := Place.of_hit? hhit'
    obtain rfl : p' = p := Searched.eq h hp' hp.searched (hroot'.symm.trans hroot)
      (hfolder'.symm.trans hfolder)
    rw [head?_candidates_leading h hp' hfile hpq hq] at hhead
    cases hhead
    exact List.inj_on_of_nodup_map (hp'.nodup h) (List.mem_filter.1 hfile).1
      (List.mem_filter.1 hfound).1 (hname'.symm.trans hname)
  exact fun file hfile other hother => (hall file hfile).trans (hall other hother).symm

/-- A document of the first place without a second file beside it is found in every listing. -/
theorem look_of_oneFile (h : ∀ l ∈ roots, l.Distinct) (hp : wanted.Earliest roots symbol p)
    (hone : p.OneFile symbol) (hrel : RootListing.Relisted roots others)
    {file : String × Option String} (hfile : file ∈ p.candidates symbol) :
    wanted.look (.ofListings others) symbol = p.hit? symbol file := by
  rw [look_eq_search]
  exact Place.search_relisted_of_oneFile (places_relisted h hrel wanted) ((isFirst_iff h).2 hp)
    hone hfile

/-- If no place holds a document, no listing of the same finds one. -/
theorem look_of_none (h : ∀ l ∈ roots, l.Distinct)
    (hnone : ∀ p, wanted.Searched roots p → ¬ p.Holds symbol)
    (hrel : RootListing.Relisted roots others) :
    wanted.look (.ofListings others) symbol = none := by
  rw [look_eq_search]
  exact Place.search_relisted_of_none (places_relisted h hrel wanted) fun p hp =>
    hnone p ((searched_iff h).2 hp)

/-- If some place holds a document, there is an earliest one. -/
theorem exists_earliest (h : ∀ l ∈ roots, l.Distinct) (hp : wanted.Searched roots p)
    (hholds : p.Holds symbol) : ∃ first, wanted.Earliest roots symbol first := by
  obtain ⟨first, hfirst⟩ := Place.exists_isFirst ⟨p, (searched_iff h).1 hp, hholds⟩
  exact ⟨first, (isFirst_iff h).1 hfirst⟩

end Wanted

/-- What a symbol's hit is, whatever the order in which the folders and files of the roots are
listed. -/
structure FoundInListings (roots : List RootListing) (wanted : Wanted) (symbol : String) :
    Prop where
  /-- The case of the symbol does not count. -/
  any_case : ∀ symbol', Text.sameLetters symbol symbol' = true → ∀ others,
    wanted.look (.ofListings others) symbol' = wanted.look (.ofListings others) symbol
  /-- A hit is a document of the symbol in a folder that is searched, and its exchange is the one
  that the document names, or else that of the folder. -/
  sound : ∀ others, RootListing.Relisted roots others → ∀ hit,
    wanted.look (.ofListings others) symbol = some hit →
      (∃ p, wanted.Searched roots p ∧ ∃ file ∈ p.candidates symbol, p.hit? symbol file = some hit)
        ∧ hit.exchange = Text.upper ((hit.doc.exchange.filter fun e => !(Text.trim e).isEmpty).getD
          (wanted.label hit.folder))
  /-- There is none if no folder that is searched holds one. -/
  absent : (∀ p, wanted.Searched roots p → ¬ p.Holds symbol) → ∀ others,
    RootListing.Relisted roots others → wanted.look (.ofListings others) symbol = none
  /-- Otherwise one of these folders is the first, and each of its documents is the hit in some
  listing. -/
  first : (∃ p, wanted.Searched roots p ∧ p.Holds symbol) → ∃ p, wanted.Earliest roots symbol p
    ∧ ∀ file ∈ p.candidates symbol, ∀ hit, p.hit? symbol file = some hit → ∃ others,
      RootListing.Relisted roots others ∧ wanted.look (.ofListings others) symbol = some hit
  /-- If no second file there has the name, the hit is the same in every listing, -/
  found : ∀ p, wanted.Earliest roots symbol p → p.OneFile symbol →
    ∃ file ∈ p.candidates symbol, ∃ hit, p.hit? symbol file = some hit ∧ ∀ others,
      RootListing.Relisted roots others → wanted.look (.ofListings others) symbol = some hit
  /-- and only then. -/
  same_iff : (∀ others, RootListing.Relisted roots others →
      wanted.look (.ofListings others) symbol = wanted.look (.ofListings roots) symbol)
    ↔ ∀ p, wanted.Earliest roots symbol p → p.OneFile symbol

/-- Documents are found by root and name of folder in any case of the symbol, and apart from files
that share a name with the first document also in any listing. -/
theorem documents_are_found_in_listings (roots : List RootListing) (h : ∀ l ∈ roots, l.Distinct)
    (wanted : Wanted) (symbol : String) : FoundInListings roots wanted symbol where
  any_case symbol' hletters others :=
    Wanted.look_congr (Text.sameLetters_iff.1 hletters).symm _ wanted
  sound others hrel hit hlook := by
    obtain ⟨p, hp, q, -, hpq, file, hhead, hhit⟩ := Wanted.of_look h hrel hlook
    obtain ⟨-, hfolder, -, hexchange⟩ := Place.of_hit? hhit
    rw [hp.label, ← hfolder] at hexchange
    have hfile := (hpq.candidates symbol).mem_iff.2 (List.mem_of_head? hhead)
    exact ⟨⟨p, hp, file, hfile, hhit⟩, hexchange⟩
  absent hnone others hrel := Wanted.look_of_none h hnone hrel
  first := by
    rintro ⟨p, hp, hholds⟩
    obtain ⟨first, hfirst⟩ := Wanted.exists_earliest h hp hholds
    refine ⟨first, hfirst, fun file hfile hit hhit => ?_⟩
    exact ⟨_, RootListing.relisted_leading file.1 roots, Wanted.look_leading h hfirst hfile hhit⟩
  found p hp hone := by
    obtain ⟨file, hfile, hit, hhit⟩ := hp.holds
    refine ⟨file, hfile, hit, hhit, fun others hrel => ?_⟩
    rw [Wanted.look_of_oneFile h hp hone hrel hfile, hhit]
  same_iff := by
    refine ⟨fun hsame p hp => Wanted.oneFile_of_look_eq h hsame hp, fun hone others hrel => ?_⟩
    by_cases hholds : ∃ p, wanted.Searched roots p ∧ p.Holds symbol
    · obtain ⟨p, hp, hholds⟩ := hholds
      obtain ⟨first, hfirst⟩ := Wanted.exists_earliest h hp hholds
      obtain ⟨file, hfile, -⟩ := hfirst.holds
      rw [Wanted.look_of_oneFile h hfirst (hone first hfirst) hrel hfile,
        Wanted.look_of_oneFile h hfirst (hone first hfirst) (RootListing.Relisted.refl roots) hfile]
    · have hnone : ∀ p, wanted.Searched roots p → ¬ p.Holds symbol :=
        fun p hp hp' => hholds ⟨p, hp, hp'⟩
      rw [Wanted.look_of_none h hnone hrel,
        Wanted.look_of_none h hnone (RootListing.Relisted.refl roots)]

/-- Two files have the name of one document, and only the second is one. -/
def twoSpellings : List (String × Option String) :=
  [("gsk.json", some "\x7bnot json"), ("GSK.json", some "\x7b\x7d")]

/-- One folder with two spellings of a name. -/
theorem found_in_listings_of_two_spellings :
    (∀ l ∈ [[("L", twoSpellings)]], RootListing.Distinct l)
      ∧ FoundInListings [[("L", twoSpellings)]] .instrument "gsk" :=
  ⟨by decide, documents_are_found_in_listings _ (by decide) .instrument "gsk"⟩

/-- The document is hidden if it is listed last. -/
theorem document_hidden_by_listing :
    RootListing.Relisted [[("L", twoSpellings)]] [[("L", RootListing.lead "GSK.json" twoSpellings)]]
      ∧ (Wanted.instrument.look (.ofListings [[("L", twoSpellings)]]) "GSK").map MetadataHit.file
        = none
      ∧ (Wanted.instrument.look (.ofListings [[("L", RootListing.lead "GSK.json" twoSpellings)]])
        "GSK").map MetadataHit.file = some "GSK.json" := by
  refine ⟨RootListing.relisted_leading "GSK.json" [[("L", twoSpellings)]], ?_, ?_⟩
  · rw [MetadataLibrary.ofListings_singleton]
    decide +kernel
  · rw [MetadataLibrary.ofListings_singleton]
    decide +kernel

end DailyBars
