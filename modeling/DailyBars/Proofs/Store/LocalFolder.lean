import DailyBars.Proofs.Store.FileTree
import DailyBars.Proofs.Store.View

/-! # A local folder as a storage

The files of a folder are the texts of a storage. As long as no folder stands at a name that the
store uses, every write and every move takes place: the folder is there or can be made, the names
are short enough, and a draft is moved into the place of the file it replaces.
-/

namespace DailyBars

/-! ## Names and paths -/

namespace Text

/-- A text without the mark is one field. -/
theorem fields_of_notMem {mark : Char} {cs : List Char} (h : mark ∉ cs) :
    fields mark cs = [cs] := by
  induction cs with
  | nil => rfl
  | cons c rest ih =>
    obtain ⟨hc, hrest⟩ : ¬ c = mark ∧ mark ∉ rest := by
      simpa [eq_comm, not_or] using h
    rw [fields, if_neg hc, ih hrest]

end Text

namespace SeriesKey

/-- The text of a key has no slash, -/
theorem slash_notMem_text {k : SeriesKey} (h : k.Valid) : '/' ∉ k.text.toList :=
  notMem_text h (by decide) (by decide)

/-- and it is short. -/
theorem size_text_le {k : SeriesKey} (h : k.Valid) : k.text.utf8ByteSize ≤ 41 := by
  obtain ⟨hsymbol, hexchange⟩ := valid_iff.1 h
  have hs : k.symbol.utf8ByteSize ≤ 32 := hsymbol.short
  have he : k.exchange.utf8ByteSize ≤ 8 := hexchange.short
  have hjoined : k.text.utf8ByteSize
      = k.symbol.utf8ByteSize + "_".utf8ByteSize + k.exchange.utf8ByteSize := by
    rw [text, String.utf8ByteSize_append, String.utf8ByteSize_append]
  have hmark : "_".utf8ByteSize = 1 := by decide
  omega

end SeriesKey

/-- A name that an entry of a folder can have, and that leads to it. -/
structure IsEntry (name : String) : Prop where
  slash : '/' ∉ name.toList
  last : ∃ c, name.toList.getLast? = some c ∧ c ≠ '.'
  size : name.utf8ByteSize ≤ FileTree.maxNameLength

/-- A name that can be an entry is joined to the folder as its last part. -/
theorem IsEntry.join {name : String} (h : IsEntry name) (root : TreePath) :
    root.join name = root ++ [name] := by
  obtain ⟨c, hlast, hc⟩ := h.last
  have hhead : ¬ (name.toList.head? == some '/') = true := by
    intro hstart
    exact h.slash (List.mem_of_head? (by simpa using hstart))
  have hempty : name.toList ≠ [] := by
    intro hnil
    rw [hnil] at hlast
    cases hlast
  have hdot : name.toList ≠ ['.'] := by
    intro hone
    rw [hone] at hlast
    exact hc (Option.some.inj hlast).symm
  have hdots : name.toList ≠ ['.', '.'] := by
    intro htwo
    rw [htwo] at hlast
    exact hc (Option.some.inj hlast).symm
  rw [TreePath.join, if_neg hhead, Text.fields_of_notMem h.slash, List.foldl_cons, List.foldl_nil,
    if_neg (not_or.2 ⟨hempty, hdot⟩), if_neg hdots, String.ofList_toList]

/-- A stem without slashes, with an ending that is not a dot, can be an entry. -/
theorem isEntry_append {stem ending : String} {c : Char} (hstem : '/' ∉ stem.toList)
    (hending : '/' ∉ ending.toList) (hlast : ending.toList.getLast? = some c) (hc : c ≠ '.')
    (hsize : stem.utf8ByteSize + ending.utf8ByteSize ≤ FileTree.maxNameLength) :
    IsEntry (stem ++ ending) where
  slash := by simp [hstem, hending]
  last := ⟨c, by simp [List.getLast?_append, hlast], hc⟩
  size := by rwa [String.utf8ByteSize_append]

/-- The text of a key and one of two endings make the name of a file. -/
theorem IsFile.parts {name : String} (h : IsFile name) : '/' ∉ name.toList ∧ (∃ c,
    name.toList.getLast? = some c ∧ c ≠ '.') ∧ name.utf8ByteSize ≤ 51 := by
  obtain ⟨k, hk, rfl | rfl⟩ := h
  all_goals
    have hslash := SeriesKey.slash_notMem_text hk
    have hsize := SeriesKey.size_text_le hk
  · refine ⟨?_, ⟨'t', k.getLast?_seriesName, by decide⟩, ?_⟩
    · simp [SeriesKey.seriesName, SeriesKey.seriesExtension, hslash]
    · have hending : SeriesKey.seriesExtension.utf8ByteSize = 8 := by decide
      rw [SeriesKey.seriesName, String.utf8ByteSize_append]
      omega
  · refine ⟨?_, ⟨'n', k.getLast?_spanName, by decide⟩, ?_⟩
    · simp [SeriesKey.spanName, hslash]
    · have hending : ".span.json".utf8ByteSize = 10 := by decide
      rw [SeriesKey.spanName, String.utf8ByteSize_append]
      omega

/-- The name of a stored file can be an entry, -/
theorem IsFile.isEntry {name : String} (h : IsFile name) : IsEntry name :=
  ⟨h.parts.1, h.parts.2.1, Nat.le_trans h.parts.2.2 (by decide)⟩

/-- The name under which a file is drafted. -/
def draftName (name : String) : String := name ++ ".tmp"

/-- so can that of its draft, -/
theorem IsFile.isEntry_draftName {name : String} (h : IsFile name) : IsEntry (draftName name) :=
  isEntry_append h.parts.1 (by decide) (c := 'p') (by decide) (by decide)
    (Nat.le_trans (Nat.add_le_add_right h.parts.2.2 _) (by decide))

/-- and that under which it is put out of the way. -/
theorem IsFile.isEntry_quarantinedName {name : String} (h : IsFile name) :
    IsEntry (quarantinedName name) :=
  isEntry_append h.parts.1 (by decide) (c := 'd') (by decide) (by decide)
    (Nat.le_trans (Nat.add_le_add_right h.parts.2.2 _) (by decide))

/-! ## What the folder holds -/

/-- The name is that of a draft. Drafts do not count as texts. -/
def isDraft (name : String) : Bool := ".tmp".toList.isSuffixOf name.toList

/-- The name of a draft is told by its ending, -/
theorem isDraft_draftName (name : String) : isDraft (draftName name) = true := by
  simp [isDraft, draftName]

/-- which no stored file has. -/
theorem IsFile.not_isDraft {name : String} (h : IsFile name) : isDraft name = false := by
  refine Bool.eq_false_iff.2 fun hdraft => ?_
  obtain ⟨stem, hstem⟩ := List.isSuffixOf_iff_suffix.1 hdraft
  have hlast : name.toList.getLast? = some 'p' := by
    rw [← hstem]
    simp
  obtain ⟨k, -, rfl | rfl⟩ := h
  · rw [k.getLast?_seriesName] at hlast
    cases hlast
  · rw [k.getLast?_spanName] at hlast
    cases hlast

namespace FileTree

/-- The entries of a folder that is there or can be made. -/
def entriesAt? (root : TreePath) (t : FileTree) : Option (List (String × FileTree)) :=
  match t.makeFolder root with
  | .ok made =>
    match made.find root with
    | .ok (folder entries) => some entries
    | _ => none
  | .error _ => none

/-- The text of an entry. -/
def textOf? : Option FileTree → Option String
  | some (file text) => some text
  | _ => none

variable {root : TreePath} {t : FileTree} {entries : List (String × FileTree)}

/-- The entries are those of the folder once it is made. -/
theorem entriesAt?_eq_some : t.entriesAt? root = some entries
    ↔ ∃ made, t.makeFolder root = .ok made ∧ made.find root = .ok (folder entries) := by
  unfold entriesAt?
  constructor
  · intro h
    split at h
    next made hmade =>
      split at h
      next es hes =>
        cases h
        exact ⟨made, hmade, hes⟩
      · cases h
    · cases h
  · rintro ⟨made, hmade, hfound⟩
    simp only [hmade, hfound]

/-- A folder that is there has its entries. -/
theorem entriesAt?_of_find (h : t.find root = .ok (folder entries)) :
    t.entriesAt? root = some entries := by
  obtain ⟨made, hmade⟩ := makeFolder_of_find h
  refine entriesAt?_eq_some.2 ⟨made, hmade, ?_⟩
  rcases find_of_makeFolder hmade with ⟨es, hes, hmade'⟩ | ⟨hmissing, -⟩
  · rw [h] at hes
    rw [hmade', ← hes]
  · rw [h] at hmissing
    cases hmissing

/-- A folder with entries is there; one without may be missing. -/
theorem find_of_entriesAt? (h : t.entriesAt? root = some entries) :
    t.find root = .ok (folder entries) ∨ t.find root = .error .missing ∧ entries = [] := by
  obtain ⟨made, hmade, hfound⟩ := entriesAt?_eq_some.1 h
  rcases find_of_makeFolder hmade with ⟨es, hes, hmade'⟩ | ⟨hmissing, hmade'⟩
  · rw [hfound] at hmade'
    rw [hes, ← hmade']
    exact Or.inl rfl
  · rw [hfound] at hmade'
    cases hmade'
    exact Or.inr ⟨hmissing, rfl⟩

/-- No folder stands at a name that the store uses. -/
structure Unobstructed (entries : List (String × FileTree)) : Prop where
  file : ∀ {name}, IsFile name → ∀ es, entries.lookup name ≠ some (folder es)
  draft : ∀ {name}, IsFile name → ∀ es, entries.lookup (draftName name) ≠ some (folder es)
  quarantined : ∀ {name}, IsFile name → ∀ es,
    entries.lookup (quarantinedName name) ≠ some (folder es)

/-- Entries of which each is one of the old ones or a file are as unobstructed as those. -/
theorem Unobstructed.of_lookup {later : List (String × FileTree)} (h : Unobstructed entries)
    (hlater : ∀ n es, later.lookup n = some (folder es) → entries.lookup n = some (folder es)) :
    Unobstructed later where
  file hname es hes := h.file hname es (hlater _ es hes)
  draft hname es hes := h.draft hname es (hlater _ es hes)
  quarantined hname es hes := h.quarantined hname es (hlater _ es hes)

end FileTree

/-! ## The operations of the storage -/

namespace Storage

variable {root : TreePath} {location : String} {t : FileTree} {entries : List (String × FileTree)}

/-- Reading gives the text of the entry, and changes nothing. -/
theorem localFolder_read (hentries : t.entriesAt? root = some entries)
    (hfree : FileTree.Unobstructed entries) {name : String} (hname : IsFile name) :
    (localFolder root location).read name t
      = (.ok (FileTree.textOf? (entries.lookup name)), t) := by
  have hread : t.read (root ++ [name])
      = (FileTree.textOf? (entries.lookup name)).elim (.error .missing) .ok := by
    rcases FileTree.find_of_entriesAt? hentries with hroot | ⟨hmissing, rfl⟩
    · rw [FileTree.read_entry hroot hname.isEntry.size]
      cases hentry : entries.lookup name with
      | none => rfl
      | some sub =>
        cases sub with
        | file text => rfl
        | folder es => exact absurd hentry (hfree.file hname es)
    · rw [FileTree.read, FileTree.find_append, hmissing]
      rfl
  unfold localFolder
  simp only [hname.isEntry.join, hread]
  cases FileTree.textOf? (entries.lookup name) with
  | none => rfl
  | some text => rfl

/-- The entries after a file was written: the draft has been moved into its place. -/
def entriesWith (name text : String) (entries : List (String × FileTree)) :
    List (String × FileTree) :=
  FileTree.setEntry name (.file text)
    ((FileTree.setEntry (draftName name) (.file text) entries).filter fun e =>
      e.1 != draftName name)

/-- Writing a file leaves the entries of all other names but its draft. -/
theorem lookup_entriesWith_of_ne {name n : String} (text : String)
    (entries : List (String × FileTree)) (hne : n ≠ name) (hdraft : n ≠ draftName name) :
    (entriesWith name text entries).lookup n = entries.lookup n := by
  rw [entriesWith, FileTree.lookup_setEntry_of_ne _ _ hne, FileTree.lookup_without_of_ne _ hdraft,
    FileTree.lookup_setEntry_of_ne _ _ hdraft]

/-- No stored file has the name of a draft. -/
theorem IsFile.ne_draftName {name : String} (h : IsFile name) (other : String) :
    name ≠ draftName other := by
  rintro rfl
  have hdraft := h.not_isDraft
  rw [isDraft_draftName] at hdraft
  cases hdraft

/-- Writing puts no folder in the way of a file. -/
theorem unobstructed_entriesWith (hfree : FileTree.Unobstructed entries) (name text : String) :
    FileTree.Unobstructed (entriesWith name text entries) := by
  refine hfree.of_lookup fun n es hes => ?_
  by_cases hname : n = name
  · rw [hname, entriesWith, FileTree.lookup_setEntry_self] at hes
    cases hes
  · by_cases hdraft : n = draftName name
    · rw [entriesWith, FileTree.lookup_setEntry_of_ne _ _ hname, hdraft,
        FileTree.lookup_without_self] at hes
      cases hes
    · rwa [lookup_entriesWith_of_ne text entries hname hdraft] at hes

/-- Writing succeeds and puts the text where it belongs. -/
theorem localFolder_write (location : String) (hentries : t.entriesAt? root = some entries)
    (hfree : FileTree.Unobstructed entries) {name : String} (hname : IsFile name) (text : String) :
    ∃ t', (localFolder root location).write name text t = (.ok (), t')
      ∧ t'.entriesAt? root = some (entriesWith name text entries) := by
  obtain ⟨made, hmade, hroot⟩ := FileTree.entriesAt?_eq_some.1 hentries
  obtain ⟨drafted, hdrafted, hroot₁⟩ := FileTree.write_entry hroot
    hname.isEntry_draftName.size (hfree.draft hname) text
  have hdraft := FileTree.lookup_setEntry_self (draftName name) (.file text) entries
  have hplace : ∀ es, (FileTree.setEntry (draftName name) (.file text) entries).lookup name
      ≠ some (.folder es) := by
    intro es hes
    rw [FileTree.lookup_setEntry_of_ne _ _ (IsFile.ne_draftName hname name)] at hes
    exact hfree.file hname es hes
  obtain ⟨t', hrenamed, hroot₂⟩ := FileTree.rename_entry hroot₁ hname.isEntry_draftName.size hdraft
    hname.isEntry.size hplace
  refine ⟨t', ?_, FileTree.entriesAt?_of_find hroot₂⟩
  have hjoin : root.join (name ++ ".tmp") = root ++ [draftName name] :=
    hname.isEntry_draftName.join root
  show writeFile root name text t = (.ok (), t')
  unfold writeFile
  simp only [hmade, hjoin, hdrafted, hname.isEntry.join root, hrenamed]

/-- The entries after a file was put out of the way. -/
def entriesWithout (name text : String) (entries : List (String × FileTree)) :
    List (String × FileTree) :=
  FileTree.setEntry (quarantinedName name) (.file text) (entries.filter fun e => e.1 != name)

/-- A file that is put out of the way is gone, -/
theorem lookup_entriesWithout_self (name text : String) (entries : List (String × FileTree))
    (hne : name ≠ quarantinedName name) :
    (entriesWithout name text entries).lookup name = none := by
  rw [entriesWithout, FileTree.lookup_setEntry_of_ne _ _ hne, FileTree.lookup_without_self]

/-- and no other entry but the one it becomes is touched. -/
theorem lookup_entriesWithout_of_ne {name n : String} (text : String)
    (entries : List (String × FileTree)) (hne : n ≠ name) (hmoved : n ≠ quarantinedName name) :
    (entriesWithout name text entries).lookup n = entries.lookup n := by
  rw [entriesWithout, FileTree.lookup_setEntry_of_ne _ _ hmoved,
    FileTree.lookup_without_of_ne _ hne]

/-- Putting a file out of the way puts no folder in the way of one. -/
theorem unobstructed_entriesWithout (hfree : FileTree.Unobstructed entries) {name : String}
    (hname : IsFile name) (text : String) :
    FileTree.Unobstructed (entriesWithout name text entries) := by
  refine hfree.of_lookup fun n es hes => ?_
  by_cases hmoved : n = quarantinedName name
  · rw [hmoved, entriesWithout, FileTree.lookup_setEntry_self] at hes
    cases hes
  · by_cases hgone : n = name
    · rw [hgone,
        lookup_entriesWithout_self name text entries (ne_quarantinedName hname name)] at hes
      cases hes
    · rwa [lookup_entriesWithout_of_ne text entries hgone hmoved] at hes

/-- A file is put out of the way; if there is none, nothing happens. -/
theorem localFolder_quarantine (location : String) (hentries : t.entriesAt? root = some entries)
    (hfree : FileTree.Unobstructed entries) {name : String} (hname : IsFile name) :
    ∃ r t', (localFolder root location).quarantine name t = (r, t')
      ∧ (entries.lookup name = none ∧ t' = t
        ∨ ∃ text, t'.entriesAt? root = some (entriesWithout name text entries)) := by
  have hrun : ∀ moved, t.rename (root ++ [name]) (root ++ [quarantinedName name]) = moved →
      (localFolder root location).quarantine name t = match moved with
        | .ok t' => (.ok (), t')
        | .error _ => (.error (.quarantine name), t) := by
    intro moved hmoved
    unfold localFolder
    cases moved with
    | ok t' => simp only [hname.isEntry.join root, hname.isEntry_quarantinedName.join root, hmoved]
    | error fault =>
      simp only [hname.isEntry.join root, hname.isEntry_quarantinedName.join root, hmoved]
  rcases FileTree.find_of_entriesAt? hentries with hroot | ⟨hmissing, rfl⟩
  · cases hentry : entries.lookup name with
    | none =>
      exact ⟨_, t, hrun _ (FileTree.rename_missing hroot hname.isEntry.size hentry _),
        Or.inl ⟨rfl, rfl⟩⟩
    | some sub =>
      cases sub with
      | folder es => exact absurd hentry (hfree.file hname es)
      | file text =>
        obtain ⟨t', hrenamed, hroot'⟩ := FileTree.rename_entry hroot hname.isEntry.size hentry
          hname.isEntry_quarantinedName.size (hfree.quarantined hname)
        exact ⟨_, t', hrun _ hrenamed, Or.inr ⟨text, FileTree.entriesAt?_of_find hroot'⟩⟩
  · have hnothing : t.rename (root ++ [name]) (root ++ [quarantinedName name])
        = .error .missing := by
      rw [FileTree.rename, FileTree.find_append, hmissing]
      rfl
    exact ⟨_, t, hrun _ hnothing, Or.inl ⟨rfl, rfl⟩⟩

/-! ## The view -/

/-- The texts of the files of a folder, drafts apart. -/
def folderTexts (root : TreePath) (t : FileTree) : Texts := fun name =>
  if isDraft name then none
  else FileTree.textOf? (((t.entriesAt? root).getD []).lookup name)

/-- The text of a name that is no draft is that of its entry. -/
theorem folderTexts_of_entries (hentries : t.entriesAt? root = some entries) {name : String}
    (hname : isDraft name = false) :
    folderTexts root t name = FileTree.textOf? (entries.lookup name) := by
  rw [folderTexts, hname, hentries]
  rfl

/-- To a reader, writing changes the text of one name. -/
theorem folderTexts_write {t' : FileTree} {name text : String} (hname : IsFile name)
    (hentries : t.entriesAt? root = some entries)
    (hwritten : t'.entriesAt? root = some (entriesWith name text entries)) :
    folderTexts root t' = (folderTexts root t).put name text := by
  funext n
  by_cases hsame : n = name
  · subst hsame
    rw [Texts.put_self, folderTexts_of_entries hwritten hname.not_isDraft, entriesWith,
      FileTree.lookup_setEntry_self]
    rfl
  · rw [Texts.put_of_ne _ _ hsame]
    cases hdraft : isDraft n with
    | true =>
      rw [folderTexts, folderTexts, hdraft]
      rfl
    | false =>
      have hne : n ≠ draftName name := by
        rintro rfl
        rw [isDraft_draftName] at hdraft
        cases hdraft
      rw [folderTexts_of_entries hwritten hdraft, folderTexts_of_entries hentries hdraft,
        lookup_entriesWith_of_ne text entries hsame hne]

/-- To a reader, putting a file out of the way removes the text of its name. -/
theorem folderTexts_quarantine {t' : FileTree} {name text : String} (hname : IsFile name)
    (hentries : t.entriesAt? root = some entries)
    (hmoved : t'.entriesAt? root = some (entriesWithout name text entries)) :
    folderTexts root t' name = none
      ∧ ∀ n, IsFile n → n ≠ name → folderTexts root t' n = folderTexts root t n := by
  refine ⟨?_, fun n hn hne => ?_⟩
  · rw [folderTexts_of_entries hmoved hname.not_isDraft,
      lookup_entriesWithout_self name text entries (ne_quarantinedName hname name)]
    rfl
  · rw [folderTexts_of_entries hmoved hn.not_isDraft,
      folderTexts_of_entries hentries hn.not_isDraft,
      lookup_entriesWithout_of_ne text entries hne (ne_quarantinedName hn name)]

/-- The folder is there or can be made, and no folder in it stands in the way of a file. -/
def Usable (root : TreePath) (t : FileTree) : Prop :=
  ∃ entries, t.entriesAt? root = some entries ∧ FileTree.Unobstructed entries

/-- The texts of a folder in which nothing stands in the way. -/
def localView (root : TreePath) (location : String) : (localFolder root location).View where
  texts := folderTexts root
  Works := Usable root
  keeps := false
  read := by
    rintro name hname t ⟨entries, hentries, hfree⟩
    refine ⟨t, ?_, ⟨entries, hentries, hfree⟩, rfl⟩
    rw [localFolder_read hentries hfree hname, folderTexts_of_entries hentries hname.not_isDraft]
  write := by
    rintro name hname text t ⟨entries, hentries, hfree⟩
    obtain ⟨t', hwrite, hwritten⟩ := localFolder_write location hentries hfree hname text
    exact ⟨_, t', hwrite, ⟨_, hwritten, unobstructed_entriesWith hfree name text⟩,
      Or.inl ⟨rfl, folderTexts_write hname hentries hwritten⟩⟩
  quarantine := by
    rintro name hname t ⟨entries, hentries, hfree⟩
    obtain ⟨r, t', hrun, ⟨-, rfl⟩ | ⟨text, hmoved⟩⟩ :=
      localFolder_quarantine location hentries hfree hname
    · exact ⟨r, t', hrun, ⟨entries, hentries, hfree⟩, Or.inl rfl⟩
    · exact ⟨r, t', hrun, ⟨_, hmoved, unobstructed_entriesWithout hfree hname text⟩,
        Or.inr ⟨rfl, folderTexts_quarantine hname hentries hmoved⟩⟩

/-- A usable folder never fails. -/
theorem localView_reliable (root : TreePath) (location : String) :
    (localView root location).Reliable where
  write := by
    rintro name hname text t ⟨entries, hentries, hfree⟩
    obtain ⟨t', hwrite, -⟩ := localFolder_write location hentries hfree hname text
    rw [hwrite]
  quarantine := by
    rintro - name hname t ⟨entries, hentries, hfree⟩
    obtain ⟨r, t', hrun, ⟨hnone, rfl⟩ | ⟨text, hmoved⟩⟩ :=
      localFolder_quarantine location hentries hfree hname
    · rw [hrun]
      show folderTexts root t' name = none
      rw [folderTexts_of_entries hentries hname.not_isDraft, hnone]
      rfl
    · rw [hrun]
      exact (folderTexts_quarantine hname hentries hmoved).1

/-- A folder without entries is an empty storage. -/
theorem localView_empty (root : TreePath) (location : String) {t : FileTree}
    (hempty : t.entriesAt? root = some []) : (localView root location).Empty t where
  works := ⟨[], hempty, nofun, nofun, nofun⟩
  texts name := by
    show folderTexts root t name = none
    rw [folderTexts, hempty]
    cases isDraft name <;> rfl

end Storage
end DailyBars
