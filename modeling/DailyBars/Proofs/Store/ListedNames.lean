import Mathlib.Data.String.Basic
import DailyBars.Proofs.Store.FileNames

/-! # Storages that can be listed

Listing gives the names of the series files that have a text, each of them once. A map in memory can
be listed, and so can a folder in which nothing lies but files in order of their names: writing,
drafting and putting out of the way leave it such a folder.
-/

namespace DailyBars

namespace Storage

variable {σ : Type}

/-- Listing succeeds, changes no text, and gives every name of a series file with a text once. -/
structure View.Lists {storage : Storage σ} (view : storage.View) : Prop where
  list : ∀ {s}, view.Works s → ∃ names s', storage.list s = (.ok names, s') ∧ view.Works s'
    ∧ view.texts s' = view.texts s ∧ names.Nodup
    ∧ ∀ n, n ∈ names ↔ SeriesKey.isSeriesName n = true ∧ ∃ text, view.texts s n = some text

/-- A memory lists the names it holds. -/
theorem memoryView_lists : memoryView.Lists where
  list {s} _ := by
    refine ⟨_, s, rfl, trivial, rfl, Std.TreeMap.nodup_keys.filter _, fun n => ?_⟩
    rw [List.mem_filter, Std.TreeMap.mem_keys, Std.TreeMap.mem_iff_isSome_getElem?,
      Option.isSome_iff_exists, and_comm]
    rfl

end Storage

/-! ## Folders of files -/

namespace FileTree

/-- The entries are files, in order of their names. -/
structure OnlyFiles (entries : List (String × FileTree)) : Prop where
  ordered : entries.Pairwise fun a b => a.1 < b.1
  files : ∀ e ∈ entries, ∃ text, e.2 = file text

/-- Setting an entry adds no other. -/
theorem mem_setEntry {name : String} {t : FileTree} {entries : List (String × FileTree)}
    {e : String × FileTree} (h : e ∈ setEntry name t entries) : e = (name, t) ∨ e ∈ entries := by
  induction entries with
  | nil => exact Or.inl (List.mem_singleton.1 h)
  | cons first rest ih =>
    rw [setEntry] at h
    split at h
    · exact List.mem_cons.1 h
    · split at h
      · exact (List.mem_cons.1 h).imp_right (List.mem_cons_of_mem _)
      · rcases List.mem_cons.1 h with rfl | h
        · exact Or.inr List.mem_cons_self
        · exact (ih h).imp_right (List.mem_cons_of_mem _)

/-- Setting an entry keeps the names ascending. -/
theorem ordered_setEntry (name : String) (t : FileTree) {entries : List (String × FileTree)}
    (h : entries.Pairwise fun a b => a.1 < b.1) :
    (setEntry name t entries).Pairwise fun a b => a.1 < b.1 := by
  induction entries with
  | nil => exact List.pairwise_singleton _ _
  | cons first rest ih =>
    obtain ⟨hfirst, hrest⟩ := List.pairwise_cons.1 h
    rw [setEntry]
    split
    next hbefore =>
      refine List.pairwise_cons.2 ⟨fun e he => ?_, h⟩
      rcases List.mem_cons.1 he with rfl | he
      · exact hbefore
      · exact lt_trans hbefore (hfirst e he)
    next hnot =>
      split
      next hsame => exact List.pairwise_cons.2 ⟨fun e he => hsame ▸ hfirst e he, hrest⟩
      next hother =>
        have hafter : first.1 < name := lt_of_le_of_ne (not_lt.1 hnot) (Ne.symm hother)
        refine List.pairwise_cons.2 ⟨fun e he => ?_, ih hrest⟩
        rcases mem_setEntry he with rfl | he
        · exact hafter
        · exact hfirst e he

namespace OnlyFiles

variable {entries : List (String × FileTree)}

/-- Writing a file leaves only files, -/
theorem setEntry (h : OnlyFiles entries) (name text : String) :
    OnlyFiles (setEntry name (file text) entries) where
  ordered := ordered_setEntry name _ h.ordered
  files e he := by
    rcases mem_setEntry he with rfl | he
    · exact ⟨text, rfl⟩
    · exact h.files e he

/-- and so does removing some. -/
theorem filter (h : OnlyFiles entries) (p : String × FileTree → Bool) :
    OnlyFiles (entries.filter p) where
  ordered := h.ordered.filter p
  files e he := h.files e (List.mem_of_mem_filter he)

/-- No name comes twice. -/
theorem nodup_names (h : OnlyFiles entries) : (entries.map (·.1)).Nodup :=
  List.pairwise_map.2 (h.ordered.imp ne_of_lt)

/-- Every entry is a file. -/
theorem lookup_eq_some_file (h : OnlyFiles entries) {name : String} {t : FileTree}
    (ht : entries.lookup name = some t) : ∃ text, t = file text := by
  obtain ⟨before, after, rfl, -⟩ := List.lookup_eq_some_iff.1 ht
  exact h.files (name, t) (by simp)

/-- Among files nothing obstructs a write. -/
theorem unobstructed (h : OnlyFiles entries) : Unobstructed entries := by
  have hfree : ∀ name es, entries.lookup name ≠ some (folder es) := by
    intro name es hes
    obtain ⟨text, htext⟩ := h.lookup_eq_some_file hes
    cases htext
  exact ⟨fun _ => hfree _, fun _ => hfree _, fun _ => hfree _⟩

/-- Every name is that of a text. -/
theorem mem_names_iff (h : OnlyFiles entries) {name : String} :
    name ∈ entries.map (·.1) ↔ ∃ text, textOf? (entries.lookup name) = some text := by
  constructor
  · intro hname
    cases hlookup : entries.lookup name with
    | none =>
      obtain ⟨e, he, rfl⟩ := List.mem_map.1 hname
      exact absurd (List.lookup_eq_none_iff.1 hlookup e he) (by simp)
    | some t =>
      obtain ⟨text, rfl⟩ := h.lookup_eq_some_file hlookup
      exact ⟨text, rfl⟩
  · rintro ⟨text, htext⟩
    cases hlookup : entries.lookup name with
    | none =>
      rw [hlookup] at htext
      cases htext
    | some t =>
      obtain ⟨before, after, rfl, -⟩ := List.lookup_eq_some_iff.1 hlookup
      simp

end OnlyFiles

end FileTree

namespace Storage

/-- The texts of a folder in which nothing but files lie. -/
def localFilesView (root : TreePath) (location : String) : (localFolder root location).View where
  texts := folderTexts root
  Works t := ∃ entries, t.entriesAt? root = some entries ∧ FileTree.OnlyFiles entries
  keeps := false
  read := by
    rintro name hname t ⟨entries, hentries, hfiles⟩
    refine ⟨t, ?_, ⟨entries, hentries, hfiles⟩, rfl⟩
    rw [localFolder_read hentries hfiles.unobstructed hname,
      folderTexts_of_entries hentries hname.not_isDraft]
  write := by
    rintro name hname text t ⟨entries, hentries, hfiles⟩
    obtain ⟨t', hwrite, hwritten⟩ :=
      localFolder_write location hentries hfiles.unobstructed hname text
    refine ⟨_, t', hwrite, ⟨_, hwritten, ?_⟩,
      Or.inl ⟨rfl, folderTexts_write hname hentries hwritten⟩⟩
    exact ((hfiles.setEntry _ text).filter _).setEntry name text
  quarantine := by
    rintro name hname t ⟨entries, hentries, hfiles⟩
    obtain ⟨r, t', hrun, ⟨-, rfl⟩ | ⟨text, hmoved⟩⟩ :=
      localFolder_quarantine location hentries hfiles.unobstructed hname
    · exact ⟨r, t', hrun, ⟨entries, hentries, hfiles⟩, Or.inl rfl⟩
    · exact ⟨r, t', hrun, ⟨_, hmoved, (hfiles.filter _).setEntry _ text⟩,
        Or.inr ⟨rfl, folderTexts_quarantine hname hentries hmoved⟩⟩

/-- A series name is not that of a draft. -/
theorem not_isDraft_of_isSeriesName {name : String} (h : SeriesKey.isSeriesName name = true) :
    isDraft name = false := by
  refine Bool.eq_false_iff.2 fun hdraft => ?_
  obtain ⟨stem, hstem⟩ := List.isSuffixOf_iff_suffix.1 hdraft
  have hlast := SeriesKey.getLast?_of_isSeriesName h
  rw [← hstem] at hlast
  simp at hlast

/-- A local folder lists the names it holds. -/
theorem localFilesView_lists (root : TreePath) (location : String) :
    (localFilesView root location).Lists where
  list := by
    rintro t ⟨entries, hentries, hfiles⟩
    have hlist : (localFolder root location).list t
        = (.ok ((entries.map (·.1)).filter SeriesKey.isSeriesName), t) := by
      rcases FileTree.find_of_entriesAt? hentries with hroot | ⟨hmissing, rfl⟩
      · simp only [localFolder, FileTree.list, hroot]
      · simp only [localFolder, FileTree.list, hmissing, List.map_nil, List.filter_nil]
    refine ⟨_, t, hlist, ⟨entries, hentries, hfiles⟩, rfl, hfiles.nodup_names.filter _,
      fun n => ?_⟩
    rw [List.mem_filter, hfiles.mem_names_iff, and_comm]
    refine and_congr_right fun hname => ?_
    rw [← folderTexts_of_entries hentries (not_isDraft_of_isSeriesName hname)]
    rfl

/-- A folder without entries is an empty storage. -/
theorem localFilesView_empty (root : TreePath) (location : String) {t : FileTree}
    (hempty : t.entriesAt? root = some []) : (localFilesView root location).Empty t where
  works := ⟨[], hempty, List.Pairwise.nil, nofun⟩
  texts := (localView_empty root location hempty).texts

end Storage
end DailyBars
