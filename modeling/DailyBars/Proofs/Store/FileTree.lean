import DailyBars.Store.FileTree

/-! # Files in a folder

A folder is seen as its entries by name. What the operations on a path do is said of the entries of
the folder it leads into: a file that is put there, moved within it or taken away changes no other
entry.
-/

namespace DailyBars.FileTree

/-! ## Entries of one folder -/

/-- An entry that was set is found, -/
theorem lookup_setEntry_self (name : String) (t : FileTree) (entries : List (String × FileTree)) :
    (setEntry name t entries).lookup name = some t := by
  induction entries with
  | nil => simp [setEntry]
  | cons e rest ih =>
    rw [setEntry]
    split
    · simp
    · split
      · simp
      next hne => rw [List.lookup_cons, beq_eq_false_iff_ne.2 hne, ih]

/-- and the others are found as before. -/
theorem lookup_setEntry_of_ne {name n : String} (t : FileTree) (entries : List (String × FileTree))
    (h : n ≠ name) : (setEntry name t entries).lookup n = entries.lookup n := by
  have hne : (n == name) = false := beq_eq_false_iff_ne.2 h
  induction entries with
  | nil => simp [setEntry, List.lookup_cons, hne]
  | cons e rest ih =>
    rw [setEntry]
    split
    · rw [List.lookup_cons, hne]
    · split
      next heq => rw [List.lookup_cons, List.lookup_cons, ← heq, hne]
      · rw [List.lookup_cons, List.lookup_cons, ih]

/-- A removed entry is not found, -/
theorem lookup_without_self (name : String) (entries : List (String × FileTree)) :
    (entries.filter fun e => e.1 != name).lookup name = none := by
  induction entries with
  | nil => rfl
  | cons e rest ih =>
    rw [List.filter_cons]
    split
    next hne =>
      have hother : name ≠ e.1 := fun heq => by simp [heq] at hne
      rw [List.lookup_cons, beq_eq_false_iff_ne.2 hother, ih]
    · exact ih

/-- and the others are found as before. -/
theorem lookup_without_of_ne {name n : String} (entries : List (String × FileTree))
    (h : n ≠ name) : (entries.filter fun e => e.1 != name).lookup n = entries.lookup n := by
  induction entries with
  | nil => rfl
  | cons e rest ih =>
    rw [List.filter_cons]
    split
    · rw [List.lookup_cons, List.lookup_cons, ih]
    next heq =>
      have hother : (n == e.1) = false := by
        have hname : e.1 = name := by simpa using heq
        rw [hname]
        exact beq_eq_false_iff_ne.2 h
      rw [List.lookup_cons, hother, ih]

/-! ## Paths -/

/-- A path in two parts is followed one part after the other. -/
theorem find_append (path rest : TreePath) (t : FileTree) :
    t.find (path ++ rest) = (t.find path).bind (find rest) := by
  induction path generalizing t with
  | nil => rfl
  | cons name path ih =>
    cases t with
    | file text => rfl
    | folder entries =>
      rw [List.cons_append, find, find]
      split
      · rfl
      · split
        next sub _ => exact ih sub
        · rfl

/-- Following a path that can be followed meets no name that is too long. -/
theorem find_cons_eq_ok {name : String} {rest : TreePath} {entries : List (String × FileTree)}
    {t : FileTree} (h : find (name :: rest) (folder entries) = .ok t) :
    ¬ maxNameLength < name.utf8ByteSize ∧ ∃ sub, entries.lookup name = some sub
      ∧ find rest sub = .ok t := by
  rw [find] at h
  split at h
  · cases h
  next hfits =>
    split at h
    next sub hsub => exact ⟨hfits, sub, hsub, h⟩
    · cases h

/-- An entry of the folder at a path. -/
theorem find_entry {path : TreePath} {t : FileTree} {entries : List (String × FileTree)}
    (h : t.find path = .ok (folder entries)) {name : String}
    (hname : name.utf8ByteSize ≤ maxNameLength) :
    t.find (path ++ [name]) = match entries.lookup name with
      | some sub => .ok sub
      | none => .error .missing := by
  rw [find_append, h]
  show find [name] (folder entries) = _
  rw [find, if_neg (Nat.not_lt.2 hname)]
  rfl

/-- Putting an entry into a folder sets it there. -/
theorem find_put {path : TreePath} {t : FileTree} {entries : List (String × FileTree)}
    (h : t.find path = .ok (folder entries)) (name : String) (x : FileTree) :
    (put x (path ++ [name]) t).find path = .ok (folder (setEntry name x entries)) := by
  induction path generalizing t with
  | nil =>
    cases h
    rfl
  | cons a path ih =>
    cases t with
    | file text => cases h
    | folder outer =>
      obtain ⟨hfits, sub, hsub, hfind⟩ := find_cons_eq_ok h
      have hput : put x (a :: path ++ [name]) (folder outer)
          = folder (setEntry a (put x (path ++ [name]) sub) outer) := by
        cases path <;> simp [put, hsub]
      rw [hput, find, if_neg hfits, lookup_setEntry_self]
      exact ih hfind

/-- Removing an entry from a folder leaves the others. -/
theorem find_remove {path : TreePath} {t : FileTree} {entries : List (String × FileTree)}
    (h : t.find path = .ok (folder entries)) (name : String) :
    (remove (path ++ [name]) t).find path
      = .ok (folder (entries.filter fun e => e.1 != name)) := by
  induction path generalizing t with
  | nil =>
    cases h
    rfl
  | cons a path ih =>
    cases t with
    | file text => cases h
    | folder outer =>
      obtain ⟨hfits, sub, hsub, hfind⟩ := find_cons_eq_ok h
      have hremove : remove (a :: path ++ [name]) (folder outer)
          = folder (setEntry a (remove (path ++ [name]) sub) outer) := by
        cases path <;> simp [remove, hsub]
      rw [hremove, find, if_neg hfits, lookup_setEntry_self]
      exact ih hfind

/-! ## Operations in a folder -/

section InFolder

variable {root : TreePath} {t : FileTree} {entries : List (String × FileTree)}
  (hroot : t.find root = .ok (folder entries)) {name : String}
  (hname : name.utf8ByteSize ≤ maxNameLength)

include hroot

/-- An entry of a folder that is there can be written. -/
theorem hasFolderFor_entry (name : String) : t.hasFolderFor (root ++ [name]) = true := by
  unfold hasFolderFor
  rw [List.dropLast_concat, hroot]
  cases root <;> rfl

include hname

/-- A file of a folder is read as its text. -/
theorem read_entry : t.read (root ++ [name]) = match entries.lookup name with
    | some (file text) => .ok text
    | some (folder _) => .error .unusable
    | none => .error .missing := by
  rw [read, find_entry hroot hname]
  cases entries.lookup name with
  | none => rfl
  | some sub => cases sub <;> rfl

/-- A file is written unless a folder is in its place. -/
theorem write_entry (hfree : ∀ es, entries.lookup name ≠ some (folder es)) (text : String) :
    ∃ t', t.write (root ++ [name]) text = .ok t'
      ∧ t'.find root = .ok (folder (setEntry name (file text) entries)) := by
  refine ⟨put (file text) (root ++ [name]) t, ?_, find_put hroot name (file text)⟩
  rw [write, if_pos (hasFolderFor_entry hroot name), find_entry hroot hname]
  cases hentry : entries.lookup name with
  | none => rfl
  | some sub =>
    cases sub with
    | file old => rfl
    | folder es => exact absurd hentry (hfree es)

/-- A file is moved to another name unless a folder is in its way. -/
theorem rename_entry {text : String} (hfile : entries.lookup name = some (file text))
    {target : String} (htarget : target.utf8ByteSize ≤ maxNameLength)
    (hfree : ∀ es, entries.lookup target ≠ some (folder es)) :
    ∃ t', t.rename (root ++ [name]) (root ++ [target]) = .ok t'
      ∧ t'.find root
        = .ok (folder (setEntry target (file text) (entries.filter fun e => e.1 != name))) := by
  refine ⟨put (file text) (root ++ [target]) (remove (root ++ [name]) t), ?_,
    find_put (find_remove hroot name) target (file text)⟩
  rw [rename, find_entry hroot hname, hfile]
  simp only
  rw [if_pos (hasFolderFor_entry hroot target), find_entry hroot htarget]
  cases hentry : entries.lookup target with
  | none => rfl
  | some sub =>
    cases sub with
    | file old => rfl
    | folder es => exact absurd hentry (hfree es)

/-- Nothing is moved if nothing is there. -/
theorem rename_missing (hnone : entries.lookup name = none) (target : TreePath) :
    t.rename (root ++ [name]) target = .error .missing := by
  rw [rename, find_entry hroot hname, hnone]

end InFolder

/-! ## Folders that are made -/

/-- In an empty tree there is only the tree itself. -/
theorem find_empty_eq_ok {path : TreePath} {t : FileTree} (h : find path empty = .ok t) :
    t = empty := by
  cases path with
  | nil => exact (Except.ok.inj h).symm
  | cons name rest =>
    obtain ⟨-, sub, hsub, -⟩ := find_cons_eq_ok h
    cases hsub

/-- A folder that can be made is there already, and keeps its entries, or is missing, and has
none. -/
theorem find_of_makeFolder {path : TreePath} {t t' : FileTree} (h : makeFolder path t = .ok t') :
    (∃ entries, t.find path = .ok (folder entries) ∧ t'.find path = .ok (folder entries))
      ∨ t.find path = .error .missing ∧ t'.find path = .ok empty := by
  induction path generalizing t t' with
  | nil =>
    cases t with
    | file text => cases h
    | folder entries =>
      cases h
      exact Or.inl ⟨entries, rfl, rfl⟩
  | cons name rest ih =>
    cases t with
    | file text => cases h
    | folder outer =>
      rw [makeFolder] at h
      split at h
      · cases h
      next hfits =>
        obtain ⟨made, hmade, rfl⟩ : ∃ made,
            makeFolder rest ((outer.lookup name).getD empty) = .ok made
              ∧ folder (setEntry name made outer) = t' := by
          cases hrest : makeFolder rest ((outer.lookup name).getD empty) with
          | error fault =>
            rw [hrest] at h
            cases h
          | ok made =>
            rw [hrest] at h
            exact ⟨made, rfl, Except.ok.inj h⟩
        rw [find, if_neg hfits, find, if_neg hfits, lookup_setEntry_self]
        simp only
        cases hsub : outer.lookup name with
        | some sub =>
          rw [hsub] at hmade
          exact ih hmade
        | none =>
          rw [hsub] at hmade
          refine Or.inr ⟨rfl, ?_⟩
          rcases ih hmade with ⟨entries, hempty, hfound⟩ | ⟨-, hfound⟩
          · rw [hfound, find_empty_eq_ok hempty]
          · exact hfound

/-- A folder that is there can be made again. -/
theorem makeFolder_of_find {path : TreePath} {t : FileTree} {entries : List (String × FileTree)}
    (h : t.find path = .ok (folder entries)) : ∃ t', makeFolder path t = .ok t' := by
  induction path generalizing t with
  | nil =>
    cases h
    exact ⟨_, rfl⟩
  | cons name rest ih =>
    cases t with
    | file text => cases h
    | folder outer =>
      obtain ⟨hfits, sub, hsub, hfind⟩ := find_cons_eq_ok h
      obtain ⟨made, hmade⟩ := ih hfind
      refine ⟨folder (setEntry name made outer), ?_⟩
      rw [makeFolder, if_neg hfits, hsub, Option.getD_some, hmade]
      rfl

end DailyBars.FileTree
