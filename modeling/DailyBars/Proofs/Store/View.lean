import DailyBars.Proofs.Store.Names
import DailyBars.Proofs.Store.SeriesFile
import DailyBars.Proofs.Store.SpanRecord
import DailyBars.Store.SeriesCache

/-! # A storage seen through its texts

What the store relies on is how the texts under the names of its files change. A `Storage.View`
says this for a storage whose reads succeed and whose writes take place as a whole or not at all;
`Storage.View.Reliable` adds that they take place. A text that is put out of the way is gone, or
every text stays, for a storage that does not move texts.
-/

namespace DailyBars

/-- Texts by name. -/
abbrev Texts := String → Option String

namespace Texts

/-- The texts with another one under a name. -/
def put (t : Texts) (name text : String) : Texts := fun n => if n = name then some text else t n

/-- A text that was put is found, -/
@[simp] theorem put_self (t : Texts) (name text : String) : t.put name text name = some text :=
  if_pos rfl

/-- and the others stay. -/
theorem put_of_ne (t : Texts) {name n : String} (text : String) (h : n ≠ name) :
    t.put name text n = t n :=
  if_neg h

end Texts

/-- The name is that of a file of a well-formed key. -/
def IsFile (name : String) : Prop := ∃ k : SeriesKey, k.Valid ∧ k.Owns name

/-- The series name of a valid key is that of a file, -/
theorem SeriesKey.isFile_seriesName {k : SeriesKey} (h : k.Valid) : IsFile k.seriesName :=
  ⟨k, h, Or.inl rfl⟩

/-- and so is its span name. -/
theorem SeriesKey.isFile_spanName {k : SeriesKey} (h : k.Valid) : IsFile k.spanName :=
  ⟨k, h, Or.inr rfl⟩

namespace Storage

variable {σ : Type}

/-- A reading of the states of a storage as texts by name. As long as the storage works, reads
give these texts, a write either puts the text in place or changes none, and moving a text out of
the way leaves no text under its name, or changes none. -/
structure View (storage : Storage σ) where
  texts : σ → Texts
  /-- Reads succeed from here on. -/
  Works : σ → Prop
  /-- No text is ever moved out of the way. -/
  keeps : Bool
  read : ∀ {name : String}, IsFile name → ∀ {s}, Works s → ∃ s',
    storage.read name s = (.ok (texts s name), s') ∧ Works s' ∧ texts s' = texts s
  write : ∀ {name : String}, IsFile name → ∀ text {s}, Works s → ∃ r s',
    storage.write name text s = (r, s') ∧ Works s'
      ∧ (r = .ok () ∧ texts s' = (texts s).put name text
        ∨ (∃ fault, r = .error fault) ∧ texts s' = texts s)
  quarantine : ∀ {name : String}, IsFile name → ∀ {s}, Works s → ∃ r s',
    storage.quarantine name s = (r, s') ∧ Works s'
      ∧ (texts s' = texts s ∨ keeps = false ∧ texts s' name = none
        ∧ ∀ n, IsFile n → n ≠ name → texts s' n = texts s n)

namespace View

variable {storage : Storage σ}

/-- No write fails, and a storage that moves texts out of the way does so every time. -/
structure Reliable (view : storage.View) : Prop where
  write : ∀ {name : String}, IsFile name → ∀ text {s}, view.Works s →
    (storage.write name text s).1 = .ok ()
  quarantine : view.keeps = false → ∀ {name : String}, IsFile name → ∀ {s}, view.Works s →
    view.texts (storage.quarantine name s).2 name = none

/-- The storage works, and nothing is stored. -/
structure Empty (view : storage.View) (s : σ) : Prop where
  works : view.Works s
  texts : ∀ name, view.texts s name = none

end View

/-! ## In memory -/

/-- No file has a quarantined name. -/
theorem ne_quarantinedName {name : String} (h : IsFile name) (other : String) :
    name ≠ quarantinedName other := by
  rintro rfl
  obtain ⟨k, -, hk⟩ := h
  exact SeriesKey.not_owns_quarantinedName k other hk

/-- A memory puts what is written. -/
theorem memory_write (name text : String) (s : Memory) :
    (fun n => (memory.write name text s).2.texts[n]?)
      = Texts.put (fun n => s.texts[n]?) name text := by
  funext n
  show (s.texts.insert name text)[n]? = _
  by_cases h : n = name
  · rw [h, Texts.put_self, Std.TreeMap.getElem?_insert_self]
  · have hne : compare name n ≠ .eq := fun heq => h (Std.LawfulEqCmp.eq_of_compare heq).symm
    rw [Texts.put_of_ne _ _ h, Std.TreeMap.getElem?_insert, if_neg hne]

/-- A file that is put out of the way is gone, and no other file is touched. -/
theorem memory_quarantine {name : String} (hname : IsFile name) (s : Memory) :
    (memory.quarantine name s).2.texts[name]? = none
      ∧ ∀ n, IsFile n → n ≠ name → (memory.quarantine name s).2.texts[n]? = s.texts[n]? := by
  cases htext : s.texts[name]? with
  | none =>
    have hstays : (memory.quarantine name s).2 = s := by simp [memory, htext]
    rw [hstays]
    exact ⟨htext, fun _ _ _ => rfl⟩
  | some text =>
    have hmoves : (memory.quarantine name s).2.texts
        = (s.texts.erase name).insert (quarantinedName name) text := by simp [memory, htext]
    have hmoved : ∀ n, IsFile n → compare (quarantinedName name) n ≠ .eq :=
      fun n hn heq => ne_quarantinedName hn name (Std.LawfulEqCmp.eq_of_compare heq).symm
    rw [hmoves]
    refine ⟨?_, fun n hn hne => ?_⟩
    · rw [Std.TreeMap.getElem?_insert, if_neg (hmoved name hname), Std.TreeMap.getElem?_erase_self]
    · have hother : compare name n ≠ .eq :=
        fun heq => hne (Std.LawfulEqCmp.eq_of_compare heq).symm
      rw [Std.TreeMap.getElem?_insert, if_neg (hmoved n hn), Std.TreeMap.getElem?_erase,
        if_neg hother]

/-- The texts of a map in memory. -/
def memoryView : Storage.memory.View where
  texts s name := s.texts[name]?
  Works _ := True
  keeps := false
  read _ _ _ := ⟨_, rfl, trivial, rfl⟩
  write _ text s _ := ⟨_, _, rfl, trivial, Or.inl ⟨rfl, memory_write _ text s⟩⟩
  quarantine hname s _ := ⟨_, _, rfl, trivial, Or.inr ⟨rfl, memory_quarantine hname s⟩⟩

/-- A memory is reliable, -/
theorem memoryView_reliable : memoryView.Reliable where
  write _ _ _ _ := rfl
  quarantine _ _ hname s _ := (memory_quarantine hname s).1

/-- and empty at first. -/
theorem memoryView_empty : memoryView.Empty {} where
  works := trivial
  texts _ := Std.TreeMap.getElem?_emptyc

/-- What is written first is all that there is. -/
theorem memoryView_texts_write (name text : String) :
    memoryView.texts (memory.write name text {}).2 = Texts.put (fun _ => none) name text := by
  have hempty : (fun n => ({} : Memory).texts[n]?) = fun _ => none :=
    funext fun _ => Std.TreeMap.getElem?_emptyc
  rw [← hempty]
  exact memory_write name text {}

/-! ## With writes that fail -/

/-- The storage with some of its writes failing, as a schedule says of the first write, the second
and so on. -/
def failing (fails : Nat → Bool) (storage : Storage σ) : Storage (Nat × σ) :=
  { storage.within Prod.snd fun s inner => (s.1, inner) with
    write := fun name text s =>
      if fails s.1 then (.error (.write name), (s.1 + 1, s.2))
      else ((storage.write name text s.2).1, (s.1 + 1, (storage.write name text s.2).2)) }

/-- A failing write changes no text, so the texts are those of the storage within. -/
def View.failing {storage : Storage σ} (view : storage.View) (fails : Nat → Bool) :
    (storage.failing fails).View where
  texts s := view.texts s.2
  Works s := view.Works s.2
  keeps := view.keeps
  read := by
    intro name hname s hs
    obtain ⟨s', hread, hworks, htexts⟩ := view.read hname hs
    refine ⟨(s.1, s'), ?_, hworks, htexts⟩
    show ((storage.read name s.2).1, (s.1, (storage.read name s.2).2)) = _
    rw [hread]
  write := by
    intro name hname text s hs
    obtain ⟨r, s', hwrite, hworks, hcases⟩ := view.write hname text hs
    simp only [Storage.failing]
    by_cases hfails : fails s.1 = true
    · rw [if_pos hfails]
      exact ⟨_, _, rfl, hs, Or.inr ⟨⟨_, rfl⟩, rfl⟩⟩
    · rw [if_neg hfails, hwrite]
      exact ⟨_, _, rfl, hworks, hcases⟩
  quarantine := by
    intro name hname s hs
    obtain ⟨r, s', hquarantine, hworks, hcases⟩ := view.quarantine hname hs
    refine ⟨r, (s.1, s'), ?_, hworks, hcases⟩
    show ((storage.quarantine name s.2).1, (s.1, (storage.quarantine name s.2).2)) = _
    rw [hquarantine]

end Storage
end DailyBars
