import Std.Data.TreeMap
import DailyBars.Error
import DailyBars.Store.FileTree
import DailyBars.Store.Key

/-! # Where series are kept

A storage holds texts by name. It is given by its operations on a state of its own: a map in
memory, a folder, or objects at an address. `Storage.within` moves a storage into a larger
state, and `Storage.watched` notes what is asked of a storage and can make single accesses
fail.
-/

namespace DailyBars

/-- The operations of a storage on its state. -/
structure Storage (σ : Type) where
  /-- The text under a name, if there is one. -/
  read : String → σ → Except StorageFault (Option String) × σ
  /-- Puts a text under a name. -/
  write : String → String → σ → Except StorageFault Unit × σ
  /-- The names of the series files. -/
  list : σ → Except StorageFault (List String) × σ
  /-- Moves a text out of the way, so that it is absent from then on. -/
  quarantine : String → σ → Except StorageFault Unit × σ
  /-- The place of the storage as people write it. -/
  location : String

/-- The name under which a text is kept out of the way. -/
def quarantinedName (name : String) : String := name ++ ".quarantined"

/-! ## In memory -/

/-- Texts by name, and how often one was written. -/
structure Memory where
  texts : Std.TreeMap String String := {}
  writes : Nat := 0

/-- A storage that lasts as long as its state does, and never fails. -/
def Storage.memory : Storage Memory where
  read name s := (.ok s.texts[name]?, s)
  write name text s := (.ok (), ⟨s.texts.insert name text, s.writes + 1⟩)
  list s := (.ok (s.texts.keys.filter SeriesKey.isSeriesName), s)
  quarantine name s :=
    match s.texts[name]? with
    | some text => (.ok (), { s with texts := (s.texts.erase name).insert (quarantinedName name) text })
    | none => (.ok (), s)
  location := "memory"

/-! ## In a folder -/

namespace Storage

/-- Puts a text into a file by writing another file first and moving that into its place, so
that the file is never seen half written. -/
def writeFile (root : TreePath) (name text : String) (t : FileTree) :
    Except StorageFault Unit × FileTree :=
  match t.makeFolder root with
  | .error _ => (.error .create, t)
  | .ok t =>
    let draft := root.join (name ++ ".tmp")
    match t.write draft text with
    | .error _ => (.error (.write name), t)
    | .ok t =>
      match t.rename draft (root.join name) with
      | .ok t => (.ok (), t)
      | .error _ => (.error (.rename name), t.remove draft)

/-- The files of one folder. -/
def localFolder (root : TreePath) (location : String) : Storage FileTree where
  read name t :=
    match t.read (root.join name) with
    | .ok text => (.ok (some text), t)
    | .error .missing => (.ok none, t)
    | .error .unusable => (.error (.read name), t)
  write := writeFile root
  list t :=
    match t.list root with
    | .ok entries => (.ok ((entries.map (·.1)).filter SeriesKey.isSeriesName), t)
    | .error .missing => (.ok [], t)
    | .error .unusable => (.error .readDirectory, t)
  quarantine name t :=
    match t.rename (root.join name) (root.join (quarantinedName name)) with
    | .ok t => (.ok (), t)
    | .error _ => (.error (.quarantine name), t)
  location := location

/-! ## Within a larger state -/

/-- The storage on a part of a larger state. -/
def within {σ τ : Type} (part : τ → σ) (replace : τ → σ → τ) (s : Storage σ) : Storage τ where
  read name t := let (r, p) := s.read name (part t); (r, replace t p)
  write name text t := let (r, p) := s.write name text (part t); (r, replace t p)
  list t := let (r, p) := s.list (part t); (r, replace t p)
  quarantine name t := let (r, p) := s.quarantine name (part t); (r, replace t p)
  location := s.location

end Storage

/-! ## Under observation -/

/-- A state with the accesses that are to fail, and the writes and quarantines asked for, the
latest first. -/
structure Watched (σ : Type) where
  inner : σ
  failing : List String := []
  asked : List String := []

namespace Storage

variable {σ : Type}

/-- Performs an access unless it is one of those that are to fail. -/
def attempt {α : Type} (access : String) (run : σ → Except StorageFault α × σ) (s : Watched σ) :
    Except StorageFault α × Watched σ :=
  if s.failing.contains access then (.error (.refused ("injected: " ++ access)), s)
  else let (r, inner) := run s.inner; (r, { s with inner })

/-- The storage with every write and quarantine noted before it is performed. Accesses are
named by a letter and the name of the file: `w` writes, `r` reads, `q` quarantines, `l *`
lists. -/
def watched (s : Storage σ) : Storage (Watched σ) where
  read name := attempt ("r " ++ name) (s.read name)
  write name text w :=
    attempt ("w " ++ name) (s.write name text) { w with asked := ("w " ++ name) :: w.asked }
  list := attempt "l *" s.list
  quarantine name w :=
    attempt ("q " ++ name) (s.quarantine name) { w with asked := ("q " ++ name) :: w.asked }
  location := s.location

end Storage
end DailyBars
