import DailyBars.Text.Basic

/-! # Folders and files

A tree of folders and text files, with the operations that a directory on a disk offers. An
operation distinguishes a path that leads nowhere from one that cannot be followed or used.
-/

namespace DailyBars

/-- A file with its text, or a folder with its entries in order of name. -/
inductive FileTree where
  | file (text : String)
  | folder (entries : List (String × FileTree))
deriving Repr, Inhabited

/-- The names that lead from the top of a tree to a file or folder. -/
abbrev TreePath := List String

/-- Why an operation failed. -/
inductive FileFault where
  /-- Nothing is there. -/
  | missing
  /-- Something is there, but not what the operation needs. -/
  | unusable
deriving DecidableEq, Repr

/-- The path that a text names as seen from `base`. A text that starts with a slash is seen
from the top. -/
def TreePath.join (base : TreePath) (text : String) : TreePath :=
  let start := if text.toList.head? == some '/' then [] else base
  (Text.fields '/' text.toList).foldl (fun path name =>
    if name = [] ∨ name = ['.'] then path
    else if name = ['.', '.'] then path.dropLast
    else path ++ [String.ofList name]) start

namespace FileTree

/-- A folder with nothing in it. -/
def empty : FileTree := folder []

/-- The greatest length of a name, in bytes. -/
def maxNameLength : Nat := 255

/-- Follows a path. -/
def find : TreePath → FileTree → Except FileFault FileTree
  | [], t => .ok t
  | _ :: _, file _ => .error .unusable
  | name :: rest, folder entries =>
    if maxNameLength < name.utf8ByteSize then .error .unusable
    else
      match entries.lookup name with
      | some t => find rest t
      | none => .error .missing

/-- Puts an entry in its place among others in order of name. -/
def setEntry (name : String) (t : FileTree) : List (String × FileTree) → List (String × FileTree)
  | [] => [(name, t)]
  | e :: rest =>
    if name < e.1 then (name, t) :: e :: rest
    else if name = e.1 then (name, t) :: rest
    else e :: setEntry name t rest

/-- Puts `t` at a path whose folders exist. -/
def put (t : FileTree) : TreePath → FileTree → FileTree
  | [], _ => t
  | _ :: _, file text => file text
  | [name], folder entries => folder (setEntry name t entries)
  | name :: rest, folder entries =>
    match entries.lookup name with
    | some sub => folder (setEntry name (put t rest sub) entries)
    | none => folder entries

/-- Takes away what is at a path. -/
def remove : TreePath → FileTree → FileTree
  | [], t => t
  | _ :: _, file text => file text
  | [name], folder entries => folder (entries.filter fun e => e.1 != name)
  | name :: rest, folder entries =>
    match entries.lookup name with
    | some sub => folder (setEntry name (remove rest sub) entries)
    | none => folder entries

/-- The text of the file at a path. -/
def read (path : TreePath) (t : FileTree) : Except FileFault String :=
  match t.find path with
  | .ok (file text) => .ok text
  | .ok (folder _) => .error .unusable
  | .error fault => .error fault

/-- The folder that would hold what is at a path exists. -/
def hasFolderFor (path : TreePath) (t : FileTree) : Bool :=
  match path, t.find path.dropLast with
  | _ :: _, .ok (folder _) => true
  | _, _ => false

/-- Writes a file. Its folder has to exist, and no folder may be in its place. -/
def write (path : TreePath) (text : String) (t : FileTree) : Except FileFault FileTree :=
  if t.hasFolderFor path then
    match t.find path with
    | .ok (folder _) | .error .unusable => .error .unusable
    | .ok (file _) | .error .missing => .ok (put (file text) path t)
  else .error .unusable

/-- Makes a folder and the folders it lies in, as far as they do not exist. -/
def makeFolder : TreePath → FileTree → Except FileFault FileTree
  | _, file _ => .error .unusable
  | [], t => .ok t
  | name :: rest, folder entries =>
    if maxNameLength < name.utf8ByteSize then .error .unusable
    else
      (makeFolder rest ((entries.lookup name).getD empty)).map fun sub =>
        folder (setEntry name sub entries)

/-- Puts a tree at a path, with the folders it lies in as far as they do not exist. -/
def graft (part : FileTree) (path : TreePath) (t : FileTree) : FileTree :=
  match t.makeFolder path.dropLast with
  | .ok t => put part path t
  | .error _ => t

/-- `replacement` may take the place of `present`: a file that of a file, a folder that of an
empty folder. -/
def mayReplace : FileTree → FileTree → Bool
  | file _, file _ => true
  | folder _, folder [] => true
  | _, _ => false

/-- Moves a file or folder to another path. -/
def rename (source target : TreePath) (t : FileTree) : Except FileFault FileTree :=
  match t.find source with
  | .error fault => .error fault
  | .ok moved =>
    if t.hasFolderFor target then
      match t.find target with
      | .error .missing => .ok (put moved target (remove source t))
      | .error .unusable => .error .unusable
      | .ok present =>
        if mayReplace moved present then .ok (put moved target (remove source t))
        else .error .unusable
    else .error .unusable

/-- The entries of the folder at a path. -/
def list (path : TreePath) (t : FileTree) : Except FileFault (List (String × FileTree)) :=
  match t.find path with
  | .ok (folder entries) => .ok entries
  | .ok (file _) => .error .unusable
  | .error fault => .error fault

/-- The files of a folder that are not in it, or not with this text, in another tree. -/
def filesBeyond (t other : FileTree) (path : TreePath) : List (String × String) :=
  match t.list path with
  | .ok entries => entries.filterMap fun
    | (name, file text) =>
      match other.read (path ++ [name]) with
      | .ok old => if old = text then none else some (name, text)
      | .error _ => some (name, text)
    | (_, folder _) => none
  | .error _ => []

end FileTree
end DailyBars
