import Std.Time.DateTime.Timestamp
import DailyBars.Cli.Run

/-! # The program

Reads from the disk what a command line needs, runs it, writes changed series back, and prints
the report. Everything that is decided is decided by `Cli.run`. No request leaves the program:
its transport reaches nobody, so it serves what is stored.
-/

namespace DailyBars.Program

/-- The place on the disk that a path leads to. -/
def placeOf (path : TreePath) : String := "/" ++ "/".intercalate path

/-- What is at a place on the disk, with folders down to a depth. A file that cannot be read as
text stands as a folder with nothing in it, which cannot be read either. -/
def snapshot : Nat → TreePath → IO FileTree
  | depth, path => do
    let place := (← IO.currentDir) / placeOf path
    if ← place.isDir then
      match depth with
      | 0 => return .empty
      | depth + 1 =>
        let names := ((← place.readDir).toList.map (·.fileName)).mergeSort
        return .folder (← names.mapM fun name => return (name, ← snapshot depth (path ++ [name])))
    else
      try return .file (← IO.FS.readFile place)
      catch _ => return .empty

/-- How deep a run looks into a folder: a root of documents holds folders of files. -/
def depth : Nat := 2

/-- A tree with what the disk holds on the way to a path, given the way so far. -/
def survey (t : FileTree) : TreePath → List String → IO FileTree
  | path, [] => return .graft (← snapshot depth path) path t
  | path, name :: rest => do
    let inner := path ++ [name]
    let place := (← IO.currentDir) / placeOf inner
    if ← place.isDir then survey t inner rest
    else if ← place.pathExists then return .graft (← snapshot 0 inner) inner t
    else return t

/-- A tree with what the disk holds at paths as seen from a folder. A path within another is
looked at after it, so that each is seen to its full depth. -/
def surveyAll (here : TreePath) (paths : List String) : IO FileTree :=
  let inOrder := (paths.map here.join).mergeSort fun a b => a.length ≤ b.length
  inOrder.foldlM (fun t path => survey t [] path) .empty

/-- Writes the files of a folder that a run changed, and removes those it took away. A file
is moved into its place when it is complete. -/
def writeBack (path : TreePath) (before after : FileTree) : IO Unit := do
  for (name, text) in after.filesBeyond before path do
    let place := placeOf (path ++ [name])
    IO.FS.createDirAll (placeOf path)
    IO.FS.writeFile (place ++ ".tmp") text
    IO.FS.rename (place ++ ".tmp") place
  for (name, _) in before.filesBeyond after path do
    match after.read (path ++ [name]) with
    | .ok _ => pure ()
    | .error _ => IO.FS.removeFile (placeOf (path ++ [name]))

/-- The values of the variables that count. -/
def environment : IO (List (String × String)) := do
  let values ← Config.variableNames.mapM fun name => return (name, ← IO.getEnv name)
  return values.filterMap fun e => e.2.map fun value => (e.1, value)

/-- A clock that shows the time. -/
def wallClock : IO Clock := do
  return .showing ⟨(← Std.Time.Timestamp.now).toNanosecondsSinceUnixEpoch.val⟩

end DailyBars.Program

open DailyBars in
/-- Runs the command line. -/
def main (words : List String) : IO UInt32 := do
  let here := TreePath.join [] (← IO.currentDir).toString
  let values ← Program.environment
  let clock ← Program.wallClock
  let surroundings := fun disk : FileTree =>
    ({ disk, here, var := fun name => values.lookup name, clock } : Cli.Surroundings)
  let named := (Cli.configPath? words).toList
  let config := Cli.configOf? (surroundings (← Program.surveyAll here named)) words
  let disk ← Program.surveyAll here (named ++ (config.map Cli.placesOf).getD [])
  let (report, after) := Cli.run (surroundings disk) Http.unreachable () words
  match config.bind Cli.folderOf? with
  | some folder =>
    try Program.writeBack (here.join folder) disk after
    catch fault => IO.eprintln fault.toString
  | none => pure ()
  report.output.forM IO.println
  report.complaint.forM IO.eprintln
  return report.code.toUInt32
