import ScriptSplit.Command.Actions
import ScriptSplit.Disk.Snapshot
import Std.Time.DateTime.Timestamp

/-!
# The program

The directory that holds the work and the places that the arguments name are read, the command works on
what was read, and the changes are written back.

* `Shell.load`: a part of the file system as a tree.
* `Shell.apply`: carries out a change.
* `main`: the program.
-/

namespace ScriptSplit.Shell

/-- What is at a path of the file system. What cannot be read is left out, and so is the inside of version
control. -/
partial def load (path : String) : IO (Option Node) := do
  let place := (← IO.currentDir) / path
  try
    match (← place.symlinkMetadata).type with
    | .dir =>
      let mut entries : Dict Node := []
      if Path.base path ≠ ".git" then
        for e in ← place.readDir do
          if let some n ← load (Path.join path e.fileName) then entries := entries.put e.fileName n
      return some (.dir entries)
    | .file => return some (.file (← IO.FS.readBinFile place).toList)
    | .symlink => return some (.link (← IO.FS.realPath place).toString)
    | .other => return none
  catch _ => return none

/-- Carries out a change. -/
def apply : Change → IO Unit
  | .remove path => do
    let place := (← IO.currentDir) / path
    if ← place.isDir then IO.FS.removeDirAll place else IO.FS.removeFile place
  | .makeDir path => IO.FS.createDirAll path
  | .write path content => IO.FS.writeBinFile path ⟨content.toArray⟩

/-- The directories from the root down to a path. -/
def above (path : String) : List String :=
  let segments := Path.segments path
  (List.range (segments.length + 1)).map fun n => Path.ofSegments true (segments.take n)

/-- The top of the work: the nearest directory under version control around a directory, or the directory
itself. -/
def workTop (cwd : String) : IO String := do
  for dir in (above cwd).reverse do
    let place := (← IO.currentDir) / Path.join dir ".git"
    if ← place.pathExists then return dir
  return cwd

/-- The place that an argument may name, also behind a sign of equality. -/
def namedPlace (cwd argument : String) : String :=
  let path := if argument.startsWith "-" then "=".intercalate ((argument.splitOn "=").drop 1) else argument
  if Path.isAbs path then Path.clean path else Path.join cwd path

/-- Takes a place into a disk, unless it is there. -/
def take (d : Disk) (path : String) : IO Disk := do
  if (d.find .keep path).isOk then return d
  match ← load path with
  | some n => return d.graft path n
  | none => return d

/-- The disk that a command works on. -/
def takeAll (cwd : String) (places : List String) : IO Disk := do
  let first ← take ⟨.dir [], cwd⟩ (← workTop cwd)
  places.foldlM take first

end ScriptSplit.Shell

open ScriptSplit in
/-- Runs a command in the working directory. It ends with one if the command fails. -/
def main (args : List String) : IO UInt32 := do
  let cwd := (← IO.currentDir).toString
  let config ← IO.getEnv "MODSPLIT_CONFIG"
  let before ← Shell.takeAll cwd ((args ++ config.toList).map (Shell.namedPlace cwd))
  let now := (← Std.Time.Timestamp.now).toNanosecondsSinceUnixEpoch.val
  let (failed, after) := Command.runCommand config args (.start before now)
  for change in before.changes after.disk do Shell.apply change
  IO.print after.out
  IO.eprint after.err
  match failed with
  | none => return 0
  | some e =>
    IO.println ("Error: " ++ e.message)
    return 1
