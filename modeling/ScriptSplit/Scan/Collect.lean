import ScriptSplit.Scan.Scanner

/-!
# Collecting files

* `Collected`: the files that a list of paths stands for.
* `collectFiles`: files are checked one by one, directories are scanned.
-/

namespace ScriptSplit

/-- The files that paths stand for. -/
structure Collected where
  /-- The directory that report paths are relative to; empty for none. -/
  root : String
  files : List String
  /-- One file was asked for. -/
  isSingle : Bool
  deriving DecidableEq, Repr

/-- Why no files are collected. -/
inductive CollectError where
  | badPath (path : String) (cause : PathError)
  | badDirectory (path : String) (cause : ScanError)
  deriving DecidableEq, Repr

/-- The text of a collect error. -/
def CollectError.message : CollectError → String
  | badPath path cause => "invalid path " ++ path ++ ": " ++ cause.message
  | badDirectory path cause => "failed to scan directory " ++ path ++ ": " ++ cause.message

/-- What one path stands for: its files, and the directory that was scanned. -/
def collectPath (s : Scanner) (d : Disk) (path : String) :
    Except CollectError (List String × Option String × Scanner) :=
  match d.stat path with
  | .error e => .error (.badPath path e)
  | .ok (.dir _) =>
    let full := Path.abs d.cwd path
    match s.scanDir d full with
    | .error e => .error (.badDirectory path e)
    | .ok (files, s) => .ok (files, some full, s)
  | .ok _ =>
    match s.scanFile d path with
    | .error (.path e) => .error (.badPath path e)
    | .error e => .error (.badDirectory path e)
    | .ok (takes, s) => .ok (if takes then [path] else [], none, s)

/-- What paths stand for, one after the other; the scanner is shared. -/
def collectPaths (s : Scanner) (d : Disk) : List String → Except CollectError (List String × List String)
  | [] => .ok ([], [])
  | path :: rest => do
    let (files, dir, s) ← collectPath s d path
    let (moreFiles, moreDirs) ← collectPaths s d rest
    return (files ++ moreFiles, dir.toList ++ moreDirs)

/-- The files that paths stand for. Report paths are relative to the directory of the only file, or to
the only directory. -/
def collectFiles (cfg : Config) (d : Disk) (paths : List String) : Except CollectError Collected := do
  let (files, dirs) ← collectPaths (Scanner.new cfg) d paths
  match paths, dirs with
  | [path], [] => return ⟨Path.dir path, files, true⟩
  | [_], [dir] => return ⟨dir, files, false⟩
  | _, _ => return ⟨"", files, false⟩

end ScriptSplit
