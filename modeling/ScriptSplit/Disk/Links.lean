import ScriptSplit.Disk.Tree

/-!
# Resolved paths

* `Disk.evalLinks`: the path that a path becomes when every link in it is followed.
* `isWithin`: a path lies in a directory.
-/

namespace ScriptSplit

/-- Why a path has no resolved form. -/
inductive LinkError where
  /-- A part of the path could not be looked at. -/
  | path (e : PathError)
  /-- A file stands where a directory is needed. -/
  | notDirectory
  /-- The links lead in a circle. -/
  | tooManyLinks
  deriving DecidableEq, Repr

/-- The text of a link error. -/
def LinkError.message : LinkError → String
  | path e => e.message
  | notDirectory => Errno.notDirectory.message
  | tooManyLinks => "EvalSymlinks: too many links"

namespace Disk

/-- Follows the links of a path; `dest` holds the names that are already free of links. -/
def evalLinksFrom (root : Node) :
    (links : Nat) → (dest : List String) → (todo : List String) → Except LinkError (List String)
  | _, dest, [] => .ok dest
  | links, dest, segment :: rest =>
    if segment = "" || segment = "." then evalLinksFrom root links dest rest
    else if segment = ".." then evalLinksFrom root links dest.dropLast rest
    else
      let next := dest ++ [segment]
      match root.at? next with
      | none => .error (.path ⟨"lstat", Path.ofSegments true next, .noEntry⟩)
      | some (.link target) =>
        match links with
        | 0 => .error .tooManyLinks
        | links + 1 =>
          evalLinksFrom root links (if Path.isAbs target then [] else dest) (Path.parts target ++ rest)
      | some (.file _) => if rest.isEmpty then .ok next else .error .notDirectory
      | some (.dir _) => evalLinksFrom root links next rest
termination_by links _ todo => (links, todo.length)

/-- The absolute path that a path becomes when every link in it is followed. -/
def evalLinks (d : Disk) (path : String) : Except LinkError String :=
  (evalLinksFrom d.root 255 [] (Path.parts (Path.abs d.cwd path))).map (Path.ofSegments true)

end Disk

/-- The absolute path `path` is the directory `root` or lies below it. -/
def isWithin (cwd path root : String) : Bool :=
  let p := Path.clean (Path.abs cwd path)
  let r := Path.clean root
  p.startsWith (r ++ "/") || p = r

end ScriptSplit
