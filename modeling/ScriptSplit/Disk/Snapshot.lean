import ScriptSplit.Disk.Tree

/-!
# Snapshots

A part of a file system is taken into a tree, a command works on the tree, and what it changed is given
back step by step.

* `Disk.graft`: puts a node at a path.
* `Change`: a step on a file system.
* `Node.changes`: the steps that lead from one tree to another.
-/

namespace ScriptSplit

/-- Puts a node at a path and makes the directories above it. -/
def Disk.graft (d : Disk) (path : String) (n : Node) : Disk :=
  match d.mkdirAll (Path.dir path) with
  | .ok d => { d with root := d.root.set (Path.segments path) (some n) }
  | .error _ => d

/-- A step on a file system. -/
inductive Change where
  | remove (path : String)
  | makeDir (path : String)
  | write (path : String) (content : Bytes)
  deriving DecidableEq, Repr

namespace Node

/-- The names in a directory. -/
def names : Node → List String
  | dir entries => entries.map Prod.fst
  | _ => []

/-- The steps that make a file of what was at its path. -/
def fileChanges (path : String) (old : Option Node) (content : Bytes) : List Change :=
  match old with
  | some (file before) => if before = content then [] else [.write path content]
  | some _ => [.remove path, .write path content]
  | none => [.write path content]

/-- The steps that make a directory of what was at its path, up to the entries that it shall have. -/
def dirChanges (path : String) (old : Option Node) (kept : List String) : List Change :=
  match old with
  | some (dir entries) =>
    ((dir entries).names.filter fun name => !kept.contains name).map fun name => .remove (Path.join path name)
  | some _ => [.remove path, .makeDir path]
  | none => [.makeDir path]

/-- The steps that lead from what was at a path to another node. No command makes links, so they are left
as they are. -/
def changes (path : String) (old : Option Node) : Node → List Change
  | link _ => []
  | file content => fileChanges path old content
  | dir entries => dirChanges path old (entries.map Prod.fst) ++ below entries
where
  /-- The steps below the entries of a directory. -/
  below : List (String × Node) → List Change
    | [] => []
    | (name, n) :: rest => changes (Path.join path name) (old.bind (child? name)) n ++ below rest

end Node

/-- The steps that lead from one disk to another. -/
def Disk.changes (old new : Disk) : List Change := new.root.changes "/" (some old.root)

end ScriptSplit
