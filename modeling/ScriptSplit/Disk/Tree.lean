import ScriptSplit.Disk.Path
import ScriptSplit.Text.Bytes
import ScriptSplit.Text.Dict

/-!
# File trees

* `Node`: a file, a directory or a symbolic link.
* `Disk`: a tree and the working directory in it.
* `Disk.walk`: finds the place that a path leads to, through links.
* `Errno`, `PathError`: why an operation fails, and their texts.
-/

namespace ScriptSplit

/-- A node of a file tree. The entries of a directory are in the order of their names. -/
inductive Node where
  | file (content : Bytes)
  | dir (entries : List (String × Node))
  | link (target : String)
  deriving Repr

namespace Node

/-- The node is a directory. -/
def isDir : Node → Bool
  | dir _ => true
  | _ => false

/-- The node is a symbolic link. -/
def isLink : Node → Bool
  | link _ => true
  | _ => false

/-- The node below a directory. -/
def child? (name : String) : Node → Option Node
  | dir entries => entries.lookup name
  | _ => none

/-- The node that a list of names leads to; links are not followed. -/
def at? : List String → Node → Option Node
  | [], n => some n
  | name :: rest, n => (n.child? name).bind (at? rest)

/-- Sets the node that a list of names leads to, or removes it. Missing directories stay missing. -/
def set : (place : List String) → (new : Option Node) → Node → Node
  | [], new, n => new.getD n
  | [name], new, dir entries =>
    match new with
    | some n => dir (Dict.put name n entries)
    | none => dir (Dict.erase name entries)
  | name :: rest, new, dir entries =>
    match entries.lookup name with
    | some n => dir (Dict.put name (set rest new n) entries)
    | none => dir entries
  | _, _, n => n

end Node

/-- Why an operation on files fails. -/
inductive Errno where
  | noEntry
  | notDirectory
  | isDirectory
  | tooManyLinks
  | fileExists
  | notEmpty
  | invalidArgument
  deriving DecidableEq, Repr

/-- The text of a cause. -/
def Errno.message : Errno → String
  | noEntry => "no such file or directory"
  | notDirectory => "not a directory"
  | isDirectory => "is a directory"
  | tooManyLinks => "too many levels of symbolic links"
  | fileExists => "file exists"
  | notEmpty => "directory not empty"
  | invalidArgument => "invalid argument"

/-- An operation on a path that failed. -/
structure PathError where
  operation : String
  path : String
  cause : Errno
  deriving DecidableEq, Repr

/-- The text of a failed operation. -/
def PathError.message (e : PathError) : String := e.operation ++ " " ++ e.path ++ ": " ++ e.cause.message

/-- A file tree and the working directory from which relative paths start. -/
structure Disk where
  root : Node
  cwd : String

/-- What is done with the last segment of a path. -/
inductive LastStep where
  /-- A link is followed. -/
  | follow
  /-- A link is kept. -/
  | keep
  /-- A link is followed, and the name may be new. -/
  | create
  deriving DecidableEq, Repr

namespace Disk

/-- Walks from the directory `here` along segments. Every followed link uses up one of `links`. The
answer is the list of names that leads from the root to the place without any link. -/
def walk (root : Node) (last : LastStep) :
    (links : Nat) → (here : List String) → (todo : List String) → Except Errno (List String)
  | _, here, [] => .ok here
  | links, here, segment :: rest =>
    match root.at? here with
    | some (.dir entries) =>
      if segment = "" || segment = "." then walk root last links here rest
      else if segment = ".." then walk root last links here.dropLast rest
      else
        match entries.lookup segment with
        | none => if last = .create && rest.isEmpty then .ok (here ++ [segment]) else .error .noEntry
        | some (.link target) =>
          if last = .keep && rest.isEmpty then .ok (here ++ [segment])
          else
            match links with
            | 0 => .error .tooManyLinks
            | links + 1 =>
              walk root last links (if Path.isAbs target then [] else here) (Path.parts target ++ rest)
        | some _ => walk root last links (here ++ [segment]) rest
    | _ => .error .notDirectory
termination_by links _ todo => (links, todo.length)

/-- At most this many links are followed. -/
def maxLinks : Nat := 40

/-- The place that a path leads to. -/
def place (d : Disk) (last : LastStep) (path : String) : Except Errno (List String) :=
  if path = "" then .error .noEntry
  else
    let full := if Path.isAbs path then path else d.cwd ++ "/" ++ path
    walk d.root last maxLinks [] (Path.parts full)

/-- The node that a path leads to. -/
def find (d : Disk) (last : LastStep) (path : String) : Except Errno Node :=
  match d.place last path with
  | .error e => .error e
  | .ok p =>
    match d.root.at? p with
    | some n => .ok n
    | none => .error .noEntry

/-- The node that a path leads to through all links. -/
def stat (d : Disk) (path : String) : Except PathError Node :=
  match d.find .follow path with
  | .ok n => .ok n
  | .error e => .error ⟨"stat", path, e⟩

/-- There is something at the path, and it is no directory. -/
def isFile (d : Disk) (path : String) : Bool :=
  match d.find .follow path with
  | .ok n => !n.isDir
  | .error _ => false

/-- There is a directory at the path. -/
def isDir (d : Disk) (path : String) : Bool :=
  match d.find .follow path with
  | .ok n => n.isDir
  | .error _ => false

/-- The content of a file. -/
def read (d : Disk) (path : String) : Except PathError Bytes :=
  match d.find .follow path with
  | .ok (.file content) => .ok content
  | .ok _ => .error ⟨"read", path, .isDirectory⟩
  | .error e => .error ⟨"open", path, e⟩

/-- Sets the content of a file, which may be new. Its directory is there. -/
def write (d : Disk) (path : String) (content : Bytes) : Except PathError Disk :=
  match d.place .create path with
  | .error e => .error ⟨"open", path, e⟩
  | .ok p =>
    match d.root.at? p with
    | some (.dir _) => .error ⟨"open", path, .isDirectory⟩
    | _ => .ok { d with root := d.root.set p (some (.file content)) }

/-- Makes directories one below the other, from the top. -/
def makeDirs (d : Disk) : (above : String) → List String → Except PathError Disk
  | _, [] => .ok d
  | above, segment :: rest =>
    let path := if above = "" || above.endsWith "/" then above ++ segment else above ++ "/" ++ segment
    match d.find .follow path with
    | .ok (.dir _) => makeDirs d path rest
    | .ok _ => .error ⟨"mkdir", path, .notDirectory⟩
    | .error _ =>
      match d.place .keep path with
      | .ok _ => .error ⟨"mkdir", path, .fileExists⟩
      | .error _ =>
        match d.place .create path with
        | .ok p => makeDirs { d with root := d.root.set p (some (.dir [])) } path rest
        | .error e => .error ⟨"mkdir", path, e⟩

/-- Makes a directory and those above it, as far as they are missing. -/
def mkdirAll (d : Disk) (path : String) : Except PathError Disk :=
  if path = "" then .error ⟨"mkdir", "", .noEntry⟩
  else
    match d.find .follow path with
    | .ok (.dir _) => .ok d
    | .ok _ => .error ⟨"mkdir", path, .notDirectory⟩
    | .error _ =>
      d.makeDirs (if Path.isAbs path then "/" else "") ((Path.parts path).filter (· ≠ ""))

/-- Removes a file, a link or an empty directory. -/
def remove (d : Disk) (path : String) : Except PathError Disk :=
  match d.place .keep path with
  | .error e => .error ⟨"remove", path, e⟩
  | .ok p =>
    match d.root.at? p with
    | some (.dir (_ :: _)) => .error ⟨"remove", path, .notEmpty⟩
    | _ => .ok { d with root := d.root.set p none }

/-- Removes whatever is at a path with all below it; a missing path is left alone. A path that ends in a
point is refused. -/
def tryRemoveAll (d : Disk) (path : String) : Except PathError Disk :=
  if Path.endsInPoint path then .error ⟨"RemoveAll", path, .invalidArgument⟩
  else
    match d.place .keep (Path.withoutTrailingSlashes path) with
    | .error _ => .ok d
    | .ok [] => .ok d
    | .ok p => .ok { d with root := d.root.set p none }

/-- What is left when a path is removed with all below it. -/
def removeAll (d : Disk) (path : String) : Disk :=
  match d.tryRemoveAll path with
  | .ok d => d
  | .error _ => d

/-- Moves what is at a path to another, in place of what was there. -/
def rename (d : Disk) (source target : String) : Except PathError Disk :=
  match d.place .keep source with
  | .error e => .error ⟨"rename", source, e⟩
  | .ok p =>
    match d.root.at? p, d.place .create target with
    | some n, .ok q => .ok { d with root := (d.root.set p none).set q (some n) }
    | _, .error e => .error ⟨"rename", target, e⟩
    | none, _ => .error ⟨"rename", source, .noEntry⟩

/-- Puts a file at a path, in place of a file or a link. -/
def replace (d : Disk) (path : String) (content : Bytes) : Except PathError Disk :=
  match d.place .keep path with
  | .ok p =>
    match d.root.at? p with
    | some (.dir _) => .error ⟨"rename", path, .fileExists⟩
    | _ => .ok { d with root := d.root.set p (some (.file content)) }
  | .error _ =>
    match d.place .create path with
    | .ok p => .ok { d with root := d.root.set p (some (.file content)) }
    | .error e => .error ⟨"rename", path, e⟩

/-- Makes a symbolic link. -/
def symlink (d : Disk) (target path : String) : Except PathError Disk :=
  match d.place .keep path with
  | .ok _ => .error ⟨"symlink", path, .fileExists⟩
  | .error _ =>
    match d.place .create path with
    | .ok p => .ok { d with root := d.root.set p (some (.link target)) }
    | .error e => .error ⟨"symlink", path, e⟩

end Disk

/-- The files and links below a node with their paths, in the order of their names. -/
def Node.leaves (path : String) : Node → List String
  | .dir entries => below entries
  | _ => [path]
where
  /-- The leaves below the entries of a directory. -/
  below : List (String × Node) → List String
    | [] => []
    | (name, n) :: rest => Node.leaves (Path.join path name) n ++ below rest

end ScriptSplit
