import ScriptSplit.Analysis.Batch
import ScriptSplit.Disk.Tree

/-!
# Sources of content

* `Source`: where the content of files comes from.
* `Source.ofDisk`, `Source.ofTexts`: files of a disk and texts held in memory.
-/

namespace ScriptSplit

open Batch (JobError)

/-- Why a file could not be read. -/
inductive ReadError where
  /-- No text is held under the path. -/
  | missing (path : String)
  | disk (cause : PathError)
  | denied
  deriving DecidableEq, Repr

/-- The text of a read error. -/
def ReadError.message : ReadError → String
  | missing path => path ++ ": file does not exist"
  | disk cause => cause.message
  | denied => "permission denied"

/-- Where the content of files comes from. A source may tell sizes before anything is read. -/
structure Source where
  read : String → Except (JobError ReadError) Bytes
  size? : String → Option Nat

namespace Source

/-- The size of a node that is not read. -/
def nodeSize : Node → Nat
  | .file content => content.length
  | .dir _ => 4096
  | .link target => target.utf8ByteSize

/-- The files of a disk. -/
def ofDisk (d : Disk) : Source where
  read path :=
    match d.read path with
    | .ok content => .ok content
    | .error e => .error (.failed (.disk e))
  size? path :=
    match d.find .follow path with
    | .ok n => some (nodeSize n)
    | .error _ => none

/-- Texts held in memory under their paths. -/
def ofTexts (texts : List (String × Bytes)) : Source where
  read path :=
    match texts.lookup path with
    | some content => .ok content
    | none => .error (.failed (.missing path))
  size? path := (texts.lookup path).map List.length

end Source

end ScriptSplit
