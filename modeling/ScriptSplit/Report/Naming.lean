import ScriptSplit.Disk.Path

/-!
# Names of report files

Every analysed file has a report file of its own below the report directory.

* `reportStem`, `reportName`: the name that a path asks for.
* `freshName`: that name, or a numbered one when it is taken.
* `assignNames`: the names of a list of paths, in order.
-/

namespace ScriptSplit

/-- The directory of the report files. -/
def filesDir : String := "files"

/-- A segment of a path as it stands in a report name; empty segments and single points are left out. -/
def reportSegment? (segment : String) : Option String :=
  if segment = "" || segment = "." then none
  else if segment = ".." then some "_up"
  else some (String.ofList (segment.toList.map fun c => if c = ':' then '_' else c))

/-- The segments of a report name. -/
def reportSegments (path : String) : List String :=
  let kept := (Path.parts path).filterMap reportSegment?
  if kept.isEmpty then ["_"] else kept

/-- The name of a report file without its extension. -/
def reportStem (path : String) : String := "/".intercalate (filesDir :: reportSegments path)

/-- The name that a path asks for, relative to the report directory. -/
def reportName (path : String) : String := reportStem path ++ ".json"

/-- A name with a number behind its stem. -/
def numberedName (stem : String) (n : Nat) : String := stem ++ "~" ++ toString n ++ ".json"

/-- The first numbered name from `n` on that is not taken. Taken names use up fuel, so their number is
fuel enough. -/
def freshFrom (stem : String) (taken : List String) : (fuel n : Nat) → String
  | 0, n => numberedName stem n
  | fuel + 1, n =>
    if taken.contains (numberedName stem n) then freshFrom stem taken fuel (n + 1) else numberedName stem n

/-- The name of a stem, or the first numbered one when it is taken. -/
def freshName (stem : String) (taken : List String) : String :=
  if taken.contains (stem ++ ".json") then freshFrom stem taken taken.length 1 else stem ++ ".json"

/-- The names of paths in order, given the names that are taken. -/
def assignNames (taken : List String) : List String → List String
  | [] => []
  | path :: rest =>
    let name := freshName (reportStem path) taken
    name :: assignNames (name :: taken) rest

end ScriptSplit
