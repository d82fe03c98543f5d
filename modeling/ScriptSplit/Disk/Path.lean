/-!
# Paths

Slash-separated paths as texts. A path is cleaned by dropping empty and `.` segments and by letting
each `..` take back the segment before it.

* `Path.parts`, `Path.clean`, `Path.join`, `Path.dir`, `Path.base`, `Path.ext`: the parts of a path.
* `Path.rel?`: a path as seen from another.
-/

namespace ScriptSplit.Path

/-- The path starts at the root. -/
def isAbs (path : String) : Bool := path.toList.head? = some '/'

/-- The texts between the slashes of a path. -/
def parts (path : String) : List String := (path.toList.splitOn '/').map String.ofList

/-- One segment after the segments that were kept, given in reverse. -/
def pushSegment (rooted : Bool) (kept : List String) (segment : String) : List String :=
  if segment = "" || segment = "." then kept
  else if segment = ".." then
    match kept with
    | [] => if rooted then [] else [".."]
    | last :: rest => if last = ".." then ".." :: last :: rest else rest
  else segment :: kept

/-- The segments of the cleaned path. -/
def segments (path : String) : List String :=
  ((parts path).foldl (pushSegment (isAbs path)) []).reverse

/-- The path of segments. -/
def ofSegments (rooted : Bool) (segments : List String) : String :=
  if rooted then "/" ++ "/".intercalate segments
  else if segments.isEmpty then "." else "/".intercalate segments

/-- The shortest path of the same meaning. -/
def clean (path : String) : String := ofSegments (isAbs path) (segments path)

/-- Joins parts, empty ones left out, and cleans the result. -/
def joinAll (parts : List String) : String :=
  let parts := parts.filter (· ≠ "")
  if parts.isEmpty then "" else clean ("/".intercalate parts)

/-- Joins two parts and cleans the result. -/
def join (a b : String) : String := joinAll [a, b]

/-- The text after the last slash. -/
def afterLastSlash (path : String) : String := (parts path).getLastD ""

/-- The directory of a path: what stands before its last slash, cleaned. -/
def dir (path : String) : String :=
  match (parts path).dropLast with
  | [] => "."
  | [""] => "/"
  | parts => clean ("/".intercalate parts ++ "/")

/-- The path without the slashes at its end. -/
def withoutTrailingSlashes (path : String) : String :=
  String.ofList ((path.toList.reverse.dropWhile (· = '/')).reverse)

/-- The path ends in a segment that is a point. -/
def endsInPoint (path : String) : Bool := (parts path).getLast? = some "."

/-- The last segment of a path; a point for the empty path and a slash for the root. -/
def base (path : String) : String :=
  if path = "" then "."
  else
    let last := afterLastSlash (withoutTrailingSlashes path)
    if last = "" then "/" else last

/-- The part of the last segment from its last point on. -/
def ext (path : String) : String :=
  let last := (afterLastSlash path).toList.reverse
  if last.contains '.' then String.ofList ('.' :: (last.takeWhile (· ≠ '.')).reverse) else ""

/-- Drops the segments that two lists share at their front. -/
def dropShared : List String → List String → List String × List String
  | a :: as, b :: bs => if a = b then dropShared as bs else (a :: as, b :: bs)
  | as, bs => (as, bs)

/-- The path `target` as seen from `base`, if both start at the same place and `base` does not lead
above it. -/
def rel? (base target : String) : Option String :=
  let b := clean base
  let t := clean target
  if b = t then some "."
  else if isAbs b ≠ isAbs t then none
  else
    let ts := if t = "." then ["."] else segments t
    let (up, down) := dropShared (segments b) ts
    if up.head? = some ".." then none
    else some ("/".intercalate (up.map (fun _ => "..") ++ down))

/-- The path made absolute from a working directory. -/
def abs (cwd path : String) : String := if isAbs path then clean path else join cwd path

end ScriptSplit.Path
