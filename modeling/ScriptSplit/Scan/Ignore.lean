import ScriptSplit.Disk.Tree
import ScriptSplit.Scan.Wildcard
import ScriptSplit.Text.Space

/-!
# Ignore rules

Rules that leave files and directories out, one a line. Of the rules that match a path the last one
decides.

* `IgnoreRule.parse`: the rule of a line.
* `IgnoreRule.verdict?`: what a rule says about a path.
* `isIgnored`: what a list of rules says.
* `readIgnoreRules`: the rules of the ignore files of a directory and of those below it.
-/

namespace ScriptSplit

/-- A rule. It applies below its domain. -/
structure IgnoreRule where
  domain : List String
  /-- The segments of the pattern. -/
  pattern : List String
  /-- The rule takes a path back in. -/
  takesIn : Bool
  /-- The rule is about directories only. -/
  dirOnly : Bool
  deriving DecidableEq, Repr

namespace IgnoreRule

/-- A text without the spaces at its end. -/
def trimEndSpaces (s : String) : String :=
  String.ofList ((s.toList.reverse.dropWhile (· = ' ')).reverse)

/-- The rule of a line. Spaces at its end do not count unless a backslash stands before the last. -/
def parse (domain : List String) (line : String) : IgnoreRule :=
  let takesIn := line.startsWith "!"
  let p := if takesIn then (line.drop 1).toString else line
  let p := if p.endsWith "\x5c " then p else trimEndSpaces p
  let dirOnly := p.endsWith "/"
  let p := if dirOnly then (p.dropEnd 1).toString else p
  ⟨domain, Path.parts p, takesIn, dirOnly⟩

/-- A pattern of one segment matches if some name of the path does. Only the last name can be that
of a file. -/
def matchesName (pattern : String) (dirOnly isDir : Bool) (path : List String) : Bool :=
  match path.dropWhile (fun name => !Wildcard.accepts pattern name) with
  | [] => false
  | [_] => !(dirOnly && !isDir)
  | _ => true

/-- Where the match of a pattern of several segments stands. -/
structure Progress where
  path : List String
  found : Bool
  /-- Any number of directories may be passed over before the next segment. -/
  crossing : Bool

/-- Takes one segment of a pattern to the path; `isLast` holds for the last segment. -/
def step (p : Progress) (segment : String) (isLast : Bool) : Option Progress :=
  if segment = "" then some { p with crossing := false }
  else if segment = "**" then some (if isLast then p else { p with crossing := true })
  else if Bytes.contains (Bytes.ofString segment) (Bytes.ofString "**") then none
  else if p.path.isEmpty then none
  else if p.crossing then
    match p.path.dropWhile (fun name => !Wildcard.accepts segment name) with
    | [] => if (Wildcard.parse? segment).isSome then some ⟨[], false, false⟩ else none
    | _ :: rest => some ⟨rest, true, false⟩
  else
    match p.path with
    | [] => none
    | name :: rest =>
      if Wildcard.accepts segment name then some ⟨rest, !(rest.isEmpty && !isLast), false⟩ else none

/-- Takes the segments of a pattern to the path, one after the other. -/
def steps : Progress → List String → Option Progress
  | p, [] => some p
  | p, segment :: rest => (step p segment rest.isEmpty).bind fun q => steps q rest

/-- A pattern of several segments matches a path from its start. -/
def matchesPath (pattern : List String) (dirOnly isDir : Bool) (path : List String) : Bool :=
  match steps ⟨path, false, false⟩ pattern with
  | some p => p.found && !(dirOnly && !isDir && p.path.isEmpty)
  | none => false

/-- The rest of a path below a domain; it is not empty. -/
def below? : (domain path : List String) → Option (List String)
  | [], [] => none
  | [], path => some path
  | _ :: _, [] => none
  | d :: domain, name :: path => if d = name then below? domain path else none

/-- What a rule says about a path: true if it leaves it out, false if it takes it in. -/
def verdict? (r : IgnoreRule) (path : List String) (isDir : Bool) : Option Bool :=
  match below? r.domain path with
  | none => none
  | some path =>
    let hit := match r.pattern with
      | [p] => matchesName p r.dirOnly isDir path
      | ps => matchesPath ps r.dirOnly isDir path
    if hit then some (!r.takesIn) else none

end IgnoreRule

/-- The last rule that says something about a path leaves it out. -/
def isIgnored (rules : List IgnoreRule) (path : List String) (isDir : Bool) : Bool :=
  (rules.reverse.findSome? fun r => r.verdict? path isDir).getD false

/-- The lines of a text; a carriage return before a line end belongs to it. -/
def textLines (content : Bytes) : List String :=
  let lines := ((Utf8.decodeLossy content).toList.splitOn '\n').map String.ofList
  let lines := if lines.getLastD "" = "" then lines.dropLast else lines
  lines.map fun l => if l.endsWith "\x0d" then (l.dropEnd 1).toString else l

/-- A line that holds a rule: no comment, and not blank. -/
def holdsRule (line : String) : Bool :=
  !line.startsWith "#" && line.toList.any fun c => !isSpace c

/-- The rules of an ignore file. -/
def ignoreFileRules (domain : List String) (content : Option Bytes) : List IgnoreRule :=
  match content with
  | some t => ((textLines t).filter holdsRule).map (IgnoreRule.parse domain)
  | none => []

/-- The rules that the files of a directory itself hold; `content?` gives the content of the file that
names lead to. -/
def ownIgnoreRules (content? : List String → Option Bytes) (domain : List String) : List IgnoreRule :=
  ignoreFileRules domain (content? (domain ++ [".git", "info", "exclude"])) ++
    ignoreFileRules domain (content? (domain ++ [".gitignore"]))

mutual

/-- The rules of a directory and of the directories below it. A directory that the rules before it
leave out is not entered. -/
def readIgnoreRules (content? : List String → Option Bytes) (domain : List String) : Node → List IgnoreRule
  | .dir entries => ignoreRulesBelow content? domain (ownIgnoreRules content? domain) entries
  | _ => []

/-- Adds the rules of the directories among the entries to those before them. -/
def ignoreRulesBelow (content? : List String → Option Bytes) (domain : List String) (rules : List IgnoreRule) :
    List (String × Node) → List IgnoreRule
  | [] => rules
  | (name, n) :: rest =>
    if n.isDir && name ≠ ".git" && !isIgnored rules (domain ++ [name]) true then
      ignoreRulesBelow content? domain (rules ++ readIgnoreRules content? (domain ++ [name]) n) rest
    else ignoreRulesBelow content? domain rules rest

end

end ScriptSplit
