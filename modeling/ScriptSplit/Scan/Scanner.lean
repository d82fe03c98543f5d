import ScriptSplit.Config.Settings
import ScriptSplit.Disk.Links
import ScriptSplit.Scan.Glob
import ScriptSplit.Scan.Ignore
import ScriptSplit.Text.Case
import ScriptSplit.Text.Quoted

/-!
# Scanning for files

* `Config.isExcludedDir`, `Config.hasExtension`: the settings about names.
* `findGitRoot`: the nearest directory above that holds a repository.
* `Scanner.scanDir`: the candidate files below a directory, sorted.
* `Scanner.scanFile`: whether one file is a candidate.
-/

namespace ScriptSplit

/-- A directory name is left out. -/
def Config.isExcludedDir (cfg : Config) (name : String) : Bool := cfg.exclude.dirs.items.contains name

/-- A path has one of the extensions, whatever their case. -/
def Config.hasExtension (cfg : Config) (path : String) : Bool :=
  let ext := lowerCase (Path.ext path)
  cfg.scan.extensions.items.any fun e => lowerCase e == ext

/-- The nearest directory at or above `dir` that holds a directory named `.git`. A path gets shorter
with each step up, so its length bounds the number of steps. -/
def findGitRootFrom (d : Disk) : (fuel : Nat) → (dir : String) → Option String
  | 0, _ => none
  | fuel + 1, dir =>
    if d.isDir (Path.join dir ".git") then some dir
    else
      let parent := Path.dir dir
      if parent = dir then none else findGitRootFrom d fuel parent

/-- The nearest directory at or above `dir` that holds a repository. -/
def findGitRoot (d : Disk) (dir : String) : Option String := findGitRootFrom d (dir.length + 2) dir

/-- A scanner keeps the ignore rules that it loaded last. -/
structure Scanner where
  config : Config
  rules : List IgnoreRule

/-- Why a scan fails. -/
inductive ScanError where
  /-- The root has no resolved form. -/
  | root (cause : LinkError)
  /-- An include glob is malformed. -/
  | badGlob (pattern : String) (cause : Glob.GlobError)
  /-- The file could not be looked at. -/
  | path (cause : PathError)
  /-- An include glob broke down on a path. -/
  | brokenGlob (cause : Glob.GlobFault)
  deriving DecidableEq, Repr

/-- The text of a scan error. -/
def ScanError.message : ScanError → String
  | root cause => cause.message
  | badGlob pattern cause => "include pattern " ++ quoted pattern ++ ": " ++ cause.message
  | path cause => cause.message
  | brokenGlob cause => cause.message

namespace Scanner

/-- A scanner that has loaded nothing. -/
def new (cfg : Config) : Scanner := ⟨cfg, []⟩

/-- The rules of the ignore files of a directory and of those below it. -/
def ignoreRulesIn (d : Disk) (base : String) : List IgnoreRule :=
  match d.find .follow (Path.joinAll [base]) with
  | .ok n => readIgnoreRules (fun names => (d.read (Path.joinAll (base :: names))).toOption) [] n
  | .error _ => []

/-- The rules of the settings and, if they are wanted, of the ignore files of the repository that
holds the root, or of the root itself. -/
def rulesFor (cfg : Config) (d : Disk) (root : String) : List IgnoreRule :=
  (cfg.exclude.patterns.items.map (IgnoreRule.parse [])) ++
    if cfg.exclude.gitignore then ignoreRulesIn d ((findGitRoot d root).getD root) else []

/-- A path relative to the root is left out by the rules. -/
def isExcluded (rules : List IgnoreRule) (path : String) (isDir : Bool) : Bool :=
  isIgnored rules (Path.parts path) isDir

/-- The include globs of the settings. -/
def globs : List String → Except ScanError (List Glob)
  | [] => .ok []
  | pattern :: rest =>
    match Glob.parse pattern with
    | .error e => .error (.badGlob pattern e)
    | .ok g => (globs rest).map (g :: ·)

/-- One of the globs takes the path. -/
def anyAccepts (path : String) : List Glob → Except Glob.GlobFault Bool
  | [] => .ok false
  | g :: rest => do
    if ← g.accepts path then return true
    else anyAccepts path rest

/-- A path relative to the root passes the include globs; without any it always does. -/
def isIncluded (includes : List Glob) (path : String) : Except Glob.GlobFault Bool :=
  if includes.isEmpty then .ok true else anyAccepts path includes

/-- What one scan goes by. -/
structure Rules where
  config : Config
  disk : Disk
  root : String
  absoluteRoot : String
  ignore : List IgnoreRule
  includes : List Glob

/-- A path as seen from the root. -/
def Rules.relative (s : Rules) (path : String) : String := (Path.rel? s.root path).getD ""

/-- A link leads to something inside the root. -/
def Rules.linkStays (s : Rules) (path : String) : Bool :=
  match s.disk.evalLinks path with
  | .ok target => isWithin s.disk.cwd target s.absoluteRoot
  | .error _ => false

/-- A file or link at the path is a candidate. -/
def Rules.takesFile (s : Rules) (path : String) : Except Glob.GlobFault Bool :=
  if s.config.hasExtension path && !isExcluded s.ignore (s.relative path) false then
    isIncluded s.includes (s.relative path)
  else .ok false

/-- The path alone, if it is a candidate. -/
def Rules.taken (s : Rules) (path : String) : Except Glob.GlobFault (List String) :=
  (s.takesFile path).map fun takes => if takes then [path] else []

/-- The scan goes into the directory at the path. The root itself is always entered. -/
def Rules.entersDir (s : Rules) (path name : String) : Bool :=
  !(path ≠ s.root && s.config.isExcludedDir name) &&
    !(s.relative path ≠ "." && isExcluded s.ignore (s.relative path) true)

/-- The node under the name of an entry of the root. A directory is opened by its own path, which leads
elsewhere if the root goes upwards after a link. -/
def Rules.opened (s : Rules) (name : String) : Node → Node
  | .dir _ =>
    match s.disk.find .follow (Path.join s.root name) with
    | .ok (.dir entries) => .dir entries
    | _ => .dir []
  | n => n

/-- The root with its entries opened. -/
def Rules.openedRoot (s : Rules) : Node → Node
  | .dir entries => .dir (entries.map fun e => (e.1, s.opened e.1 e.2))
  | n => n

mutual

/-- The candidates at and below a node. -/
def collect (s : Rules) (path name : String) : Node → Except Glob.GlobFault (List String)
  | .file _ => s.taken path
  | .link _ => if s.linkStays path then s.taken path else .ok []
  | .dir entries => if s.entersDir path name then collectEntries s path entries else .ok []

/-- The candidates among the entries of a directory and below them. -/
def collectEntries (s : Rules) (path : String) :
    List (String × Node) → Except Glob.GlobFault (List String)
  | [] => .ok []
  | (name, n) :: rest => do
    let found ← collect s (Path.join path name) name n
    let more ← collectEntries s path rest
    return found ++ more

end

/-- The candidate files below a directory, in the order of their paths. -/
def scanDir (s : Scanner) (d : Disk) (root : String) : Except ScanError (List String × Scanner) :=
  match d.evalLinks root with
  | .error e => .error (.root e)
  | .ok absoluteRoot =>
    match globs s.config.scan.includeGlobs.items with
    | .error e => .error e
    | .ok includes =>
      let ignore := rulesFor s.config d root
      let rules : Rules := ⟨s.config, d, root, absoluteRoot, ignore, includes⟩
      let found := match d.find .keep root with
        | .ok n => collect rules root (Path.base root) (rules.openedRoot n)
        | .error _ => .ok []
      match found with
      | .error e => .error (.brokenGlob e)
      | .ok found => .ok (sortStrings found, { s with rules := ignore })

/-- One file is a candidate. The rules for its directory are loaded if there are none. -/
def scanFile (s : Scanner) (d : Disk) (path : String) : Except ScanError (Bool × Scanner) :=
  match d.stat path with
  | .error e => .error (.path e)
  | .ok n =>
    if n.isDir then .ok (false, s)
    else
      let rules := if s.rules.isEmpty then rulesFor s.config d (Path.dir path) else s.rules
      let s := { s with rules := rules }
      .ok (!isExcluded rules (Path.base path) false && s.config.hasExtension path, s)

end Scanner

end ScriptSplit
