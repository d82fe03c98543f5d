import ScriptSplit.Config.Settings
import ScriptSplit.Scan.Glob
import ScriptSplit.Text.Quoted
import ScriptSplit.Text.Space

/-!
# Rules for settings

The rules that the shape of a settings file cannot express.

* `SettingFault`: a rule that is broken; `SettingFault.message`: its text.
* `Config.faults`: all broken rules, in the order of the settings.
* `Config.invalidMessage`: their joint text.
-/

namespace ScriptSplit

/-- A rule that the settings break. -/
inductive SettingFault where
  /-- A number lies below zero. -/
  | negative (key : String)
  /-- A text that is needed is empty. -/
  | emptyText (key : String)
  /-- A list that is needed is empty. -/
  | emptyList (key : String)
  | duplicateTag (index : Nat) (tag : String)
  | noKeywords (index : Nat) (tag : String)
  | notATag (tag : String)
  /-- A text is none of those allowed. -/
  | unknown (key value : String)
  | noPoint (index : Nat) (extension : String)
  | badGlob (index : Nat) (pattern : String) (cause : Glob.GlobError)
  | noCacheDir
  deriving DecidableEq, Repr

/-- The text of a broken rule. -/
def SettingFault.message : SettingFault → String
  | negative key => key ++ " must be >= 0"
  | emptyText key => key ++ " is empty"
  | emptyList key => key ++ " must not be empty"
  | duplicateTag i tag => "modules[" ++ toString i ++ "].tag " ++ quoted tag ++ " is duplicated"
  | noKeywords i tag => "modules[" ++ toString i ++ "] (" ++ tag ++ ") has no keywords"
  | notATag tag => "classification.default_module " ++ quoted tag ++ " is not a module tag"
  | unknown key value => key ++ " " ++ quoted value ++ " is unknown"
  | noPoint i ext => "scan.extensions[" ++ toString i ++ "] " ++ quoted ext ++ " must start with '.'"
  | badGlob i pattern cause =>
    "scan.include[" ++ toString i ++ "] " ++ quoted pattern ++ ": " ++ cause.message
  | noCacheDir => "cache.dir is required when the cache is enabled"

namespace Config

/-- The fault of a number below zero. -/
def negativeFault (key : String) (n : Int) : List SettingFault := if n < 0 then [.negative key] else []

/-- The key of one entry of a list. -/
def entryKey (key : String) (i : Nat) : String := key ++ "[" ++ toString i ++ "]"

/-- The faults of the entries of a list that are empty in the sense of `isEmpty`. -/
def emptyEntries (key : String) (isEmpty : String → Bool) (entries : List String) : List SettingFault :=
  entries.zipIdx.flatMap fun (s, i) => if isEmpty s then [.emptyText (entryKey key i)] else []

/-- The faults of the module table from entry `i` on; `seen` holds the tags before it. -/
def moduleFaults (i : Nat) (seen : List String) : List ModuleRule → List SettingFault
  | [] => []
  | m :: rest =>
    if m.tag = "" then .emptyText (entryKey "modules" i ++ ".tag") :: moduleFaults (i + 1) seen rest
    else
      (if seen.contains m.tag then [.duplicateTag i m.tag] else []) ++
      (if m.keywords.items.isEmpty then [.noKeywords i m.tag] else []) ++
      emptyEntries (entryKey "modules" i ++ ".keywords") (· = "") m.keywords.items ++
      moduleFaults (i + 1) (m.tag :: seen) rest

/-- The faults of the default module. -/
def defaultModuleFaults (cfg : Config) : List SettingFault :=
  let tag := cfg.classification.defaultModule
  if tag = "" then [.emptyText "classification.default_module"]
  else if !cfg.modules.items.isEmpty && !(cfg.modules.items.map ModuleRule.tag).contains tag then [.notATag tag]
  else []

/-- The fault of a text that is none of those allowed. -/
def unknownFault (key value : String) (allowed : List String) : List SettingFault :=
  if allowed.contains value then [] else [.unknown key value]

/-- The names of the output formats in settings. -/
def formatNames : List String := ["text", "json", "markdown", "toon", "yaml"]

/-- The names of the policies for functions that match no rule. -/
def policyNames : List String := [defaultBucketPolicy, inheritPolicy]

/-- The faults of the include globs. -/
def globFaults (patterns : List String) : List SettingFault :=
  patterns.zipIdx.flatMap fun (p, i) =>
    match Glob.parse p with
    | .ok _ => []
    | .error e => [.badGlob i p e]

/-- All broken rules, in the order of the settings. -/
def faults (cfg : Config) : List SettingFault :=
  negativeFault "thresholds.dependency_count" cfg.thresholds.dependencyCount ++
  negativeFault "thresholds.dependent_count" cfg.thresholds.dependentCount ++
  negativeFault "thresholds.complexity" cfg.thresholds.complexity ++
  emptyEntries "symbols.globals" (fun s => trimSpaces s = "") cfg.symbols.globals.items ++
  emptyEntries "symbols.platform_api" (· = "") cfg.symbols.platformAPI.items ++
  (if cfg.modules.items.isEmpty then [.emptyList "modules"] else []) ++
  moduleFaults 0 [] cfg.modules.items ++
  cfg.defaultModuleFaults ++
  unknownFault "classification.fallback_policy" cfg.classification.fallbackPolicy policyNames ++
  (if cfg.scan.extensions.items.isEmpty then [.emptyList "scan.extensions"] else []) ++
  (cfg.scan.extensions.items.zipIdx.flatMap fun (e, i) => if e.startsWith "." then [] else [.noPoint i e]) ++
  globFaults cfg.scan.includeGlobs.items ++
  negativeFault "scan.max_file_size" cfg.scan.maxFileSize ++
  negativeFault "scan.workers" cfg.scan.workers ++
  (if cfg.cache.enabled && cfg.cache.dir = "" then [.noCacheDir] else []) ++
  negativeFault "cache.ttl" cfg.cache.ttl ++
  unknownFault "output.format" cfg.output.format formatNames

end Config

/-- The joint text of broken rules. -/
def faultsMessage (faults : List SettingFault) : String :=
  "invalid configuration: " ++ "; ".intercalate (faults.map SettingFault.message)

end ScriptSplit
