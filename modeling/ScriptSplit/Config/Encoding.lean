import ScriptSplit.Config.Settings
import ScriptSplit.Format.Json.Value

/-!
# Settings as JSON

* `Config.toJson`: the settings under the keys of a settings file; a list that is not there is empty.
-/

namespace ScriptSplit

/-- A list of names. -/
def listNames (l : Listing String) : Json := .strings l.items

/-- A rule of the module table. -/
def ModuleRule.toJson (m : ModuleRule) : Json :=
  .object [("tag", .string m.tag), ("keywords", listNames m.keywords)]

/-- The settings under the keys of a settings file. -/
def Config.toJson (c : Config) : Json :=
  .object
    [("thresholds", .object [("dependency_count", .int c.thresholds.dependencyCount),
       ("dependent_count", .int c.thresholds.dependentCount), ("complexity", .int c.thresholds.complexity)]),
     ("symbols", .object [("globals", listNames c.symbols.globals),
       ("platform_api", listNames c.symbols.platformAPI)]),
     ("modules", .array (c.modules.items.map ModuleRule.toJson)),
     ("classification", .object [("default_module", .string c.classification.defaultModule),
       ("fallback_policy", .string c.classification.fallbackPolicy)]),
     ("scan", .object [("extensions", listNames c.scan.extensions), ("include", listNames c.scan.includeGlobs),
       ("max_file_size", .int c.scan.maxFileSize), ("workers", .int c.scan.workers)]),
     ("exclude", .object [("dirs", listNames c.exclude.dirs), ("patterns", listNames c.exclude.patterns),
       ("gitignore", .bool c.exclude.gitignore)]),
     ("cache", .object [("enabled", .bool c.cache.enabled), ("dir", .string c.cache.dir),
       ("ttl", .int c.cache.ttl)]),
     ("output", .object [("format", .string c.output.format), ("color", .bool c.output.color)])]

end ScriptSplit
