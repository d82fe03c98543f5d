import ScriptSplit.Config.Settings
import ScriptSplit.Format.Toml.Writer

/-!
# Writing settings

* `Config.sections`: the sections of a settings file, in the order of their names and keys.
* `Config.tomlText`: the text of a settings file.
* `Config.shownText`: the settings as they are shown, with where they come from.
* `initialFileText`: the file that a new project starts with.
-/

namespace ScriptSplit

open Toml (Field Section)

/-- A list of names as a value. -/
def namesValue (l : Listing String) : Toml.Value := .texts l.items

/-- The section of a module. -/
def ModuleRule.toSection (m : ModuleRule) : Section :=
  ⟨"modules", true, [.plain "keywords" (namesValue m.keywords), .plain "tag" (.text m.tag)]⟩

namespace Config

/-- The sections of a settings file. -/
def sections (c : Config) : List Section :=
  [⟨"cache", false,
     [.plain "dir" (.text c.cache.dir), .plain "enabled" (.bool c.cache.enabled),
      ⟨"ttl", "hours", .int c.cache.ttl⟩]⟩,
   ⟨"classification", false,
     [.plain "default_module" (.text c.classification.defaultModule),
      ⟨"fallback_policy", "default-bucket or inherit-from-dependency",
        .text c.classification.fallbackPolicy⟩]⟩,
   ⟨"exclude", false,
     [.plain "dirs" (namesValue c.exclude.dirs), .plain "gitignore" (.bool c.exclude.gitignore),
      .plain "patterns" (namesValue c.exclude.patterns)]⟩] ++
  c.modules.items.map ModuleRule.toSection ++
  [⟨"output", false,
     [.plain "color" (.bool c.output.color),
      ⟨"format", "text, json, markdown, toon or yaml", .text c.output.format⟩]⟩,
   ⟨"scan", false,
     [.plain "extensions" (namesValue c.scan.extensions),
      ⟨"include", "optional glob allow-list, relative to the root", namesValue c.scan.includeGlobs⟩,
      ⟨"max_file_size", "bytes, 0 = unlimited", .int c.scan.maxFileSize⟩,
      ⟨"workers", "0 = number of CPUs", .int c.scan.workers⟩]⟩,
   ⟨"symbols", false,
     [.plain "globals" (namesValue c.symbols.globals),
      .plain "platform_api" (namesValue c.symbols.platformAPI)]⟩,
   ⟨"thresholds", false,
     [⟨"complexity", "0 disables the complexity rule", .int c.thresholds.complexity⟩,
      .plain "dependency_count" (.int c.thresholds.dependencyCount),
      .plain "dependent_count" (.int c.thresholds.dependentCount)]⟩]

/-- The text of a settings file. -/
def tomlText (c : Config) : String := Toml.sectionsText c.sections

/-- The settings as they are shown, below the path of the file that they come from; an empty path
stands for the defaults. -/
def shownText (c : Config) (source : String) : String :=
  (if source = "" then "# Default configuration (no config file found)\n"
    else "# Configuration from: " ++ source ++ "\n\n") ++ c.tomlText

end Config

/-- The file that a new project starts with. -/
def initialFileText : String :=
  "# modsplit configuration\n# Modules are matched in order; the first keyword hit wins.\n\n" ++
    Config.default.tomlText

end ScriptSplit
