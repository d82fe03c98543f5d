import ScriptSplit.Config.Settings
import ScriptSplit.Format.Json.Writer
import ScriptSplit.Hash.XXHash64
import ScriptSplit.Report.Encoding

/-!
# Fingerprints

The settings that the report on a file depends on, in one line of text and its hash. Reports of other
settings are never mistaken for those of the present ones.

* `Config.preimage`: the text; `Config.fingerprint`: its hash.
-/

namespace ScriptSplit.Config

/-- Changes whenever the analysis of a file gives another report for the same input. -/
def reportRevision : Int := 2

/-- A rule of the module table. -/
def ruleJson (m : ModuleRule) : Json := .object [("Tag", .string m.tag), ("Keywords", namesJson m.keywords)]

/-- The settings that matter, in a fixed order. -/
def preimageJson (cfg : Config) : Json :=
  .object
    [("Revision", .int reportRevision),
     ("Thresholds", .object
       [("DependencyCount", .int cfg.thresholds.dependencyCount),
        ("DependentCount", .int cfg.thresholds.dependentCount),
        ("Complexity", .int cfg.thresholds.complexity)]),
     ("Symbols", .object
       [("Globals", namesJson cfg.symbols.globals), ("PlatformAPI", namesJson cfg.symbols.platformAPI)]),
     ("Modules", Listing.toJson ruleJson cfg.modules),
     ("Classification", .object
       [("DefaultModule", .string cfg.classification.defaultModule),
        ("FallbackPolicy", .string cfg.classification.fallbackPolicy)])]

/-- The text that is hashed. -/
def preimage (cfg : Config) : String := cfg.preimageJson.compact

/-- The hash of the settings that matter. -/
def fingerprint (cfg : Config) : String := Hash.XXHash64.hex (Bytes.ofString cfg.preimage)

end ScriptSplit.Config
