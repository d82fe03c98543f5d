import ScriptSplit.Module.Problem
import ScriptSplit.Text.Case

/-!
# Module suggestions

Proposes a partition of the functions into modules.

* `Classifier.match?`: the first rule with a keyword that occurs in a name.
* `Classifier.assignments`: the tag of each function, empty where none was found.
* `Classifier.modules`: the names under each tag, in registry order.
-/

namespace ScriptSplit

/-- The module table and what happens to functions that match no rule. -/
structure Classifier where
  thresholds : Thresholds
  rules : List ModuleRule
  defaultModule : String
  /-- Unmatched functions inherit the tag of their first classified dependency. -/
  inherits : Bool

namespace Classifier

/-- The classifier of a configuration. -/
def ofConfig (cfg : Config) : Classifier where
  thresholds := cfg.thresholds
  rules := cfg.modules.items
  defaultModule := cfg.classification.defaultModule
  inherits := cfg.classification.fallbackPolicy == inheritPolicy

/-- One string occurs in another; the empty string occurs in all. -/
def occursIn (part whole : String) : Bool :=
  Bytes.contains (Bytes.ofString whole) (Bytes.ofString part)

/-- A keyword matches a name that it equals, or in which it occurs whatever the case. -/
def keywordMatches (keyword name : String) : Bool :=
  keyword == name || occursIn (lowerCase keyword) (lowerCase name)

/-- The tag of the first rule that has a keyword of the name; empty when there is none. -/
def tagOf (c : Classifier) (name : String) : String :=
  match c.rules.find? fun r => r.keywords.items.any fun k => keywordMatches k name with
  | some r => r.tag
  | none => ""

/-- The place of the last function of a name. -/
def lastIndexOf (functions : List Function) (name : String) : Option Nat :=
  (functions.zipIdx.reverse.find? fun p => p.1.name == name).map Prod.snd

/-- The tag of the first dependency that has one. -/
def inheritedTag (functions : List Function) (tags : List String) (f : Function) : Option String :=
  f.dependencies.items.findSome? fun dep => do
    let j ← lastIndexOf functions dep
    let tag ← tags[j]?
    if tag = "" then none else some tag

/-- Gives the function at place `i` an inherited tag if it has none. -/
def inheritAt (functions : List Function) (tags : List String) (p : Function × Nat) : List String :=
  if tags[p.2]? = some "" then
    match inheritedTag functions tags p.1 with
    | some tag => tags.set p.2 tag
    | none => tags
  else tags

/-- The tag of each function by place; empty where none was found. Inheritance goes through the
functions once, in registry order. -/
def assignments (c : Classifier) (functions : List Function) : List String :=
  let direct := functions.map fun f => c.tagOf f.name
  if c.inherits then functions.zipIdx.foldl (inheritAt functions) direct else direct

/-- The tag under which a function is listed. -/
def finalTag (c : Classifier) (tag : String) : String := if tag = "" then c.defaultModule else tag

/-- The names under each tag. Every tag of a rule and the default tag are present. -/
def modules (c : Classifier) (functions : List Function) : Dict (List String) :=
  let empty := Dict.ofList ((c.rules.map fun r => (r.tag, [])) ++ [(c.defaultModule, [])])
  let tagged := (c.assignments functions).zip functions
  tagged.foldl (fun d p =>
    let tag := c.finalTag p.1
    Dict.put tag ((d.get? tag).getD [] ++ [p.2.name]) d) empty

/-- The findings about the functions. -/
def problems (c : Classifier) (functions : List Function) : List Problem :=
  ScriptSplit.problems c.thresholds functions

end Classifier

end ScriptSplit
