import ScriptSplit.Server.FrontMatter
import ScriptSplit.Text.Dict
import ScriptSplit.Text.Replace

/-!
# Prompts

* `expandArguments`: fills arguments into the text of a prompt.
* `Prompt`, `prompts`: the prompts that the server offers.
-/

namespace ScriptSplit

/-- The place of an argument in a text. -/
def placeholder (name : String) : String := "\x7b\x7b" ++ name ++ "\x7d\x7d"

/-- Fills arguments into a text, one after the other. -/
def expandArguments (body : String) (args : List (String × String)) : String :=
  args.foldl (fun text arg => replaceAll text (placeholder arg.1) arg.2) body

/-- A prompt that the server offers. -/
structure Prompt where
  name : String
  facts : PromptFacts
  body : String

/-- The text of a prompt with its arguments. -/
def Prompt.text (p : Prompt) (args : List (String × String)) : String := expandArguments p.body args

/-- Asks for a plan to split one file into modules. -/
def planModuleSplit : Prompt where
  name := "plan-module-split"
  facts :=
    { description := "Plan how to split a large script into modules using its call graph"
      arguments := [⟨"path", "File to split", true⟩] }
  body := "\n".intercalate
    ["Use the analyze_file tool on \x7b\x7bpath\x7d\x7d with format markdown.",
     "",
     "From the result, propose a module split:",
     "",
     "1. Start from the suggested modules. Move a function to another module when most of its",
     "   dependencies and dependents live there.",
     "2. Keep every group listed under cycles in a single module.",
     "3. For each CriticalDependency, describe the interface other modules should call.",
     "4. For each MixedResponsibility, describe how to separate the state handling from the DOM work.",
     "5. List the calls that would cross the new module boundaries.",
     "",
     "Finish with the order in which to extract the modules, least connected first.",
     ""]

/-- Asks for a review of the calls between files. -/
def reviewCrossFile : Prompt where
  name := "review-cross-file"
  facts :=
    { description := "Review calls that cross file boundaries in a front-end project"
      arguments := [⟨"path", "Project root", false⟩] }
  body := "\n".intercalate
    ["Use the analyze_project tool on \x7b\x7bpath\x7d\x7d with summary_only set to true.",
     "",
     "Review the crossFileDependencies:",
     "",
     "- Group them by callee file and flag files that many other files reach into.",
     "- Point out functions defined in more than one file; the first file by path owns the name,",
     "  so the other definitions may be dead or shadowed at runtime.",
     "- Mention every warning and whether the affected files need attention first.",
     "",
     "Recommend which functions should move so that each file depends on as few others as possible.",
     ""]

/-- The prompts, in the order of their names. -/
def prompts : List Prompt := [planModuleSplit, reviewCrossFile]

end ScriptSplit
