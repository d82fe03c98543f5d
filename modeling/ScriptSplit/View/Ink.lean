import ScriptSplit.Module.Problem

/-!
# Ink

Colours and weights of text on a terminal.

* `Ink`: whether colours are wanted and whether the terminal takes escape codes.
* `Ink.issue`: the colour that shows how urgent an issue is.
-/

namespace ScriptSplit

/-- How a text may be coloured. -/
structure Ink where
  /-- Colours are wanted. -/
  colored : Bool
  /-- The terminal takes escape codes. -/
  escapes : Bool
  deriving DecidableEq, Repr

namespace Ink

/-- No colours at all. -/
def plain : Ink := ⟨false, false⟩

/-- A text between two escape codes, where the terminal takes them. -/
def wrap (ink : Ink) (set reset text : String) : String :=
  if ink.escapes then "\x1b[" ++ set ++ "m" ++ text ++ "\x1b[" ++ reset ++ "m" else text

def bold (ink : Ink) (text : String) : String := ink.wrap "1" "22" text

def boldCyan (ink : Ink) (text : String) : String := ink.wrap "1;36" "22;0" text

def red (ink : Ink) (text : String) : String := ink.wrap "31" "0" text

def green (ink : Ink) (text : String) : String := ink.wrap "32" "0" text

def yellow (ink : Ink) (text : String) : String := ink.wrap "33" "0" text

/-- Urgent issues are red, the others yellow, and unknown ones have no colour. -/
def issue (ink : Ink) (kind : IssueKind) (text : String) : String :=
  match kind with
  | .criticalDependency => ink.red text
  | .mixedResponsibility => ink.red text
  | .highDependencyCount => ink.yellow text
  | .highComplexity => ink.yellow text
  | .other _ => text

end Ink

end ScriptSplit
