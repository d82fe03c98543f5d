import ScriptSplit.Text.Quoted
import ScriptSplit.Text.Space

/-!
# Log events

What a run tells about itself, beside its result.

* `LogEvent`: a level, a message and named values.
* `LogEvent.line`: an event as one line of text.
-/

namespace ScriptSplit

/-- How important an event is. -/
inductive LogLevel where
  | debug
  | warn
  deriving DecidableEq, Repr

/-- The label of a level. -/
def LogLevel.label : LogLevel → String
  | debug => "DEBUG"
  | warn => "WARN"

/-- Something that happened during a run. -/
structure LogEvent where
  level : LogLevel
  message : String
  fields : List (String × String)
  deriving DecidableEq, Repr

namespace LogEvent

/-- An event for those who look for details. -/
def debug (message : String) (fields : List (String × String)) : LogEvent := ⟨.debug, message, fields⟩

/-- An event that everyone should see. -/
def warn (message : String) (fields : List (String × String)) : LogEvent := ⟨.warn, message, fields⟩

/-- The character would make a value hard to read off a line. -/
def hidesValue (c : Char) : Bool :=
  if c.toNat < 0x80 then c = ' ' || c = '=' || c = '\x22' || c.toNat < 0x20
  else c.toNat = 0xfffd || isSpace c || !isPrintable c

/-- A value of a line, between quotes where it needs them. -/
def valueText (s : String) : String :=
  if s.isEmpty || s.toList.any hidesValue then quoted s else s

/-- The event as one line, with its newline. -/
def line (e : LogEvent) : String :=
  let pairs := [("level", e.level.label), ("msg", e.message)] ++ e.fields
  " ".intercalate (pairs.map fun p => p.1 ++ "=" ++ valueText p.2) ++ "\n"

/-- The events that a log at the given level shows. -/
def shown (level : LogLevel) (events : List LogEvent) : List LogEvent :=
  match level with
  | .debug => events
  | .warn => events.filter (·.level = .warn)

end LogEvent

end ScriptSplit
