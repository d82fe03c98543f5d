import ScriptSplit.Text.Dict
import ScriptSplit.Script.Pattern

/-!
# Call sites

A name is in call position where an opening parenthesis follows it after optional blanks.

* `callForm`: the pattern of a call.
* `callSites`: the names in call position, sorted.
-/

namespace ScriptSplit.Script

/-- An identifier followed by an opening parenthesis. -/
def callForm : Pattern Bytes := fun _ t => do
  let (name, r) ← word? t
  let r ← byte? openParen (blanks r)
  pure (name, r)

/-- The names in call position in a body, each once, in increasing order. -/
def callSites (body : Bytes) : List String :=
  sortedSet ((occurrences callForm body).map fun p => Bytes.ascii p.2)

end ScriptSplit.Script
