import ScriptSplit.Scan.Glob.Assembly

/-!
# Globs

Patterns for slash-separated paths. A star and a question mark stay inside a segment, two stars cross
segments, and braces list alternatives.

* `Glob.parse`: a glob, or why the pattern has no meaning.
* `Glob.accepts`: a path matches.
-/

namespace ScriptSplit

/-- A pattern for paths that was read. -/
structure Glob where
  matcher : Glob.Matcher

namespace Glob

/-- Reads a pattern. A term is nested at most four times as deep as its pattern is long: a brace opens
two levels, and factoring one out adds two more. -/
def parse (pattern : String) : Except GlobError Glob :=
  (pieces? pattern).map fun ps => ⟨(Term.ofPieces ps).matcherIn (4 * (pattern.length + 2))⟩

/-- A path matches, unless a part of the glob asks for text past its end. -/
def accepts (glob : Glob) (path : String) : Except GlobFault Bool :=
  glob.matcher.accepts (Bytes.ofString path)

end Glob

end ScriptSplit
