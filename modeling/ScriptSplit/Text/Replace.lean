/-!
# Replacing text

* `replaceChars`: a list of characters with each occurrence of another replaced.
* `replaceAll`: the same on strings.
-/

namespace ScriptSplit

/-- Replaces the occurrences of `old`, from the left and without overlap. The first `skip` characters
belong to an occurrence that was replaced already. An empty `old` occurs nowhere. -/
def replaceChars (old new : List Char) : (skip : Nat) → List Char → List Char
  | _, [] => []
  | skip + 1, _ :: r => replaceChars old new skip r
  | 0, c :: r =>
    if !old.isEmpty && old.isPrefixOf (c :: r) then new ++ replaceChars old new (old.length - 1) r
    else c :: replaceChars old new 0 r

/-- The text with each occurrence of `old` replaced by `new`. -/
def replaceAll (s old new : String) : String :=
  String.ofList (replaceChars old.toList new.toList 0 s.toList)

end ScriptSplit
