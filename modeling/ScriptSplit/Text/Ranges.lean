/-!
# Ranges of characters

* `inRanges`: membership in a class of characters that is given by its ranges.
-/

namespace ScriptSplit

/-- A code lies in one of the ranges, both ends included. -/
def inRanges (ranges : List (Nat × Nat)) (code : Nat) : Bool :=
  ranges.any fun r => r.1 ≤ code && code ≤ r.2

end ScriptSplit
