/-!
# White space

* `isSpace`: the characters that count as white space.
* `trimSpaces`: a text without white space at its ends.
-/

namespace ScriptSplit

/-- The white space that is trimmed from texts. -/
def isSpace (c : Char) : Bool :=
  let n := c.toNat
  (9 ≤ n && n ≤ 13) || n = 0x20 || n = 0x85 || n = 0xa0 || n = 0x1680 || (0x2000 ≤ n && n ≤ 0x200a) ||
    n = 0x2028 || n = 0x2029 || n = 0x202f || n = 0x205f || n = 0x3000

/-- Removes white space at both ends. -/
def trimSpaces (s : String) : String :=
  String.ofList (((s.toList.dropWhile isSpace).reverse.dropWhile isSpace).reverse)

end ScriptSplit
