/-!
# Characters of YAML

* `Yaml.isBreak`, `Yaml.isBlankChar`: what ends a line and what separates words.
* `Yaml.isPlainChar`, `Yaml.isReadable`: what is written without an escape and what may be read.
-/

namespace ScriptSplit.Yaml

/-- Newline, carriage return, next line and the two separators break a line. -/
def isBreak (c : Char) : Bool :=
  c = '\n' || c = '\r' || c.toNat = 0x85 || c.toNat = 0x2028 || c.toNat = 0x2029

/-- Space and tab. -/
def isBlankChar (c : Char) : Bool := c = ' ' || c = '\t'

/-- Characters that a document can show without an escape. -/
def isPlainChar (c : Char) : Bool :=
  let n := c.toNat
  n = 0x0a || (0x20 ≤ n && n ≤ 0x7e) || (0xa0 ≤ n && n ≤ 0xd7ff) ||
    (0xe000 ≤ n && n ≤ 0xfffd && n ≠ 0xfeff)

/-- Characters that a reader accepts unescaped. -/
def isReadable (c : Char) : Bool :=
  let n := c.toNat
  n = 0x09 || n = 0x0a || n = 0x0d || (0x20 ≤ n && n ≤ 0x7e) || n = 0x85 || (0xa0 ≤ n && n ≤ 0xd7ff) ||
    (0xe000 ≤ n && n ≤ 0xfffd) || 0x10000 ≤ n

/-- Letters, digits, the underscore and the hyphen make up names. -/
def isNameChar (c : Char) : Bool := c.isAlphanum || c = '_' || c = '-'

/-- The end of the text, a blank or a line break comes next. -/
def blankOrEnd : List Char → Bool
  | [] => true
  | c :: _ => isBlankChar c || isBreak c

/-- The end of the text or a line break comes next. -/
def breakOrEnd : List Char → Bool
  | [] => true
  | c :: _ => isBreak c

/-- Three hyphens or three points that stand alone. -/
def isDocumentMark : List Char → Bool
  | '-' :: '-' :: '-' :: r => blankOrEnd r
  | '.' :: '.' :: '.' :: r => blankOrEnd r
  | _ => false

end ScriptSplit.Yaml
