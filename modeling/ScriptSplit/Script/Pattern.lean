import ScriptSplit.Text.Bytes

/-!
# Patterns over script text

The declaration forms are recognised by small readers that take a front part off a text. A reader
gives the bytes after the part that it took, or `none`. Where a part may repeat it takes as much as
it can, which is right because the class of bytes it takes and the byte that must follow exclude
each other.

* `blanks`, `blanks1`, `word?`, `list?`: the parts that the forms share.
* `occurrences`: the leftmost matches of a pattern that do not overlap, with their offsets.
-/

namespace ScriptSplit.Script

/-- Skips blanks. -/
def blanks (t : Bytes) : Bytes := t.dropWhile isBlankByte

/-- Skips blanks, of which there is at least one. -/
def blanks1 : Bytes → Option Bytes
  | [] => none
  | b :: r => if isBlankByte b then some (blanks r) else none

/-- A maximal run of word bytes, which is not empty. -/
def word? (t : Bytes) : Option (Bytes × Bytes) :=
  match t.takeWhile isWordByte with
  | [] => none
  | w => some (w, t.dropWhile isWordByte)

/-- The given byte. -/
def byte? (b : UInt8) : Bytes → Option Bytes
  | [] => none
  | c :: r => if c == b then some r else none

/-- The given ASCII word. -/
def keyword? (w : String) (t : Bytes) : Option Bytes := Bytes.after? (Bytes.ofString w) t

/-- The opening parenthesis. -/
def openParen : UInt8 := 0x28

/-- The closing parenthesis. -/
def closeParen : UInt8 := 0x29

/-- The opening brace. -/
def openBrace : UInt8 := 0x7b

/-- The closing brace. -/
def closeBrace : UInt8 := 0x7d

/-- The equals sign. -/
def equalsSign : UInt8 := 0x3d

/-- A parameter list: an opening parenthesis, and all up to the first closing one. -/
def parameters? (t : Bytes) : Option Bytes := do
  let r ← byte? openParen t
  byte? closeParen (r.dropWhile (· != closeParen))

/-- One of the words that start a binding. -/
def binder? (t : Bytes) : Option Bytes :=
  keyword? "const" t <|> keyword? "let" t <|> keyword? "var" t

/-- The word `async` and blanks, or nothing. -/
def async (t : Bytes) : Bytes :=
  match keyword? "async" t with
  | some r => blanks r
  | none => t

/-- A pattern looks at the byte before a place and the text from there on. A match gives a value and
the text after the match. -/
abbrev Pattern (α : Type) := Option UInt8 → Bytes → Option (α × Bytes)

/-- Walks along a text: `skip` bytes belong to the last match, and `before` is the byte to the left
of offset `at`. -/
def occurrencesFrom {α : Type} (p : Pattern α) :
    (before : Option UInt8) → (skip offset : Nat) → Bytes → List (Nat × α)
  | _, _, _, [] => []
  | _, skip + 1, offset, b :: r => occurrencesFrom p (some b) skip (offset + 1) r
  | before, 0, offset, b :: r =>
    match p before (b :: r) with
    | some (a, rest) => (offset, a) :: occurrencesFrom p (some b) (r.length - rest.length) (offset + 1) r
    | none => occurrencesFrom p (some b) 0 (offset + 1) r

/-- The matches of a pattern from left to right, each starting at or after the end of the one before
it, with the offsets at which they start. The pattern matches no empty text. -/
def occurrences {α : Type} (p : Pattern α) (t : Bytes) : List (Nat × α) :=
  occurrencesFrom p none 0 0 t

/-- The offset of the first place where a test holds, and the text from there on. The place after
the last byte counts too. -/
def firstPlaceFrom (test : Option UInt8 → Bytes → Bool) :
    (before : Option UInt8) → (offset : Nat) → Bytes → Option Nat
  | before, offset, [] => if test before [] then some offset else none
  | before, offset, b :: r =>
    if test before (b :: r) then some offset else firstPlaceFrom test (some b) (offset + 1) r

/-- The offset of the first place in a text where a test holds. -/
def firstPlace (test : Option UInt8 → Bytes → Bool) (t : Bytes) : Option Nat :=
  firstPlaceFrom test none 0 t

/-- A word boundary lies between the byte before a place and the text after it. -/
def atBoundary (before : Option UInt8) (t : Bytes) : Bool := isWordBoundary before t.head?

end ScriptSplit.Script
