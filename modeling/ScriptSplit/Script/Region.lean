import ScriptSplit.Script.Pattern

/-!
# Braced regions

A region runs from an opening brace to the brace that closes it. Braces inside strings do not
count; comments and template interpolation get no special treatment.

* `unquoted`: the bytes outside strings, with their offsets.
* `region`: the first region at or after an offset, or why there is none.
-/

namespace ScriptSplit.Script

/-- The three bytes that delimit strings. -/
def isQuote (b : UInt8) : Bool := b == 0x22 || b == 0x27 || b == 0x60

/-- The backslash keeps the byte after it from closing a string. -/
def backslash : UInt8 := 0x5c

/-- The bytes outside strings with their offsets, delimiters left out. `quote` is the delimiter of
the string that is open, `before` the byte to the left. A string ends at the next byte equal to its
delimiter that has no backslash directly before it. -/
def unquotedFrom : (quote : Option UInt8) → (before : UInt8) → (offset : Nat) → Bytes → List (Nat × UInt8)
  | _, _, _, [] => []
  | some q, before, offset, b :: r =>
    unquotedFrom (if b == q && before != backslash then none else some q) b (offset + 1) r
  | none, _, offset, b :: r =>
    if isQuote b then unquotedFrom (some b) b (offset + 1) r
    else (offset, b) :: unquotedFrom none b (offset + 1) r

/-- The bytes of a text from `start` on that lie outside strings, with their offsets. No string is
open at `start`. -/
def unquoted (t : Bytes) (start : Nat) : List (Nat × UInt8) :=
  unquotedFrom none 0 start (t.drop start)

/-- The offset of the brace that brings the depth back to zero. -/
def closingBrace? : (depth : Nat) → List (Nat × UInt8) → Option Nat
  | _, [] => none
  | depth, (i, b) :: rest =>
    if b == openBrace then closingBrace? (depth + 1) rest
    else if b == closeBrace then
      if depth ≤ 1 then some i else closingBrace? (depth - 1) rest
    else closingBrace? depth rest

/-- Why there is no region. -/
inductive RegionError where
  /-- No opening brace outside strings follows. -/
  | noOpening
  /-- The text ends inside the region. -/
  | unterminated
  deriving DecidableEq, Repr

/-- The offsets of the two braces of a region. -/
structure Region where
  first : Nat
  last : Nat
  deriving DecidableEq, Repr

/-- The text of a region error. -/
def RegionError.message : RegionError → String
  | .noOpening => "no opening brace"
  | .unterminated => "unterminated region"

/-- The region opened by the first unquoted brace at or after `start`. -/
def region (t : Bytes) (start : Nat) : Except RegionError Region :=
  match (unquoted t start).dropWhile (fun p => p.2 != openBrace) with
  | [] => .error .noOpening
  | (i, _) :: rest =>
    match closingBrace? 1 rest with
    | some j => .ok ⟨i, j⟩
    | none => .error .unterminated

/-- The offset of the brace that closes the first region at or after `start`; a negative `start`
means the beginning of the text. -/
def findRegionEnd (t : Bytes) (start : Int) : Except RegionError Nat :=
  (region t start.toNat).map Region.last

end ScriptSplit.Script
