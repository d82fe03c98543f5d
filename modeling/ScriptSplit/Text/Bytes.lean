/-!
# Byte texts

Source texts are sequences of bytes: a file need not be valid UTF-8, and every offset of a report
counts bytes.

* `Bytes`: a text; `Bytes.ofString`, `Bytes.ascii` lead to and from strings.
* `isWordByte`, `isBlankByte`: the two byte classes of the declaration patterns.
* `Bytes.after?`: what follows a given front; `Bytes.contains`: occurrence anywhere.
-/

namespace ScriptSplit

/-- The bytes of a text, in order. -/
abbrev Bytes := List UInt8

/-- Letters, digits and the underscore make up identifiers. -/
def isWordByte (b : UInt8) : Bool :=
  b == 0x5f || (0x30 ≤ b && b ≤ 0x39) || (0x61 ≤ b && b ≤ 0x7a) || (0x41 ≤ b && b ≤ 0x5a)

/-- Tab, newline, form feed, carriage return and space separate tokens. -/
def isBlankByte (b : UInt8) : Bool :=
  b == 0x20 || b == 0x0a || b == 0x09 || b == 0x0d || b == 0x0c

/-- The newline byte ends a line. -/
def newlineByte : UInt8 := 0x0a

namespace Bytes

/-- The UTF-8 encoding of a string. -/
def ofString (s : String) : Bytes := s.toUTF8.data.toList

/-- The string with one character for each byte; meant for runs of ASCII bytes. -/
def ascii (t : Bytes) : String := String.ofList (t.map fun b => Char.ofNat b.toNat)

/-- What follows `w` when the text starts with `w`. -/
def after? : (w : Bytes) → (t : Bytes) → Option Bytes
  | [], t => some t
  | _ :: _, [] => none
  | a :: w, b :: t => if a == b then after? w t else none

/-- The text starts with `w`. -/
def startsWith (t w : Bytes) : Bool := (after? w t).isSome

/-- The text has `w` somewhere; the empty text occurs everywhere. -/
def contains (t w : Bytes) : Bool :=
  match t with
  | [] => w.isEmpty
  | b :: r => startsWith (b :: r) w || contains r w

end Bytes

/-- A word boundary lies between two neighbours exactly one of which is a word byte. -/
def isWordBoundary (before after : Option UInt8) : Bool :=
  before.any isWordByte != after.any isWordByte

end ScriptSplit
