import ScriptSplit.Format.Json.Reader
import ScriptSplit.Format.Json.Writer

/-!
# JSON texts as they stand

Some values are passed on as texts. All that gives a JSON text its structure is ASCII, so the reader
for characters works on bytes as well, one character a byte.

* `Json.compactBytes?`: a text without blanks between its tokens.
* `Json.rawField?`: the text of a field of an object.
-/

namespace ScriptSplit.Json

/-- One character for each byte. -/
def byteChars (t : Bytes) : List Char := t.map fun b => Char.ofNat b.toNat

/-- The bytes of such characters. -/
def charBytes (cs : List Char) : Bytes := cs.map fun c => UInt8.ofNat c.toNat

/-- Removes blanks outside of strings and escapes what is not safe inside a web page. The flags say
whether a string is open, and whether a backslash came last in it. -/
def compactFrom (inString escaped : Bool) : Bytes → Bytes
  | [] => []
  | 0xe2 :: 0x80 :: 0xa8 :: r => Bytes.ofString "\\u2028" ++ compactFrom inString false r
  | 0xe2 :: 0x80 :: 0xa9 :: r => Bytes.ofString "\\u2029" ++ compactFrom inString false r
  | b :: r =>
    if !inString then
      if b == 0x20 || b == 0x09 || b == 0x0a || b == 0x0d then compactFrom false false r
      else b :: compactFrom (b == 0x22) false r
    else if b == 0x3c then Bytes.ofString "\\u003c" ++ compactFrom true false r
    else if b == 0x3e then Bytes.ofString "\\u003e" ++ compactFrom true false r
    else if b == 0x26 then Bytes.ofString "\\u0026" ++ compactFrom true false r
    else b :: compactFrom (escaped || b != 0x22) (!escaped && b == 0x5c) r

/-- The text without blanks between its tokens, if it holds exactly one value. -/
def compactBytes? (t : Bytes) : Option Bytes :=
  (readChars? (byteChars t)).map fun _ => compactFrom false false t

/-- The fields of an object after its brace, with the texts of their values. -/
def rawFields? : (fuel : Nat) → List Char → Option (List (List Char × List Char))
  | 0, _ => none
  | fuel + 1, cs => do
    let cs := skipBlanks cs
    let (_, r) ← readFront? cs
    let key := cs.take (cs.length - r.length)
    match skipBlanks r with
    | ':' :: r => do
      let r := skipBlanks r
      let (_, rest) ← readFront? r
      let value := r.take (r.length - rest.length)
      match skipBlanks rest with
      | ',' :: rest => do
        let more ← rawFields? fuel rest
        some ((key, value) :: more)
      | _ => some [(key, value)]
    | _ => none

/-- The text of the last field of an object whose name passes a test. -/
def rawField? (isName : String → Bool) (t : Bytes) : Option Bytes :=
  match skipBlanks (byteChars t) with
  | '\x7b' :: r => do
    let fields ← rawFields? (r.length + 1) r
    let named := fun (p : List Char × List Char) =>
      match read? (charBytes p.1) with
      | some (.string s) => isName s
      | _ => false
    let p ← fields.reverse.find? named
    some (charBytes p.2)
  | _ => none

end ScriptSplit.Json
