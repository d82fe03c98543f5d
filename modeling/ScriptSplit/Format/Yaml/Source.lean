import ScriptSplit.Format.Yaml.Letter
import ScriptSplit.Text.Utf8

/-!
# Texts of YAML

A text is read in blocks of 512 bytes. It is written in UTF-8, or in UTF-16 if it starts with the mark
for the order of its bytes. A byte that cannot be read is noticed with the block that holds it.

* `Yaml.Source`: the characters of a text and the blocks that they come in.
* `Yaml.Source.ofBytes`: the text of bytes.
-/

namespace ScriptSplit.Yaml

/-- The characters of a text and the blocks that they come in. -/
structure Source where
  chars : List Char
  /-- The numbers of characters of the blocks. -/
  blocks : List Nat
  /-- After the last block comes the end, and nothing that cannot be read. -/
  isSound : Bool
  deriving DecidableEq, Repr

/-- What stands at the front of the bytes at hand. -/
inductive Front where
  | char (c : Char) (size : Nat)
  /-- The bytes at hand end within a character. -/
  | incomplete
  | unreadable
  deriving DecidableEq, Repr

/-- A character that may be read. -/
def Front.ofChar (c : Char) (size : Nat) : Front := if isReadable c then .char c size else .unreadable

/-- The number of bytes that the first one announces. -/
def announcedSize? (a : UInt8) : Option Nat :=
  if a < 0x80 then some 1
  else if a < 0xc0 then none
  else if a < 0xe0 then some 2
  else if a < 0xf0 then some 3
  else if a < 0xf8 then some 4
  else none

/-- The front of bytes in UTF-8. -/
def frontUtf8 (atHand : Nat) : Bytes → Front
  | [] => .incomplete
  | a :: r =>
    match announcedSize? a with
    | none => .unreadable
    | some size =>
      if atHand < size then .incomplete
      else
        match Utf8.step a r with
        | (some c, _) => .ofChar c size
        | (none, _) => .unreadable

/-- A unit of sixteen bits. -/
def unit16 (littleEnd : Bool) (a b : UInt8) : Nat :=
  if littleEnd then a.toNat + 256 * b.toNat else 256 * a.toNat + b.toNat

/-- The front of bytes in UTF-16. -/
def frontUtf16 (littleEnd : Bool) (atHand : Nat) : Bytes → Front
  | a :: b :: r =>
    if atHand < 2 then .incomplete
    else
      let n := unit16 littleEnd a b
      if 0xdc00 ≤ n && n ≤ 0xdfff then .unreadable
      else if 0xd800 ≤ n && n ≤ 0xdbff then
        match r with
        | c :: d :: _ =>
          if atHand < 4 then .incomplete
          else
            let m := unit16 littleEnd c d
            if 0xdc00 ≤ m && m ≤ 0xdfff then
              .ofChar (Char.ofNat (0x10000 + (n - 0xd800) * 1024 + (m - 0xdc00))) 4
            else .unreadable
        | _ => .incomplete
      else .ofChar (Char.ofNat n) 2
  | _ => .incomplete

/-- The characters of the bytes at hand, the bytes after them, and whether all could be read. -/
def blockChars (front : Nat → Bytes → Front) : (atHand : Nat) → Bytes → List Char × Bytes × Bool
  | 0, t => ([], t, true)
  | n + 1, t =>
    match front (n + 1) t with
    | .incomplete => ([], t, true)
    | .unreadable => ([], t, false)
    | .char c size =>
      let (cs, rest, readable) := blockChars front (n + 1 - max size 1) (t.drop size)
      (c :: cs, rest, readable)
termination_by n => n
decreasing_by omega

/-- The number of bytes of a block. -/
def blockSize : Nat := 512

/-- The text of bytes, of which `atHand` make up the first block. Each block leaves fewer bytes, so
their number bounds the rounds. -/
def Source.ofBlocks (front : Nat → Bytes → Front) : (fuel atHand : Nat) → Bytes → Source
  | 0, _, _ => ⟨[], [], false⟩
  | fuel + 1, atHand, t =>
    let (cs, rest, readable) := blockChars front (min atHand t.length) t
    if !readable then ⟨[], [], false⟩
    else if t.length ≤ atHand then ⟨cs, [cs.length], rest.isEmpty⟩
    else
      let more := Source.ofBlocks front fuel blockSize rest
      ⟨cs ++ more.chars, cs.length :: more.blocks, more.isSound⟩

/-- The text of bytes. -/
def Source.ofBytes (t : Bytes) : Source :=
  let fuel := t.length + 1
  match t with
  | 0xff :: 0xfe :: r => Source.ofBlocks (frontUtf16 true) fuel (blockSize - 2) r
  | 0xfe :: 0xff :: r => Source.ofBlocks (frontUtf16 false) fuel (blockSize - 2) r
  | 0xef :: 0xbb :: 0xbf :: r => Source.ofBlocks frontUtf8 fuel (blockSize - 3) r
  | t => Source.ofBlocks frontUtf8 fuel blockSize t

end ScriptSplit.Yaml
