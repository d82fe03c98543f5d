import ScriptSplit.Text.Bytes

/-!
# UTF-8

Decoding of byte texts character by character. A byte that starts no well-formed sequence stands
alone and decodes to nothing.

* `Utf8.step`: the first character, if well formed, and the bytes after it.
* `Utf8.chars`: the whole text; `Utf8.isValid`, `Utf8.decode?`, `Utf8.decodeLossy` read it.
-/

namespace ScriptSplit.Utf8

/-- Continuation bytes run from 80 to BF. -/
def isTail (b : UInt8) : Bool := 0x80 ≤ b && b ≤ 0xbf

/-- The six payload bits of a continuation byte. -/
def tailBits (b : UInt8) : Nat := b.toNat % 64

/-- Byte `b` may follow the lead byte `a` of a longer sequence. Narrower ranges keep out overlong
forms, surrogates and codes beyond the last character. -/
def mayFollow (a b : UInt8) : Bool :=
  if a == 0xe0 then 0xa0 ≤ b && b ≤ 0xbf
  else if a == 0xed then 0x80 ≤ b && b ≤ 0x9f
  else if a == 0xf0 then 0x90 ≤ b && b ≤ 0xbf
  else if a == 0xf4 then 0x80 ≤ b && b ≤ 0x8f
  else isTail b

/-- Reads the character that starts with byte `a` and goes on in `t`. When no well-formed sequence
starts here the answer is `none` and only `a` is used up. -/
def step (a : UInt8) (t : Bytes) : Option Char × Bytes :=
  if a < 0x80 then (some (Char.ofNat a.toNat), t)
  else if a < 0xc2 || 0xf4 < a then (none, t)
  else if a < 0xe0 then
    match t with
    | b :: r =>
      if mayFollow a b then (some (Char.ofNat ((a.toNat - 0xc0) * 64 + tailBits b)), r) else (none, t)
    | _ => (none, t)
  else if a < 0xf0 then
    match t with
    | b :: c :: r =>
      if mayFollow a b && isTail c then
        (some (Char.ofNat (((a.toNat - 0xe0) * 64 + tailBits b) * 64 + tailBits c)), r)
      else (none, t)
    | _ => (none, t)
  else
    match t with
    | b :: c :: d :: r =>
      if mayFollow a b && isTail c && isTail d then
        (some (Char.ofNat ((((a.toNat - 0xf0) * 64 + tailBits b) * 64 + tailBits c) * 64 + tailBits d)), r)
      else (none, t)
    | _ => (none, t)

/-- Reading a character leaves no more bytes than followed its first one. -/
theorem length_step_le (a : UInt8) (t : Bytes) : (step a t).2.length ≤ t.length := by
  unfold step
  repeat' split
  all_goals simp only [List.length_cons]; omega

/-- The characters of a text; `none` stands for a byte that belongs to no well-formed sequence. -/
def chars : Bytes → List (Option Char)
  | [] => []
  | a :: t => (step a t).1 :: chars (step a t).2
termination_by t => t.length
decreasing_by
  have := length_step_le a t
  simp only [List.length_cons]
  omega

/-- The text is well-formed UTF-8. -/
def isValid (t : Bytes) : Bool := (chars t).all Option.isSome

/-- Every byte outside a well-formed sequence becomes one replacement character. -/
def decodeLossy (t : Bytes) : String :=
  String.ofList ((chars t).map fun c => c.getD (Char.ofNat 0xfffd))

/-- The string whose encoding the text is, if it is well formed. -/
def decode? (t : Bytes) : Option String :=
  if isValid t then some (decodeLossy t) else none

end ScriptSplit.Utf8
