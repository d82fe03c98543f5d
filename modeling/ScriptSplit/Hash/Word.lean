import ScriptSplit.Text.Bytes
import ScriptSplit.Text.Digit

/-!
# Words

Little-endian words and hexadecimal digests.
-/

namespace ScriptSplit.Hash

/-- The number whose bytes, least significant first, are given. -/
def littleEndian (bytes : Bytes) : Nat := bytes.foldr (fun b n => b.toNat + 256 * n) 0

/-- The bytes of a number, least significant first. -/
def toLittleEndian : (count : Nat) → Nat → Bytes
  | 0, _ => []
  | count + 1, n => UInt8.ofNat (n % 256) :: toLittleEndian count (n / 256)

/-- A list cut into pieces of a length; the last piece may be shorter. -/
def pieces {α : Type} (size : Nat) (items : List α) : List (List α) :=
  go items.length items
where
  /-- Cuts off one piece after another; each one is not empty, so the length bounds their number. -/
  go : Nat → List α → List (List α)
    | 0, _ => []
    | _, [] => []
    | fuel + 1, items => items.take size :: go fuel (items.drop size)

/-- Two hexadecimal digits for each byte. -/
def hexOfBytes (bytes : Bytes) : String :=
  String.ofList (bytes.flatMap fun b => lastDigits lowerDigit 2 b.toNat)

end ScriptSplit.Hash
