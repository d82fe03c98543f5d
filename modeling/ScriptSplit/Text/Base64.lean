import ScriptSplit.Text.Bytes

/-!
# Bytes as letters

Three bytes are written as four letters of an alphabet of sixty-four; signs of equality fill up the last
four.

* `Base64.encode`: bytes as letters; `Base64.decode?`: letters as bytes.
-/

namespace ScriptSplit.Base64

/-- The letters, in the order of their values. -/
def alphabet : List Char := "ABCDEFGHIJKLMNOPQRSTUVWXYZabcdefghijklmnopqrstuvwxyz0123456789+/".toList

/-- The letter for the last six bits of a number. -/
def letter (n : Nat) : Char := alphabet.getD (n % 64) 'A'

/-- Bytes as letters. -/
def encode : Bytes → List Char
  | [] => []
  | [a] =>
    let n := a.toNat * 16
    [letter (n / 64), letter n, '=', '=']
  | [a, b] =>
    let n := (a.toNat * 256 + b.toNat) * 4
    [letter (n / 4096), letter (n / 64), letter n, '=']
  | a :: b :: c :: r =>
    let n := (a.toNat * 256 + b.toNat) * 256 + c.toNat
    letter (n / 262144) :: letter (n / 4096) :: letter (n / 64) :: letter n :: encode r

/-- The value of a letter. -/
def value? (c : Char) : Option Nat :=
  if 'A' ≤ c && c ≤ 'Z' then some (c.toNat - 65)
  else if 'a' ≤ c && c ≤ 'z' then some (c.toNat - 71)
  else if '0' ≤ c && c ≤ '9' then some (c.toNat + 4)
  else if c = '+' then some 62
  else if c = '/' then some 63
  else none

/-- The number that letters write. -/
def number? (cs : List Char) : Option Nat := cs.foldlM (fun n c => (value? c).map (n * 64 + ·)) 0

/-- The bytes of letters without line breaks. The bits that are left over may have any value. -/
def decodeJoined? : List Char → Option Bytes
  | [] => some []
  | [a, b, '=', '='] => do
    let n ← number? [a, b]
    some [UInt8.ofNat (n / 16)]
  | [a, b, c, '='] => do
    let n ← number? [a, b, c]
    some [UInt8.ofNat (n / 1024), UInt8.ofNat (n / 4)]
  | a :: b :: c :: d :: r => do
    let n ← number? [a, b, c, d]
    let rest ← decodeJoined? r
    some (UInt8.ofNat (n / 65536) :: UInt8.ofNat (n / 256) :: UInt8.ofNat n :: rest)
  | _ => none

/-- The bytes of letters, wherever their lines break. -/
def decode? (cs : List Char) : Option Bytes := decodeJoined? (cs.filter fun c => c ≠ '\n' && c ≠ '\r')

end ScriptSplit.Base64
