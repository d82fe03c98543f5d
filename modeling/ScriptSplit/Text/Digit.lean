/-!
# Digits

Characters as digits in bases up to thirty-six.

* `digitValue?`: the value of a digit; `natInBase?`: the number that digits write.
* `lowerDigit`, `upperDigit`: the digit of a value; `lastDigits`: the last hexadecimal digits of a number.
-/

namespace ScriptSplit

/-- The value of a digit; letters of both cases go on after nine. -/
def digitValue? (c : Char) : Option Nat :=
  if '0' ≤ c && c ≤ '9' then some (c.toNat - 48)
  else if 'a' ≤ c && c ≤ 'z' then some (c.toNat - 87)
  else if 'A' ≤ c && c ≤ 'Z' then some (c.toNat - 55)
  else none

/-- The character is a digit in a base. -/
def isDigitIn (base : Nat) (c : Char) : Bool := (digitValue? c).any (· < base)

/-- The number that one or more digits write in a base. -/
def natInBase? (base : Nat) (cs : List Char) : Option Nat :=
  if cs.isEmpty then none
  else cs.foldlM (fun n c => do
    let d ← digitValue? c
    if d < base then some (n * base + d) else none) 0

/-- The digit of a value, letters in lower case. -/
def lowerDigit (n : Nat) : Char := if n < 10 then Char.ofNat (48 + n) else Char.ofNat (87 + n)

/-- The digit of a value, letters in upper case. -/
def upperDigit (n : Nat) : Char := if n < 10 then Char.ofNat (48 + n) else Char.ofNat (55 + n)

/-- The last hexadecimal digits of a number. -/
def lastDigits (digit : Nat → Char) : (count : Nat) → Nat → List Char
  | 0, _ => []
  | count + 1, n => lastDigits digit count (n / 16) ++ [digit (n % 16)]

end ScriptSplit
