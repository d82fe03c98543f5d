import ScriptSplit.Format.Json.Value
import ScriptSplit.Text.Digit
import ScriptSplit.Text.Utf8

/-!
# Reading JSON

A reader by recursive descent. Bytes outside well-formed UTF-8 and lone surrogates read as the
replacement character. Values that are too deep are refused.

* `Json.readFront?`: the first value of a text and the text after it.
* `Json.read?`: a text that holds exactly one value.
-/

namespace ScriptSplit.Json

/-- Space, tab, newline and carriage return may stand between tokens. -/
def isBlank (c : Char) : Bool := c = ' ' || c = '\t' || c = '\n' || c = '\r'

/-- The value of four hexadecimal digits. -/
def hexUnit? (a b c d : Char) : Option Nat := natInBase? 16 [a, b, c, d]

/-- A piece of a string literal: a character, or a UTF-16 unit given by its number. -/
inductive Piece where
  | plain (c : Char)
  | unit (n : Nat)

/-- The character of an escape of one letter. -/
def escapedChar? (c : Char) : Option Char :=
  if c = '\x22' || c = '\x5c' || c = '/' then some c
  else if c = 'b' then some '\x08'
  else if c = 'f' then some '\x0c'
  else if c = 'n' then some '\n'
  else if c = 'r' then some '\r'
  else if c = 't' then some '\t'
  else none

/-- The pieces of a string literal after its opening quote, and the text after its closing one. -/
def pieces? : List Char → Option (List Piece × List Char)
  | [] => none
  | '\x22' :: r => some ([], r)
  | '\x5c' :: 'u' :: a :: b :: c :: d :: r => do
    let n ← hexUnit? a b c d
    let (ps, rest) ← pieces? r
    pure (.unit n :: ps, rest)
  | '\x5c' :: c :: r => do
    let e ← escapedChar? c
    let (ps, rest) ← pieces? r
    pure (.plain e :: ps, rest)
  | c :: r =>
    if c.toNat < 0x20 || c = '\x5c' then none
    else do
      let (ps, rest) ← pieces? r
      pure (.plain c :: ps, rest)

/-- Joins surrogate pairs; a unit that belongs to no pair becomes the replacement character. -/
def joinPieces : List Piece → List Char
  | [] => []
  | .plain c :: r => c :: joinPieces r
  | .unit h :: .unit l :: r =>
    if 0xd800 ≤ h && h < 0xdc00 && 0xdc00 ≤ l && l < 0xe000 then
      Char.ofNat (0x10000 + (h - 0xd800) * 1024 + (l - 0xdc00)) :: joinPieces r
    else (if 0xd800 ≤ h && h < 0xe000 then Char.ofNat 0xfffd else Char.ofNat h) :: joinPieces (.unit l :: r)
  | .unit n :: r => (if 0xd800 ≤ n && n < 0xe000 then Char.ofNat 0xfffd else Char.ofNat n) :: joinPieces r

/-- The string of a literal after its opening quote, and the text after its closing one. -/
def stringTail? (cs : List Char) : Option (String × List Char) :=
  (pieces? cs).map fun (ps, rest) => (String.ofList (joinPieces ps), rest)

/-- A run of one or more digits. -/
def digits1? (cs : List Char) : Option (List Char × List Char) :=
  match cs.takeWhile Char.isDigit with
  | [] => none
  | ds => some (ds, cs.dropWhile Char.isDigit)

/-- An optional minus sign. -/
def signPart : List Char → List Char × List Char
  | '-' :: r => (['-'], r)
  | r => ([], r)

/-- The whole part of a number, without a leading zero. -/
def wholePart? : List Char → Option (List Char × List Char)
  | '0' :: r => some (['0'], r)
  | r => digits1? r

/-- An optional fraction. -/
def fractionPart? : List Char → Option (List Char × List Char)
  | '.' :: r => (digits1? r).map fun (ds, r) => ('.' :: ds, r)
  | r => some ([], r)

/-- The sign and the digits of an exponent. -/
def exponentDigits? (e : Char) : List Char → Option (List Char × List Char)
  | '+' :: r => (digits1? r).map fun (ds, r) => (e :: '+' :: ds, r)
  | '-' :: r => (digits1? r).map fun (ds, r) => (e :: '-' :: ds, r)
  | r => (digits1? r).map fun (ds, r) => (e :: ds, r)

/-- An optional exponent. -/
def exponentPart? : List Char → Option (List Char × List Char)
  | e :: r => if e = 'e' || e = 'E' then exponentDigits? e r else some ([], e :: r)
  | [] => some ([], [])

/-- The literal of a number: an integer part without a leading zero, then an optional fraction and
an optional exponent. -/
def number? (cs : List Char) : Option (String × List Char) := do
  let (sign, r) := signPart cs
  let (whole, r) ← wholePart? r
  let (fraction, r) ← fractionPart? r
  let (exponent, r) ← exponentPart? r
  pure (String.ofList (sign ++ whole ++ fraction ++ exponent), r)

/-- The text after a given word. -/
def afterWord? : List Char → List Char → Option (List Char)
  | [], cs => some cs
  | _ :: _, [] => none
  | w :: ws, c :: cs => if w = c then afterWord? ws cs else none

/-- Blanks skipped. -/
def skipBlanks (cs : List Char) : List Char := cs.dropWhile isBlank

mutual

/-- A value at the front of a text. -/
def value? : (fuel : Nat) → List Char → Option (Json × List Char)
  | 0, _ => none
  | fuel + 1, cs =>
    match skipBlanks cs with
    | [] => none
    | '\x22' :: r => (stringTail? r).map fun (s, rest) => (.string s, rest)
    | '[' :: r =>
      match skipBlanks r with
      | ']' :: rest => some (.array [], rest)
      | r => (items? fuel r).map fun (xs, rest) => (.array xs, rest)
    | '\x7b' :: r =>
      match skipBlanks r with
      | '\x7d' :: rest => some (.object [], rest)
      | r => (fields? fuel r).map fun (fs, rest) => (.object fs, rest)
    | 't' :: r => (afterWord? ['r', 'u', 'e'] r).map fun rest => (.bool true, rest)
    | 'f' :: r => (afterWord? ['a', 'l', 's', 'e'] r).map fun rest => (.bool false, rest)
    | 'n' :: r => (afterWord? ['u', 'l', 'l'] r).map fun rest => (.null, rest)
    | c :: r => (number? (c :: r)).map fun (n, rest) => (.number n, rest)

/-- The items of an array and its closing bracket. -/
def items? : (fuel : Nat) → List Char → Option (List Json × List Char)
  | 0, _ => none
  | fuel + 1, cs => do
    let (x, r) ← value? fuel cs
    match skipBlanks r with
    | ',' :: r => do
      let (xs, rest) ← items? fuel r
      pure (x :: xs, rest)
    | ']' :: rest => some ([x], rest)
    | _ => none

/-- The fields of an object and its closing brace. -/
def fields? : (fuel : Nat) → List Char → Option (List (String × Json) × List Char)
  | 0, _ => none
  | fuel + 1, cs =>
    match skipBlanks cs with
    | '\x22' :: r => do
      let (key, r) ← stringTail? r
      match skipBlanks r with
      | ':' :: r => do
        let (x, r) ← value? fuel r
        match skipBlanks r with
        | ',' :: r => do
          let (fs, rest) ← fields? fuel r
          pure ((key, x) :: fs, rest)
        | '\x7d' :: rest => some ([(key, x)], rest)
        | _ => none
      | _ => none
    | _ => none

end

/-- Arrays and objects may stand in each other so deep. -/
def maxDepth : Nat := 10000

/-- The first value of a text and what follows it. Every step uses up a character, so twice the
length is fuel enough. -/
def readFront? (cs : List Char) : Option (Json × List Char) :=
  (value? (2 * cs.length + 2) cs).filter fun p => p.1.depth ≤ maxDepth

/-- The value of a text that holds one value and blanks only. -/
def readChars? (cs : List Char) : Option Json :=
  match readFront? cs with
  | some (x, rest) => if (skipBlanks rest).isEmpty then some x else none
  | none => none

/-- The value of a byte text that holds one value and blanks only. -/
def read? (t : Bytes) : Option Json := readChars? (Utf8.decodeLossy t).toList

end ScriptSplit.Json
