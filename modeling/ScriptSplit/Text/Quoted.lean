import ScriptSplit.Text.Digit
import ScriptSplit.Text.Printable

/-!
# Quoted texts

Messages show names between quotes, with escapes for all that could not be seen.

* `quoted`: the text of a string between quotes.
-/

namespace ScriptSplit

/-- The letter of an escape of one letter. -/
def shortEscape? (c : Char) : Option Char :=
  match c.toNat with
  | 0x07 => some 'a'
  | 0x08 => some 'b'
  | 0x09 => some 't'
  | 0x0a => some 'n'
  | 0x0b => some 'v'
  | 0x0c => some 'f'
  | 0x0d => some 'r'
  | _ => none

/-- How a character is written between quotes. -/
def quotedChar (c : Char) : List Char :=
  if c = '\x22' || c = '\x5c' then ['\x5c', c]
  else if isPrintable c then [c]
  else
    match shortEscape? c with
    | some e => ['\x5c', e]
    | none =>
      if c.toNat < 0x80 then '\x5c' :: 'x' :: lastDigits lowerDigit 2 c.toNat
      else if c.toNat < 0x10000 then '\x5c' :: 'u' :: lastDigits lowerDigit 4 c.toNat
      else '\x5c' :: 'U' :: lastDigits lowerDigit 8 c.toNat

/-- A string between quotes. -/
def quoted (s : String) : String := String.ofList ('\x22' :: s.toList.flatMap quotedChar ++ ['\x22'])

end ScriptSplit
