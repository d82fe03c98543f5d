import ScriptSplit.Format.Datum
import ScriptSplit.Time.Moment
import ScriptSplit.Number.Word64
import ScriptSplit.Text.Digit

/-!
# Scalars of TOML

Each reader takes the front of a text and gives the text after it.

* `Toml.basicString?`, `Toml.literalString?`: the two kinds of strings.
* `Toml.number?`: integers, also in other bases, and decimal fractions.
* `Toml.moment?`: dates and times.
* `Toml.scalar?`: any of these.
-/

namespace ScriptSplit.Toml

/-- Spaces and tabs. -/
def isBlank (c : Char) : Bool := c = ' ' || c = '\t'

/-- Line ends and blanks. -/
def isBlankOrBreak (c : Char) : Bool := isBlank c || c = '\n' || c = '\r'

/-- The text after a given front. -/
def after? : (front cs : List Char) → Option (List Char)
  | [], cs => some cs
  | _ :: _, [] => none
  | f :: front, c :: cs => if f = c then after? front cs else none

/-- The number of hexadecimal digits. -/
def hex? (ds : List Char) : Option Nat := natInBase? 16 ds

/-- The character of a code; codes that no character has stand for the replacement character. -/
def charOf (n : Nat) : Char := if n.isValidChar then Char.ofNat n else Char.ofNat 0xfffd

/-- The character of an escape of one letter. -/
def escaped? (c : Char) : Option Char :=
  if c = '\x22' || c = '\x5c' || c = '/' then some c
  else if c = 'n' then some '\n'
  else if c = 'b' then some '\x08'
  else if c = 'f' then some '\x0c'
  else if c = 't' then some '\t'
  else if c = 'r' then some '\r'
  else none

/-- Drops a line end at the front. -/
def dropBreak : List Char → List Char
  | '\r' :: '\n' :: r => r
  | '\n' :: r => r
  | r => r

/-- The content of a string with escapes up to its terminator, and the text after that. A backslash
before white space takes away all white space that follows, which `skipping` remembers. -/
def basicChars? (terminator : List Char) (breaks : Bool) (skipping : Bool) :
    List Char → Option (List Char × List Char)
  | [] => none
  | c :: r =>
    if skipping && isBlankOrBreak c then basicChars? terminator breaks true r
    else
      match after? terminator (c :: r) with
      | some rest => some ([], rest)
      | none =>
        if c = '\x5c' then
          match r with
          | 'u' :: a :: b :: c :: d :: r => do
            let n ← hex? [a, b, c, d]
            let (cs, rest) ← basicChars? terminator breaks false r
            some (charOf n :: cs, rest)
          | 'U' :: a :: b :: c :: d :: e :: f :: g :: h :: r => do
            let n ← hex? [a, b, c, d, e, f, g, h]
            let (cs, rest) ← basicChars? terminator breaks false r
            some (charOf n :: cs, rest)
          | e :: r =>
            if isBlankOrBreak e then basicChars? terminator breaks true r
            else do
              let x ← escaped? e
              let (cs, rest) ← basicChars? terminator breaks false r
              some (x :: cs, rest)
          | [] => none
        else if c.toNat < 0x20 && c ≠ '\t' && !(breaks && (c = '\n' || c = '\r')) then none
        else do
          let (cs, rest) ← basicChars? terminator breaks false r
          some (c :: cs, rest)

/-- The content of a string without escapes up to its terminator, and the text after that. -/
def literalChars? (terminator : List Char) : List Char → Option (List Char × List Char)
  | [] => none
  | c :: r =>
    match after? terminator (c :: r) with
    | some rest => some ([], rest)
    | none => do
      let (cs, rest) ← literalChars? terminator r
      some (c :: cs, rest)

/-- A string with escapes after its first quote; three quotes open one over several lines. -/
def basicString? : List Char → Option (List Char × List Char)
  | '\x22' :: '\x22' :: r => basicChars? ['\x22', '\x22', '\x22'] true false (dropBreak r)
  | r => basicChars? ['\x22'] false false r

/-- A string without escapes after its first quote; three quotes open one over several lines. -/
def literalString? : List Char → Option (List Char × List Char)
  | '\x27' :: '\x27' :: r => literalChars? ['\x27', '\x27', '\x27'] (dropBreak r)
  | r => literalChars? ['\x27'] r

/-! ## Numbers -/

/-- The characters of a decimal number: they, whether it has a fraction or an exponent, and the text
after them. -/
def numberChars? (point exponent digit : Bool) : List Char → Option (List Char × Bool × List Char)
  | [] => if digit then some ([], point || exponent, []) else none
  | c :: r =>
    if c = '.' then
      if point || !digit || !r.head?.any Char.isDigit then none
      else (numberChars? true exponent digit r).map fun (cs, x) => (c :: cs, x)
    else if c = 'e' || c = 'E' then
      match r with
      | s :: r =>
        if s = '+' || s = '-' then
          (numberChars? point true digit r).map fun (cs, x) => (c :: s :: cs, x)
        else (numberChars? point true digit (s :: r)).map fun (cs, x) => (c :: cs, x)
      | [] => if digit then some ([c], true, []) else none
    else if c.isDigit then (numberChars? point exponent true r).map fun (cs, x) => (c :: cs, x)
    else if c = '_' then (numberChars? point exponent digit r).map fun (cs, x) => (c :: cs, x)
    else if digit then some ([], point || exponent, c :: r)
    else none

/-- Every underscore has a digit before it and none ends the number. -/
def underscoresOk (isDigit : Char → Bool) : (before : Bool) → List Char → Bool
  | _, [] => true
  | before, '_' :: r => before && !r.isEmpty && underscoresOk isDigit false r
  | _, c :: r => underscoresOk isDigit (isDigit c) r

/-- The digits of a number without the underscores that group them. -/
def withoutUnderscores (cs : List Char) : List Char := cs.filter (· ≠ '_')

/-- An integer in 64 bits; the upper half of the unsigned ones has no sign. -/
def inRange? (signed : Bool) (n : Int) : Option Datum :=
  if Word64.fits n then some (.int n)
  else if !signed && Word64.fitsUnsigned n then some (.int n)
  else none

/-- A decimal integer. Three or more characters must not start with a zero. -/
def decimalInt? (cs : List Char) : Option Datum := do
  let plain := withoutUnderscores cs
  guard (underscoresOk Char.isDigit false cs)
  guard !(3 ≤ plain.length && plain.head? == some '0')
  let (negative, ds) := Decimal.sign plain
  let n ← natInBase? 10 ds
  inRange? (ds.length ≠ plain.length) (if negative then -(n : Int) else n)

/-- A decimal fraction, or a number with an exponent. -/
def real? (cs : List Char) : Option Datum := do
  guard (underscoresOk Char.isDigit false cs)
  let d ← Decimal.ofChars? (withoutUnderscores cs)
  if d.overflows then none else some (.real d)

/-- An integer in another base after the mark of the base. -/
def basedInt? (base : Nat) (mark : Char) (cs : List Char) : Option (Datum × List Char) := do
  let isDigit := isDigitIn base
  let accepts := fun (c : Char) => isDigit c || c = '_'
  let ds := cs.takeWhile accepts
  guard !ds.isEmpty
  let counts := fun (c : Char) => if base = 16 then isDigit c else c.isDigit
  guard (underscoresOk counts false ('0' :: mark :: ds))
  let n ← natInBase? base (withoutUnderscores ds)
  let d ← inRange? false n
  some (d, cs.dropWhile accepts)

/-- A number with an optional sign. -/
def signedNumber? (sign : List Char) (cs : List Char) : Option (Datum × List Char) := do
  let (ds, isReal, rest) ← numberChars? false false false cs
  let d ← if isReal then real? (sign ++ ds) else decimalInt? (sign ++ ds)
  some (d, rest)

/-- The text after a word for a value that is no finite number. -/
def afterNotFinite? (cs : List Char) : Option (List Char) :=
  match after? ['i', 'n', 'f'] cs with
  | some r => some r
  | none => after? ['n', 'a', 'n'] cs

/-- A number. -/
def number? : List Char → Option (Datum × List Char)
  | '0' :: 'x' :: r => basedInt? 16 'x' r
  | '0' :: 'o' :: r => basedInt? 8 'o' r
  | '0' :: 'b' :: r => basedInt? 2 'b' r
  | '0' :: c :: r => if c.isAlpha then none else signedNumber? [] ('0' :: c :: r)
  | c :: r =>
    if c = '+' || c = '-' then
      match afterNotFinite? r with
      | some rest => some (.notFinite, rest)
      | none => signedNumber? [c] r
    else signedNumber? [] (c :: r)
  | [] => none

/-! ## Dates and times -/

/-- A number of two digits. -/
def twoDigits? : List Char → Option (Nat × List Char)
  | a :: b :: r => if a.isDigit && b.isDigit then some (Decimal.ofDigits [a, b], r) else none
  | _ => none

/-- The text after a time of day with an optional fraction of a second. -/
def afterClock? (cs : List Char) : Option (List Char) := do
  let (hour, r) ← twoDigits? cs
  let r ← after? [':'] r
  let (minute, r) ← twoDigits? r
  let r ← after? [':'] r
  let (second, r) ← twoDigits? r
  guard (hour < 24 && minute < 60 && second < 60)
  match r with
  | '.' :: r => if r.head?.any Char.isDigit then some (r.dropWhile Char.isDigit) else none
  | r => some r

/-- The text after an optional time zone, which is less than a day away. -/
def afterZone? : List Char → Option (List Char)
  | 'Z' :: r => some r
  | c :: r =>
    if c = '+' || c = '-' then do
      let (hour, r) ← twoDigits? r
      let r ← after? [':'] r
      let (minute, r) ← twoDigits? r
      guard (minute ≤ 60 && hour * 60 + minute < 1440)
      some r
    else some (c :: r)
  | [] => some []

/-- The text after a date with two-digit month and day. -/
def afterDay? (cs : List Char) : Option (List Char) := do
  let (century, r) ← twoDigits? cs
  let (year, r) ← twoDigits? r
  let r ← after? ['-'] r
  let (month, r) ← twoDigits? r
  let r ← after? ['-'] r
  let (day, r) ← twoDigits? r
  guard (1 ≤ month && month ≤ 12 && 1 ≤ day && day ≤ daysIn (century * 100 + year) month)
  some r

/-- The text starts like a time of day. -/
def looksLikeClock : List Char → Bool
  | a :: b :: c :: _ => a.isDigit && b.isDigit && c = ':'
  | _ => false

/-- The text after a date, alone or with a time. A time that more than one blank divides from its date
has no zone. -/
def afterMoment? (cs : List Char) : Option (List Char) := do
  let r ← afterDay? cs
  let apart := fun (_ : Unit) =>
    let next := r.dropWhile isBlank
    if looksLikeClock next then afterClock? next else some r
  match r with
  | 'T' :: r => (afterClock? r).bind afterZone?
  | ' ' :: a :: b :: rest =>
    if a.isDigit && b.isDigit then (afterClock? (a :: b :: rest)).bind afterZone? else apart ()
  | _ => apart ()

/-- The text looks like a date or a time of day. -/
def looksLikeMoment (cs : List Char) : Bool :=
  looksLikeClock cs || ((cs.take 4).all Char.isDigit && cs[4]? == some '-')

/-- A date or a time. -/
def moment? (cs : List Char) : Option (Datum × List Char) :=
  let rest := if looksLikeClock cs then afterClock? cs else afterMoment? cs
  rest.map fun r => (.moment, r)

/-- A scalar that is not a string. -/
def word? (cs : List Char) : Option (Datum × List Char) :=
  match after? ['t', 'r', 'u', 'e'] cs with
  | some r => some (.bool true, r)
  | none =>
    match after? ['f', 'a', 'l', 's', 'e'] cs with
    | some r => some (.bool false, r)
    | none =>
      match afterNotFinite? cs with
      | some r => some (.notFinite, r)
      | none => if looksLikeMoment cs then moment? cs else number? cs

/-- Any scalar. -/
def scalar? : List Char → Option (Datum × List Char)
  | '\x22' :: r => (basicString? r).map fun (cs, rest) => (.text (String.ofList cs), rest)
  | '\x27' :: r => (literalString? r).map fun (cs, rest) => (.text (String.ofList cs), rest)
  | cs => word? cs

end ScriptSplit.Toml
