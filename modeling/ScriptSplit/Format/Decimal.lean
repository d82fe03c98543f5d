/-!
# Decimal numbers

A decimal number is a count of digits at a power of ten. Its nearest binary number of 53 bits decides
how documents that hold floating-point numbers are understood.

* `Decimal.ofChars?`: reads a literal.
* `Decimal.overflows`: the literal lies beyond the binary numbers.
* `Decimal.nearest`: the nearest binary number, a tie going to the even one.
-/

namespace ScriptSplit

/-- The number `± digits * 10 ^ exponent`. -/
structure Decimal where
  negative : Bool
  digits : Nat
  exponent : Int
  deriving DecidableEq, Repr

namespace Decimal

/-- A whole number. -/
def ofInt (n : Int) : Decimal := ⟨n < 0, n.natAbs, 0⟩

/-- The number of a run of digits. -/
def ofDigits (ds : List Char) : Nat := ds.foldl (fun n c => n * 10 + (c.toNat - 48)) 0

/-- An optional sign; true for minus. -/
def sign : List Char → Bool × List Char
  | '-' :: r => (true, r)
  | '+' :: r => (false, r)
  | r => (false, r)

/-- An optional exponent that ends the text. -/
def exponent? : List Char → Option Int
  | [] => some 0
  | c :: r =>
    if c = 'e' || c = 'E' then
      let (neg, ds) := sign r
      if ds.isEmpty || !ds.all Char.isDigit then none
      else some (if neg then -(ofDigits ds : Int) else ofDigits ds)
    else none

/-- The number of a literal: an optional sign, digits with an optional point, of which there is at
least one digit before the point or after it, and an optional exponent. -/
def ofChars? (cs : List Char) : Option Decimal :=
  let (negative, r) := sign cs
  let whole := r.takeWhile Char.isDigit
  let r := r.dropWhile Char.isDigit
  let (fraction, r) := match r with
    | '.' :: r => (r.takeWhile Char.isDigit, r.dropWhile Char.isDigit)
    | r => ([], r)
  if whole.isEmpty && fraction.isEmpty then none
  else do
    let e ← exponent? r
    some ⟨negative, ofDigits (whole ++ fraction), e - fraction.length⟩

/-- The number of decimal digits of a number. -/
def width (n : Nat) : Nat := (Nat.toDigits 10 n).length

/-- The magnitude as a fraction of naturals. The exponent is small enough to be written out. -/
def fraction (d : Decimal) : Nat × Nat :=
  if 0 ≤ d.exponent then (d.digits * Nat.pow 10 d.exponent.toNat, 1)
  else (d.digits, Nat.pow 10 (-d.exponent).toNat)

/-- The number is zero, or so small that it rounds to zero. -/
def vanishes (d : Decimal) : Bool := d.digits == 0 || (width d.digits : Int) + d.exponent < -330

/-- The number is too large for a binary number of 53 bits and an exponent of eleven. -/
def overflows (d : Decimal) : Bool :=
  if d.vanishes then false
  else if (width d.digits : Int) + d.exponent > 400 then true
  else
    let (n, m) := d.fraction
    18014398509481983 * Nat.pow 2 970 * m ≤ n

/-- Rounds a fraction to the nearest natural, a tie going to the even one. -/
def roundHalfEven (n m : Nat) : Nat :=
  let q := n / m
  let r := n % m
  if 2 * r < m then q
  else if m < 2 * r then q + 1
  else if q % 2 = 0 then q else q + 1

/-- The nearest number `m * 2 ^ e` with `m` of at most 53 bits, as the pair `(m, e)`. -/
def nearest (d : Decimal) : Nat × Int :=
  if d.vanishes then (0, 0)
  else
    let (n, m) := d.fraction
    let bits : Int := (Nat.log2 n : Int) - (Nat.log2 m : Int)
    let scale := fun (e : Int) =>
      if 0 ≤ e then roundHalfEven n (m * Nat.pow 2 e.toNat) else roundHalfEven (n * Nat.pow 2 (-e).toNat) m
    let e := max (bits - 53) (-1074)
    let q := scale e
    if 9007199254740992 ≤ q then
      let e := e + 1
      (scale e, e)
    else (q, e)

/-- The integer that the nearest binary number equals, if it is one. -/
def nearestInt? (d : Decimal) : Option Int :=
  let (m, e) := d.nearest
  let magnitude : Option Nat :=
    if 0 ≤ e then some (m * Nat.pow 2 e.toNat)
    else if m % Nat.pow 2 (-e).toNat = 0 then some (m / Nat.pow 2 (-e).toNat)
    else none
  magnitude.map fun n => if d.negative then -(n : Int) else n

end Decimal

end ScriptSplit
