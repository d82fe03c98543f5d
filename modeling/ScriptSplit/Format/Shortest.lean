import ScriptSplit.Format.Decimal

/-!
# The shortest digits of a number

A binary number of 53 bits is written with the fewest digits that lead back to it.

* `Decimal.shortest`: these digits and the power of ten of the first one.
* `Decimal.generalText`: the number, with an exponent where it is large or small.
* `Decimal.groupedText`: the number with its digits in groups, or as a power of ten where it is large.
-/

namespace ScriptSplit

/-- A positive number in decimal digits: `d.ddd * 10 ^ exponent`. -/
structure DigitRun where
  digits : List Char
  exponent : Int
  deriving DecidableEq, Repr

namespace Decimal

/-- A power of a base, or one for a negative exponent. -/
def powerUp (base : Nat) (e : Int) : Nat := Nat.pow base e.toNat

/-- The power of ten of the first digit of a positive fraction. -/
def leadingPower (n m : Nat) : Int :=
  let g : Int := (width n : Int) - (width m : Int)
  if m * powerUp 10 g ≤ n * powerUp 10 (-g) then g else g - 1

/-- The numbers that round to `m * 2 ^ e` lie between these two quarters of `2 ^ e`. Below a power of
two they are closer together. -/
def roundingBounds (m : Nat) (e : Int) : Nat × Nat :=
  (if m = 4503599627370496 && -1074 < e then 4 * m - 1 else 4 * m - 2, 4 * m + 2)

/-- The decimal `q * 10 ^ u` rounds to `m * 2 ^ e`; the ends of the interval count for even `m`. -/
def roundsTo (m : Nat) (e : Int) (q : Nat) (u : Int) : Bool :=
  let (lo, hi) := roundingBounds m e
  let x := 4 * q * powerUp 10 u * powerUp 2 (-e)
  let scale := powerUp 2 e * powerUp 10 (-u)
  if m % 2 = 0 then lo * scale ≤ x && x ≤ hi * scale else lo * scale < x && x < hi * scale

/-- The decimal with the fewest digits, of those not longer than `fuel + n`, that rounds to
`m * 2 ^ e`; its first digit stands for `10 ^ p`. Of two of them the nearer counts. -/
def shortestFrom (m : Nat) (e p : Int) : (fuel n : Nat) → Nat × Int
  | 0, _ => (0, 0)
  | fuel + 1, n =>
    let u := p + 1 - n
    let num := m * powerUp 2 e * powerUp 10 (-u)
    let den := powerUp 2 (-e) * powerUp 10 u
    let q := num / den
    let below := roundsTo m e q u
    let above := roundsTo m e (q + 1) u
    if below && above then (if 2 * (num % den) ≤ den then q else q + 1, u)
    else if below then (q, u)
    else if above then (q + 1, u)
    else shortestFrom m e p fuel (n + 1)

/-- The fewest digits that lead back to the nearest binary number. -/
def shortest (d : Decimal) : DigitRun :=
  let (m, e) := d.nearest
  if m = 0 then ⟨['0'], 0⟩
  else
    let p := leadingPower (m * powerUp 2 e) (powerUp 2 (-e))
    let (q, u) := shortestFrom m e p 18 1
    let ds := Nat.toDigits 10 q
    let kept := (ds.reverse.dropWhile (· = '0')).reverse
    ⟨kept, u + (ds.length : Int) - 1⟩

end Decimal

namespace DigitRun

/-- The number with a point, if it has a fraction. -/
def plainText (r : DigitRun) : String :=
  if r.exponent < 0 then
    "0." ++ String.ofList (List.replicate (-r.exponent - 1).toNat '0' ++ r.digits)
  else
    let n := r.exponent.toNat + 1
    let whole := r.digits.take n ++ List.replicate (n - r.digits.length) '0'
    let fraction := r.digits.drop n
    String.ofList (whole ++ if fraction.isEmpty then [] else '.' :: fraction)

/-- The first digit, and the others after a point. -/
def mantissaText (r : DigitRun) : String :=
  match r.digits with
  | [] => "0"
  | [c] => String.singleton c
  | c :: rest => String.ofList (c :: '.' :: rest)

/-- An exponent of at least two digits. -/
def exponentDigits (n : Nat) : List Char :=
  let ds := Nat.toDigits 10 n
  if ds.length < 2 then '0' :: ds else ds

end DigitRun

/-- A digit as a superscript. -/
def superscript (c : Char) : Char :=
  match c with
  | '1' => '¹'
  | '2' => '²'
  | '3' => '³'
  | c => Char.ofNat (0x2070 + (c.toNat - 48))

/-- The digits of a number in groups of three. -/
def grouped (digits : List Char) : List Char :=
  (digits.reverse.zipIdx.flatMap fun (c, i) => if i ≠ 0 && i % 3 = 0 then [',', c] else [c]).reverse

namespace Decimal

/-- The number with the fewest digits. From a million on, and below a ten thousandth, an exponent
follows the letter e with its sign. -/
def generalText (d : Decimal) : String :=
  let r := d.shortest
  (if d.negative then "-" else "") ++
    if -4 ≤ r.exponent && r.exponent < 6 then r.plainText
    else
      r.mantissaText ++ (if r.exponent < 0 then "e-" else "e+") ++
        String.ofList (DigitRun.exponentDigits r.exponent.natAbs)

/-- A whole number with the fewest digits, in groups of three; from a million on as a power of ten. -/
def groupedText (d : Decimal) : String :=
  let r := d.shortest
  (if d.negative then "-" else "") ++
    if r.exponent < 6 then String.ofList (grouped r.plainText.toList)
    else r.mantissaText ++ "×10" ++
      String.ofList ((DigitRun.exponentDigits r.exponent.natAbs).map superscript)

end Decimal

end ScriptSplit
