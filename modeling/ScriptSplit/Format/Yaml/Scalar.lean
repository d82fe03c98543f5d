import ScriptSplit.Format.Decimal
import ScriptSplit.Number.Word64
import ScriptSplit.Text.Digit
import ScriptSplit.Time.Moment

/-!
# Plain scalars of YAML

What a scalar without quotes stands for.

* `Yaml.Scalar`: the kinds of values.
* `Yaml.timestamp?`: a date, alone or with a time of day.
* `Yaml.Scalar.ofPlain`: the value of a plain text; what reads as nothing else is a string.
-/

namespace ScriptSplit.Yaml

/-- The numbers that are not finite. -/
inductive NotFinite where
  | infinity
  | minusInfinity
  | undefined
  deriving DecidableEq, Repr

/-- What a plain scalar stands for. -/
inductive Scalar where
  | null
  | bool (value : Bool)
  | int (value : Int)
  | float (value : Decimal)
  | notFinite (value : NotFinite)
  | timestamp (value : Moment)
  | string
  deriving DecidableEq, Repr

/-! ## Dates and times -/

/-- A number of one or two digits. -/
def shortNat? : List Char → Option (Nat × List Char)
  | a :: b :: r =>
    if !a.isDigit then none
    else if b.isDigit then some ((a.toNat - 48) * 10 + (b.toNat - 48), r)
    else some (a.toNat - 48, b :: r)
  | [a] => if a.isDigit then some (a.toNat - 48, []) else none
  | [] => none

/-- A date; the year has four digits. -/
def date? (cs : List Char) : Option (Nat × Nat × Nat × List Char) := do
  let year := cs.takeWhile Char.isDigit
  guard (year.length = 4)
  let r ← Moment.char? '-' (cs.drop 4)
  let (month, r) ← shortNat? r
  let r ← Moment.char? '-' r
  let (day, r) ← shortNat? r
  guard (1 ≤ month && month ≤ 12 && 1 ≤ day && day ≤ daysIn (Decimal.ofDigits year) month)
  some (Decimal.ofDigits year, month, day, r)

/-- A time of day with an optional fraction of a second. -/
def clock? (cs : List Char) : Option (Nat × Nat × Nat × Nat × List Char) := do
  let (hour, r) ← shortNat? cs
  let r ← Moment.char? ':' r
  let (minute, r) ← shortNat? r
  let r ← Moment.char? ':' r
  let (second, r) ← shortNat? r
  guard (hour < 24 && minute < 60 && second < 60)
  let (nanosecond, r) := (Moment.fraction? r).getD (0, r)
  some (hour, minute, second, nanosecond, r)

/-- A date, alone or with a time of day. After a letter T the time has an offset, after blanks it has
none. -/
def timestamp? (cs : List Char) : Option Moment := do
  let (year, month, day, r) ← date? cs
  match r with
  | [] => some ⟨year, month, day, 0, 0, 0, 0, 0⟩
  | c :: r =>
    let (hour, minute, second, nanosecond, rest) ← clock? (if c = ' ' then r.dropWhile (· = ' ') else r)
    let offset ← if c = 'T' || c = 't' then Moment.offset? rest
      else if c = ' ' && rest.isEmpty then some 0
      else none
    some ⟨year, month, day, hour, minute, second, nanosecond, offset⟩

/-! ## Numbers -/

/-- An integer within 64 bits, with its sign; only one without a sign may need the last bit. -/
def bounded? (signed : Bool) (value : Int) : Option Int :=
  if Word64.fits value then some value
  else if !signed && Word64.fitsUnsigned value then some value
  else none

/-- An integer in a base, after an optional sign. -/
def signedInBase? (base : Nat) (cs : List Char) : Option Int := do
  let (negative, r) := Decimal.sign cs
  let n ← natInBase? base r
  bounded? (r.length < cs.length) (if negative then -(n : Int) else n)

/-- An integer: a sign, a mark of the base and digits. A leading zero stands for base eight. -/
def int? (cs : List Char) : Option Int := do
  let (negative, r) := Decimal.sign cs
  let n ← match r with
    | '0' :: 'x' :: r => natInBase? 16 r
    | '0' :: 'X' :: r => natInBase? 16 r
    | '0' :: 'b' :: r => natInBase? 2 r
    | '0' :: 'B' :: r => natInBase? 2 r
    | '0' :: 'o' :: r => natInBase? 8 r
    | '0' :: 'O' :: r => natInBase? 8 r
    | '0' :: c :: r => natInBase? 8 (c :: r)
    | r => natInBase? 10 r
  bounded? (r.length < cs.length) (if negative then -(n : Int) else n)

/-- A number with a fraction or an exponent that a binary number comes near. -/
def float? (cs : List Char) : Option Decimal := do
  let d ← Decimal.ofChars? cs
  if d.overflows then none else some d

/-- Every underscore stands between two digits. -/
def underscoresSeparate : (before : Bool) → List Char → Bool
  | _, [] => true
  | before, '_' :: r => before && r.head?.any Char.isDigit && underscoresSeparate false r
  | _, c :: r => underscoresSeparate c.isDigit r

namespace Scalar

/-- The words that stand for a value of their own. -/
def ofWord? (s : String) : Option Scalar :=
  if s ∈ ["true", "True", "TRUE"] then some (.bool true)
  else if s ∈ ["false", "False", "FALSE"] then some (.bool false)
  else if s ∈ ["", "~", "null", "Null", "NULL"] then some .null
  else if s ∈ [".nan", ".NaN", ".NAN"] then some (.notFinite .undefined)
  else if s ∈ [".inf", ".Inf", ".INF", "+.inf", "+.Inf", "+.INF"] then some (.notFinite .infinity)
  else if s ∈ ["-.inf", "-.Inf", "-.INF"] then some (.notFinite .minusInfinity)
  else none

/-- A number, read without the underscores that may group its digits. A sign may also stand after the
mark of base two or eight. -/
def number? (cs : List Char) : Option Scalar :=
  let plain := cs.filter (· ≠ '_')
  match int? plain with
  | some n => some (.int n)
  | none =>
    match float? plain with
    | some d => some (.float d)
    | none =>
      match plain with
      | '0' :: 'b' :: r => (signedInBase? 2 r).map .int
      | '0' :: 'o' :: r => (signedInBase? 8 r).map .int
      | _ => none

/-- The value of a plain text. -/
def ofPlain (s : String) : Scalar :=
  match ofWord? s with
  | some v => v
  | none =>
    match s.toList with
    | [] => .null
    | c :: r =>
      if c = '.' then
        if underscoresSeparate false r then
          match float? (c :: r.filter (· ≠ '_')) with
          | some d => .float d
          | none => .string
        else .string
      else if c.isDigit || c = '+' || c = '-' then
        match timestamp? (c :: r) with
        | some t => .timestamp t
        | none => (number? (c :: r)).getD .string
      else .string

end Scalar

end ScriptSplit.Yaml
