import ScriptSplit.Format.Decimal

/-!
# Moments

A moment is a date and a time of day with an offset from universal time.

* `Moment.parse?`, `Moment.text`: the usual text, such as `2024-05-06T07:08:09.5+02:00`.
* `Moment.nanos`: nanoseconds since the start of 1970; `Moment.ofNanos`: the moment in universal time.
-/

namespace ScriptSplit

/-- A date and a time of day with an offset in minutes. -/
structure Moment where
  year : Nat
  month : Nat
  day : Nat
  hour : Nat
  minute : Nat
  second : Nat
  nanosecond : Nat
  offset : Int
  deriving DecidableEq, Repr

/-- The number of days of a month. -/
def daysIn (year month : Nat) : Nat :=
  if month = 2 then
    if year % 4 = 0 && (year % 100 ≠ 0 || year % 400 = 0) then 29 else 28
  else if month ∈ [4, 6, 9, 11] then 30
  else 31

namespace Moment

/-- The moment that stands for none. -/
def zero : Moment := ⟨1, 1, 1, 0, 0, 0, 0, 0⟩

/-- The days from the start of 1970 to a date. Years are counted from March, so that the leap day comes
last. -/
def dayNumber (year month day : Nat) : Int :=
  let y : Int := if month ≤ 2 then (year : Int) - 1 else year
  let era := Int.fdiv y 400
  let yearOfEra := y - era * 400
  let dayOfYear : Int := ((153 * ((month + 9) % 12) + 2) / 5 + day : Nat) - 1
  era * 146097 + yearOfEra * 365 + Int.fdiv yearOfEra 4 - Int.fdiv yearOfEra 100 + dayOfYear - 719468

/-- The date of a day counted from the start of 1970. -/
def dateOf (days : Int) : Nat × Nat × Nat :=
  let z := days + 719468
  let era := Int.fdiv z 146097
  let dayOfEra := (z - era * 146097).toNat
  let yearOfEra := (dayOfEra - dayOfEra / 1460 + dayOfEra / 36524 - dayOfEra / 146096) / 365
  let dayOfYear := dayOfEra - (365 * yearOfEra + yearOfEra / 4 - yearOfEra / 100)
  let shifted := (5 * dayOfYear + 2) / 153
  let day := dayOfYear - (153 * shifted + 2) / 5 + 1
  let month := if shifted < 10 then shifted + 3 else shifted - 9
  let year := era * 400 + yearOfEra + (if month ≤ 2 then 1 else 0)
  (year.toNat, month, day)

/-- Nanoseconds since the start of 1970. -/
def nanos (m : Moment) : Int :=
  let days := dayNumber m.year m.month m.day
  let seconds := ((days * 24 + m.hour) * 60 + m.minute - m.offset) * 60 + m.second
  seconds * 1000000000 + m.nanosecond

/-- The moment of a count of nanoseconds, in universal time. -/
def ofNanos (n : Int) : Moment :=
  let seconds := Int.fdiv n 1000000000
  let days := Int.fdiv seconds 86400
  let rest := (seconds - days * 86400).toNat
  let (year, month, day) := dateOf days
  ⟨year, month, day, rest / 3600, rest / 60 % 60, rest % 60, (n - seconds * 1000000000).toNat, 0⟩

/-- The moment lies in a year of at most four digits. -/
def inYears (n : Int) : Bool := -62167219200000000000 ≤ n && n < 253402300800000000000

/-- The moment of a count of nanoseconds, if its year has at most four digits. -/
def ofNanos? (n : Int) : Option Moment := if inYears n then some (ofNanos n) else none

/-! ## Text -/

/-- A number in at least the given number of digits. -/
def padded (width n : Nat) : String :=
  let ds := Nat.toDigits 10 n
  String.ofList (List.replicate (width - ds.length) '0' ++ ds)

/-- The fraction of a second without zeros at its end. -/
def fractionText (nanosecond : Nat) : String :=
  let ds := ((padded 9 nanosecond).toList.reverse.dropWhile (· = '0')).reverse
  if ds.isEmpty then "" else "." ++ String.ofList ds

/-- The offset; none at all is the letter Z. -/
def offsetText (offset : Int) : String :=
  if offset = 0 then "Z"
  else (if offset < 0 then "-" else "+") ++ padded 2 (offset.natAbs / 60) ++ ":" ++ padded 2 (offset.natAbs % 60)

/-- The text of a moment. -/
def text (m : Moment) : String :=
  padded 4 m.year ++ "-" ++ padded 2 m.month ++ "-" ++ padded 2 m.day ++ "T" ++ padded 2 m.hour ++ ":" ++
    padded 2 m.minute ++ ":" ++ padded 2 m.second ++ fractionText m.nanosecond ++ offsetText m.offset

/-- The offset without a colon. -/
def plainOffset (offset : Int) : String :=
  (if offset < 0 then "-" else "+") ++ padded 2 (offset.natAbs / 60) ++ padded 2 (offset.natAbs % 60)

/-- The text of a moment in words apart: the date, the time of day, the offset and the name of the
zone, for which the offset stands where it has none. -/
def wordsText (m : Moment) : String :=
  padded 4 m.year ++ "-" ++ padded 2 m.month ++ "-" ++ padded 2 m.day ++ " " ++ padded 2 m.hour ++ ":" ++
    padded 2 m.minute ++ ":" ++ padded 2 m.second ++ fractionText m.nanosecond ++ " " ++
    plainOffset m.offset ++ " " ++ (if m.offset = 0 then "UTC" else plainOffset m.offset)

/-- The date and the time of day to the minute. -/
def minuteText (m : Moment) : String :=
  padded 4 m.year ++ "-" ++ padded 2 m.month ++ "-" ++ padded 2 m.day ++ " " ++ padded 2 m.hour ++ ":" ++
    padded 2 m.minute

/-- A length of time in whole seconds, with hours and minutes as far as they are there. -/
def spanText (seconds : Nat) : String :=
  let hours := seconds / 3600
  let minutes := seconds / 60 % 60
  (if hours = 0 then "" else toString hours ++ "h") ++
    (if hours = 0 && minutes = 0 then "" else toString minutes ++ "m") ++ toString (seconds % 60) ++ "s"

/-- A number of exactly so many digits at the front. -/
def digits? (width : Nat) (cs : List Char) : Option (Nat × List Char) :=
  let ds := cs.take width
  if ds.length = width && ds.all Char.isDigit then some (Decimal.ofDigits ds, cs.drop width) else none

/-- A given character at the front. -/
def char? (c : Char) : List Char → Option (List Char)
  | d :: r => if c = d then some r else none
  | [] => none

/-- The fraction of a second; digits beyond the ninth do not count. -/
def fraction? : List Char → Option (Nat × List Char)
  | c :: r =>
    if c = '.' || c = ',' then
      let ds := r.takeWhile Char.isDigit
      if ds.isEmpty then none
      else
        let nine := (ds ++ List.replicate 9 '0').take 9
        some (Decimal.ofDigits nine, r.dropWhile Char.isDigit)
    else some (0, c :: r)
  | [] => some (0, [])

/-- The offset that ends a moment. -/
def offset? : List Char → Option Int
  | ['Z'] => some 0
  | [s, a, b, ':', c, d] => do
    guard ((s = '+' || s = '-') && [a, b, c, d].all Char.isDigit)
    let hours := Decimal.ofDigits [a, b]
    let minutes := Decimal.ofDigits [c, d]
    guard (hours ≤ 24 && minutes ≤ 60)
    let n : Int := (hours * 60 + minutes : Nat)
    some (if s = '-' then -n else n)
  | _ => none

/-- The moment that a text says. -/
def parse? (s : String) : Option Moment := do
  let (year, r) ← digits? 4 s.toList
  let r ← char? '-' r
  let (month, r) ← digits? 2 r
  let r ← char? '-' r
  let (day, r) ← digits? 2 r
  let r ← char? 'T' r
  let (hour, r) ← match digits? 2 r with
    | some x => some x
    | none => digits? 1 r
  let r ← char? ':' r
  let (minute, r) ← digits? 2 r
  let r ← char? ':' r
  let (second, r) ← digits? 2 r
  let (nanosecond, r) ← fraction? r
  let offset ← offset? r
  guard (1 ≤ month && month ≤ 12 && 1 ≤ day && day ≤ daysIn year month)
  guard (hour < 24 && minute < 60 && second < 60)
  some ⟨year, month, day, hour, minute, second, nanosecond, offset⟩

end Moment

end ScriptSplit
