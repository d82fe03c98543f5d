import ScriptSplit.Format.Decimal
import ScriptSplit.Format.Json.Value

/-!
# Data of settings files

What a settings file says, whatever format it is written in.

* `Datum`: a value; `Datum.ofJson?`: the value that a JSON text says.
* `Datum.integer?`: the whole number that a value stands for.
* `Datum.isFinite`: no number in the value is infinite or undefined.
-/

namespace ScriptSplit

/-- A value of a settings file. -/
inductive Datum where
  | null
  | bool (value : Bool)
  | int (value : Int)
  /-- A number written with a fraction or an exponent. -/
  | real (value : Decimal)
  /-- Infinity, or the value that is no number. -/
  | notFinite
  | text (value : String)
  /-- A date, a time of day or both. -/
  | moment
  | list (items : List Datum)
  | table (fields : List (String × Datum))
  deriving Repr

namespace Datum

/-- The value of a field of a table. -/
def field? (key : String) : Datum → Option Datum
  | table fields => fields.lookup key
  | _ => none

/-- The whole number that a value stands for. -/
def integer? : Datum → Option Int
  | int n => some n
  | real d => d.nearestInt?
  | _ => none

mutual

/-- No number in the value is infinite or undefined. -/
def isFinite : Datum → Bool
  | notFinite => false
  | list items => itemsFinite items
  | table fields => fieldsFinite fields
  | _ => true

/-- All items are finite. -/
def itemsFinite : List Datum → Bool
  | [] => true
  | x :: rest => isFinite x && itemsFinite rest

/-- The values of all fields are finite. -/
def fieldsFinite : List (String × Datum) → Bool
  | [] => true
  | (_, x) :: rest => isFinite x && fieldsFinite rest

end

mutual

/-- The value that a JSON value says. Numbers beyond the binary ones are refused; of several fields of
one name the last counts. -/
def ofJson? : Json → Option Datum
  | .null => some .null
  | .bool b => some (.bool b)
  | .number literal => do
    let d ← Decimal.ofChars? literal.toList
    if d.overflows then none else some (.real d)
  | .string s => some (.text s)
  | .array items => (itemsOfJson? items).map .list
  | .object fields => (fieldsOfJson? fields).map fun fs => .table (Dict.ofList fs)

/-- The values that the items of an array say. -/
def itemsOfJson? : List Json → Option (List Datum)
  | [] => some []
  | x :: rest => do
    let d ← ofJson? x
    let ds ← itemsOfJson? rest
    some (d :: ds)

/-- The values that the fields of an object say. -/
def fieldsOfJson? : List (String × Json) → Option (List (String × Datum))
  | [] => some []
  | (key, x) :: rest => do
    let d ← ofJson? x
    let ds ← fieldsOfJson? rest
    some ((key, d) :: ds)

end

end Datum

end ScriptSplit
