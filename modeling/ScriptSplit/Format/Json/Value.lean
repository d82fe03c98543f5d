import ScriptSplit.Text.Dict

/-!
# JSON values

* `Json`: a value; a number keeps its literal, an object the order of its fields.
* `Json.field?`: look-up in an object; the last of several fields of one name counts.
* `Json.depth`: how deep arrays and objects stand in each other.
-/

namespace ScriptSplit

/-- A JSON value. -/
inductive Json where
  | null
  | bool (value : Bool)
  | number (literal : String)
  | string (value : String)
  | array (items : List Json)
  | object (fields : List (String × Json))
  deriving BEq, Repr

namespace Json

/-- The number of an integer. -/
def int (n : Int) : Json := number (toString n)

/-- The value of a field of an object. -/
def field? (key : String) : Json → Option Json
  | object fields => (fields.reverse.lookup key)
  | _ => none

mutual

/-- How deep arrays and objects stand in each other. -/
def depth : Json → Nat
  | array items => depthOfItems items + 1
  | object fields => depthOfFields fields + 1
  | _ => 0

/-- The greatest depth of the items of an array. -/
def depthOfItems : List Json → Nat
  | [] => 0
  | x :: xs => max (depth x) (depthOfItems xs)

/-- The greatest depth of the fields of an object. -/
def depthOfFields : List (String × Json) → Nat
  | [] => 0
  | (_, x) :: xs => max (depth x) (depthOfFields xs)

end

/-- A list of strings. -/
def strings (items : List String) : Json := array (items.map string)

/-- An object in key order. -/
def dict {α : Type} (encode : α → Json) (d : Dict α) : Json :=
  object (d.map fun p => (p.1, encode p.2))

/-- The number of one or more decimal digits. -/
def digitsNat? (cs : List Char) : Option Nat :=
  if cs.isEmpty || !cs.all Char.isDigit then none
  else some (cs.foldl (fun (n : Nat) c => n * 10 + (c.toNat - 48)) 0)

/-- The integer of a literal that has neither fraction nor exponent. -/
def literalInt? (literal : String) : Option Int :=
  match literal.toList with
  | '-' :: cs => (digitsNat? cs).map fun n => -Int.ofNat n
  | cs => (digitsNat? cs).map Int.ofNat

end Json

end ScriptSplit
