import ScriptSplit.Format.Datum
import ScriptSplit.Format.Shortest
import ScriptSplit.Format.Yaml.Tree
import ScriptSplit.Text.Base64

/-!
# Values of YAML scalars

* `Yaml.Value`: what a scalar says; `Yaml.scalarValue?` finds it.
* `Yaml.Value.keyText`: the name that a value has as a key.
* `Yaml.Tree.isTextKey`, `Yaml.Tree.isMerge`: keys of two kinds.
-/

namespace ScriptSplit.Yaml

/-- What a scalar says. -/
inductive Value where
  | null
  | bool (value : Bool)
  | int (value : Int)
  | float (value : Decimal)
  | notFinite (value : NotFinite)
  | moment (value : Moment)
  | text (value : String)
  deriving DecidableEq, Repr

/-- The value of a plain scalar. -/
def Value.ofPlain (text : String) : Value :=
  match Scalar.ofPlain text with
  | .null => .null
  | .bool b => .bool b
  | .int n => .int n
  | .float d => .float d
  | .notFinite x => .notFinite x
  | .timestamp m => .moment m
  | .string => .text text

/-- What a scalar says. Without a tag, quotes make it a text; a tag of a known type must fit. -/
def scalarValue? (tag text : String) (plain : Bool) : Option Value :=
  match tag, Value.ofPlain text with
  | "", v => some (if plain then v else .text text)
  | "!!int", .int n => some (.int n)
  | "!!float", .int n => if Word64.fits n then some (.float (Decimal.ofInt n)) else none
  | "!!float", .float d => some (.float d)
  | "!!float", .notFinite x => some (.notFinite x)
  | "!!bool", .bool b => some (.bool b)
  | "!!null", .null => some .null
  | "!!timestamp", .moment m => some (.moment m)
  | "!!binary", _ => (Base64.decode? text.toList).map fun t => .text (Utf8.decodeLossy t)
  | tag, _ => if tag ∈ ["!!int", "!!float", "!!bool", "!!null", "!!timestamp"] then none else some (.text text)

namespace Value

/-- The value as one of a settings file. A moment must lie less than a day from universal time. -/
def toDatum? : Value → Option Datum
  | null => some .null
  | bool b => some (.bool b)
  | int n => some (.int n)
  | float d => some (.real d)
  | notFinite _ => some .notFinite
  | moment m => if m.offset.natAbs < 1440 then some .moment else none
  | text s => some (.text s)

/-- The name that a value has as a key. -/
def keyText : Value → String
  | null => "<nil>"
  | bool b => if b then "true" else "false"
  | int n => toString n
  | float d => d.generalText
  | notFinite .infinity => "+Inf"
  | notFinite .minusInfinity => "-Inf"
  | notFinite .undefined => "NaN"
  | moment m => m.wordsText
  | text s => s

/-- The value of a key among texts. It counts as written, and an empty one is left out. -/
def asText? (written : String) : Value → Option Value
  | null => none
  | text s => some (.text s)
  | _ => some (.text written)

end Value

namespace Tree

/-- The key that takes over the entries of another mapping. -/
def isMerge : Tree → Bool
  | scalar tag text plain => text = "<<" && ((tag = "" && plain) || tag = "!!merge")
  | _ => false

/-- The key is a text, or takes over the entries of another mapping. -/
def isTextKey : Tree → Bool
  | scalar tag text plain =>
    if tag = "" then !plain || Scalar.ofPlain text = .string else tag = "!!str" || tag = "!!merge"
  | reference _ t => t.isTextKey
  | _ => false

/-- What tells one key of a mapping from another: its kind and its text as written. -/
def keyMark : Tree → Nat × String
  | scalar _ text _ => (0, text)
  | reference name _ => (1, name)
  | loop name => (1, name)
  | sequence _ => (2, "")
  | mapping _ => (3, "")

end Tree

/-- Some key comes twice. -/
def hasDuplicateKey (entries : List (Tree × Tree)) : Bool :=
  let marks := entries.map fun e => e.1.keyMark
  marks.eraseDups.length < marks.length

end ScriptSplit.Yaml
