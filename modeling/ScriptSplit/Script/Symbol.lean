import ScriptSplit.Script.Pattern

/-!
# Symbols

Looks for configured names in a text. A name that starts or ends with a word byte is not found
inside a longer identifier.

* `occursAsWord`: a symbol occurs on its own.
* `foundSymbols`, `anySymbol`: the symbols of a list that occur.
* `anyPattern`: plain occurrence of a substring.
-/

namespace ScriptSplit.Script

/-- The symbol stands here, and no word goes on across its ends. -/
def symbolAt (symbol : Bytes) (before : Option UInt8) (t : Bytes) : Bool :=
  match Bytes.after? symbol t with
  | some r =>
    !(symbol.head?.any isWordByte && before.any isWordByte) &&
      !(symbol.getLast?.any isWordByte && r.head?.any isWordByte)
  | none => false

/-- The symbol occurs as a whole word; the empty symbol always does. -/
def occursAsWord (symbol t : Bytes) : Bool := (firstPlace (symbolAt symbol) t).isSome

/-- The symbols that occur in a text, in their given order. -/
def foundSymbols (symbols : List String) (t : Bytes) : List String :=
  symbols.filter fun s => occursAsWord (Bytes.ofString s) t

/-- One of the symbols occurs in a text. -/
def anySymbol (symbols : List String) (t : Bytes) : Bool :=
  symbols.any fun s => occursAsWord (Bytes.ofString s) t

/-- One of the substrings occurs in a text. -/
def anyPattern (patterns : List String) (t : Bytes) : Bool :=
  patterns.any fun p => t.contains (Bytes.ofString p)

end ScriptSplit.Script
