import ScriptSplit.Format.Json.Raw
import ScriptSplit.Report.Decoding
import ScriptSplit.Time.Moment

/-!
# Cache entries

* `Entry`: what the cache keeps under a key.
* `Entry.bytes?`, `Entry.ofBytes?`: the text of an entry file.
-/

namespace ScriptSplit.Cache

/-- What is kept under a key: data, and the hash of the content that they came from. -/
structure Entry where
  key : String
  hash : String
  timestamp : Moment
  /-- A JSON text. -/
  data : Bytes
  deriving DecidableEq, Repr

namespace Entry

/-- The text of an entry file; data that are no JSON text have none. -/
def bytes? (e : Entry) : Option Bytes := do
  let data ← Json.compactBytes? e.data
  some (Bytes.ofString ("\x7b\x22key\x22:" ++ Json.quote e.key ++ ",\x22hash\x22:" ++ Json.quote e.hash ++
    ",\x22timestamp\x22:" ++ Json.quote e.timestamp.text ++ ",\x22data\x22:") ++ data ++ Bytes.ofString "\x7d")

/-- The moment of a JSON value. -/
def moment? : Json → Option Moment
  | .null => some .zero
  | .string s => Moment.parse? s
  | _ => none

/-- The entry of a file's text. -/
def ofBytes? (t : Bytes) : Option Entry := do
  let j ← Json.read? t
  guard j.isRecord
  some
    { key := ← (j.member "key").text?
      hash := ← (j.member "hash").text?
      timestamp := ← moment? (j.member "timestamp")
      data := (Json.rawField? (fun name => lowerCase name == "data") t).getD [] }

end Entry

end ScriptSplit.Cache
