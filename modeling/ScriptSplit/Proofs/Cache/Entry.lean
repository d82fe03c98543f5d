import Mathlib
import ScriptSplit.Cache.Entry
import ScriptSplit.Proofs.Format.Json.Mirror
import ScriptSplit.Proofs.Report.RoundTrip

/-!
# Entry files that are read back

An entry file is the text of one object: three strings, and the data in their compacted form.

* `stringField`: the text of a field that is a string; `fields?_stringField`, `rawFields?_stringField`.
* `Entry.front`: what stands before the data.
* **`ofBytes?_bytes?`**: an entry is read back from its file, with data of the same value, unless they are too deep.
-/

namespace ScriptSplit.Json

/-- The text of a field that is a string and of the comma after it, its characters spread. -/
def stringField (f : Char → List Char) (key value : String) : List Char :=
  '\x22' :: (literal f key ++ ':' :: '\x22' :: (literal f value ++ [',']))

section Fields

variable {f : Char → List Char} (hf : Spreads f)
include hf

theorem flatMap_stringField (key value : String) :
    (quote key ++ ":" ++ quote value ++ ",").toList.flatMap f = stringField f key value := by
  rw [String.toList_append, List.flatMap_append, flatMap_field hf, flatMap_quote hf, stringField, List.cons_append,
    List.append_assoc, List.cons_append, List.cons_append]
  change _ :: (_ ++ _ :: _ :: (_ ++ (f ',' ++ []))) = _
  rw [hf.ascii ',' (by decide)]
  rfl

/-- A field that is a string is read, then the others. -/
theorem fields?_stringField (fuel : Nat) (key value : String) (rest : List Char) :
    fields? (fuel + 2) (stringField f key value ++ rest) = (fields? (fuel + 1) rest).map fun p =>
      ((unspread f key, .string (unspread f value)) :: p.1, p.2) := by
  have htext : stringField f key value ++ rest =
      '\x22' :: (literal f key ++ ':' :: '\x22' :: (literal f value ++ ',' :: rest)) := by simp [stringField]
  rw [htext, fields?_step (stringTail?_literal hf key _) (skipBlanks_cons (by decide) _)
    (value?_string hf fuel value _) (skipBlanks_cons (by decide) _), if_pos rfl]

/-- The last field of an object, whose text is given. -/
theorem fields?_last {fuel : Nat} (key : String) {text rest : List Char} {j : Json}
    (h : value? fuel (text ++ '\x7d' :: rest) = some (j, '\x7d' :: rest)) :
    fields? (fuel + 1) ('\x22' :: (literal f key ++ ':' :: (text ++ '\x7d' :: rest))) =
      some ([(unspread f key, j)], rest) := by
  rw [fields?_step (stringTail?_literal hf key _) (skipBlanks_cons (by decide) _) h (skipBlanks_cons (by decide) _)]
  rfl

theorem readFront?_literal (s : String) (rest : List Char) :
    readFront? ('\x22' :: (literal f s ++ rest)) = some (.string (unspread f s), rest) :=
  (readFront?_of_value? (value?_string hf 0 s rest)).trans (if_pos (by simp [depth]))

end Fields

/-- The text of one field and the text of its value are found. -/
theorem rawFields?_step {fuel : Nat} {key text : List Char} {k v : Json} {c : Char} {rest : List Char}
    (hkey : skipBlanks (key ++ ':' :: (text ++ c :: rest)) = key ++ ':' :: (text ++ c :: rest))
    (hk : readFront? (key ++ ':' :: (text ++ c :: rest)) = some (k, ':' :: (text ++ c :: rest)))
    (htext : skipBlanks (text ++ c :: rest) = text ++ c :: rest)
    (hv : readFront? (text ++ c :: rest) = some (v, c :: rest)) (hc : isBlank c = false) :
    rawFields? (fuel + 1) (key ++ ':' :: (text ++ c :: rest)) =
      if c = ',' then (rawFields? fuel rest).map ((key, text) :: ·) else some [(key, text)] := by
  have htake : ∀ u w : List Char, (u ++ w).take ((u ++ w).length - w.length) = u := by
    intro u w
    rw [List.length_append, Nat.add_sub_cancel]
    exact List.take_left' rfl
  rw [rawFields?]
  simp only [hkey, hk, Option.bind_eq_bind, Option.bind_some, htake,
    skipBlanks_cons (show isBlank ':' = false by decide), htext, hv, skipBlanks_cons hc]
  split
  case h_1 heq =>
    cases heq
    rw [if_pos rfl]
    cases rawFields? fuel rest with
    | none => rfl
    | some more => rfl
  case h_2 hcomma => rw [if_neg fun h => hcomma rest (by rw [h])]

/-- The text of a string, one character for each byte. -/
def byteLiteral (s : String) : List Char := '\x22' :: literal spread s

theorem rawFields?_stringField (fuel : Nat) (key value : String) (rest : List Char) :
    rawFields? (fuel + 1) (stringField spread key value ++ rest) =
      (rawFields? fuel rest).map ((byteLiteral key, byteLiteral value) :: ·) := by
  have htext : stringField spread key value ++ rest =
      byteLiteral key ++ ':' :: (byteLiteral value ++ ',' :: rest) := by simp [stringField, byteLiteral]
  rw [htext, rawFields?_step (skipBlanks_cons (by decide) _) (readFront?_literal spreads_spread key _)
    (skipBlanks_cons (by decide) _) (readFront?_literal spreads_spread value _) (by decide), if_pos rfl]

/-- The bytes of the text of a string are read as the string. -/
theorem read?_byteLiteral (s : String) : read? (charBytes (byteLiteral s)) = some (.string s) := by
  have htext : byteLiteral s = byteChars (Bytes.ofString (quote s)) := by
    rw [byteChars_ofString, flatMap_quote spreads_spread, byteLiteral]
  have hread := read?_compact (readable_string s)
  rw [compact] at hread
  rw [htext, charBytes_byteChars, hread]

end ScriptSplit.Json

namespace ScriptSplit.Cache.Entry

open Json (Spreads stringField literal spread byteLiteral)

/-- What stands in an entry file before the data. -/
def front (e : Entry) : String :=
  "\x7b\x22key\x22:" ++ Json.quote e.key ++ ",\x22hash\x22:" ++ Json.quote e.hash ++
    ",\x22timestamp\x22:" ++ Json.quote e.timestamp.text ++ ",\x22data\x22:"

theorem flatMap_front {f : Char → List Char} (hf : Spreads f) (e : Entry) : e.front.toList.flatMap f =
    '\x7b' :: (stringField f "key" e.key ++ (stringField f "hash" e.hash ++
      (stringField f "timestamp" e.timestamp.text ++ '\x22' :: (literal f "data" ++ [':'])))) := by
  have hfront : e.front = "\x7b" ++ ((Json.quote "key" ++ ":" ++ Json.quote e.key ++ ",") ++
      ((Json.quote "hash" ++ ":" ++ Json.quote e.hash ++ ",") ++
      ((Json.quote "timestamp" ++ ":" ++ Json.quote e.timestamp.text ++ ",") ++ (Json.quote "data" ++ ":" ++ "")))) := by
    rw [← String.toList_inj]
    simp only [front, String.toList_append, Json.toList_quote]
    simp [Json.escape]
  have happ : ∀ s t : String, (s ++ t).toList.flatMap f = s.toList.flatMap f ++ t.toList.flatMap f := fun s t => by
    rw [String.toList_append, List.flatMap_append]
  rw [hfront, happ, happ, Json.flatMap_stringField hf, happ, Json.flatMap_stringField hf, happ,
    Json.flatMap_stringField hf, Json.flatMap_field hf]
  change f '\x7b' ++ [] ++ _ = _
  rw [hf.ascii _ (by decide)]
  rfl

/-- What is written is the front, the data and a closing brace. -/
theorem bytes?_eq_some {e : Entry} {raw : Bytes} (h : e.bytes? = some raw) :
    ∃ u, Json.compactBytes? e.data = some u ∧ raw = Bytes.ofString e.front ++ (u ++ [0x7d]) := by
  obtain ⟨u, hu, h⟩ := Option.bind_eq_some_iff.mp h
  refine ⟨u, hu, ?_⟩
  rw [← Option.some.inj h, ← front, List.append_assoc]
  rfl

/-- The object of an entry whose data have a value. -/
def json (e : Entry) (data : Json) : Json :=
  .object [("key", .string e.key), ("hash", .string e.hash), ("timestamp", .string e.timestamp.text),
    ("data", data)]

theorem depth_json (e : Entry) (data : Json) : (e.json data).depth = data.depth + 1 := by
  simp [json, Json.depth, Json.depthOfFields]

/-- The characters of an entry file are the text of its object. -/
theorem read?_file {e : Entry} {u : Bytes} {data : Json}
    (hdata : Json.readFront? (Utf8.lossy u ++ ['\x7d']) = some (data, ['\x7d'])) :
    Json.read? (Bytes.ofString e.front ++ (u ++ [0x7d])) =
      if data.depth < Json.maxDepth then some (e.json data) else none := by
  have hpure := Json.spreads_pure
  have hlossy : Utf8.lossy (Bytes.ofString e.front ++ (u ++ [0x7d])) =
      e.front.toList ++ (Utf8.lossy u ++ ['\x7d']) := by
    rw [Utf8.lossy_ofString_append, Utf8.lossy_append (by decide), Json.lossy_ascii (by decide), Utf8.lossy_nil]
    rfl
  have hfront := flatMap_front hpure e
  rw [List.flatMap_singleton'] at hfront
  obtain ⟨hvalue, -⟩ := Option.filter_eq_some_iff.mp hdata
  have hlast := Json.fields?_last hpure "data" hvalue
  -- three strings stand before the data, with fuel for each
  generalize 2 * (Utf8.lossy u ++ ['\x7d']).length + 2 = fuel at hvalue hlast
  have hfields : Json.fields? (fuel + 4) (stringField (fun c => [c]) "key" e.key ++ (stringField (fun c => [c]) "hash" e.hash ++
      (stringField (fun c => [c]) "timestamp" e.timestamp.text ++ '\x22' :: (literal (fun c => [c]) "data" ++
        ':' :: (Utf8.lossy u ++ ['\x7d']))))) = some ([("key", .string e.key), ("hash", .string e.hash),
          ("timestamp", .string e.timestamp.text), ("data", data)], []) := by
    rw [Json.fields?_stringField hpure, Json.fields?_stringField hpure, Json.fields?_stringField hpure, hlast]
    simp only [Option.map_some, Json.unspread_pure]
  have hread : Json.value? (fuel + 5) (e.front.toList ++ (Utf8.lossy u ++ ['\x7d'])) = some (e.json data, []) := by
    rw [hfront]
    simp only [List.cons_append, List.append_assoc, List.nil_append]
    exact Json.value?_object_cons (b := []) Json.blanks_nil hfields
  rw [Json.read?, Json.readChars?, ← Utf8.lossy, hlossy, Json.readFront?_of_value? hread, depth_json]
  split_ifs with h₁ h₂
  · rfl
  · omega
  · omega
  · rfl

/-- The text of the data is found in an entry file. -/
theorem rawField?_file {e : Entry} {u : Bytes} {data : Json}
    (hskip : Json.skipBlanks (Json.byteChars u ++ ['\x7d']) = Json.byteChars u ++ ['\x7d'])
    (hdata : Json.readFront? (Json.byteChars u ++ ['\x7d']) = some (data, ['\x7d'])) :
    Json.rawField? (fun name => lowerCase name == "data") (Bytes.ofString e.front ++ (u ++ [0x7d])) = some u := by
  have hbytes : Json.byteChars (Bytes.ofString e.front ++ (u ++ [0x7d])) =
      '\x7b' :: (stringField spread "key" e.key ++ (stringField spread "hash" e.hash ++
        (stringField spread "timestamp" e.timestamp.text ++ (byteLiteral "data" ++
          ':' :: (Json.byteChars u ++ ['\x7d']))))) := by
    rw [Json.byteChars_append, Json.byteChars_append, Json.byteChars_ofString, flatMap_front Json.spreads_spread]
    simp only [List.cons_append, List.append_assoc, List.nil_append, byteLiteral]
    rfl
  have hlast : ∀ fuel, Json.rawFields? (fuel + 1) (byteLiteral "data" ++ ':' :: (Json.byteChars u ++ ['\x7d'])) =
      some [(byteLiteral "data", Json.byteChars u)] := fun fuel => by
    rw [Json.rawFields?_step (Json.skipBlanks_cons (by decide) _) (Json.readFront?_literal Json.spreads_spread "data" _)
      hskip hdata (by decide), if_neg (by decide)]
  have hfields : ∀ fuel, 4 ≤ fuel → Json.rawFields? fuel (stringField spread "key" e.key ++
      (stringField spread "hash" e.hash ++ (stringField spread "timestamp" e.timestamp.text ++
        (byteLiteral "data" ++ ':' :: (Json.byteChars u ++ ['\x7d']))))) =
      some [(byteLiteral "key", byteLiteral e.key), (byteLiteral "hash", byteLiteral e.hash),
        (byteLiteral "timestamp", byteLiteral e.timestamp.text), (byteLiteral "data", Json.byteChars u)] := by
    intro fuel hfuel
    obtain ⟨n, rfl⟩ := Nat.exists_eq_add_of_le' hfuel
    rw [Json.rawFields?_stringField, Json.rawFields?_stringField, Json.rawFields?_stringField, hlast]
    rfl
  unfold Json.rawField?
  rw [hbytes, Json.skipBlanks_cons (by decide)]
  simp only []
  rw [hfields _ (by simp [stringField]; omega)]
  simp +decide [Json.read?_byteLiteral, Json.charBytes_byteChars]

/-- **An entry is read back** from its file, with the text of the data compacted, unless the data are as deep as
can be. -/
theorem ofBytes?_bytes? {e : Entry} {raw : Bytes} (h : e.bytes? = some raw) : ∃ data u,
    Json.read? e.data = some data ∧ Json.read? u = some data ∧ ofBytes? raw =
      if data.depth < Json.maxDepth then (Moment.parse? e.timestamp.text).map fun m => { e with timestamp := m, data := u }
      else none := by
  obtain ⟨u, hu, rfl⟩ := bytes?_eq_some h
  obtain ⟨data, hdata, hcompact, hin⟩ := Json.read?_compactBytes hu
  obtain ⟨hlossy, j, hbytes⟩ := hin _ Json.trails_brace
  refine ⟨data, u, hdata, hcompact, ?_⟩
  have hraw := rawField?_file (e := e) (Json.skipBlanks_compactBytes hu Json.trails_brace) hbytes
  rw [ofBytes?, read?_file hlossy, hraw]
  split_ifs with hdepth
  · cases hm : Moment.parse? e.timestamp.text with
    | none => simp +decide [json, Json.member_object, moment?, hm]
    | some m => simp +decide [json, Json.member_object, moment?, hm]
  · rfl

/-- What is read from an entry file has the key, the hash and the value of what was written. -/
theorem same_of_ofBytes? {e e' : Entry} {raw : Bytes} (h : e.bytes? = some raw) (h' : ofBytes? raw = some e') :
    e'.key = e.key ∧ e'.hash = e.hash ∧ Json.read? e'.data = Json.read? e.data := by
  obtain ⟨data, u, hdata, hu, hread⟩ := ofBytes?_bytes? h
  rw [hread] at h'
  split_ifs at h'
  obtain ⟨m, -, rfl⟩ := Option.map_eq_some_iff.mp h'
  exact ⟨rfl, rfl, hu.trans hdata.symm⟩

end ScriptSplit.Cache.Entry
