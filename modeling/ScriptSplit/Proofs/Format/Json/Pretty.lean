import Mathlib
import ScriptSplit.Proofs.Format.Json.Reader

/-!
# Values over several lines

The text with one entry a line differs from the compact one by blanks between tokens, so it is a text
of the same value and is read back.

* `pretty_text`: the text over several lines is a text of its value, whatever blanks the margin has.
* **`readFront?_pretty`**, **`read?_pretty`**: a plain value is read back from a file of its own.
-/

namespace ScriptSplit.Json

theorem blanks_append {b b' : List Char} (h : Blanks b) (h' : Blanks b') : Blanks (b ++ b') := by
  intro c hc
  rcases List.mem_append.mp hc with hc | hc
  · exact h c hc
  · exact h' c hc

theorem blanks_newline : Blanks ['\n'] := by
  intro c hc
  rw [List.mem_singleton.mp hc]
  decide

theorem blanks_deeper {margin : String} (h : Blanks margin.toList) : Blanks (margin ++ "  ").toList := by
  rw [String.toList_append]
  refine blanks_append h ?_
  intro c hc
  simp only [String.reduceToList, List.mem_cons, List.not_mem_nil, or_false, or_self] at hc
  rw [hc]
  decide

theorem toList_quote_pure (s : String) : (quote s).toList = '\x22' :: literal (fun c => [c]) s := by
  rw [← flatMap_quote spreads_pure, List.flatMap_singleton']

/-- The characters of an entry that another one follows. -/
theorem toList_entry (entry more : String) :
    (entry ++ ",\n" ++ more).toList = entry.toList ++ (',' :: '\n' :: more.toList) := by
  rw [String.toList_append, String.toList_append, List.append_assoc]
  rfl

/-- The characters between the two brackets of a value that is not empty. -/
theorem toList_enclosed (first last : Char) (body margin : String) :
    (String.ofList [first, '\n'] ++ body ++ "\n" ++ margin ++ String.ofList [last]).toList =
      first :: (['\n'] ++ body.toList ++ ('\n' :: margin.toList) ++ [last]) := by
  simp

mutual

/-- **The text over several lines** is a text of its value. -/
theorem pretty_text : ∀ (j : Json) (margin : String), Blanks margin.toList → Plain j →
    Text (fun c => [c]) j (prettyAt margin j).toList
  | .null, _, _, _ => by simp [Text, prettyAt]
  | .bool true, _, _, _ => by simp [Text, prettyAt]
  | .bool false, _, _, _ => by simp [Text, prettyAt]
  | .number l, _, _, h => by
    simp only [Plain] at h
    obtain ⟨n, rfl⟩ := h
    simp only [Text, prettyAt]
    exact ⟨n, rfl, rfl⟩
  | .string s, _, _, _ => by
    simp only [Text, prettyAt]
    exact ⟨s, (unspread_pure s).symm, toList_quote_pure s⟩
  | .array [], _, _, _ => by
    simp only [Text, prettyAt, ItemsText]
    exact ⟨[], rfl, blanks_nil⟩
  | .array (item :: rest), margin, hmargin, h => by
    simp only [Plain] at h
    rw [Text, prettyAt]
    refine ⟨_, toList_enclosed '[' ']' _ margin, ?_⟩
    exact pretty_itemsText (item :: rest) _ _ _ (blanks_deeper hmargin) blanks_newline
      (blanks_append blanks_newline hmargin) h
  | .object [], _, _, _ => by
    simp only [Text, prettyAt, FieldsText]
    exact ⟨[], rfl, blanks_nil⟩
  | .object (field :: rest), margin, hmargin, h => by
    simp only [Plain] at h
    rw [Text, prettyAt]
    refine ⟨_, toList_enclosed '\x7b' '\x7d' _ margin, ?_⟩
    exact pretty_fieldsText (field :: rest) _ _ _ (blanks_deeper hmargin) blanks_newline
      (blanks_append blanks_newline hmargin) h

theorem pretty_itemsText : ∀ (items : List Json) (margin : String) (lead tail : List Char),
    Blanks margin.toList → Blanks lead → Blanks tail → PlainItems items →
    ItemsText (fun c => [c]) items
      (lead ++ (",\n".intercalate (prettyItems margin items)).toList ++ tail)
  | [], margin, lead, tail, _, hlead, htail, _ => by
    simpa [ItemsText, prettyItems] using blanks_append hlead htail
  | [item], margin, lead, tail, hmargin, hlead, htail, h => by
    simp only [PlainItems] at h
    simp only [ItemsText, prettyItems, String.intercalate_singleton]
    refine ⟨lead ++ margin.toList, _, tail, blanks_append hlead hmargin, pretty_text item margin hmargin h.1,
      htail, .inl ⟨trivial, ?_⟩⟩
    simp
  | item :: next :: rest, margin, lead, tail, hmargin, hlead, htail, h => by
    rw [PlainItems] at h
    rw [ItemsText, prettyItems, prettyItems, String.intercalate_cons_cons, toList_entry]
    refine ⟨lead ++ margin.toList, _, [], blanks_append hlead hmargin,
      pretty_text item margin hmargin h.1, blanks_nil,
      .inr ⟨_, List.cons_ne_nil _ _,
        pretty_itemsText (next :: rest) margin ['\n'] tail hmargin blanks_newline htail h.2, ?_⟩⟩
    simp [prettyItems]

theorem pretty_fieldsText : ∀ (fields : List (String × Json)) (margin : String) (lead tail : List Char),
    Blanks margin.toList → Blanks lead → Blanks tail → PlainFields fields →
    FieldsText (fun c => [c]) fields
      (lead ++ (",\n".intercalate (prettyFields margin fields)).toList ++ tail)
  | [], margin, lead, tail, _, hlead, htail, _ => by
    simpa [FieldsText, prettyFields] using blanks_append hlead htail
  | [(key, value)], margin, lead, tail, hmargin, hlead, htail, h => by
    simp only [PlainFields] at h
    simp only [FieldsText, prettyFields, String.intercalate_singleton]
    refine ⟨lead ++ margin.toList, key, [], [' '], _, tail, blanks_append hlead hmargin,
      (unspread_pure key).symm, blanks_nil, by simp [Blanks, isBlank],
      pretty_text value margin hmargin h.1, htail, .inl ⟨trivial, ?_⟩⟩
    simp [toList_quote_pure]
  | (key, value) :: (key', value') :: rest, margin, lead, tail, hmargin, hlead, htail, h => by
    rw [PlainFields] at h
    rw [FieldsText, prettyFields, prettyFields, String.intercalate_cons_cons, toList_entry]
    refine ⟨lead ++ margin.toList, key, [], [' '], _, [], blanks_append hlead hmargin,
      (unspread_pure key).symm, blanks_nil, by simp [Blanks, isBlank],
      pretty_text value margin hmargin h.1, blanks_nil,
      .inr ⟨_, List.cons_ne_nil _ _,
        pretty_fieldsText ((key', value') :: rest) margin ['\n'] tail hmargin blanks_newline htail h.2, ?_⟩⟩
    simp [prettyFields, toList_quote_pure]

end

/-- **A plain value is read back** from the front of its file. -/
theorem readFront?_pretty {j : Json} (h : Readable maxDepth j) :
    readFront? (pretty j ++ "\n").toList = some (j, ['\n']) := by
  have htext : Text (fun c => [c]) j (pretty j).toList := pretty_text j "" blanks_nil h.plain
  have hends : Ends ['\n'] := ends_cons (by decide) []
  rw [String.toList_append]
  exact readFront?_text spreads_pure htext h.depth hends

/-- **The file of a plain value** holds that value and nothing else. -/
theorem read?_pretty {j : Json} (h : Readable maxDepth j) : read? (Bytes.ofString (pretty j ++ "\n")) = some j := by
  rw [read?, Utf8.decodeLossy_ofString, readChars?, readFront?_pretty h]
  rfl

end ScriptSplit.Json
