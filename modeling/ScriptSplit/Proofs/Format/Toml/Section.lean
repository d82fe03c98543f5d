import Mathlib
import ScriptSplit.Proofs.Format.Toml.Scalar
import ScriptSplit.Proofs.Text.Encoding
import ScriptSplit.Proofs.Text.Sorted

/-!
# Sections of TOML as they are written

The text of sections says, one after the other, the heading of each section and the fields under it.
The document that they make up has one entry for each table, and one for each list of tables.

* `Says`: the statements of a text, whatever the fuel.
* `Section.Fits`, **`says_sectionsText`**: the statements of written sections.
* `addSection`, **`run_sections`**: what they do to a document.
* **`read?_sectionsText`**: written sections are read back.
-/

namespace ScriptSplit.Toml

/-! ## Keys -/

/-- The text can stand as a key without quotes. -/
def IsKey (key : List Char) : Prop := key ≠ [] ∧ ∀ c ∈ key, isBareChar c = true

instance (key : List Char) : Decidable (IsKey key) := inferInstanceAs (Decidable (_ ∧ ∀ c ∈ key, _))

theorem ne_of_isBareChar {c d : Char} (hc : isBareChar c = true) (hd : isBareChar d = false) : c ≠ d := by
  rintro rfl
  simp [hc] at hd

theorem not_blank_of_isBareChar {c : Char} (hc : isBareChar c = true) : isBlank c = false := by
  simp [isBlank, ne_of_isBareChar hc (by decide : isBareChar ' ' = false),
    ne_of_isBareChar hc (by decide : isBareChar '\t' = false)]

theorem keyText?_bare {key : List Char} (hkey : ∀ c ∈ key, isBareChar c = true) (r : List Char) {fuel : Nat}
    (hfuel : key.length < fuel) : keyText? fuel (key ++ ' ' :: '=' :: r) = some (key, '=' :: r) := by
  induction key generalizing fuel with
  | nil =>
    obtain ⟨fuel, rfl⟩ := Nat.exists_eq_succ_of_ne_zero hfuel.ne'
    rw [List.nil_append, keyText?.eq_def]
    simp [isBlank]
  | cons c key ih =>
    obtain ⟨fuel, rfl⟩ := Nat.exists_eq_succ_of_ne_zero (Nat.ne_zero_of_lt hfuel)
    rw [List.forall_mem_cons] at hkey
    have hne : ∀ d : Char, isBareChar d = false → c ≠ d := fun d => ne_of_isBareChar hkey.1
    rw [List.cons_append, keyText?.eq_def]
    simp [hne '=' (by decide), hne '\x22' (by decide), hne '\x27' (by decide), not_blank_of_isBareChar hkey.1,
      hkey.1, ih hkey.2 (by simpa using hfuel)]

theorem keyParts?_bare {key : List Char} (hkey : IsKey key) : keyParts? key = some [String.ofList key] := by
  obtain ⟨c, key', rfl⟩ := List.exists_cons_of_ne_nil hkey.1
  have hbare := hkey.2
  rw [List.forall_mem_cons] at hbare
  have hfrom : keyPartsFrom? ((c :: key').length + 1) (c :: key') = some [String.ofList (c :: key')] := by
    rw [keyPartsFrom?.eq_def]
    simp [not_blank_of_isBareChar hbare.1, hbare.1, List.dropWhile_eq_nil_iff.mpr hbare.2,
      List.takeWhile_eq_self_iff.mpr hbare.2]
  rw [keyParts?, hfrom]

theorem keyAndEquals?_bare {key : List Char} (hkey : IsKey key) (r : List Char) :
    keyAndEquals? (key ++ ' ' :: '=' :: r) = some ([String.ofList key], r) := by
  rw [keyAndEquals?, keyText?_bare hkey.2 r (by simp)]
  simp [keyParts?_bare hkey, skipSpace, isBlankOrBreak, isBlank, after?]

/-! ## Statements -/

theorem head_toText {v : Value} (hv : v.Fits) :
    ∃ c r, v.toText.toList = c :: r ∧ isBlankOrBreak c = false ∧ c ≠ '#' := by
  cases v with
  | text s => exact ⟨'\x22', _, toList_quote s, by decide, by decide⟩
  | int n =>
    obtain ⟨n, rfl⟩ := Int.eq_ofNat_of_zero_le hv.1
    rw [Value.toText, Json.toString_ofNat, String.toList_ofList]
    cases hds : Nat.toDigits 10 n with
    | nil => exact absurd hds Nat.toDigits_ne_nil
    | cons d ds =>
      have hd : d.isDigit = true :=
        Nat.isDigit_of_mem_toDigits (by decide) (by decide) (hds ▸ List.mem_cons_self)
      have hne : ∀ c : Char, c.isDigit = false → d ≠ c := fun c => ne_of_isDigit hd
      exact ⟨d, ds, rfl, by simp [isBlankOrBreak, isBlank, hne ' ', hne '\t', hne '\n', hne '\r'], hne '#' (by decide)⟩
  | bool b =>
    cases b
    · exact ⟨'f', _, rfl, by decide, by decide⟩
    · exact ⟨'t', _, rfl, by decide, by decide⟩
  | texts items => exact ⟨'[', _, toList_texts items, by decide, by decide⟩

/-- No value stands below the equals sign where one stands behind it. -/
theorem nextLine?_value {c : Char} (hbreak : isBlankOrBreak c = false) (hcomment : c ≠ '#') (r : List Char) :
    nextLine? (' ' :: c :: r) = none := by
  simp only [isBlankOrBreak, Bool.or_eq_false_iff, decide_eq_false_iff_not] at hbreak
  rw [nextLine?, List.dropWhile_cons_of_pos (by decide), List.dropWhile_cons_of_neg (by simp [hbreak.1.1])]
  split
  · next h => exact absurd (List.cons.inj h).1 hbreak.1.2
  · next h => exact absurd (List.cons.inj h).1 hbreak.2
  · next h => exact absurd (List.cons.inj h).1 hcomment
  · rfl

/-- A line that starts with a key is an assignment. -/
theorem statement?_key {key : List Char} (hkey : IsKey key) {r : List Char} (hline : nextLine? r = none) :
    statement? (key ++ ' ' :: '=' :: r) =
      (value? (r.length + 1) r).bind fun p =>
        (lineEnd? p.2).bind fun rest => some (.assign [String.ofList key] p.1, rest) := by
  rw [statement?.eq_def]
  split
  · next h =>
    obtain ⟨d, key', rfl⟩ := List.exists_cons_of_ne_nil hkey.1
    exact absurd (List.cons.inj h).1 (ne_of_isBareChar (hkey.2 d List.mem_cons_self) (by decide))
  · next h =>
    obtain ⟨d, key', rfl⟩ := List.exists_cons_of_ne_nil hkey.1
    exact absurd (List.cons.inj h).1 (ne_of_isBareChar (hkey.2 d List.mem_cons_self) (by decide))
  · rw [keyAndEquals?_bare hkey]
    simp only [Option.bind_eq_bind, Option.bind_some, emptyListBelow?, hline, Option.bind_none]

/-- An assignment on a line of its own. -/
theorem statement?_field {key : List Char} (hkey : IsKey key) {v : Value} (hv : v.Fits) (rest : List Char) :
    statement? (key ++ ' ' :: '=' :: ' ' :: (v.toText.toList ++ '\n' :: rest)) =
      some (.assign [String.ofList key] (.value v.toDatum), rest) := by
  obtain ⟨c, r, htext, hbreak, hcomment⟩ := head_toText hv
  have hline : nextLine? (' ' :: (v.toText.toList ++ '\n' :: rest)) = none := by
    rw [htext, List.cons_append]
    exact nextLine?_value hbreak hcomment _
  rw [statement?_key hkey hline, value?_blank, value?_toText hv rest (by simp; omega)]
  simp [lineEnd?, isBlank]

/-- A string in which the last control character stands makes no assignment. -/
theorem statement?_lost {key cs : List Char} (hkey : IsKey key) (hcs : ∀ c ∈ cs, Spared c) (rest : List Char) :
    statement? (key ++ ' ' :: '=' :: ' ' :: '\x22' :: (cs.flatMap escape ++ '\x1f' :: rest)) = none := by
  rw [statement?_key hkey (nextLine?_value (by decide) (by decide) _), value?_blank,
    value?_scalar (r := '\x22' :: (cs.flatMap escape ++ '\x1f' :: rest)) (by simp [isBlank]) (by simp) (by simp),
    scalar?_lost hcs]
  rfl

theorem heading?_bare {name : List Char} (hname : IsKey name) (rest : List Char) :
    heading? (name ++ ']' :: rest) = some (name, rest) := by
  have hinside : ∀ c ∈ name, (c ≠ ']' && c ≠ '[') = true := fun c hc => by
    simp [ne_of_isBareChar (hname.2 c hc) (by decide : isBareChar ']' = false),
      ne_of_isBareChar (hname.2 c hc) (by decide : isBareChar '[' = false)]
  rw [heading?, List.dropWhile_append_of_pos hinside, List.takeWhile_append_of_pos hinside]
  simp [hname.1]

/-- The heading of a table. -/
theorem statement?_table {name : List Char} (hname : IsKey name) (rest : List Char) :
    statement? ('[' :: (name ++ ']' :: rest)) = some (.table name, rest) := by
  rw [statement?.eq_def]
  split
  · next h =>
    obtain ⟨d, name', rfl⟩ := List.exists_cons_of_ne_nil hname.1
    rw [List.cons_append] at h
    exact absurd (List.cons.inj (List.cons.inj h).2).1 (ne_of_isBareChar (hname.2 d List.mem_cons_self) (by decide))
  · next h =>
    rw [← (List.cons.inj h).2, heading?_bare hname]
    rfl
  · next h => exact absurd rfl (h _)

/-- The heading of one more table of a list. -/
theorem statement?_tableItem {name : List Char} (hname : IsKey name) (rest : List Char) :
    statement? ('[' :: '[' :: (name ++ ']' :: ']' :: rest)) = some (.tableItem name, rest) := by
  rw [statement?, heading?_bare hname]
  rfl

/-! ## Texts and their statements -/

/-- The text has these statements, and the reader finds them with any fuel beyond its length. -/
def Says (cs : List Char) (ss : List Statement) : Prop :=
  ∀ fuel, cs.length < fuel → statementsFrom? fuel cs = some ss

theorem says_nil : Says [] [] := by
  intro fuel hfuel
  obtain ⟨fuel, rfl⟩ := Nat.exists_eq_succ_of_ne_zero (Nat.ne_zero_of_lt hfuel)
  rw [statementsFrom?, skipSpace]

/-- What the reader skips in front says nothing. -/
theorem Says.skip {cs cs' : List Char} {ss : List Statement} (h : Says cs' ss)
    (hskip : skipSpace false cs = skipSpace false cs') (hlength : cs'.length ≤ cs.length) : Says cs ss := by
  intro fuel hfuel
  rw [← h fuel (by omega)]
  cases fuel with
  | zero => omega
  | succ fuel => rw [statementsFrom?, statementsFrom?, hskip]

theorem Says.cons {cs rest : List Char} {s : Statement} {ss : List Statement} (h : Says rest ss)
    (hskip : skipSpace false cs = cs) (hs : statement? cs = some (s, rest)) (hlength : rest.length < cs.length) :
    Says cs (s :: ss) := by
  intro fuel hfuel
  obtain ⟨fuel, rfl⟩ := Nat.exists_eq_succ_of_ne_zero (Nat.ne_zero_of_lt hfuel)
  rw [statementsFrom?, hskip]
  split
  · simp at hlength
  · rw [hs]
    simp [h fuel (by omega)]

/-- The text cannot be read. -/
def Lost (cs : List Char) : Prop := ∀ fuel, statementsFrom? fuel cs = none

theorem lost_here {cs r : List Char} (hskip : skipSpace false cs = r) (hr : r ≠ []) (hs : statement? r = none) :
    Lost cs := by
  intro fuel
  cases fuel with
  | zero => rw [statementsFrom?]
  | succ fuel =>
    rw [statementsFrom?, hskip]
    split
    · exact absurd rfl hr
    · rw [hs]
      rfl

theorem Lost.cons {cs r rest : List Char} {s : Statement} (h : Lost rest) (hskip : skipSpace false cs = r)
    (hr : r ≠ []) (hs : statement? r = some (s, rest)) : Lost cs := by
  intro fuel
  cases fuel with
  | zero => rw [statementsFrom?]
  | succ fuel =>
    rw [statementsFrom?, hskip]
    split
    · exact absurd rfl hr
    · rw [hs]
      simp [h fuel]

theorem skipSpace_comment {l : List Char} (hl : '\n' ∉ l) (r : List Char) :
    skipSpace true (l ++ '\n' :: r) = skipSpace false r := by
  induction l with
  | nil => simp [skipSpace]
  | cons c l ih =>
    rw [List.mem_cons, not_or] at hl
    rw [List.cons_append, skipSpace]
    simp [Ne.symm hl.1, ih hl.2]

/-! ## Written sections -/

/-- The field can be written so that it is read back. -/
structure Field.Fits (f : Field) : Prop where
  key : IsKey f.key.toList
  comment : '\n' ∉ f.comment.toList
  value : f.value.Fits

/-- The section can be written so that it is read back. -/
structure Section.Fits (s : Section) : Prop where
  name : IsKey s.name.toList
  fields : ∀ f ∈ s.fields, f.Fits
  distinct : (s.fields.map Field.key).Nodup

/-- The statement that a field makes. -/
def Field.statement (f : Field) : Statement := .assign [f.key] (.value f.value.toDatum)

/-- The statements that a section makes. -/
def Section.statements (s : Section) : List Statement :=
  (if s.inList then .tableItem s.name.toList else .table s.name.toList) :: s.fields.map Field.statement

variable {rest : List Char} {ss : List Statement}

theorem says_break (h : Says rest ss) : Says ('\n' :: rest) ss :=
  h.skip (by rw [skipSpace, if_pos (by decide)]) (by simp)

/-- A line of comment says nothing. -/
theorem says_comment {l : List Char} (hl : '\n' ∉ l) (h : Says rest ss) : Says ('#' :: (l ++ '\n' :: rest)) ss := by
  refine h.skip ?_ (by simp; omega)
  rw [skipSpace, if_neg (by decide), if_pos rfl, skipSpace_comment hl]

theorem says_blank (h : Says rest ss) : Says (' ' :: rest) ss :=
  h.skip (by rw [skipSpace, if_pos (by decide)]) (by simp)

theorem skipSpace_key {key : List Char} (hkey : IsKey key) (r : List Char) :
    skipSpace false (key ++ r) = key ++ r := by
  obtain ⟨c, key, rfl⟩ := List.exists_cons_of_ne_nil hkey.1
  have hbare : isBareChar c = true := hkey.2 c List.mem_cons_self
  have hne : ∀ d : Char, isBareChar d = false → c ≠ d := fun d => ne_of_isBareChar hbare
  rw [List.cons_append, skipSpace, if_neg, if_neg (hne '#' (by decide))]
  simp [isBlankOrBreak, not_blank_of_isBareChar hbare, hne '\n' (by decide), hne '\r' (by decide)]

theorem says_field {f : Field} (hf : f.Fits) (h : Says rest ss) :
    Says (f.toText.toList ++ rest) (f.statement :: ss) := by
  have hline : Says (f.key.toList ++ ' ' :: '=' :: ' ' :: (f.value.toText.toList ++ '\n' :: rest)) (f.statement :: ss) := by
    refine Says.cons h (skipSpace_key hf.key _) ?_ (by simp; omega)
    rw [statement?_field hf.key hf.value, String.ofList_toList]
    rfl
  have hindent := says_blank (says_blank hline)
  unfold Field.toText
  split
  · simpa using hindent
  · have := says_break (says_blank (says_blank (says_comment (l := ' ' :: f.comment.toList)
      (by simpa using hf.comment) hindent)))
    simpa using this

theorem says_fields {fields : List Field} (hf : ∀ f ∈ fields, f.Fits) (h : Says rest ss) :
    Says (fields.flatMap (fun f => f.toText.toList) ++ rest) (fields.map Field.statement ++ ss) := by
  induction fields with
  | nil => exact h
  | cons f fields ih =>
    rw [List.forall_mem_cons] at hf
    rw [List.flatMap_cons, List.append_assoc]
    exact says_field hf.1 (ih hf.2)

theorem says_section {s : Section} (hs : s.Fits) (h : Says rest ss) :
    Says (s.toText.toList ++ rest) (s.statements ++ ss) := by
  have hfields := says_break (says_fields hs.fields h)
  have htext : (String.join (s.fields.map Field.toText)).toList = s.fields.flatMap fun f => f.toText.toList := by
    rw [String.toList_join, List.flatMap_map]
  unfold Section.toText Section.statements
  split
  · have hitem : Says ('[' :: '[' :: (s.name.toList ++ ']' :: ']' :: '\n' ::
        (s.fields.flatMap (fun f => f.toText.toList) ++ rest)))
        (.tableItem s.name.toList :: (s.fields.map Field.statement ++ ss)) :=
      hfields.cons (by rw [skipSpace, if_neg (by decide), if_neg (by decide)]) (statement?_tableItem hs.name _)
        (by simp; omega)
    simpa [htext] using says_break hitem
  · have htable : Says ('[' :: (s.name.toList ++ ']' :: '\n' ::
        (s.fields.flatMap (fun f => f.toText.toList) ++ rest)))
        (.table s.name.toList :: (s.fields.map Field.statement ++ ss)) :=
      hfields.cons (by rw [skipSpace, if_neg (by decide), if_neg (by decide)]) (statement?_table hs.name _)
        (by simp; omega)
    simpa [htext] using says_break htable

/-- **The statements of written sections.** -/
theorem says_sectionsText {sections : List Section} (h : ∀ s ∈ sections, s.Fits) :
    Says (sectionsText sections).toList (sections.flatMap Section.statements) := by
  rw [sectionsText, String.toList_join, List.flatMap_map]
  induction sections with
  | nil => exact says_nil
  | cons s sections ih =>
    rw [List.forall_mem_cons] at h
    exact says_section h.1 (ih h.2)

/-! ## The document of written sections -/

/-- The entries of a written section. -/
def Section.entries (s : Section) : List (String × Tree) :=
  s.fields.map fun f => (f.key, .value f.value.toDatum)

/-- The table of a written section. -/
def Section.table (s : Section) : Tree := .table false s.entries

/-- The tables of a list of tables that a document has. -/
def listed (entries : List (String × Tree)) (name : String) : List Tree :=
  match entries.lookup name with
  | some (.tables items) => items
  | _ => []

/-- A table on its own, or the last of a list of tables. -/
def holding (front : Option (List Tree)) (t : Tree) : Tree :=
  match front with
  | none => t
  | some items => .tables (items ++ [t])

/-- The tables before that of a section in a list of tables. -/
def Section.front (s : Section) (entries : List (String × Tree)) : Option (List Tree) :=
  if s.inList then some (listed entries s.name) else none

/-- The entries of a document with one more section. -/
def addSection (entries : List (String × Tree)) (s : Section) : List (String × Tree) :=
  Tree.setEntry s.name (holding (s.front entries) s.table) entries

/-- The section goes well with the document: its name is new, or both have a list of tables there. -/
def Admits (entries : List (String × Tree)) (s : Section) : Prop :=
  ∀ t, entries.lookup s.name = some t → s.inList = true ∧ ∃ items, t = .tables items

section Entries

variable {key key' : String} {t t' : Tree} {entries : List (String × Tree)}

theorem isNone_lookup_iff : entries.lookup key = none ↔ ∀ p ∈ entries, p.1 ≠ key := by
  rw [List.lookup_eq_none_iff]
  exact forall₂_congr fun p _ => by rw [bne_iff_ne, ne_comm]

theorem setEntry_new (h : entries.lookup key = none) : Tree.setEntry key t entries = entries ++ [(key, t)] := by
  rw [Tree.setEntry, h, if_neg (by simp)]

theorem setEntry_old (h : entries.lookup key = some t') :
    Tree.setEntry key t entries = entries.map fun p => if p.1 = key then (key, t) else p := by
  rw [Tree.setEntry, h, if_pos Option.isSome_some]

theorem lookup_replaced (es : List (String × Tree)) :
    (es.map fun p => if p.1 = key then (key, t) else p).lookup key' =
      if key' = key then (es.lookup key').map fun _ => t else es.lookup key' := by
  induction es with
  | nil => simp
  | cons p es ih =>
    obtain ⟨k, u⟩ := p
    rw [Dict.lookup_cons_eq, List.map_cons]
    by_cases hk : k = key
    · subst hk
      rw [if_pos rfl, Dict.lookup_cons_eq, ih]
      split <;> simp
    · rw [if_neg hk, Dict.lookup_cons_eq, ih]
      split
      · next heq => rw [if_neg (heq ▸ hk)]
      · rfl

theorem lookup_setEntry : (Tree.setEntry key t entries).lookup key' =
    if key' = key then some t else entries.lookup key' := by
  cases hold : entries.lookup key with
  | none =>
    rw [setEntry_new hold, List.lookup_append, Dict.lookup_cons_eq]
    split
    · next heq => rw [heq, hold, Option.none_or]
    · rw [List.lookup_nil, Option.or_none]
  | some u =>
    rw [setEntry_old hold, lookup_replaced]
    split
    · next heq => rw [heq, hold, Option.map_some]
    · rfl

theorem setEntry_setEntry :
    Tree.setEntry key t' (Tree.setEntry key t entries) = Tree.setEntry key t' entries := by
  have hnow : (Tree.setEntry key t entries).lookup key = some t := by rw [lookup_setEntry, if_pos rfl]
  rw [setEntry_old hnow]
  cases hold : entries.lookup key with
  | none =>
    have hother : entries.map (fun p => if p.1 = key then (key, t') else p) = entries := by
      conv_rhs => rw [← List.map_id entries]
      exact List.map_congr_left fun p hp => if_neg (isNone_lookup_iff.mp hold p hp)
    rw [setEntry_new hold, setEntry_new hold, List.map_append, hother]
    simp
  | some u =>
    rw [setEntry_old hold, setEntry_old hold, List.map_map]
    refine List.map_congr_left fun p _ => ?_
    by_cases hp : p.1 = key <;> simp [hp]

theorem key_mem_setEntry (h : key' ∈ entries.map Prod.fst) :
    key' ∈ (Tree.setEntry key t entries).map Prod.fst := by
  unfold Tree.setEntry
  split
  · rw [List.map_map]
    obtain ⟨p, hp, rfl⟩ := List.mem_map.mp h
    refine List.mem_map.mpr ⟨p, hp, ?_⟩
    by_cases heq : p.1 = key <;> simp [heq]
  · simp [h]

end Entries

theorem onInner?_holding (f : Tree → Option Tree) (front : Option (List Tree)) (closed : Bool)
    (es : List (String × Tree)) :
    Tree.onInner? f (holding front (.table closed es)) = (f (.table closed es)).map (holding front) := by
  cases front with
  | none =>
    change f (.table closed es) = (f (.table closed es)).map id
    rw [Option.map_id_apply]
  | some items =>
    simp only [holding, Tree.onInner?, List.getLast?_concat, List.dropLast_concat, Option.bind_eq_bind,
      Option.bind_some]
    cases f (.table closed es) <;> rfl

/-- An assignment adds a field to the current table. -/
theorem step?_assign {name key : String} {front : Option (List Tree)} {es entries : List (String × Tree)}
    {seen : List (List Char)} (hkey : es.lookup key = none) (x : Tree) :
    Builder.step? ⟨.table false (Tree.setEntry name (holding front (.table false es)) entries), [name], seen⟩
        (.assign [key] x) =
      some ⟨.table false (Tree.setEntry name (holding front (.table false (es ++ [(key, x)]))) entries), [name], seen⟩ := by
  have hadd : Tree.addField? key x (.table false es) = some (.table false (es ++ [(key, x)])) := by
    simp [Tree.addField?, hkey]
  have hinner := onInner?_holding (Tree.addField? key x) front false es
  rw [hadd, Option.map_some] at hinner
  simp [Builder.step?, Tree.assign?, Tree.grow?, Tree.onInner?.eq_2, lookup_setEntry, hinner, setEntry_setEntry]

section Runs

variable {entries : List (String × Tree)} {seen : List (List Char)} {cur : List String}

theorem run_fields {fields : List Field} (name : String) (front : Option (List Tree)) {es : List (String × Tree)}
    (hkeys : (es.map Prod.fst ++ fields.map Field.key).Nodup) :
    (fields.map Field.statement).foldlM Builder.step?
        ⟨.table false (Tree.setEntry name (holding front (.table false es)) entries), [name], seen⟩ =
      some ⟨.table false (Tree.setEntry name (holding front (.table false
        (es ++ fields.map fun f => (f.key, .value f.value.toDatum)))) entries), [name], seen⟩ := by
  induction fields generalizing es with
  | nil => simp
  | cons f fields ih =>
    have hnew : es.lookup f.key = none := by
      rw [isNone_lookup_iff]
      intro p hp heq
      have hdisjoint := (List.nodup_append.mp hkeys).2.2
      exact hdisjoint p.1 (List.mem_map_of_mem hp) f.key (by simp) heq
    rw [List.map_cons, List.foldlM_cons, Field.statement, step?_assign hnew, Option.bind_eq_bind, Option.bind_some,
      ih (by simpa using hkeys)]
    simp

/-- The headings that were seen are names of the document. -/
def SeenNamed (entries : List (String × Tree)) (seen : List (List Char)) : Prop :=
  ∀ text ∈ seen, String.ofList text ∈ entries.map Prod.fst

theorem step?_heading {s : Section} (hs : s.Fits) (hadmits : Admits entries s) (hseen : SeenNamed entries seen) :
    ∃ seen', Builder.step? ⟨.table false entries, cur, seen⟩
        (if s.inList then .tableItem s.name.toList else .table s.name.toList) =
        some ⟨.table false (Tree.setEntry s.name (holding (s.front entries) .empty) entries), [s.name], seen'⟩ ∧
      ∀ text ∈ seen', text ∈ seen ∨ text = s.name.toList := by
  have hparts := keyParts?_bare hs.name
  rw [String.ofList_toList] at hparts
  cases hlist : s.inList with
  | false =>
    have hnew : entries.lookup s.name = none := by
      cases hold : entries.lookup s.name with
      | none => rfl
      | some t => exact absurd (hadmits t hold).1 (by simp [hlist])
    have hunseen : s.name.toList ∉ seen := fun h => by
      obtain ⟨p, hp, hkey⟩ := List.mem_map.mp (hseen _ h)
      exact isNone_lookup_iff.mp hnew p hp (by rw [hkey, String.ofList_toList])
    refine ⟨seen ++ [s.name.toList], ?_, by simp⟩
    simp [Builder.step?, Builder.openTable?, hunseen, hparts, Tree.grow?, Tree.onInner?, hnew, Tree.get?, Tree.inner?,
      lookup_setEntry, isClosed, Section.front, hlist, holding, Tree.empty]
  | true =>
    have hget : Tree.get? [s.name] (.table false entries) = entries.lookup s.name := by
      simp [Tree.get?, Tree.inner?]
    refine ⟨seen.filter (fun t => !(s.name.toList ++ ['.']).isPrefixOf t) ++ [s.name.toList], ?_, ?_⟩
    · simp only [Builder.step?, Builder.openItem?, if_true, hparts, Option.bind_eq_bind, Option.bind_some,
        List.dropLast_singleton, Tree.grow?, Tree.onInner?, Option.getD_some, hget, Tree.put]
      simp only [Section.front, hlist, if_true, holding, listed]
      cases hold : entries.lookup s.name with
      | none => rfl
      | some t =>
        obtain ⟨-, items, rfl⟩ := hadmits t hold
        rfl
    · intro text htext
      rcases List.mem_append.mp htext with h | h
      · exact .inl (List.mem_of_mem_filter h)
      · exact .inr (List.mem_singleton.mp h)

/-- **What the statements of a section do to a document.** -/
theorem run_section {s : Section} (hs : s.Fits) (hadmits : Admits entries s) (hseen : SeenNamed entries seen) :
    ∃ seen', s.statements.foldlM Builder.step? ⟨.table false entries, cur, seen⟩ =
        some ⟨.table false (addSection entries s), [s.name], seen'⟩ ∧ SeenNamed (addSection entries s) seen' := by
  obtain ⟨seen', hstep, hnew⟩ := step?_heading hs hadmits hseen
  refine ⟨seen', ?_, fun text htext => ?_⟩
  · rw [Section.statements, List.foldlM_cons, hstep, Option.bind_eq_bind, Option.bind_some, Tree.empty,
      run_fields s.name _ (by simpa using hs.distinct), List.nil_append]
    rfl
  · rcases hnew text htext with h | rfl
    · exact key_mem_setEntry (hseen text h)
    · have hlookup : (addSection entries s).lookup s.name = some (holding (s.front entries) s.table) := by
        rw [addSection, lookup_setEntry, if_pos rfl]
      rw [String.ofList_toList]
      exact List.mem_map_of_mem (f := Prod.fst) (Dict.mem_of_lookup hlookup)

/-- A section goes well with a document that got another one, if two tables of a name are in a list. -/
theorem Admits.add {s s' : Section} (h : Admits entries s) (hs : s'.name = s.name → s'.inList ∧ s.inList) :
    Admits (addSection entries s') s := by
  intro t ht
  rw [addSection, lookup_setEntry] at ht
  split at ht
  · next heq =>
    obtain ⟨hs', hs⟩ := hs heq.symm
    refine ⟨hs, listed entries s'.name ++ [s'.table], ?_⟩
    rw [← Option.some_inj.mp ht, Section.front, if_pos hs', holding]
  · exact h t ht

/-- **What the statements of sections do to a document.** -/
theorem run_sections (cur : List String) {sections : List Section} (hfits : ∀ s ∈ sections, s.Fits)
    (hnames : sections.Pairwise fun s s' => s.name = s'.name → s.inList ∧ s'.inList)
    (hadmits : ∀ s ∈ sections, Admits entries s) (hseen : SeenNamed entries seen) :
    ∃ b, (sections.flatMap Section.statements).foldlM Builder.step? ⟨.table false entries, cur, seen⟩ = some b ∧
      b.root = .table false (sections.foldl addSection entries) := by
  induction sections generalizing entries seen cur with
  | nil => exact ⟨_, rfl, rfl⟩
  | cons s sections ih =>
    rw [List.forall_mem_cons] at hfits hadmits
    rw [List.pairwise_cons] at hnames
    obtain ⟨seen', hrun, hseen'⟩ := run_section hfits.1 hadmits.1 hseen
    obtain ⟨b, hb, hroot⟩ := ih [s.name] hfits.2 hnames.2
      (fun s' hs' => (hadmits.2 s' hs').add (hnames.1 s' hs')) hseen'
    refine ⟨b, ?_, hroot⟩
    rw [List.flatMap_cons, List.foldlM_append, hrun]
    exact hb

end Runs

/-! ## Reading -/

/-- Lines that are empty or comments. -/
inductive IsComment : List Char → Prop
  | nil : IsComment []
  | empty {cs : List Char} (h : IsComment cs) : IsComment ('\n' :: cs)
  | line {l cs : List Char} (hl : '\n' ∉ l) (h : IsComment cs) : IsComment ('#' :: (l ++ '\n' :: cs))

/-- A text that is spelled out is made from its characters, so that none of it is decoded. -/
theorem notMem_toList_ofList {x : Char} {l : List Char} (h : x ∉ l) : x ∉ (String.ofList l).toList := by
  rwa [String.toList_ofList]

theorem IsComment.text (line rest : String) (hline : '\n' ∉ line.toList) (hrest : IsComment rest.toList) :
    IsComment ("#" ++ line ++ "\n" ++ rest).toList := by
  have hcomment := IsComment.line hline hrest
  rw [String.toList_append, String.toList_append, String.toList_append, List.append_assoc]
  exact hcomment

theorem IsComment.skipSpace {cs : List Char} (h : IsComment cs) (rest : List Char) :
    skipSpace false (cs ++ rest) = skipSpace false rest := by
  induction h with
  | nil => rfl
  | empty _ ih => rw [List.cons_append, Toml.skipSpace, if_pos (by decide), ih]
  | line hl _ ih =>
    rw [List.cons_append, List.append_assoc, List.cons_append, Toml.skipSpace, if_neg (by decide), if_pos rfl,
      skipSpace_comment hl, ih]

theorem IsComment.says {cs rest : List Char} {ss : List Statement} (hcs : IsComment cs) (h : Says rest ss) :
    Says (cs ++ rest) ss :=
  h.skip (hcs.skipSpace rest) (by simp)

/-- The text starts a line or a comment, or is empty. -/
theorem dropMark_ofString {s : String} (hs : ∀ {c}, s.toList.head? = some c → c = '\n' ∨ c = '#') :
    dropMark (Bytes.ofString s) = Bytes.ofString s := by
  rw [Bytes.ofString_eq]
  cases hlist : s.toList with
  | nil => rfl
  | cons c cs =>
    rw [List.flatMap_cons]
    rcases hs (by rw [hlist, List.head?_cons]) with rfl | rfl
    · rw [show String.utf8EncodeChar '\n' = [0x0a] by decide, List.singleton_append]
      rfl
    · rw [show String.utf8EncodeChar '#' = [0x23] by decide, List.singleton_append]
      rfl

theorem head_sectionsText (sections : List Section) {c : Char}
    (h : (sectionsText sections).toList.head? = some c) : c = '\n' := by
  rw [sectionsText, String.toList_join] at h
  cases sections with
  | nil => cases h
  | cons s sections =>
    rw [List.map_cons, List.flatMap_cons, Section.toText] at h
    split at h
    · simpa [eq_comm] using h
    · simpa [eq_comm] using h

theorem IsComment.head {front r : List Char} (h : IsComment front) (hr : ∀ {c}, r.head? = some c → c = '\n') {c : Char}
    (hc : (front ++ r).head? = some c) : c = '\n' ∨ c = '#' := by
  cases h with
  | nil => exact .inl (hr hc)
  | empty => exact .inl (Option.some_inj.mp hc).symm
  | line => exact .inr (Option.some_inj.mp hc).symm

/-- **Written sections are read back**, below lines of comment, as the document that they make up. -/
theorem read?_sectionsText {sections : List Section} {front : List Char} {text : String}
    (htext : text.toList = front ++ (sectionsText sections).toList) (hfront : IsComment front)
    (hfits : ∀ s ∈ sections, s.Fits)
    (hnames : sections.Pairwise fun s s' => s.name = s'.name → s.inList ∧ s'.inList) :
    read? (Bytes.ofString text) = some (Tree.table false (sections.foldl addSection [])).toDatum := by
  have hhead : ∀ {c}, text.toList.head? = some c → c = '\n' ∨ c = '#' := fun hc =>
    hfront.head (head_sectionsText sections) (htext ▸ hc)
  have hsays := hfront.says (says_sectionsText hfits)
  obtain ⟨b, hrun, hroot⟩ := run_sections [] hfits hnames
    (fun s _ t (ht : List.lookup s.name [] = some t) => by cases ht) (fun text (htext : text ∈ []) => by cases htext)
  rw [← htext] at hsays
  rw [read?, dropMark_ofString hhead, Utf8.decodeLossy_ofString, statements?, hsays _ (Nat.lt_succ_self _)]
  simp only [Option.bind_eq_bind, Option.bind_some, Tree.empty, hrun, hroot]

/-- A text in whose first field the last control character stands is not read. -/
theorem read?_lost {name key : String} {cs rest front : List Char} {text : String} (hfront : IsComment front)
    (htext : text.toList = front ++ '\n' :: '[' :: (name.toList ++ ']' :: '\n' :: ' ' :: ' ' ::
      (key.toList ++ ' ' :: '=' :: ' ' :: '\x22' :: (cs.flatMap escape ++ '\x1f' :: rest))))
    (hname : IsKey name.toList) (hkey : IsKey key.toList) (hcs : ∀ c ∈ cs, Spared c) :
    read? (Bytes.ofString text) = none := by
  have hhead : ∀ {c}, text.toList.head? = some c → c = '\n' ∨ c = '#' := fun hc => by
    rw [htext] at hc
    refine hfront.head (fun h => ?_) hc
    simpa [eq_comm] using h
  have hfield : Lost ('\n' :: ' ' :: ' ' ::
      (key.toList ++ ' ' :: '=' :: ' ' :: '\x22' :: (cs.flatMap escape ++ '\x1f' :: rest))) := by
    refine lost_here ?_ (by simp) (statement?_lost hkey hcs rest)
    rw [skipSpace, if_pos (by decide), skipSpace, if_pos (by decide), skipSpace, if_pos (by decide), skipSpace_key hkey]
  have hlost : Lost text.toList := by
    rw [htext]
    refine hfield.cons ?_ (by simp) (statement?_table hname _)
    rw [hfront.skipSpace, skipSpace, if_pos (by decide), skipSpace, if_neg (by decide), if_neg (by decide)]
  rw [read?, dropMark_ofString hhead, Utf8.decodeLossy_ofString, statements?, hlost]
  rfl

end ScriptSplit.Toml
