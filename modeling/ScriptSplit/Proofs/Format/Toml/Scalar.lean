import Mathlib
import ScriptSplit.Format.Toml.Reader
import ScriptSplit.Format.Toml.Writer
import ScriptSplit.Proofs.Format.Json.Reader

/-!
# Scalars of TOML as they are written

The reader takes a written value off the front of a text. Strings need care: the writer decides by the
last sixteen bits of a code whether a character is escaped, so some characters are not read back.

* `Spared`: the characters that survive; **`basicChars?_escape`**: strings of them are read back.
* `signedNumber?_digits`: so are numbers in 64 bits.
* `Value.toDatum`, `Value.Fits`: what a written value says; **`value?_toText`**: it is read back.
-/

namespace ScriptSplit.Toml

/-! ## Strings -/

/-- The character is read back as it was written: it is not the last control character, which is
written as it is, and the last bits of its code do not make it pass for a control character. -/
def Spared (c : Char) : Prop := c.toNat ≠ 0x1f ∧ (c.toNat % 65536 < 0x1f → c.toNat < 0x1f)

instance (c : Char) : Decidable (Spared c) := inferInstanceAs (Decidable (_ ∧ (_ → _)))

theorem hex?_code {n : Nat} (hn : n < 0x1f) :
    ∃ a b c d, codeEscape n = ['\x5c', 'u', a, b, c, d] ∧ hex? [a, b, c, d] = some n := by
  have hdigits : ∀ k < 0x1f, hex? (lastDigits upperDigit 4 k) = some k := by decide
  exact ⟨_, _, _, _, rfl, hdigits n hn⟩

/-- How a character is written: as it is, by a letter, or by its number. -/
theorem escape_cases (c : Char) (hc : Spared c) :
    (escape c = [c] ∧ c ≠ '\x22' ∧ c ≠ '\x5c' ∧ 0x20 ≤ c.toNat) ∨
    (∃ e, escape c = ['\x5c', e] ∧ e ≠ 'u' ∧ e ≠ 'U' ∧ isBlankOrBreak e = false ∧ escaped? e = some c) ∨
    (escape c = codeEscape c.toNat ∧ c.toNat < 0x1f) := by
  by_cases h₁ : c = '\x08'
  · exact .inr (.inl ⟨'b', by rw [h₁]; rfl, by decide, by decide, by decide, by rw [h₁]; rfl⟩)
  by_cases h₂ : c = '\t'
  · exact .inr (.inl ⟨'t', by rw [h₂]; rfl, by decide, by decide, by decide, by rw [h₂]; rfl⟩)
  by_cases h₃ : c = '\n'
  · exact .inr (.inl ⟨'n', by rw [h₃]; rfl, by decide, by decide, by decide, by rw [h₃]; rfl⟩)
  by_cases h₄ : c = '\x0c'
  · exact .inr (.inl ⟨'f', by rw [h₄]; rfl, by decide, by decide, by decide, by rw [h₄]; rfl⟩)
  by_cases h₅ : c = '\r'
  · exact .inr (.inl ⟨'r', by rw [h₅]; rfl, by decide, by decide, by decide, by rw [h₅]; rfl⟩)
  by_cases h₆ : c = '\x22'
  · exact .inr (.inl ⟨'\x22', by rw [h₆]; rfl, by decide, by decide, by decide, by rw [h₆]; rfl⟩)
  by_cases h₇ : c = '\x5c'
  · exact .inr (.inl ⟨'\x5c', by rw [h₇]; rfl, by decide, by decide, by decide, by rw [h₇]; rfl⟩)
  unfold escape
  rw [if_neg h₁, if_neg h₂, if_neg h₃, if_neg h₄, if_neg h₅, if_neg h₆, if_neg h₇]
  split_ifs with hlow
  · have hcode := hc.2 hlow
    exact .inr (.inr ⟨by rw [Nat.mod_eq_of_lt (by omega)], hcode⟩)
  · refine .inl ⟨rfl, h₆, h₇, ?_⟩
    have := hc.1
    have := Nat.mod_le c.toNat 65536
    omega

/-- The reader takes written characters one by one, whatever follows them. -/
theorem basicChars?_append {cs : List Char} (h : ∀ c ∈ cs, Spared c) (r : List Char) :
    basicChars? ['\x22'] false false (cs.flatMap escape ++ r) =
      (basicChars? ['\x22'] false false r).map fun p => (cs ++ p.1, p.2) := by
  induction cs with
  | nil => cases hr : basicChars? ['\x22'] false false r <;> simp [hr]
  | cons c cs ih =>
    have ih := ih fun d hd => h d (List.mem_cons_of_mem c hd)
    have hmap : ((basicChars? ['\x22'] false false (cs.flatMap escape ++ r)).bind fun p => some (c :: p.1, p.2)) =
        (basicChars? ['\x22'] false false r).map fun p => (c :: cs ++ p.1, p.2) := by
      rw [ih]
      cases basicChars? ['\x22'] false false r <;> rfl
    rw [List.flatMap_cons, List.append_assoc, ← hmap]
    rcases escape_cases c (h c List.mem_cons_self) with
      ⟨hc, hquote, hslash, hcode⟩ | ⟨e, hc, hu, hU, hblank, he⟩ | ⟨hc, hcode⟩
    · have hlow : ¬ c.toNat < 0x20 := by omega
      rw [hc, List.singleton_append, basicChars?.eq_def]
      simp [after?, Ne.symm hquote, hslash, hlow]
    · rw [hc]
      simp only [List.cons_append, List.nil_append]
      rw [basicChars?.eq_def]
      simp [after?, hblank, he, hu, hU]
    · obtain ⟨a, b, x, d, hcodeEscape, hhex⟩ := hex?_code hcode
      have hchar : charOf c.toNat = c := by
        have hvalid : c.toNat.isValidChar := c.valid
        rw [charOf, if_pos hvalid, Char.ofNat_toNat]
      rw [hc, hcodeEscape]
      simp only [List.cons_append, List.nil_append]
      rw [basicChars?.eq_def]
      simp [after?, hhex, hchar]

/-- Characters up to the closing quote. -/
theorem basicChars?_escape {cs : List Char} (h : ∀ c ∈ cs, Spared c) (rest : List Char) :
    basicChars? ['\x22'] false false (cs.flatMap escape ++ '\x22' :: rest) = some (cs, rest) := by
  have hquote : basicChars? ['\x22'] false false ('\x22' :: rest) = some ([], rest) := by
    rw [basicChars?.eq_def]
    simp [after?]
  rw [basicChars?_append h, hquote, Option.map_some, List.append_nil]

/-- The last control character is written as it is, and the reader stops there. -/
theorem basicChars?_lost {cs : List Char} (h : ∀ c ∈ cs, Spared c) (rest : List Char) :
    basicChars? ['\x22'] false false (cs.flatMap escape ++ '\x1f' :: rest) = none := by
  have hcontrol : basicChars? ['\x22'] false false ('\x1f' :: rest) = none := by
    rw [basicChars?.eq_def]
    simp [after?]
  rw [basicChars?_append h, hcontrol, Option.map_none]

/-! ## Numbers -/

theorem ne_of_isDigit {c d : Char} (hc : c.isDigit = true) (hd : d.isDigit = false) : c ≠ d := by
  rintro rfl
  simp [hc] at hd

theorem digitValue?_of_isDigit {c : Char} (hc : c.isDigit = true) :
    digitValue? c = some (c.toNat - 48) ∧ c.toNat - 48 < 10 := by
  have h : 48 ≤ c.toNat ∧ c.toNat ≤ 57 := Char.isDigit_iff_toNat.mp hc
  refine ⟨if_pos ?_, by omega⟩
  simp only [Bool.and_eq_true, decide_eq_true_eq, Char.le_def, UInt32.le_iff_toNat_le]
  exact h

theorem natInBase?_toDigits (n : Nat) : natInBase? 10 (Nat.toDigits 10 n) = some n := by
  have hfold : ∀ ds : List Char, (∀ c ∈ ds, c.isDigit = true) → ∀ k : Nat,
      ds.foldlM (fun n c => do
        let d ← digitValue? c
        if d < 10 then some (n * 10 + d) else none) k =
        some (ds.foldl (fun n c => n * 10 + (c.toNat - 48)) k) := by
    intro ds
    induction ds with
    | nil => exact fun _ _ => rfl
    | cons c ds ih =>
      intro h k
      obtain ⟨hvalue, hlt⟩ := digitValue?_of_isDigit (h c List.mem_cons_self)
      rw [List.foldlM_cons, hvalue, List.foldl_cons]
      simp only [Option.bind_eq_bind, Option.bind_some, if_pos hlt]
      exact ih (fun d hd => h d (List.mem_cons_of_mem c hd)) _
  have hvalue := Nat.ofDigitChars_ten_toDigits (n := n)
  rw [Nat.ofDigitChars_eq_foldl] at hvalue
  simp only [Nat.mul_comm 10] at hvalue
  unfold natInBase?
  rw [if_neg (by simp [Nat.toDigits_ne_nil]),
    hfold _ (fun c hc => Nat.isDigit_of_mem_toDigits (by decide) (by decide) hc)]
  exact congrArg some hvalue

theorem numberChars?_digits {ds : List Char} (hds : ∀ c ∈ ds, c.isDigit = true) {digit : Bool}
    (hdigit : digit = true ∨ ds ≠ []) (rest : List Char) :
    numberChars? false false digit (ds ++ '\n' :: rest) = some (ds, false, '\n' :: rest) := by
  induction ds generalizing digit with
  | nil =>
    have hd : digit = true := hdigit.resolve_right (not_not_intro rfl)
    rw [List.nil_append, numberChars?.eq_def]
    simp [hd]
  | cons c ds ih =>
    have hc := hds c List.mem_cons_self
    have hne : ∀ d : Char, d.isDigit = false → c ≠ d := fun d => ne_of_isDigit hc
    rw [List.cons_append, numberChars?.eq_def]
    simp [hne '.' (by decide), hne 'e' (by decide), hne 'E' (by decide), hc,
      ih (fun d hd => hds d (List.mem_cons_of_mem c hd)) (.inl rfl)]

theorem sign_of_isDigit {d : Char} {ds : List Char} (hd : d.isDigit = true) :
    Decimal.sign (d :: ds) = (false, d :: ds) := by
  rw [Decimal.sign.eq_def]
  split
  · next h => exact absurd (List.cons.inj h).1 (ne_of_isDigit hd (by decide))
  · next h => exact absurd (List.cons.inj h).1 (ne_of_isDigit hd (by decide))
  · rfl

theorem underscoresOk_digits {ds : List Char} (hds : ∀ c ∈ ds, c.isDigit = true) (before : Bool) :
    underscoresOk Char.isDigit before ds = true := by
  induction ds generalizing before with
  | nil => rfl
  | cons c ds ih =>
    rw [underscoresOk.eq_def]
    split
    · cases ‹_ :: _ = []›
    · next h => exact absurd (List.cons.inj h).1 (ne_of_isDigit (hds c List.mem_cons_self) (by decide))
    · next h =>
      obtain ⟨rfl, rfl⟩ := List.cons.inj h
      exact ih (fun d hd => hds d (List.mem_cons_of_mem c hd)) _

/-- The digits of a number that fits are that number. -/
theorem decimalInt?_toDigits {n : Nat} (hn : Word64.fits n = true) :
    decimalInt? (Nat.toDigits 10 n) = some (.int n) := by
  have hdigits : ∀ c ∈ Nat.toDigits 10 n, c.isDigit = true := fun c hc =>
    Nat.isDigit_of_mem_toDigits (by decide) (by decide) hc
  have hplain : withoutUnderscores (Nat.toDigits 10 n) = Nat.toDigits 10 n := by
    refine List.filter_eq_self.mpr fun c hc => ?_
    simpa using ne_of_isDigit (hdigits c hc) (by decide : ('_').isDigit = false)
  -- Only zero starts with a zero, and it has one digit.
  have hzero : (3 ≤ (Nat.toDigits 10 n).length && (Nat.toDigits 10 n).head? == some '0') = false := by
    rcases Nat.eq_zero_or_pos n with rfl | hpos
    · rfl
    · simp [Json.head_toDigits_ne_zero hpos]
  have hsign : Decimal.sign (Nat.toDigits 10 n) = (false, Nat.toDigits 10 n) := by
    cases hds : Nat.toDigits 10 n with
    | nil => exact absurd hds Nat.toDigits_ne_nil
    | cons d ds => exact sign_of_isDigit (hdigits d (hds ▸ List.mem_cons_self))
  unfold decimalInt?
  simp only [hplain, underscoresOk_digits hdigits, hzero, hsign, natInBase?_toDigits, guard_true, Bool.not_false]
  simp [inRange?, hn]

theorem looksLikeClock_eq (cs : List Char) :
    looksLikeClock cs = ((cs.take 2).all Char.isDigit && cs[2]? == some ':') := by
  rcases cs with _ | ⟨a, _ | ⟨b, _ | ⟨c, r⟩⟩⟩
  · rfl
  · simp [looksLikeClock]
  · simp [looksLikeClock]
  · simp only [looksLikeClock, List.take_succ_cons, List.take_zero, List.all_cons, List.all_nil, Bool.and_true,
      List.getElem?_cons_succ, List.getElem?_cons_zero]
    rw [Option.some_beq_some]
    rfl

/-- No mark follows a number of digits where the digits of a line end before. -/
theorem no_mark_digits {ds : List Char} (hds : ∀ c ∈ ds, c.isDigit = true) (rest : List Char) (k : Nat)
    {mark : Char} (hmark : mark.isDigit = false) (hbreak : mark ≠ '\n') :
    (((ds ++ '\n' :: rest).take k).all Char.isDigit && (ds ++ '\n' :: rest)[k]? == some mark) = false := by
  rcases lt_trichotomy k ds.length with hlt | rfl | hlt
  · rw [List.getElem?_append_left hlt, List.getElem?_eq_getElem hlt]
    simp [ne_of_isDigit (hds _ (List.getElem_mem hlt)) hmark]
  · simp [hbreak.symm]
  · have hmem : '\n' ∈ (ds ++ '\n' :: rest).take k :=
      List.mem_take_iff_getElem.mpr ⟨ds.length, by simp; omega, by simp⟩
    have hall : ((ds ++ '\n' :: rest).take k).all Char.isDigit = false :=
      List.all_eq_false.mpr ⟨'\n', hmem, by decide⟩
    rw [hall, Bool.false_and]

/-- A line of digits looks neither like a date nor like a time of day. -/
theorem looksLikeMoment_digits {ds : List Char} (hds : ∀ c ∈ ds, c.isDigit = true) (rest : List Char) :
    looksLikeMoment (ds ++ '\n' :: rest) = false := by
  rw [looksLikeMoment, looksLikeClock_eq, no_mark_digits hds rest 2 (by decide) (by decide),
    no_mark_digits hds rest 4 (by decide) (by decide), Bool.or_false]

/-- A line with a number that fits. -/
theorem scalar?_digits {n : Nat} (hn : Word64.fits n = true) (rest : List Char) :
    scalar? (Nat.toDigits 10 n ++ '\n' :: rest) = some (.int n, '\n' :: rest) := by
  have hdigits : ∀ c ∈ Nat.toDigits 10 n, c.isDigit = true := fun c hc =>
    Nat.isDigit_of_mem_toDigits (by decide) (by decide) hc
  have hmoment := looksLikeMoment_digits hdigits rest
  have hsigned : signedNumber? [] (Nat.toDigits 10 n ++ '\n' :: rest) = some (.int n, '\n' :: rest) := by
    rw [signedNumber?, numberChars?_digits hdigits (.inr Nat.toDigits_ne_nil)]
    simp [decimalInt?_toDigits hn]
  have hnumber : number? (Nat.toDigits 10 n ++ '\n' :: rest) = some (.int n, '\n' :: rest) := by
    rcases Nat.eq_zero_or_pos n with rfl | hpos
    · exact hsigned
    · have hzero := Json.head_toDigits_ne_zero hpos
      cases hds : Nat.toDigits 10 n with
      | nil => exact absurd hds Nat.toDigits_ne_nil
      | cons d ds =>
        have hd := hdigits d (hds ▸ List.mem_cons_self)
        rw [hds] at hzero hsigned
        have hne : d ≠ '0' := fun h => hzero (congrArg some h)
        rw [List.cons_append] at hsigned ⊢
        rw [number?.eq_def]
        simp [hne, ne_of_isDigit hd (by decide : ('+').isDigit = false),
          ne_of_isDigit hd (by decide : ('-').isDigit = false), hsigned]
  cases hds : Nat.toDigits 10 n with
  | nil => exact absurd hds Nat.toDigits_ne_nil
  | cons d ds =>
    have hd := hdigits d (hds ▸ List.mem_cons_self)
    have hne : ∀ c : Char, c.isDigit = false → ¬ c = d := fun c hc => (ne_of_isDigit hd hc).symm
    rw [hds, List.cons_append] at hmoment hnumber
    rw [List.cons_append, scalar?.eq_def]
    simp [ne_of_isDigit hd (by decide : ('\x22').isDigit = false),
      ne_of_isDigit hd (by decide : ('\x27').isDigit = false), word?, afterNotFinite?, after?,
      hne 't' (by decide), hne 'f' (by decide), hne 'i' (by decide), hne 'n' (by decide), hmoment, hnumber]

/-! ## Values -/

namespace Value

/-- What a value says. -/
def toDatum : Value → Datum
  | text s => .text s
  | int n => .int n
  | bool b => .bool b
  | texts items => .list (items.map .text)

/-- The value can be written so that it is read back: its strings hold no lost character, and its
number is a count of 64 bits. -/
def Fits : Value → Prop
  | text s => ∀ c ∈ s.toList, Spared c
  | int n => 0 ≤ n ∧ Word64.fits n = true
  | bool _ => True
  | texts items => ∀ s ∈ items, ∀ c ∈ s.toList, Spared c

end Value

/-- The characters of a string between quotes. -/
def quoted (s : String) : List Char := '\x22' :: s.toList.flatMap escape ++ ['\x22']

theorem toList_quote (s : String) : (quote s).toList = quoted s := by
  rw [quote, String.toList_ofList, quoted]

theorem head_escape {c : Char} (hc : Spared c) : (escape c).head? ≠ some '\x22' ∧ escape c ≠ [] := by
  rcases escape_cases c hc with ⟨h, hquote, -⟩ | ⟨e, h, -⟩ | ⟨h, -⟩
  · simp [h, hquote]
  · simp [h]
  · simp [h, codeEscape]

/-- Written characters open no string over several lines, if what follows does not. -/
theorem basicString?_append {cs : List Char} (h : ∀ c ∈ cs, Spared c) {r : List Char}
    (hr : ∀ rest, r ≠ '\x22' :: '\x22' :: rest) :
    basicString? (cs.flatMap escape ++ r) = basicChars? ['\x22'] false false (cs.flatMap escape ++ r) := by
  rw [basicString?.eq_def]
  split
  · next rest heq =>
    cases cs with
    | nil => exact absurd heq (hr rest)
    | cons c cs =>
      obtain ⟨hhead, hne⟩ := head_escape (h c List.mem_cons_self)
      rw [List.flatMap_cons, List.append_assoc] at heq
      have := congrArg List.head? heq
      rw [List.head?_append_of_ne_nil _ hne] at this
      exact absurd this hhead
  · rfl

/-- A string between quotes that no third quote follows. -/
theorem scalar?_quoted {s : String} (hs : ∀ c ∈ s.toList, Spared c) {rest : List Char}
    (hrest : rest.head? ≠ some '\x22') : scalar? (quoted s ++ rest) = some (.text s, rest) := by
  have hthird : ∀ rest', '\x22' :: rest ≠ '\x22' :: '\x22' :: rest' := fun rest' heq =>
    hrest (by rw [(List.cons.inj heq).2, List.head?_cons])
  have htext : quoted s ++ rest = '\x22' :: (s.toList.flatMap escape ++ '\x22' :: rest) := by
    simp [quoted]
  rw [htext, scalar?, basicString?_append hs hthird, basicChars?_escape hs, Option.map_some]
  simp

/-- A string in which the last control character stands is no scalar. -/
theorem scalar?_lost {cs : List Char} (h : ∀ c ∈ cs, Spared c) (rest : List Char) :
    scalar? ('\x22' :: (cs.flatMap escape ++ '\x1f' :: rest)) = none := by
  rw [scalar?, basicString?_append h (by simp), basicChars?_lost h, Option.map_none]

/-- A value that neither opens a list nor a table is a scalar. -/
theorem value?_scalar {cs r : List Char} (hcs : cs.dropWhile isBlank = r) (hlist : r.head? ≠ some '[')
    (htable : r.head? ≠ some '\x7b') (fuel : Nat) :
    value? (fuel + 1) cs = (scalar? r).map fun p => (.value p.1, p.2) := by
  rw [value?, hcs]
  split
  · exact absurd rfl hlist
  · exact absurd rfl htable
  · rfl

theorem value?_quoted {s : String} (hs : ∀ c ∈ s.toList, Spared c) {rest : List Char}
    (hrest : rest.head? ≠ some '\x22') (fuel : Nat) :
    value? (fuel + 1) (quoted s ++ rest) = some (.value (.text s), rest) := by
  rw [value?_scalar (r := quoted s ++ rest) (by simp [quoted, isBlank]) (by simp [quoted]) (by simp [quoted]),
    scalar?_quoted hs hrest, Option.map_some]

/-- The characters of a list without its opening bracket. -/
def itemsText : List String → List Char
  | [] => [']']
  | [s] => quoted s ++ [']']
  | s :: rest => quoted s ++ ',' :: ' ' :: itemsText rest

theorem toList_texts (items : List String) : (Value.texts items).toText.toList = '[' :: itemsText items := by
  have hitems : (", ".intercalate (items.map quote)).toList ++ [']'] = itemsText items := by
    rw [String.toList_intercalate, List.map_map]
    induction items with
    | nil => rfl
    | cons s rest ih =>
      cases rest with
      | nil => simp [itemsText, List.intercalate, toList_quote]
      | cons s' rest =>
        rw [itemsText, ← ih]
        · simp [List.intercalate, toList_quote]
        · simp
  simp only [Value.toText, String.toList_append, ← hitems]
  rfl

theorem skipSpace_quoted (s : String) (r : List Char) : skipSpace false (quoted s ++ r) = quoted s ++ r := by
  simp [quoted, skipSpace, isBlankOrBreak, isBlank]

theorem listItems?_blank (fuel : Nat) (cs : List Char) :
    listItems? fuel (' ' :: cs) = listItems? fuel cs := by
  cases fuel with
  | zero => rw [listItems?, listItems?]
  | succ fuel => rw [listItems?, listItems?, skipSpace, if_pos (by decide)]

/-- The last item of a list. -/
theorem listItems?_last {s : String} (hs : ∀ c ∈ s.toList, Spared c) (rest : List Char) (fuel : Nat) :
    listItems? (fuel + 2) (quoted s ++ ']' :: rest) = some ([.value (.text s)], rest) := by
  rw [listItems?, skipSpace_quoted]
  split
  · next h => simp [quoted] at h
  · rw [value?_quoted hs (by simp)]
    simp [skipSpace, isBlankOrBreak, isBlank]

/-- An item with a comma behind it. -/
theorem listItems?_comma {s : String} (hs : ∀ c ∈ s.toList, Spared c) (r : List Char) (fuel : Nat) :
    listItems? (fuel + 2) (quoted s ++ ',' :: r) =
      (listItems? (fuel + 1) r).map fun p => (.value (.text s) :: p.1, p.2) := by
  rw [listItems?, skipSpace_quoted]
  split
  · next h => simp [quoted] at h
  · rw [value?_quoted hs (by simp)]
    have hskip : skipSpace false (',' :: r) = ',' :: r := by simp [skipSpace, isBlankOrBreak, isBlank]
    simp only [Option.bind_eq_bind, Option.bind_some, hskip]
    cases listItems? (fuel + 1) r <;> rfl

/-- The items of a list and its closing bracket. -/
theorem listItems?_itemsText {items : List String} (hs : ∀ s ∈ items, ∀ c ∈ s.toList, Spared c)
    (rest : List Char) {fuel : Nat} (hfuel : items.length < fuel) :
    listItems? fuel (itemsText items ++ rest) = some (items.map fun s => .value (.text s), rest) := by
  induction items generalizing fuel with
  | nil =>
    obtain ⟨fuel, rfl⟩ := Nat.exists_eq_succ_of_ne_zero hfuel.ne'
    rw [listItems?]
    simp [itemsText, skipSpace, isBlankOrBreak, isBlank]
  | cons s items ih =>
    rw [List.length_cons] at hfuel
    obtain ⟨fuel, rfl⟩ := Nat.exists_eq_add_of_le' (show 2 ≤ fuel by omega)
    rw [List.forall_mem_cons] at hs
    cases items with
    | nil => simpa [itemsText] using listItems?_last hs.1 rest fuel
    | cons s' items =>
      rw [itemsText]
      · rw [List.append_assoc, List.cons_append, List.cons_append, listItems?_comma hs.1, listItems?_blank,
          ih hs.2 (by omega)]
        rfl
      · simp

/-- A list of texts is a value. -/
theorem listOf_texts (items : List String) :
    listOf (items.map fun s => .value (.text s)) = .value (.list (items.map .text)) := by
  have hdata : (items.map fun s => Tree.value (.text s)).map Tree.toDatum = items.map .text := by
    rw [List.map_map]
    rfl
  rw [listOf, if_neg, hdata]
  cases items <;> simp

theorem length_itemsText (items : List String) : items.length < (itemsText items).length := by
  induction items with
  | nil => simp [itemsText]
  | cons s items ih =>
    cases items with
    | nil => simp [itemsText, quoted]
    | cons s' items =>
      rw [itemsText]
      · simp only [List.length_append, List.length_cons] at ih ⊢
        omega
      · simp

theorem value?_blank (fuel : Nat) (cs : List Char) : value? fuel (' ' :: cs) = value? fuel cs := by
  cases fuel with
  | zero => rw [value?, value?]
  | succ fuel => rw [value?, value?, List.dropWhile_cons_of_pos (by decide)]

/-- **A written value is read back.** -/
theorem value?_toText {v : Value} (hv : v.Fits) (rest : List Char) {fuel : Nat}
    (hfuel : v.toText.toList.length < fuel) :
    value? fuel (v.toText.toList ++ '\n' :: rest) = some (.value v.toDatum, '\n' :: rest) := by
  obtain ⟨fuel, rfl⟩ := Nat.exists_eq_succ_of_ne_zero (Nat.ne_zero_of_lt hfuel)
  cases v with
  | text s =>
    rw [Value.toText, toList_quote, value?_quoted hv (by simp)]
    rfl
  | int n =>
    obtain ⟨n, rfl⟩ := Int.eq_ofNat_of_zero_le hv.1
    have hscalar := scalar?_digits hv.2 rest
    rw [Value.toText, Json.toString_ofNat, String.toList_ofList]
    cases hds : Nat.toDigits 10 n with
    | nil => exact absurd hds Nat.toDigits_ne_nil
    | cons d ds =>
      have hd : d.isDigit = true :=
        Nat.isDigit_of_mem_toDigits (by decide) (by decide) (hds ▸ List.mem_cons_self)
      have hne : ∀ c : Char, c.isDigit = false → d ≠ c := fun c => ne_of_isDigit hd
      rw [hds] at hscalar
      rw [value?_scalar (r := d :: ds ++ '\n' :: rest) (by simp [isBlank, hne ' ', hne '\t'])
        (by simp [hne '[']) (by simp [hne '\x7b']), hscalar]
      rfl
  | bool b =>
    cases b
    · exact value?_scalar (r := "false".toList ++ '\n' :: rest) rfl (by simp) (by simp) fuel
    · exact value?_scalar (r := "true".toList ++ '\n' :: rest) rfl (by simp) (by simp) fuel
  | texts items =>
    rw [toList_texts, List.length_cons] at hfuel
    have hcount := length_itemsText items
    rw [toList_texts, List.cons_append, value?, List.dropWhile_cons_of_neg (by decide)]
    simp only
    rw [listItems?_itemsText hv _ (by omega), Option.map_some, listOf_texts]
    rfl

end ScriptSplit.Toml
