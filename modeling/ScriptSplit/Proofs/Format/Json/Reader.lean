import Mathlib
import ScriptSplit.Format.Json.Reader
import ScriptSplit.Format.Json.Writer
import ScriptSplit.Proofs.Text.Encoding

/-!
# What the JSON reader reads

A grammar of the texts of a value, with blanks between the tokens, and the reader that reads them all.
The characters of strings may be spread over several ones, as the bytes of UTF-8 do; all that gives a
text its structure is left alone by that.

* `Spreads`: a way to spread characters; `literal`, `unspread`: string literals under it.
* `number?_int`, `stringTail?_literal`: the scalars.
* `Text`: the texts of a value; **`value?_text`**: the reader reads them.
* `Plain`: values whose numbers are integers; `compact_text`: their compact text.
* `Readable`: plain values that are not too deep.
* **`read?_compact`**: a plain value is read back from its compact text, so `compact_injective`.
-/

namespace ScriptSplit.Json

/-! ## Numbers -/

/-- No number goes on here. -/
def Ends (rest : List Char) : Prop :=
  ∀ c, rest.head? = some c → c.isDigit = false ∧ c ≠ '.' ∧ c ≠ 'e' ∧ c ≠ 'E'

/-- No digit comes first. -/
def NoDigit (rest : List Char) : Prop := ∀ c, rest.head? = some c → c.isDigit = false

theorem Ends.noDigit {rest : List Char} (h : Ends rest) : NoDigit rest := fun c hc => (h c hc).1

theorem digits1?_append {ds rest : List Char} (hne : ds ≠ []) (hds : ∀ c ∈ ds, c.isDigit = true)
    (hrest : NoDigit rest) : digits1? (ds ++ rest) = some (ds, rest) := by
  have hstop : rest.takeWhile Char.isDigit = [] ∧ rest.dropWhile Char.isDigit = rest := by
    cases rest with
    | nil => exact ⟨rfl, rfl⟩
    | cons c r =>
      have hc := hrest c rfl
      exact ⟨List.takeWhile_cons_of_neg (by simp [hc]), List.dropWhile_cons_of_neg (by simp [hc])⟩
  unfold digits1?
  rw [List.takeWhile_append_of_pos hds, List.dropWhile_append_of_pos hds, hstop.1, hstop.2, List.append_nil]
  cases ds with
  | nil => exact absurd rfl hne
  | cons d ds => rfl

theorem head_toDigits_ne_zero {n : Nat} (hn : 0 < n) : (Nat.toDigits 10 n).head? ≠ some '0' := by
  induction n using Nat.strong_induction_on with
  | _ n ih =>
    by_cases hlt : n < 10
    · rw [Nat.toDigits_of_lt_base hlt]
      interval_cases n <;> decide
    · rw [Nat.toDigits_of_base_le (by decide) (by omega)]
      have hne : Nat.toDigits 10 (n / 10) ≠ [] := Nat.toDigits_ne_nil
      rw [List.head?_append_of_ne_nil _ hne]
      exact ih (n / 10) (by omega) (by omega)

theorem wholePart?_digits (n : Nat) {rest : List Char} (hrest : Ends rest) :
    wholePart? (Nat.toDigits 10 n ++ rest) = some (Nat.toDigits 10 n, rest) := by
  by_cases hn : n = 0
  · subst hn
    rfl
  · have hhead := head_toDigits_ne_zero (Nat.pos_of_ne_zero hn)
    have hdigits : ∀ c ∈ Nat.toDigits 10 n, c.isDigit = true := fun c hc =>
      Nat.isDigit_of_mem_toDigits (b := 10) (by decide) (by decide) hc
    have hread := digits1?_append Nat.toDigits_ne_nil hdigits hrest.noDigit
    cases hds : Nat.toDigits 10 n with
    | nil => exact absurd hds Nat.toDigits_ne_nil
    | cons d ds =>
      rw [hds] at hhead hread
      rw [← hread, List.cons_append]
      unfold wholePart?
      split
      case h_1 heq =>
        cases heq
        exact absurd rfl hhead
      case h_2 => rfl

theorem fractionPart?_ends {rest : List Char} (hrest : Ends rest) : fractionPart? rest = some ([], rest) := by
  unfold fractionPart?
  split
  case h_1 r => exact absurd rfl (hrest '.' rfl).2.1
  case h_2 => rfl

theorem exponentPart?_ends {rest : List Char} (hrest : Ends rest) : exponentPart? rest = some ([], rest) := by
  cases rest with
  | nil => rfl
  | cons c r =>
    obtain ⟨-, -, he, hE⟩ := hrest c rfl
    exact if_neg (by simp [he, hE])

/-- After its sign a number is read by its digits. -/
theorem number?_digits {cs : List Char} {sign rest : List Char} (n : Nat) (hrest : Ends rest)
    (hsign : signPart cs = (sign, Nat.toDigits 10 n ++ rest)) :
    number? cs = some (String.ofList (sign ++ Nat.toDigits 10 n), rest) := by
  unfold number?
  rw [hsign]
  simp [wholePart?_digits n hrest, fractionPart?_ends hrest, exponentPart?_ends hrest]

theorem toString_ofNat (n : Nat) : toString (n : Int) = String.ofList (Nat.toDigits 10 n) := by
  rw [Int.toString_eq_repr, Int.repr_eq_if, if_pos (Int.natCast_nonneg n), Int.toNat_natCast,
    Nat.repr_eq_ofList_toDigits]

theorem toString_negSucc (n : Nat) :
    toString (Int.negSucc n) = String.ofList ('-' :: Nat.toDigits 10 (n + 1)) := by
  rw [Int.toString_eq_repr, Int.repr_eq_if, if_neg (by omega)]
  change "-" ++ Nat.repr (n + 1) = _
  rw [Nat.repr_eq_ofList_toDigits, ← String.toList_inj]
  simp

theorem signPart_digits (n : Nat) (rest : List Char) :
    signPart (Nat.toDigits 10 n ++ rest) = ([], Nat.toDigits 10 n ++ rest) := by
  cases hds : Nat.toDigits 10 n with
  | nil => exact absurd hds Nat.toDigits_ne_nil
  | cons d ds =>
    have hdigit : d.isDigit = true :=
      Nat.isDigit_of_mem_toDigits (b := 10) (n := n) (by decide) (by decide) (hds ▸ List.mem_cons_self)
    rw [List.cons_append]
    unfold signPart
    split
    case h_1 heq =>
      cases heq
      exact absurd hdigit (by decide)
    case h_2 => rfl

/-- **An integer is read back.** -/
theorem number?_int (n : Int) {rest : List Char} (hrest : Ends rest) :
    number? ((toString n).toList ++ rest) = some (toString n, rest) := by
  cases n with
  | ofNat m =>
    rw [Int.ofNat_eq_natCast, toString_ofNat, String.toList_ofList]
    exact number?_digits m hrest (signPart_digits m rest)
  | negSucc m =>
    rw [toString_negSucc, String.toList_ofList]
    have hsign : signPart ('-' :: Nat.toDigits 10 (m + 1) ++ rest) =
        (['-'], Nat.toDigits 10 (m + 1) ++ rest) := rfl
    exact number?_digits (m + 1) hrest hsign

theorem digitsNat?_toDigits (n : Nat) : digitsNat? (Nat.toDigits 10 n) = some n := by
  have hall : (Nat.toDigits 10 n).all Char.isDigit = true := by
    rw [List.all_eq_true]
    exact fun c hc => Nat.isDigit_of_mem_toDigits (b := 10) (by decide) (by decide) hc
  have hvalue : (Nat.toDigits 10 n).foldl (fun (n : Nat) c => n * 10 + (c.toNat - 48)) 0 = n := by
    have hfold := Nat.ofDigitChars_ten_toDigits (n := n)
    rw [Nat.ofDigitChars_eq_foldl] at hfold
    simp only [Nat.mul_comm 10] at hfold
    exact hfold
  unfold digitsNat?
  rw [if_neg (by simp [hall, Nat.toDigits_ne_nil]), hvalue]

/-- The literal of an integer gives the integer. -/
theorem literalInt?_toString (n : Int) : literalInt? (toString n) = some n := by
  unfold literalInt?
  cases n with
  | ofNat m =>
    rw [Int.ofNat_eq_natCast, toString_ofNat, String.toList_ofList]
    have hsign := signPart_digits m []
    rw [List.append_nil] at hsign
    split
    case h_1 cs heq =>
      rw [heq] at hsign
      cases hsign
    case h_2 => exact congrArg (Option.map Int.ofNat) (digitsNat?_toDigits m)
  | negSucc m =>
    rw [toString_negSucc, String.toList_ofList]
    simp only [digitsNat?_toDigits, Option.map_some, Int.ofNat_eq_natCast]
    rfl

/-! ## Strings -/

/-- A way to put one or more characters in the place of each one outside of ASCII. -/
structure Spreads (f : Char → List Char) : Prop where
  ascii : ∀ c, c.toNat < 128 → f c = [c]
  high : ∀ c, 128 ≤ c.toNat → ∀ d ∈ f c, 128 ≤ d.toNat

/-- A character and its place in a string literal are the same. -/
def IsBare (c : Char) : Prop := escape c = [c]

instance (c : Char) : Decidable (IsBare c) := inferInstanceAs (Decidable (escape c = [c]))

/-- The literal of a string without its opening quote, with its characters spread. -/
def literal (f : Char → List Char) (s : String) : List Char :=
  s.toList.flatMap (fun c => (escape c).flatMap f) ++ ['\x22']

/-- The string that a literal with spread characters stands for. -/
def unspread (f : Char → List Char) (s : String) : String :=
  String.ofList (s.toList.flatMap fun c => if IsBare c then f c else [c])

/-- The letters of escapes that the writer uses. -/
def escapeLetters : List Char := ['\x22', '\x5c', 'n', 'r', 't', 'b', 'f']

/-- The character may stand in a literal as it is. -/
def Safe (d : Char) : Prop := d ≠ '\x22' ∧ d ≠ '\x5c' ∧ 0x20 ≤ d.toNat

/-- The character is none that is escaped for web pages alone. -/
def Harmless (c : Char) : Prop :=
  c ≠ '<' ∧ c ≠ '>' ∧ c ≠ '&' ∧ c.toNat ≠ 0x2028 ∧ c.toNat ≠ 0x2029

/-- How a character can be written: as it is, by a letter, or by its number. -/
theorem escape_cases (c : Char) :
    (escape c = [c] ∧ Safe c ∧ Harmless c) ∨
    (∃ e ∈ escapeLetters, escape c = ['\x5c', e] ∧ escapedChar? e = some c) ∨
    (escape c = unitEscape c.toNat ∧ c.toNat < 0xd800) := by
  by_cases h₁ : c = '\x22'
  · exact .inr (.inl ⟨'\x22', by decide, by rw [h₁]; rfl, by rw [h₁]; rfl⟩)
  by_cases h₂ : c = '\x5c'
  · exact .inr (.inl ⟨'\x5c', by decide, by rw [h₂]; rfl, by rw [h₂]; rfl⟩)
  by_cases h₃ : c = '\n'
  · exact .inr (.inl ⟨'n', by decide, by rw [h₃]; rfl, by rw [h₃]; rfl⟩)
  by_cases h₄ : c = '\r'
  · exact .inr (.inl ⟨'r', by decide, by rw [h₄]; rfl, by rw [h₄]; rfl⟩)
  by_cases h₅ : c = '\t'
  · exact .inr (.inl ⟨'t', by decide, by rw [h₅]; rfl, by rw [h₅]; rfl⟩)
  by_cases h₆ : c = '\x08'
  · exact .inr (.inl ⟨'b', by decide, by rw [h₆]; rfl, by rw [h₆]; rfl⟩)
  by_cases h₇ : c = '\x0c'
  · exact .inr (.inl ⟨'f', by decide, by rw [h₇]; rfl, by rw [h₇]; rfl⟩)
  have hcode : ∀ d : Char, c = d → c.toNat = d.toNat := fun d h => congrArg Char.toNat h
  unfold escape
  rw [if_neg h₁, if_neg h₂, if_neg h₃, if_neg h₄, if_neg h₅, if_neg h₆, if_neg h₇]
  split_ifs with h₈
  · refine .inr (.inr ⟨rfl, ?_⟩)
    simp only [Bool.or_eq_true, decide_eq_true_eq] at h₈
    obtain ((((h | h) | h) | h) | h) | h := h₈
    · omega
    · exact hcode _ h ▸ (by decide)
    · exact hcode _ h ▸ (by decide)
    · exact hcode _ h ▸ (by decide)
    · omega
    · omega
  · simp only [Bool.or_eq_true, decide_eq_true_eq, not_or] at h₈
    obtain ⟨⟨⟨⟨⟨hlow, hlt⟩, hgt⟩, hand⟩, hline⟩, hpar⟩ := h₈
    exact .inl ⟨rfl, ⟨h₁, h₂, by omega⟩, hlt, hgt, hand, hline, hpar⟩

theorem escapeLetters_ascii : ∀ e ∈ escapeLetters, e ≠ 'u' ∧ e.toNat < 128 := by simp [escapeLetters]

theorem pieces?_plain {d : Char} (hd : Safe d) (r : List Char) :
    pieces? (d :: r) = (pieces? r).map fun p => (.plain d :: p.1, p.2) := by
  obtain ⟨hquote, hslash, hcode⟩ := hd
  rw [pieces?]
  · rw [if_neg (by simp [hslash]; omega)]
    cases pieces? r with
    | none => rfl
    | some p => rfl
  · exact fun h => hquote h
  · intro a b c' d' r' h
    exact absurd h hslash
  · intro c' r' h
    exact absurd h hslash

theorem pieces?_letter {e c : Char} (hu : e ≠ 'u') (he : escapedChar? e = some c) (r : List Char) :
    pieces? ('\x5c' :: e :: r) = (pieces? r).map fun p => (.plain c :: p.1, p.2) := by
  rw [pieces?]
  · rw [he]
    cases pieces? r with
    | none => rfl
    | some p => rfl
  · intro a b c' d' r' h
    exact absurd h hu

theorem digitValue?_lowerDigit : ∀ n < 16, digitValue? (lowerDigit n) = some n := by decide

theorem lowerDigit_ascii : ∀ n < 16, (lowerDigit n).toNat < 128 := by decide

theorem hexUnit?_lastDigits {n : Nat} (hn : n < 65536) :
    ∃ a b c d, lastDigits lowerDigit 4 n = [a, b, c, d] ∧ hexUnit? a b c d = some n ∧
      ∀ x ∈ [a, b, c, d], ∃ k < 16, x = lowerDigit k := by
  have h₁ : n / 16 / 16 / 16 % 16 < 16 := Nat.mod_lt _ (by decide)
  have h₂ : n / 16 / 16 % 16 < 16 := Nat.mod_lt _ (by decide)
  have h₃ : n / 16 % 16 < 16 := Nat.mod_lt _ (by decide)
  have h₄ : n % 16 < 16 := Nat.mod_lt _ (by decide)
  refine ⟨_, _, _, _, rfl, ?_, ?_⟩
  · unfold hexUnit? natInBase?
    simp only [List.isEmpty_cons, Bool.false_eq_true, if_false, List.foldlM_cons, List.foldlM_nil,
      digitValue?_lowerDigit _ h₁, digitValue?_lowerDigit _ h₂, digitValue?_lowerDigit _ h₃,
      digitValue?_lowerDigit _ h₄, Option.bind_eq_bind, Option.bind_some, if_pos h₁, if_pos h₂, if_pos h₃, if_pos h₄]
    refine congrArg some ?_
    omega
  · intro x hx
    simp only [List.mem_cons, List.not_mem_nil, or_false] at hx
    obtain rfl | rfl | rfl | rfl := hx
    · exact ⟨_, h₁, rfl⟩
    · exact ⟨_, h₂, rfl⟩
    · exact ⟨_, h₃, rfl⟩
    · exact ⟨_, h₄, rfl⟩

theorem joinPieces_unit {n : Nat} (hn : n < 0xd800) (ps : List Piece) :
    joinPieces (.unit n :: ps) = Char.ofNat n :: joinPieces ps := by
  have hlow : ¬ (0xd800 ≤ n) := by omega
  cases ps with
  | nil => simp [joinPieces, hlow]
  | cons p ps =>
    cases p with
    | plain c => simp [joinPieces, hlow]
    | unit m => simp [joinPieces, hlow]

theorem pieces?_plains {ds : List Char} (h : ∀ d ∈ ds, Safe d) (r : List Char) :
    pieces? (ds ++ r) = (pieces? r).map fun p => (ds.map .plain ++ p.1, p.2) := by
  induction ds with
  | nil =>
    change pieces? r = _
    cases pieces? r with
    | none => rfl
    | some p => rfl
  | cons d ds ih =>
    rw [List.cons_append, pieces?_plain (h d List.mem_cons_self),
      ih fun x hx => h x (List.mem_cons_of_mem d hx), Option.map_map]
    rfl

theorem joinPieces_plains (cs : List Char) (ps : List Piece) :
    joinPieces (cs.map .plain ++ ps) = cs ++ joinPieces ps := by
  induction cs with
  | nil => rfl
  | cons c cs ih =>
    rw [List.map_cons, List.cons_append, joinPieces, ih]
    rfl

section Literals

variable {f : Char → List Char} (hf : Spreads f)
include hf

theorem Spreads.flatMap_ascii {cs : List Char} (h : ∀ c ∈ cs, c.toNat < 128) : cs.flatMap f = cs := by
  induction cs with
  | nil => rfl
  | cons c cs ih =>
    rw [List.flatMap_cons, hf.ascii c (h c List.mem_cons_self),
      ih fun d hd => h d (List.mem_cons_of_mem c hd)]
    rfl

theorem Spreads.safe {c : Char} (hc : Safe c) : ∀ d ∈ f c, Safe d := by
  intro d hd
  by_cases hascii : c.toNat < 128
  · rw [hf.ascii c hascii, List.mem_singleton] at hd
    exact hd ▸ hc
  · have hhigh := hf.high c (by omega) d hd
    have hne : ∀ x : Char, x.toNat < 128 → d ≠ x := by
      rintro x hx rfl
      omega
    exact ⟨hne _ (by decide), hne _ (by decide), by omega⟩

/-- One character of a literal. -/
theorem pieces?_escape (c : Char) {r rest : List Char} {ps : List Piece} (h : pieces? r = some (ps, rest)) :
    ∃ ps', pieces? ((escape c).flatMap f ++ r) = some (ps', rest) ∧
      joinPieces ps' = (if IsBare c then f c else [c]) ++ joinPieces ps := by
  obtain ⟨hbare, hsafe, -⟩ | ⟨e, he, hletter, hchar⟩ | ⟨hunit, hcode⟩ := escape_cases c
  · refine ⟨(f c).map .plain ++ ps, ?_, ?_⟩
    · rw [hbare, List.flatMap_singleton, pieces?_plains (hf.safe hsafe), h]
      rfl
    · rw [if_pos (show IsBare c from hbare)]
      exact joinPieces_plains (f c) ps
  · have hspread : (escape c).flatMap f = ['\x5c', e] := by
      rw [hletter]
      refine hf.flatMap_ascii fun x hx => ?_
      simp only [List.mem_cons, List.not_mem_nil, or_false] at hx
      obtain rfl | rfl := hx
      · decide
      · exact (escapeLetters_ascii x he).2
    have hnot : ¬ IsBare c := by
      unfold IsBare
      rw [hletter]
      simp
    refine ⟨.plain c :: ps, ?_, ?_⟩
    · rw [hspread]
      exact (pieces?_letter (escapeLetters_ascii e he).1 hchar r).trans (by rw [h]; rfl)
    · rw [if_neg hnot, joinPieces]
      rfl
  · obtain ⟨x₁, x₂, x₃, x₄, hdigits, hvalue, hlower⟩ := hexUnit?_lastDigits (n := c.toNat) (by omega)
    have hescape : escape c = ['\x5c', 'u', x₁, x₂, x₃, x₄] := by
      rw [hunit, unitEscape, hdigits]
    have hspread : (escape c).flatMap f = ['\x5c', 'u', x₁, x₂, x₃, x₄] := by
      rw [hescape]
      refine hf.flatMap_ascii fun x hx => ?_
      obtain rfl | hx := List.mem_cons.mp hx
      · decide
      obtain rfl | hx := List.mem_cons.mp hx
      · decide
      obtain ⟨k, hk, rfl⟩ := hlower x hx
      exact lowerDigit_ascii k hk
    have hnot : ¬ IsBare c := by
      unfold IsBare
      rw [hescape]
      simp
    refine ⟨.unit c.toNat :: ps, ?_, ?_⟩
    · rw [hspread]
      simp [pieces?, hvalue, h]
    · rw [if_neg hnot, joinPieces_unit hcode, Char.ofNat_toNat]
      rfl

/-- **A string literal is read to its end.** -/
theorem stringTail?_literal (s : String) (rest : List Char) :
    stringTail? (literal f s ++ rest) = some (unspread f s, rest) := by
  have hpieces : ∀ cs : List Char, ∃ ps,
      pieces? (cs.flatMap (fun c => (escape c).flatMap f) ++ '\x22' :: rest) = some (ps, rest) ∧
        joinPieces ps = cs.flatMap fun c => if IsBare c then f c else [c] := by
    intro cs
    induction cs with
    | nil => exact ⟨[], rfl, rfl⟩
    | cons c cs ih =>
      obtain ⟨ps, hps, hjoin⟩ := ih
      obtain ⟨ps', hps', hjoin'⟩ := pieces?_escape hf c hps
      refine ⟨ps', ?_, ?_⟩
      · rw [List.flatMap_cons, List.append_assoc]
        exact hps'
      · rw [hjoin', hjoin, List.flatMap_cons]
  obtain ⟨ps, hps, hjoin⟩ := hpieces s.toList
  unfold stringTail? literal
  rw [List.append_assoc, List.singleton_append, hps]
  simp [unspread, hjoin]

end Literals

theorem spreads_pure : Spreads fun c => [c] where
  ascii _ _ := rfl
  high c hc d hd := by
    rw [List.mem_singleton.mp hd]
    exact hc

theorem unspread_pure (s : String) : unspread (fun c => [c]) s = s := by
  unfold unspread
  have hsame : (fun c : Char => if IsBare c then [c] else [c]) = fun c => [c] := by
    funext c
    exact ite_self _
  rw [hsame, List.flatMap_singleton', String.ofList_toList]

/-! ## Blanks -/

/-- Nothing but blanks. -/
def Blanks (b : List Char) : Prop := ∀ c ∈ b, isBlank c = true

theorem blanks_nil : Blanks [] := fun _ hc => absurd hc List.not_mem_nil

theorem skipBlanks_append {b : List Char} (hb : Blanks b) (cs : List Char) :
    skipBlanks (b ++ cs) = skipBlanks cs := List.dropWhile_append_of_pos hb

theorem skipBlanks_cons {c : Char} (hc : isBlank c = false) (cs : List Char) :
    skipBlanks (c :: cs) = c :: cs := List.dropWhile_cons_of_neg (by simp [hc])

/-- Blanks in front of a value are passed over. -/
theorem value?_blanks {b : List Char} (hb : Blanks b) (fuel : Nat) (cs : List Char) :
    value? fuel (b ++ cs) = value? fuel cs := by
  cases fuel with
  | zero => rfl
  | succ fuel => rw [value?, value?, skipBlanks_append hb]

theorem fields?_blanks {b : List Char} (hb : Blanks b) (fuel : Nat) (cs : List Char) :
    fields? fuel (b ++ cs) = fields? fuel cs := by
  cases fuel with
  | zero => rfl
  | succ fuel => rw [fields?, fields?, skipBlanks_append hb]

/-! ## Texts of values -/

mutual

/-- A text of a value: its tokens with blanks between them, the characters of strings spread. -/
def Text (f : Char → List Char) : Json → List Char → Prop
  | .null, cs => cs = ['n', 'u', 'l', 'l']
  | .bool true, cs => cs = ['t', 'r', 'u', 'e']
  | .bool false, cs => cs = ['f', 'a', 'l', 's', 'e']
  | .number l, cs => ∃ n : Int, l = toString n ∧ cs = (toString n).toList
  | .string s, cs => ∃ s', s = unspread f s' ∧ cs = '\x22' :: literal f s'
  | .array items, cs => ∃ body, cs = '[' :: (body ++ [']']) ∧ ItemsText f items body
  | .object fields, cs => ∃ body, cs = '\x7b' :: (body ++ ['\x7d']) ∧ FieldsText f fields body

/-- A text of the items of an array. -/
def ItemsText (f : Char → List Char) : List Json → List Char → Prop
  | [], cs => Blanks cs
  | x :: xs, cs => ∃ b t b', Blanks b ∧ Text f x t ∧ Blanks b' ∧
    ((xs = [] ∧ cs = b ++ (t ++ b')) ∨
      ∃ more, xs ≠ [] ∧ ItemsText f xs more ∧ cs = b ++ (t ++ (b' ++ ',' :: more)))

/-- A text of the fields of an object. -/
def FieldsText (f : Char → List Char) : List (String × Json) → List Char → Prop
  | [], cs => Blanks cs
  | (key, x) :: xs, cs => ∃ b k b₁ b₂ t b', Blanks b ∧ key = unspread f k ∧ Blanks b₁ ∧ Blanks b₂ ∧
    Text f x t ∧ Blanks b' ∧
    ((xs = [] ∧ cs = b ++ '\x22' :: (literal f k ++ (b₁ ++ ':' :: (b₂ ++ (t ++ b'))))) ∨
      ∃ more, xs ≠ [] ∧ FieldsText f xs more ∧
        cs = b ++ '\x22' :: (literal f k ++ (b₁ ++ ':' :: (b₂ ++ (t ++ (b' ++ ',' :: more))))))

end

/-- The first character of a value. -/
def IsStart (c : Char) : Prop :=
  c = 'n' ∨ c = 't' ∨ c = 'f' ∨ c = '\x22' ∨ c = '[' ∨ c = '\x7b' ∨ c = '-' ∨ c.isDigit = true

theorem isStart_number (n : Int) : ∃ c r, (toString n).toList = c :: r ∧ (c = '-' ∨ c.isDigit = true) := by
  cases n with
  | ofNat m =>
    rw [Int.ofNat_eq_natCast, toString_ofNat, String.toList_ofList]
    cases hds : Nat.toDigits 10 m with
    | nil => exact absurd hds Nat.toDigits_ne_nil
    | cons d ds =>
      refine ⟨d, ds, rfl, .inr ?_⟩
      exact Nat.isDigit_of_mem_toDigits (b := 10) (n := m) (by decide) (by decide) (hds ▸ List.mem_cons_self)
  | negSucc m =>
    rw [toString_negSucc, String.toList_ofList]
    exact ⟨'-', _, rfl, .inl rfl⟩

theorem Text.start {f : Char → List Char} {j : Json} {cs : List Char} (h : Text f j cs) :
    ∃ c r, cs = c :: r ∧ IsStart c := by
  unfold IsStart
  cases j with
  | null =>
    simp only [Text] at h
    exact ⟨_, _, h, by simp⟩
  | bool b =>
    cases b with
    | true =>
      simp only [Text] at h
      exact ⟨_, _, h, by simp⟩
    | false =>
      simp only [Text] at h
      exact ⟨_, _, h, by simp⟩
  | number l =>
    simp only [Text] at h
    obtain ⟨n, -, rfl⟩ := h
    obtain ⟨c, r, hcr, hc⟩ := isStart_number n
    exact ⟨c, r, hcr, by tauto⟩
  | string s =>
    simp only [Text] at h
    obtain ⟨s', -, rfl⟩ := h
    exact ⟨_, _, rfl, by simp⟩
  | array items =>
    simp only [Text] at h
    obtain ⟨body, rfl, -⟩ := h
    exact ⟨_, _, rfl, by simp⟩
  | object fields =>
    simp only [Text] at h
    obtain ⟨body, rfl, -⟩ := h
    exact ⟨_, _, rfl, by simp⟩

theorem IsStart.not_blank {c : Char} (h : IsStart c) : isBlank c = false := by
  obtain rfl | rfl | rfl | rfl | rfl | rfl | rfl | h := h
  iterate 7 decide
  simp only [Char.isDigit, Bool.and_eq_true, decide_eq_true_eq] at h
  simp only [isBlank, Bool.or_eq_false_iff, decide_eq_false_iff_not]
  refine ⟨⟨⟨?_, ?_⟩, ?_⟩, ?_⟩ <;> (rintro rfl; revert h; decide)

theorem IsStart.ne {c x : Char} (h : IsStart c) (hx : x = ']' ∨ x = '\x7d') : c ≠ x := by
  rintro rfl
  unfold IsStart at h
  obtain rfl | rfl := hx
  · revert h
    decide
  · revert h
    decide

theorem ends_nil : Ends [] := fun _ h => by cases h

theorem ends_cons {c : Char} (hc : c.isDigit = false ∧ c ≠ '.' ∧ c ≠ 'e' ∧ c ≠ 'E') (rest : List Char) :
    Ends (c :: rest) := by
  intro d hd
  cases hd
  exact hc

theorem ends_blanks {b : List Char} (hb : Blanks b) {c : Char}
    (hc : c.isDigit = false ∧ c ≠ '.' ∧ c ≠ 'e' ∧ c ≠ 'E') (rest : List Char) : Ends (b ++ c :: rest) := by
  cases b with
  | nil => exact ends_cons hc rest
  | cons x b =>
    refine ends_cons ?_ (b ++ c :: rest)
    have hx := hb x List.mem_cons_self
    simp only [isBlank, Bool.or_eq_true, decide_eq_true_eq] at hx
    obtain ((rfl | rfl) | rfl) | rfl := hx <;> decide

theorem value?_number {fuel : Nat} {c : Char} (hc : c = '-' ∨ c.isDigit = true) (r : List Char) :
    value? (fuel + 1) (c :: r) = (number? (c :: r)).map fun (n, rest) => (.number n, rest) := by
  have hstart : IsStart c := by
    unfold IsStart
    tauto
  have hne : ∀ x : Char, x ≠ '-' → x.isDigit = false → c ≠ x := by
    rintro x hx hdigit rfl
    rw [hdigit] at hc
    exact hc.elim hx Bool.false_ne_true
  rw [value?, skipBlanks_cons hstart.not_blank]
  split
  case h_1 heq => cases heq
  case h_2 heq => exact absurd (List.cons.inj heq).1 (hne _ (by decide) (by decide))
  case h_3 heq => exact absurd (List.cons.inj heq).1 (hne _ (by decide) (by decide))
  case h_4 heq => exact absurd (List.cons.inj heq).1 (hne _ (by decide) (by decide))
  case h_5 heq => exact absurd (List.cons.inj heq).1 (hne _ (by decide) (by decide))
  case h_6 heq => exact absurd (List.cons.inj heq).1 (hne _ (by decide) (by decide))
  case h_7 heq => exact absurd (List.cons.inj heq).1 (hne _ (by decide) (by decide))
  case h_8 heq =>
    cases heq
    rfl

theorem value?_string {f : Char → List Char} (hf : Spreads f) (fuel : Nat) (s : String) (rest : List Char) :
    value? (fuel + 1) ('\x22' :: (literal f s ++ rest)) = some (.string (unspread f s), rest) := by
  rw [value?, skipBlanks_cons (by decide)]
  simp only [stringTail?_literal hf]
  rfl

theorem value?_array_nil {fuel : Nat} {body rest : List Char} (hbody : Blanks body) :
    value? (fuel + 1) ('[' :: (body ++ ']' :: rest)) = some (.array [], rest) := by
  rw [value?, skipBlanks_cons (by decide)]
  simp only [skipBlanks_append hbody, skipBlanks_cons (show isBlank ']' = false by decide)]

theorem value?_array_cons {fuel : Nat} {b cs rest : List Char} {c : Char} {r : List Char} {items : List Json}
    (hb : Blanks b) (hcs : cs = c :: r) (hc : IsStart c) (h : items? fuel cs = some (items, rest)) :
    value? (fuel + 1) ('[' :: (b ++ cs)) = some (.array items, rest) := by
  subst hcs
  rw [value?, skipBlanks_cons (by decide)]
  simp only [skipBlanks_append hb, skipBlanks_cons hc.not_blank]
  split
  case h_1 heq => exact absurd (List.cons.inj heq).1 (hc.ne (.inl rfl))
  case h_2 heq =>
    rw [h]
    rfl

theorem value?_object_nil {fuel : Nat} {body rest : List Char} (hbody : Blanks body) :
    value? (fuel + 1) ('\x7b' :: (body ++ '\x7d' :: rest)) = some (.object [], rest) := by
  rw [value?, skipBlanks_cons (by decide)]
  simp only [skipBlanks_append hbody, skipBlanks_cons (show isBlank '\x7d' = false by decide)]

theorem value?_object_cons {fuel : Nat} {b r rest : List Char} {fields : List (String × Json)}
    (hb : Blanks b) (h : fields? fuel ('\x22' :: r) = some (fields, rest)) :
    value? (fuel + 1) ('\x7b' :: (b ++ '\x22' :: r)) = some (.object fields, rest) := by
  rw [value?, skipBlanks_cons (by decide)]
  simp only [skipBlanks_append hb, skipBlanks_cons (show isBlank '\x22' = false by decide)]
  exact congrArg (Option.map _) h

theorem items?_step {fuel : Nat} {cs r rest : List Char} {c : Char} {x : Json} (h : value? fuel cs = some (x, r))
    (hr : skipBlanks r = c :: rest) : items? (fuel + 1) cs =
      if c = ',' then (items? fuel rest).map fun p => (x :: p.1, p.2)
      else if c = ']' then some ([x], rest) else none := by
  rw [items?, h]
  simp only [Option.bind_eq_bind, Option.bind_some, hr]
  split
  case h_1 heq =>
    cases heq
    rw [if_pos rfl]
    cases items? fuel rest with
    | none => rfl
    | some p => rfl
  case h_2 heq =>
    cases heq
    rfl
  case h_3 hcomma hclose =>
    rw [if_neg fun h => hcomma rest (by rw [h]), if_neg fun h => hclose rest (by rw [h])]

theorem fields?_step {fuel : Nat} {r r₁ r₂ rest : List Char} {key : String} {c : Char} {x : Json}
    (hkey : stringTail? r = some (key, r₁)) (hcolon : skipBlanks r₁ = ':' :: r₂) {r₃ : List Char}
    (hx : value? fuel r₂ = some (x, r₃)) (hr : skipBlanks r₃ = c :: rest) :
    fields? (fuel + 1) ('\x22' :: r) =
      if c = ',' then (fields? fuel rest).map fun p => ((key, x) :: p.1, p.2)
      else if c = '\x7d' then some ([(key, x)], rest) else none := by
  rw [fields?, skipBlanks_cons (by decide)]
  simp only [hkey, Option.bind_eq_bind, Option.bind_some, hcolon, hx, hr]
  split
  case h_1 heq =>
    cases heq
    rw [if_pos rfl]
    cases fields? fuel rest with
    | none => rfl
    | some p => rfl
  case h_2 heq =>
    cases heq
    rfl
  case h_3 hcomma hclose =>
    rw [if_neg fun h => hcomma rest (by rw [h]), if_neg fun h => hclose rest (by rw [h])]

/-- A text of items without the blanks in front. -/
theorem items_start {f : Char → List Char} (x : Json) (xs : List Json) (cs : List Char)
    (h : ItemsText f (x :: xs) cs) : ∃ b t, Blanks b ∧ (∃ c r, t = c :: r ∧ IsStart c) ∧ cs = b ++ t ∧
      ItemsText f (x :: xs) t := by
  simp only [ItemsText] at h
  obtain ⟨b, t, b', hb, ht, hb', hcs⟩ := h
  obtain ⟨c, r, hcr, hc⟩ := ht.start
  obtain ⟨hxs, rfl⟩ | ⟨more, hxs, hmore, rfl⟩ := hcs
  · refine ⟨b, t ++ b', hb, ⟨c, r ++ b', by rw [hcr]; rfl, hc⟩, rfl, ?_⟩
    simp only [ItemsText]
    exact ⟨[], t, b', blanks_nil, ht, hb', .inl ⟨hxs, rfl⟩⟩
  · refine ⟨b, t ++ (b' ++ ',' :: more), hb, ⟨c, r ++ (b' ++ ',' :: more), by rw [hcr]; rfl, hc⟩, rfl, ?_⟩
    simp only [ItemsText]
    exact ⟨[], t, b', blanks_nil, ht, hb', .inr ⟨more, hxs, hmore, rfl⟩⟩

/-- A text of fields without the blanks in front. -/
theorem fields_start {f : Char → List Char} (x : String × Json) (xs : List (String × Json)) (cs : List Char)
    (h : FieldsText f (x :: xs) cs) :
    ∃ b t, Blanks b ∧ cs = b ++ '\x22' :: t ∧ FieldsText f (x :: xs) ('\x22' :: t) := by
  obtain ⟨key, x⟩ := x
  simp only [FieldsText] at h
  obtain ⟨b, k, b₁, b₂, t, b', hb, hkey, hb₁, hb₂, ht, hb', hcs⟩ := h
  obtain ⟨hxs, rfl⟩ | ⟨more, hxs, hmore, rfl⟩ := hcs
  · refine ⟨b, _, hb, rfl, ?_⟩
    simp only [FieldsText]
    exact ⟨[], k, b₁, b₂, t, b', blanks_nil, hkey, hb₁, hb₂, ht, hb', .inl ⟨hxs, rfl⟩⟩
  · refine ⟨b, _, hb, rfl, ?_⟩
    simp only [FieldsText]
    exact ⟨[], k, b₁, b₂, t, b', blanks_nil, hkey, hb₁, hb₂, ht, hb', .inr ⟨more, hxs, hmore, rfl⟩⟩

mutual

/-- **The reader reads the texts of a value**, up to what follows. -/
theorem value?_text {f : Char → List Char} (hf : Spreads f) : ∀ (j : Json) (fuel : Nat)
    (cs rest : List Char), Text f j cs → Ends rest →
    2 * cs.length ≤ fuel + 1 → value? fuel (cs ++ rest) = some (j, rest)
  | j, 0, cs, rest, h, _, hfuel => by
    obtain ⟨c, r, rfl, -⟩ := h.start
    simp only [List.length_cons] at hfuel
    omega
  | .null, fuel + 1, cs, rest, h, _, _ => by
    simp only [Text] at h
    subst h
    rfl
  | .bool true, fuel + 1, cs, rest, h, _, _ => by
    simp only [Text] at h
    subst h
    rfl
  | .bool false, fuel + 1, cs, rest, h, _, _ => by
    simp only [Text] at h
    subst h
    rfl
  | .number l, fuel + 1, cs, rest, h, hrest, _ => by
    simp only [Text] at h
    obtain ⟨n, rfl, rfl⟩ := h
    obtain ⟨c, r, hcr, hc⟩ := isStart_number n
    have hread := number?_int n hrest
    rw [hcr, List.cons_append] at hread ⊢
    rw [value?_number hc, hread]
    rfl
  | .string s, fuel + 1, cs, rest, h, _, _ => by
    simp only [Text] at h
    obtain ⟨s', rfl, rfl⟩ := h
    exact value?_string hf fuel s' rest
  | .array [], fuel + 1, cs, rest, h, _, _ => by
    simp only [Text, ItemsText] at h
    obtain ⟨body, rfl, hbody⟩ := h
    rw [List.cons_append, List.append_assoc]
    exact value?_array_nil hbody
  | .array (x :: xs), fuel + 1, cs, rest, h, _, hfuel => by
    simp only [Text] at h
    obtain ⟨body, rfl, hbody⟩ := h
    obtain ⟨b, t, hb, ⟨c, r, ht, hc⟩, rfl, hitems⟩ := items_start x xs body hbody
    rw [List.cons_append, List.append_assoc, List.append_assoc]
    refine value?_array_cons hb (r := r ++ ([']'] ++ rest)) (by rw [ht]; rfl) hc ?_
    refine items?_text hf x xs fuel t rest hitems ?_
    simp only [List.length_cons, List.length_append, List.length_nil] at hfuel
    omega
  | .object [], fuel + 1, cs, rest, h, _, _ => by
    simp only [Text, FieldsText] at h
    obtain ⟨body, rfl, hbody⟩ := h
    rw [List.cons_append, List.append_assoc]
    exact value?_object_nil hbody
  | .object (x :: xs), fuel + 1, cs, rest, h, _, hfuel => by
    simp only [Text] at h
    obtain ⟨body, rfl, hbody⟩ := h
    obtain ⟨b, t, hb, rfl, hfields⟩ := fields_start x xs body hbody
    rw [List.cons_append, List.append_assoc, List.append_assoc, List.cons_append]
    refine value?_object_cons hb ?_
    refine fields?_text hf x xs fuel ('\x22' :: t) rest hfields ?_
    simp only [List.length_cons, List.length_append, List.length_nil] at hfuel ⊢
    omega

/-- The reader reads the items of an array up to its closing bracket. -/
theorem items?_text {f : Char → List Char} (hf : Spreads f) : ∀ (x : Json) (xs : List Json) (fuel : Nat)
    (cs rest : List Char),
    ItemsText f (x :: xs) cs → 2 * cs.length ≤ fuel →
      items? fuel (cs ++ ']' :: rest) = some (x :: xs, rest)
  | x, xs, 0, cs, rest, h, hfuel => by
    obtain ⟨b, t, -, ⟨c, r, rfl, -⟩, rfl, -⟩ := items_start x xs cs h
    simp only [List.length_append, List.length_cons] at hfuel
    omega
  | x, [], fuel + 1, cs, rest, h, hfuel => by
    simp only [ItemsText] at h
    obtain ⟨b, t, b', hb, ht, hb', ⟨-, rfl⟩ | ⟨more, hxs, -⟩⟩ := h
    · simp only [List.length_append] at hfuel
      have hx := value?_text hf x fuel t (b' ++ ']' :: rest) ht (ends_blanks hb' (by decide) rest) (by omega)
      rw [List.append_assoc, List.append_assoc,
        items?_step ((value?_blanks hb fuel _).trans hx) (skipBlanks_append hb' _)]
      rfl
    · exact absurd rfl hxs
  | x, y :: ys, fuel + 1, cs, rest, h, hfuel => by
    rw [ItemsText] at h
    obtain ⟨b, t, b', hb, ht, hb', ⟨hxs, -⟩ | ⟨more, -, hmore, rfl⟩⟩ := h
    · cases hxs
    · simp only [List.length_append, List.length_cons] at hfuel
      have hx := value?_text hf x fuel t (b' ++ ',' :: (more ++ ']' :: rest)) ht
        (ends_blanks hb' (by decide) _) (by omega)
      have hxs := items?_text hf y ys fuel more rest hmore (by omega)
      rw [List.append_assoc, List.append_assoc, List.append_assoc, List.cons_append,
        items?_step ((value?_blanks hb fuel _).trans hx) (skipBlanks_append hb' _), if_pos rfl, hxs]
      rfl

/-- The reader reads the fields of an object up to its closing brace. -/
theorem fields?_text {f : Char → List Char} (hf : Spreads f) : ∀ (x : String × Json)
    (xs : List (String × Json)) (fuel : Nat) (cs rest : List Char),
    FieldsText f (x :: xs) cs → 2 * cs.length ≤ fuel →
      fields? fuel (cs ++ '\x7d' :: rest) = some (x :: xs, rest)
  | x, xs, 0, cs, rest, h, hfuel => by
    obtain ⟨b, t, -, rfl, -⟩ := fields_start x xs cs h
    simp only [List.length_append, List.length_cons] at hfuel
    omega
  | (key, x), [], fuel + 1, cs, rest, h, hfuel => by
    rw [FieldsText] at h
    obtain ⟨b, k, b₁, b₂, t, b', hb, rfl, hb₁, hb₂, ht, hb', ⟨-, rfl⟩ | ⟨more, hxs, -⟩⟩ := h
    · simp only [List.length_append, List.length_cons] at hfuel
      have hx := value?_text hf x fuel t (b' ++ '\x7d' :: rest) ht (ends_blanks hb' (by decide) rest) (by omega)
      rw [List.append_assoc, fields?_blanks hb]
      simp only [List.cons_append, List.append_assoc]
      rw [fields?_step (stringTail?_literal hf k _) (skipBlanks_append hb₁ _)
        ((value?_blanks hb₂ fuel _).trans hx) (skipBlanks_append hb' _)]
      rfl
    · exact absurd rfl hxs
  | (key, x), y :: ys, fuel + 1, cs, rest, h, hfuel => by
    rw [FieldsText] at h
    obtain ⟨b, k, b₁, b₂, t, b', hb, rfl, hb₁, hb₂, ht, hb', ⟨hxs, -⟩ | ⟨more, -, hmore, rfl⟩⟩ := h
    · cases hxs
    · simp only [List.length_append, List.length_cons] at hfuel
      have hx := value?_text hf x fuel t (b' ++ ',' :: (more ++ '\x7d' :: rest)) ht
        (ends_blanks hb' (by decide) _) (by omega)
      have hxs := fields?_text hf y ys fuel more rest hmore (by omega)
      rw [List.append_assoc, fields?_blanks hb]
      simp only [List.cons_append, List.append_assoc]
      rw [fields?_step (stringTail?_literal hf k _) (skipBlanks_append hb₁ _)
        ((value?_blanks hb₂ fuel _).trans hx) (skipBlanks_append hb' _), if_pos rfl, hxs]
      rfl

end

/-! ## Compact texts -/

mutual

/-- All numbers of the value are integers. -/
def Plain : Json → Prop
  | .number l => ∃ n : Int, l = toString n
  | .array items => PlainItems items
  | .object fields => PlainFields fields
  | _ => True

/-- All numbers of the items are integers. -/
def PlainItems : List Json → Prop
  | [] => True
  | x :: xs => Plain x ∧ PlainItems xs

/-- All numbers of the fields are integers. -/
def PlainFields : List (String × Json) → Prop
  | [] => True
  | (_, x) :: xs => Plain x ∧ PlainFields xs

end

mutual

/-- The value that is read when the characters of its compact text are spread. -/
def respell (f : Char → List Char) : Json → Json
  | .string s => .string (unspread f s)
  | .array items => .array (respellItems f items)
  | .object fields => .object (respellFields f fields)
  | j => j

/-- The items that are read. -/
def respellItems (f : Char → List Char) : List Json → List Json
  | [] => []
  | x :: xs => respell f x :: respellItems f xs

/-- The fields that are read. -/
def respellFields (f : Char → List Char) : List (String × Json) → List (String × Json)
  | [] => []
  | (key, x) :: xs => (unspread f key, respell f x) :: respellFields f xs

end

theorem ascii_toString (n : Int) : ∀ c ∈ (toString n).toList, c.toNat < 128 := by
  have hdigits : ∀ m : Nat, ∀ c ∈ Nat.toDigits 10 m, c.toNat < 128 := by
    intro m c hc
    have hdigit := Nat.isDigit_of_mem_toDigits (b := 10) (n := m) (by decide) (by decide) hc
    simp only [Char.isDigit, Bool.and_eq_true, decide_eq_true_eq] at hdigit
    exact Nat.lt_of_le_of_lt hdigit.2 (by decide)
  cases n with
  | ofNat m =>
    rw [Int.ofNat_eq_natCast, toString_ofNat, String.toList_ofList]
    exact hdigits m
  | negSucc m =>
    rw [toString_negSucc, String.toList_ofList]
    intro c hc
    obtain rfl | hc := List.mem_cons.mp hc
    · decide
    · exact hdigits (m + 1) c hc

theorem toList_quote (s : String) : (quote s).toList = '\x22' :: (s.toList.flatMap escape ++ ['\x22']) := by
  rw [quote, String.toList_ofList]
  rfl

section Compact

variable {f : Char → List Char} (hf : Spreads f)
include hf

theorem flatMap_quote (s : String) : (quote s).toList.flatMap f = '\x22' :: literal f s := by
  rw [toList_quote, List.flatMap_cons, List.flatMap_append, List.flatMap_assoc, List.flatMap_singleton,
    hf.ascii _ (by decide)]
  rfl

theorem flatMap_append_comma (s t : String) : (s ++ "," ++ t).toList.flatMap f =
    s.toList.flatMap f ++ ',' :: t.toList.flatMap f := by
  rw [String.toList_append, String.toList_append, List.flatMap_append, List.flatMap_append, List.append_assoc]
  change _ ++ ((f ',' ++ []) ++ _) = _
  rw [hf.ascii ',' (by decide)]
  rfl

theorem flatMap_field (key text : String) : (quote key ++ ":" ++ text).toList.flatMap f =
    '\x22' :: (literal f key ++ ':' :: text.toList.flatMap f) := by
  rw [String.toList_append, String.toList_append, List.flatMap_append, List.flatMap_append,
    flatMap_quote hf, List.append_assoc]
  change _ ++ ((f ':' ++ []) ++ _) = _
  rw [hf.ascii ':' (by decide)]
  rfl

theorem flatMap_enclosed {first last : Char} (hfirst : first.toNat < 128) (hlast : last.toNat < 128)
    (s : String) : (String.ofList [first] ++ s ++ String.ofList [last]).toList.flatMap f =
      first :: (s.toList.flatMap f ++ [last]) := by
  simp [hf.ascii _ hfirst, hf.ascii _ hlast]

end Compact

mutual

/-- The compact text of a plain value is one of its texts. -/
theorem compact_text {f : Char → List Char} (hf : Spreads f) : ∀ j : Json, Plain j →
    Text f (respell f j) ((compact j).toList.flatMap f)
  | .null, _ => by
    simp only [respell, Text, compact]
    exact hf.flatMap_ascii (by simp)
  | .bool true, _ => by
    simp only [respell, Text, compact]
    exact hf.flatMap_ascii (by simp)
  | .bool false, _ => by
    simp only [respell, Text, compact]
    exact hf.flatMap_ascii (by simp)
  | .number l, h => by
    simp only [Plain] at h
    obtain ⟨n, rfl⟩ := h
    simp only [respell, Text, compact]
    exact ⟨n, rfl, hf.flatMap_ascii (ascii_toString n)⟩
  | .string s, _ => by
    simp only [respell, Text, compact]
    exact ⟨s, rfl, flatMap_quote hf s⟩
  | .array items, h => by
    simp only [Plain] at h
    simp only [respell, Text, compact]
    exact ⟨_, flatMap_enclosed hf (by decide) (by decide) _, compact_itemsText hf items h⟩
  | .object fields, h => by
    simp only [Plain] at h
    simp only [respell, Text, compact]
    exact ⟨_, flatMap_enclosed hf (by decide) (by decide) _, compact_fieldsText hf fields h⟩

theorem compact_itemsText {f : Char → List Char} (hf : Spreads f) : ∀ items : List Json, PlainItems items →
    ItemsText f (respellItems f items) ((",".intercalate (compactItems items)).toList.flatMap f)
  | [], _ => by
    simp only [respellItems, ItemsText]
    exact blanks_nil
  | [x], h => by
    simp only [PlainItems] at h
    simp only [respellItems, ItemsText, compactItems, String.intercalate_singleton]
    exact ⟨[], _, [], blanks_nil, compact_text hf x h.1, blanks_nil, .inl ⟨trivial, by simp⟩⟩
  | x :: y :: ys, h => by
    rw [PlainItems] at h
    rw [respellItems, ItemsText, compactItems, compactItems, String.intercalate_cons_cons, flatMap_append_comma hf]
    refine ⟨[], _, [], blanks_nil, compact_text hf x h.1, blanks_nil, .inr ⟨_, ?_, ?_, rfl⟩⟩
    · simp [respellItems]
    · exact compact_itemsText hf (y :: ys) h.2

theorem compact_fieldsText {f : Char → List Char} (hf : Spreads f) : ∀ fields : List (String × Json),
    PlainFields fields →
    FieldsText f (respellFields f fields) ((",".intercalate (compactFields fields)).toList.flatMap f)
  | [], _ => by
    simp only [respellFields, FieldsText]
    exact blanks_nil
  | [(key, x)], h => by
    simp only [PlainFields] at h
    simp only [respellFields, FieldsText, compactFields, String.intercalate_singleton, flatMap_field hf]
    exact ⟨[], key, [], [], _, [], blanks_nil, rfl, blanks_nil, blanks_nil, compact_text hf x h.1, blanks_nil,
      .inl ⟨trivial, by simp⟩⟩
  | (key, x) :: (key', y) :: ys, h => by
    rw [PlainFields] at h
    rw [respellFields, FieldsText, compactFields, compactFields, String.intercalate_cons_cons,
      flatMap_append_comma hf, flatMap_field hf]
    refine ⟨[], key, [], [], _, [], blanks_nil, rfl, blanks_nil, blanks_nil, compact_text hf x h.1, blanks_nil,
      .inr ⟨(",".intercalate (compactFields ((key', y) :: ys))).toList.flatMap f, ?_, ?_, ?_⟩⟩
    · simp [respellFields]
    · exact compact_fieldsText hf ((key', y) :: ys) h.2
    · simp [compactFields]

end

mutual

theorem respell_pure : ∀ j : Json, respell (fun c => [c]) j = j
  | .null => by rw [respell] <;> simp
  | .bool b => by rw [respell] <;> simp
  | .number l => by rw [respell] <;> simp
  | .string s => by rw [respell, unspread_pure]
  | .array items => by rw [respell, respellItems_pure items]
  | .object fields => by rw [respell, respellFields_pure fields]

theorem respellItems_pure : ∀ items : List Json, respellItems (fun c => [c]) items = items
  | [] => by rw [respellItems]
  | x :: xs => by rw [respellItems, respell_pure x, respellItems_pure xs]

theorem respellFields_pure : ∀ fields : List (String × Json), respellFields (fun c => [c]) fields = fields
  | [] => by rw [respellFields]
  | (key, x) :: xs => by rw [respellFields, unspread_pure, respell_pure x, respellFields_pure xs]

end

theorem plainItems_iff {items : List Json} : PlainItems items ↔ ∀ x ∈ items, Plain x := by
  induction items with
  | nil => simp [PlainItems]
  | cons x items ih => rw [PlainItems, ih, List.forall_mem_cons]

theorem plainFields_iff {fields : List (String × Json)} : PlainFields fields ↔ ∀ p ∈ fields, Plain p.2 := by
  induction fields with
  | nil => simp [PlainFields]
  | cons p fields ih => rw [PlainFields, ih, List.forall_mem_cons]

theorem depthOfItems_le_iff {n : Nat} {items : List Json} : depthOfItems items ≤ n ↔ ∀ x ∈ items, x.depth ≤ n := by
  induction items with
  | nil => simp [depthOfItems]
  | cons x items ih => rw [depthOfItems, max_le_iff, ih, List.forall_mem_cons]

theorem depthOfFields_le_iff {n : Nat} {fields : List (String × Json)} :
    depthOfFields fields ≤ n ↔ ∀ p ∈ fields, p.2.depth ≤ n := by
  induction fields with
  | nil => simp [depthOfFields]
  | cons p fields ih => rw [depthOfFields, max_le_iff, ih, List.forall_mem_cons]

/-- All numbers of the value are integers, and it is at most `n` deep. -/
structure Readable (n : Nat) (j : Json) : Prop where
  plain : Plain j
  depth : j.depth ≤ n

section Readable

variable {n : Nat}

theorem Readable.mono {m : Nat} {j : Json} (h : Readable n j) (hle : n ≤ m) : Readable m j :=
  ⟨h.plain, h.depth.trans hle⟩

@[simp] theorem readable_null : Readable n .null := ⟨by simp [Plain], by simp [Json.depth]⟩

@[simp] theorem readable_bool (b : Bool) : Readable n (.bool b) := ⟨by simp [Plain], by simp [Json.depth]⟩

@[simp] theorem readable_string (s : String) : Readable n (.string s) := ⟨by simp [Plain], by simp [Json.depth]⟩

@[simp] theorem readable_int (i : Int) : Readable n (.int i) where
  plain := by
    rw [int, Plain]
    exact ⟨i, rfl⟩
  depth := by simp [int, Json.depth]

theorem readable_iff {j : Json} : Readable n j ↔ Plain j ∧ j.depth ≤ n := ⟨fun h => ⟨h.plain, h.depth⟩, fun h => ⟨h.1, h.2⟩⟩

@[simp] theorem readable_array {items : List Json} : Readable (n + 1) (.array items) ↔ ∀ x ∈ items, Readable n x := by
  simp only [readable_iff, Plain, plainItems_iff, Json.depth, Nat.add_le_add_iff_right, depthOfItems_le_iff,
    forall₂_and]

@[simp] theorem readable_object {fields : List (String × Json)} :
    Readable (n + 1) (.object fields) ↔ ∀ p ∈ fields, Readable n p.2 := by
  simp only [readable_iff, Plain, plainFields_iff, Json.depth, Nat.add_le_add_iff_right, depthOfFields_le_iff,
    forall₂_and]

end Readable

/-- The first value of a text is read with what follows it. -/
theorem readFront?_text {f : Char → List Char} (hf : Spreads f) {j : Json} {cs rest : List Char}
    (h : Text f j cs) (hdepth : j.depth ≤ maxDepth) (hrest : Ends rest) : readFront? (cs ++ rest) = some (j, rest) := by
  have hvalue := value?_text hf j (2 * (cs ++ rest).length + 2) cs rest h hrest (by rw [List.length_append]; omega)
  rw [readFront?, hvalue]
  simp [hdepth]

theorem readChars?_compact {j : Json} (h : Readable maxDepth j) : readChars? (compact j).toList = some j := by
  have htext := compact_text spreads_pure j h.plain
  rw [List.flatMap_singleton', respell_pure] at htext
  have hread := readFront?_text spreads_pure htext h.depth ends_nil
  rw [List.append_nil] at hread
  rw [readChars?, hread]
  rfl

/-- **A plain value is read back from its compact text.** -/
theorem read?_compact {j : Json} (h : Readable maxDepth j) : read? (Bytes.ofString (compact j)) = some j := by
  rw [read?, Utf8.decodeLossy_ofString]
  exact readChars?_compact h

/-- **Plain values with the same text are the same.** -/
theorem compact_injective {j j' : Json} (h : Readable maxDepth j) (h' : Readable maxDepth j')
    (heq : compact j = compact j') : j = j' := by
  have hread := read?_compact h
  rw [heq, read?_compact h'] at hread
  exact (Option.some.inj hread).symm

end ScriptSplit.Json
