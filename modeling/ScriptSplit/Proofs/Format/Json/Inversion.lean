import Mathlib
import ScriptSplit.Proofs.Format.Json.Reader

/-!
# What the JSON reader has read

Each reader says what stood at the front of a text from which it got something. From that follows that the
fuel of the reader does not matter as long as there is enough of it.

* `pieces?_cases`, `value?_cases`, `items?_cases`, `fields?_cases`: what was read.
* **`number?_eq_some`**: a number is read again from its literal, whatever else follows it.
* **`value?_enough`**: twice the length of a text is fuel enough.
-/

namespace ScriptSplit.Json

/-! ## Strings -/

/-- **What a piece of a string literal can be**: the end, a code, a letter, or a character of its own. -/
theorem pieces?_cases {cs rest : List Char} {ps : List Piece} (h : pieces? cs = some (ps, rest)) :
    (cs = '\x22' :: rest ∧ ps = []) ∨
    (∃ a b c d r n qs, cs = '\x5c' :: 'u' :: a :: b :: c :: d :: r ∧ hexUnit? a b c d = some n ∧
      pieces? r = some (qs, rest) ∧ ps = .unit n :: qs) ∨
    (∃ e x r qs, cs = '\x5c' :: e :: r ∧ escapedChar? e = some x ∧ pieces? r = some (qs, rest) ∧
      ps = .plain x :: qs) ∨
    (∃ c r qs, cs = c :: r ∧ Safe c ∧ pieces? r = some (qs, rest) ∧ ps = .plain c :: qs) := by
  unfold pieces? at h
  split at h
  · cases h
  · cases h
    exact .inl ⟨rfl, rfl⟩
  · obtain ⟨n, hn, h⟩ := Option.bind_eq_some_iff.mp h
    obtain ⟨⟨qs, r'⟩, hqs, h⟩ := Option.bind_eq_some_iff.mp h
    cases h
    exact .inr (.inl ⟨_, _, _, _, _, n, qs, rfl, hn, hqs, rfl⟩)
  · obtain ⟨x, hx, h⟩ := Option.bind_eq_some_iff.mp h
    obtain ⟨⟨qs, r'⟩, hqs, h⟩ := Option.bind_eq_some_iff.mp h
    cases h
    exact .inr (.inr (.inl ⟨_, x, _, qs, rfl, hx, hqs, rfl⟩))
  case h_5 c r hquote _ _ =>
    split_ifs at h with hsafe
    obtain ⟨⟨qs, r'⟩, hqs, h⟩ := Option.bind_eq_some_iff.mp h
    cases h
    simp only [Bool.or_eq_true, decide_eq_true_eq, not_or, not_lt] at hsafe
    exact .inr (.inr (.inr ⟨c, r, qs, rfl, ⟨fun heq => hquote (by rw [heq]), hsafe.2, hsafe.1⟩, hqs, rfl⟩))

/-- A code is read. -/
theorem pieces?_unit {a b c d : Char} {n : Nat} (hn : hexUnit? a b c d = some n) {r rest : List Char}
    {ps : List Piece} (h : pieces? r = some (ps, rest)) :
    pieces? ('\x5c' :: 'u' :: a :: b :: c :: d :: r) = some (.unit n :: ps, rest) := by
  rw [pieces?, hn, h]
  rfl

theorem length_pieces?_lt {cs rest : List Char} {ps : List Piece} (h : pieces? cs = some (ps, rest)) :
    rest.length < cs.length := by
  induction hlen : cs.length using Nat.strong_induction_on generalizing cs ps with
  | _ n ih =>
    subst hlen
    obtain ⟨rfl, -⟩ | ⟨_, _, _, _, r, _, qs, rfl, -, hqs, -⟩ | ⟨_, _, r, qs, rfl, -, hqs, -⟩ |
      ⟨_, r, qs, rfl, -, hqs, -⟩ := pieces?_cases h
    · simp
    all_goals
      have := ih r.length (by simp [List.length_cons]; try omega) hqs rfl
      simp only [List.length_cons]
      omega

theorem length_stringTail?_lt {cs rest : List Char} {s : String} (h : stringTail? cs = some (s, rest)) :
    rest.length < cs.length := by
  obtain ⟨⟨ps, r⟩, hps, h⟩ := Option.map_eq_some_iff.mp h
  cases h
  exact length_pieces?_lt hps

/-! ## Numbers -/

/-- A character that stands in numbers. -/
def IsNumeral (c : Char) : Prop := c.isDigit = true ∨ c = '-' ∨ c = '+' ∨ c = '.' ∨ c = 'e' ∨ c = 'E'

/-- A part of a number is read again, whatever follows that ends it. -/
structure ReadsAgain (read : List Char → Option (List Char × List Char)) (Stops : List Char → Prop)
    (part : List Char) : Prop where
  numerals : ∀ c ∈ part, IsNumeral c
  again : ∀ x, Stops x → read (part ++ x) = some (part, x)

theorem digits1?_eq_some {cs ds rest : List Char} (h : digits1? cs = some (ds, rest)) :
    cs = ds ++ rest ∧ (∃ d r, ds = d :: r ∧ d.isDigit = true) ∧ ReadsAgain digits1? NoDigit ds := by
  unfold digits1? at h
  split at h
  · cases h
  case h_2 hne =>
    cases h
    have hdigits : ∀ c ∈ cs.takeWhile Char.isDigit, c.isDigit = true := fun c hc => List.mem_takeWhile_imp hc
    obtain ⟨d, r, hds⟩ := List.exists_cons_of_ne_nil hne
    exact ⟨List.takeWhile_append_dropWhile.symm, ⟨d, r, hds, hdigits d (hds ▸ List.mem_cons_self)⟩,
      fun c hc => .inl (hdigits c hc), fun x hx => digits1?_append hne hdigits hx⟩

theorem wholePart?_eq_some {cs whole rest : List Char} (h : wholePart? cs = some (whole, rest)) :
    cs = whole ++ rest ∧ (∃ d r, whole = d :: r ∧ d.isDigit = true) ∧ ReadsAgain wholePart? NoDigit whole := by
  unfold wholePart? at h
  split at h
  · cases h
    exact ⟨rfl, ⟨'0', [], rfl, by decide⟩, by simp [IsNumeral], fun x _ => rfl⟩
  case h_2 hzero =>
    obtain ⟨rfl, ⟨d, r, rfl, hd⟩, hagain⟩ := digits1?_eq_some h
    refine ⟨rfl, ⟨d, r, rfl, hd⟩, hagain.numerals, fun x hx => ?_⟩
    unfold wholePart?
    split
    case h_1 heq =>
      obtain ⟨rfl, -⟩ := List.cons.inj heq
      exact absurd rfl (hzero _)
    case h_2 => exact hagain.again x hx

/-- The fraction is none, or it begins with a point. -/
theorem fractionPart?_eq_some {cs fraction rest : List Char} (h : fractionPart? cs = some (fraction, rest)) :
    cs = fraction ++ rest ∧ (∀ c, fraction.head? = some c → c = '.') ∧
      ReadsAgain fractionPart? (fun x => NoDigit x ∧ x.head? ≠ some '.') fraction := by
  unfold fractionPart? at h
  split at h
  · obtain ⟨⟨ds, r⟩, hds, h⟩ := Option.map_eq_some_iff.mp h
    cases h
    obtain ⟨rfl, -, hagain⟩ := digits1?_eq_some hds
    refine ⟨rfl, fun c hc => (Option.some.inj hc).symm, ?_, fun x hx => ?_⟩
    · exact List.forall_mem_cons.mpr ⟨by simp [IsNumeral], hagain.numerals⟩
    · simp [fractionPart?, hagain.again x hx.1]
  · cases h
    refine ⟨rfl, by simp, by simp, fun x hx => ?_⟩
    rw [List.nil_append, fractionPart?]
    rintro r rfl
    exact hx.2 rfl

theorem exponentDigits?_eq_some {e : Char} (he : e = 'e' ∨ e = 'E') {cs exponent rest : List Char}
    (h : exponentDigits? e cs = some (exponent, rest)) :
    e :: cs = exponent ++ rest ∧ exponent.head? = some e ∧ ReadsAgain exponentPart? NoDigit exponent := by
  have hnumeral : IsNumeral e := by
    unfold IsNumeral
    tauto
  have hpart : ∀ r, exponentPart? (e :: r) = exponentDigits? e r := fun r => if_pos (by simpa using he)
  unfold exponentDigits? at h
  split at h
  · obtain ⟨⟨ds, r⟩, hds, h⟩ := Option.map_eq_some_iff.mp h
    cases h
    obtain ⟨rfl, -, hagain⟩ := digits1?_eq_some hds
    refine ⟨rfl, rfl, ?_, fun x hx => ?_⟩
    · exact List.forall_mem_cons.mpr ⟨hnumeral, List.forall_mem_cons.mpr ⟨by simp [IsNumeral], hagain.numerals⟩⟩
    · simp [hpart, exponentDigits?, hagain.again x hx]
  · obtain ⟨⟨ds, r⟩, hds, h⟩ := Option.map_eq_some_iff.mp h
    cases h
    obtain ⟨rfl, -, hagain⟩ := digits1?_eq_some hds
    refine ⟨rfl, rfl, ?_, fun x hx => ?_⟩
    · exact List.forall_mem_cons.mpr ⟨hnumeral, List.forall_mem_cons.mpr ⟨by simp [IsNumeral], hagain.numerals⟩⟩
    · simp [hpart, exponentDigits?, hagain.again x hx]
  case h_3 hplus hminus =>
    obtain ⟨⟨ds, r⟩, hds, h⟩ := Option.map_eq_some_iff.mp h
    cases h
    obtain ⟨rfl, ⟨d, r, rfl, hd⟩, hagain⟩ := digits1?_eq_some hds
    refine ⟨rfl, rfl, List.forall_mem_cons.mpr ⟨hnumeral, hagain.numerals⟩, fun x hx => ?_⟩
    rw [List.cons_append, hpart, exponentDigits?]
    · rw [hagain.again x hx]
      rfl
    · rintro r' heq
      cases heq
      exact absurd hd (by decide)
    · rintro r' heq
      cases heq
      exact absurd hd (by decide)

/-- The exponent is none, or it begins with its letter. -/
theorem exponentPart?_eq_some {cs exponent rest : List Char} (h : exponentPart? cs = some (exponent, rest)) :
    cs = exponent ++ rest ∧ (∀ c, exponent.head? = some c → c = 'e' ∨ c = 'E') ∧
      ReadsAgain exponentPart? Ends exponent := by
  have hnone : ReadsAgain exponentPart? Ends [] := ⟨by simp, fun x hx => exponentPart?_ends hx⟩
  unfold exponentPart? at h
  split at h
  · split_ifs at h with he
    · simp only [Bool.or_eq_true, decide_eq_true_eq] at he
      obtain ⟨hcs, hhead, hagain⟩ := exponentDigits?_eq_some he h
      refine ⟨hcs, fun c hc => ?_, hagain.numerals, fun x hx => hagain.again x hx.noDigit⟩
      rw [hhead] at hc
      cases hc
      exact he
    · cases h
      exact ⟨rfl, by simp, hnone⟩
  · cases h
    exact ⟨rfl, by simp, hnone⟩

theorem signPart_eq {cs sign rest : List Char} (h : signPart cs = (sign, rest)) :
    cs = sign ++ rest ∧ (∀ c ∈ sign, c = '-') ∧
      ∀ d r, d.isDigit = true → signPart (sign ++ d :: r) = (sign, d :: r) := by
  unfold signPart at h
  split at h
  · cases h
    exact ⟨rfl, by simp, fun d r _ => rfl⟩
  · cases h
    refine ⟨rfl, by simp, fun d r hd => ?_⟩
    rw [List.nil_append, signPart]
    rintro r' heq
    cases heq
    exact absurd hd (by decide)

/-- **A number** is read again from its literal, whatever follows that ends it. -/
theorem number?_eq_some {cs rest : List Char} {l : String} (h : number? cs = some (l, rest)) :
    cs = l.toList ++ rest ∧ (∃ c r, l.toList = c :: r ∧ (c = '-' ∨ c.isDigit = true)) ∧
      (∀ c ∈ l.toList, IsNumeral c) ∧ ∀ x, Ends x → number? (l.toList ++ x) = some (l, x) := by
  unfold number? at h
  obtain ⟨sign, r, hsignPart⟩ : ∃ sign r, signPart cs = (sign, r) := ⟨_, _, rfl⟩
  rw [hsignPart] at h
  obtain ⟨⟨whole, r₁⟩, hwholePart, h⟩ := Option.bind_eq_some_iff.mp h
  obtain ⟨⟨fraction, r₂⟩, hfractionPart, h⟩ := Option.bind_eq_some_iff.mp h
  obtain ⟨⟨exponent, r₃⟩, hexponentPart, h⟩ := Option.bind_eq_some_iff.mp h
  cases h
  obtain ⟨rfl, hsigns, hsign⟩ := signPart_eq hsignPart
  obtain ⟨rfl, ⟨d, digits, rfl, hd⟩, hwhole⟩ := wholePart?_eq_some hwholePart
  obtain ⟨rfl, hpoint, hfraction⟩ := fractionPart?_eq_some hfractionPart
  obtain ⟨rfl, hletter, hexponent⟩ := exponentPart?_eq_some hexponentPart
  have hstop : ∀ {x}, Ends x → NoDigit (exponent ++ x) ∧ (exponent ++ x).head? ≠ some '.' := by
    intro x hx
    cases exponent with
    | nil => exact ⟨hx.noDigit, fun hc => (hx '.' hc).2.1 rfl⟩
    | cons e r =>
      obtain rfl | rfl := hletter e rfl
      · exact ⟨fun c hc => by cases hc; decide, by simp⟩
      · exact ⟨fun c hc => by cases hc; decide, by simp⟩
  have hstop' : ∀ {x}, Ends x → NoDigit (fraction ++ (exponent ++ x)) := by
    intro x hx
    cases fraction with
    | nil => exact (hstop hx).1
    | cons c r =>
      obtain rfl := hpoint c rfl
      exact fun c hc => by cases hc; decide
  rw [String.toList_ofList]
  refine ⟨by simp, ?_, ?_, fun x hx => ?_⟩
  · cases sign with
    | nil => exact ⟨d, digits ++ fraction ++ exponent, by simp, .inr hd⟩
    | cons c r => exact ⟨c, _, rfl, .inl (hsigns c List.mem_cons_self)⟩
  · simp only [List.forall_mem_append]
    exact ⟨⟨⟨fun c hc => .inr (.inl (hsigns c hc)), hwhole.numerals⟩, hfraction.numerals⟩, hexponent.numerals⟩
  · have happend : sign ++ d :: digits ++ fraction ++ exponent ++ x =
        sign ++ d :: (digits ++ (fraction ++ (exponent ++ x))) := by simp
    have hread := hwhole.again (fraction ++ (exponent ++ x)) (hstop' hx)
    rw [List.cons_append] at hread
    rw [happend, number?, hsign _ _ hd]
    simp only [hread, hfraction.again _ (hstop hx), hexponent.again x hx, Option.bind_eq_bind, Option.bind_some]
    rfl

/-! ## Words and blanks -/

theorem afterWord?_eq_some_iff {w cs rest : List Char} : afterWord? w cs = some rest ↔ cs = w ++ rest := by
  induction w generalizing cs with
  | nil => simp [afterWord?]
  | cons a w ih =>
    cases cs with
    | nil => simp [afterWord?]
    | cons c cs =>
      rw [afterWord?]
      split_ifs with h
      · rw [ih, h]
        simp
      · simp [Ne.symm h]

theorem length_skipBlanks_le (cs : List Char) : (skipBlanks cs).length ≤ cs.length := List.length_dropWhile_le _ _

theorem skipBlanks_skipBlanks (cs : List Char) : skipBlanks (skipBlanks cs) = skipBlanks cs :=
  List.dropWhile_idempotent _ _

theorem value?_skipBlanks (fuel : Nat) (cs : List Char) : value? fuel (skipBlanks cs) = value? fuel cs := by
  cases fuel with
  | zero => rfl
  | succ fuel => rw [value?, value?, skipBlanks_skipBlanks]

theorem items?_skipBlanks (fuel : Nat) (cs : List Char) : items? fuel (skipBlanks cs) = items? fuel cs := by
  cases fuel with
  | zero => rfl
  | succ fuel => rw [items?, items?, value?_skipBlanks]

theorem fields?_skipBlanks (fuel : Nat) (cs : List Char) : fields? fuel (skipBlanks cs) = fields? fuel cs := by
  cases fuel with
  | zero => rfl
  | succ fuel => rw [fields?, fields?, skipBlanks_skipBlanks]

/-! ## Values -/

/-- The words that are values. -/
inductive Word : List Char → Json → Prop
  | null : Word ['n', 'u', 'l', 'l'] .null
  | yes : Word ['t', 'r', 'u', 'e'] (.bool true)
  | no : Word ['f', 'a', 'l', 's', 'e'] (.bool false)

/-- What a value at the front of a text can be. -/
inductive Front (fuel : Nat) : List Char → Json → List Char → Prop
  | word {w : List Char} {j : Json} (hw : Word w j) (rest : List Char) : Front fuel (w ++ rest) j rest
  | number {cs rest : List Char} {l : String} (hl : number? cs = some (l, rest)) : Front fuel cs (.number l) rest
  | string {r rest : List Char} {s : String} (hs : stringTail? r = some (s, rest)) :
      Front fuel ('\x22' :: r) (.string s) rest
  | emptyArray {r rest : List Char} (hr : skipBlanks r = ']' :: rest) : Front fuel ('[' :: r) (.array []) rest
  | array {r rest : List Char} {items : List Json} (hr : ∀ t, skipBlanks r ≠ ']' :: t)
      (hitems : items? fuel r = some (items, rest)) : Front fuel ('[' :: r) (.array items) rest
  | emptyObject {r rest : List Char} (hr : skipBlanks r = '\x7d' :: rest) :
      Front fuel ('\x7b' :: r) (.object []) rest
  | object {r rest : List Char} {fields : List (String × Json)} (hr : ∀ t, skipBlanks r ≠ '\x7d' :: t)
      (hfields : fields? fuel r = some (fields, rest)) : Front fuel ('\x7b' :: r) (.object fields) rest

theorem number?_start {c : Char} {r rest : List Char} {l : String} (h : number? (c :: r) = some (l, rest)) :
    c = '-' ∨ c.isDigit = true := by
  obtain ⟨hcs, ⟨d, r', hl, hd⟩, -⟩ := number?_eq_some h
  rw [hl] at hcs
  cases hcs
  exact hd

/-- What a value was read from. -/
theorem front_of_value? {fuel : Nat} {cs rest : List Char} {j : Json} (h : value? (fuel + 1) cs = some (j, rest)) :
    Front fuel (skipBlanks cs) j rest := by
  rw [value?] at h
  split at h
  · cases h
  case h_2 r heq =>
    obtain ⟨⟨s, r'⟩, hs, h⟩ := Option.map_eq_some_iff.mp h
    cases h
    rw [heq]
    exact .string hs
  case h_3 r heq =>
    rw [heq]
    split at h
    case h_1 r' hr =>
      cases h
      exact .emptyArray hr
    case h_2 r' hne =>
      obtain ⟨⟨xs, r'⟩, hxs, h⟩ := Option.map_eq_some_iff.mp h
      cases h
      rw [items?_skipBlanks] at hxs
      exact .array (fun t ht => hne t ht) hxs
  case h_4 r heq =>
    rw [heq]
    split at h
    case h_1 r' hr =>
      cases h
      exact .emptyObject hr
    case h_2 r' hne =>
      obtain ⟨⟨fs, r'⟩, hfs, h⟩ := Option.map_eq_some_iff.mp h
      cases h
      rw [fields?_skipBlanks] at hfs
      exact .object (fun t ht => hne t ht) hfs
  case h_5 r heq =>
    obtain ⟨r', hr, h⟩ := Option.map_eq_some_iff.mp h
    cases h
    rw [heq, afterWord?_eq_some_iff.mp hr]
    exact .word .yes _
  case h_6 r heq =>
    obtain ⟨r', hr, h⟩ := Option.map_eq_some_iff.mp h
    cases h
    rw [heq, afterWord?_eq_some_iff.mp hr]
    exact .word .no _
  case h_7 r heq =>
    obtain ⟨r', hr, h⟩ := Option.map_eq_some_iff.mp h
    cases h
    rw [heq, afterWord?_eq_some_iff.mp hr]
    exact .word .null _
  case h_8 c r _ _ _ _ _ _ heq =>
    obtain ⟨⟨l, r'⟩, hl, h⟩ := Option.map_eq_some_iff.mp h
    cases h
    rw [heq]
    exact .number hl

theorem Front.value?_eq {fuel : Nat} {cs rest : List Char} {j : Json} (h : Front fuel cs j rest) :
    value? (fuel + 1) cs = some (j, rest) := by
  cases h with
  | word hw rest => cases hw <;> rfl
  | number hl =>
    cases cs with
    | nil => cases hl
    | cons c r =>
      rw [value?_number (number?_start hl), hl]
      rfl
  | string hs =>
    rw [value?, skipBlanks_cons (by decide)]
    simp only [hs]
    rfl
  | emptyArray hr =>
    rw [value?, skipBlanks_cons (by decide)]
    simp only [hr]
  | array hr hitems =>
    rw [value?, skipBlanks_cons (by decide)]
    simp only [items?_skipBlanks, hitems]
    rfl
  | emptyObject hr =>
    rw [value?, skipBlanks_cons (by decide)]
    simp only [hr]
  | object hr hfields =>
    rw [value?, skipBlanks_cons (by decide)]
    simp only [fields?_skipBlanks, hfields]
    rfl

/-- **What a value is read from.** -/
theorem value?_succ_iff {fuel : Nat} {cs rest : List Char} {j : Json} :
    value? (fuel + 1) cs = some (j, rest) ↔ Front fuel (skipBlanks cs) j rest :=
  ⟨front_of_value?, fun h => (value?_skipBlanks _ cs).symm.trans h.value?_eq⟩

/-- **What the items of an array are read from.** -/
theorem items?_cases {fuel : Nat} {cs rest : List Char} {xs : List Json}
    (h : items? (fuel + 1) cs = some (xs, rest)) :
    ∃ x r, value? fuel cs = some (x, r) ∧
      ((skipBlanks r = ']' :: rest ∧ xs = [x]) ∨
        ∃ r' ys, skipBlanks r = ',' :: r' ∧ items? fuel r' = some (ys, rest) ∧ xs = x :: ys) := by
  rw [items?] at h
  obtain ⟨⟨x, r⟩, hx, h⟩ := Option.bind_eq_some_iff.mp h
  refine ⟨x, r, hx, ?_⟩
  dsimp only at h
  split at h
  case h_1 r' hr =>
    obtain ⟨⟨ys, r''⟩, hys, h⟩ := Option.bind_eq_some_iff.mp h
    cases h
    exact .inr ⟨r', ys, hr, hys, rfl⟩
  case h_2 r' hr =>
    cases h
    exact .inl ⟨hr, rfl⟩
  case h_3 => cases h

/-- **What the fields of an object are read from.** -/
theorem fields?_cases {fuel : Nat} {cs rest : List Char} {fs : List (String × Json)}
    (h : fields? (fuel + 1) cs = some (fs, rest)) :
    ∃ r key r₁ r₂ x r₃, skipBlanks cs = '\x22' :: r ∧ stringTail? r = some (key, r₁) ∧
      skipBlanks r₁ = ':' :: r₂ ∧ value? fuel r₂ = some (x, r₃) ∧
      ((skipBlanks r₃ = '\x7d' :: rest ∧ fs = [(key, x)]) ∨
        ∃ r' gs, skipBlanks r₃ = ',' :: r' ∧ fields? fuel r' = some (gs, rest) ∧ fs = (key, x) :: gs) := by
  rw [fields?] at h
  split at h
  case h_2 => cases h
  case h_1 r hcs =>
    obtain ⟨⟨key, r₁⟩, hkey, h⟩ := Option.bind_eq_some_iff.mp h
    dsimp only at h
    split at h
    case h_2 => cases h
    case h_1 r₂ hcolon =>
      obtain ⟨⟨x, r₃⟩, hx, h⟩ := Option.bind_eq_some_iff.mp h
      refine ⟨r, key, r₁, r₂, x, r₃, hcs, hkey, hcolon, hx, ?_⟩
      dsimp only at h
      split at h
      case h_1 r' hr =>
        obtain ⟨⟨gs, r''⟩, hgs, h⟩ := Option.bind_eq_some_iff.mp h
        cases h
        exact .inr ⟨r', gs, hr, hgs, rfl⟩
      case h_2 r' hr =>
        cases h
        exact .inl ⟨hr, rfl⟩
      case h_3 => cases h

/-- A value begins with one of a few characters. -/
theorem Front.start {fuel : Nat} {cs rest : List Char} {j : Json} (h : Front fuel cs j rest) :
    ∃ c r, cs = c :: r ∧ IsStart c := by
  unfold IsStart
  cases h with
  | word hw rest => cases hw <;> exact ⟨_, _, rfl, by tauto⟩
  | number hl =>
    obtain ⟨rfl, ⟨c, r, hcr, hc⟩, -⟩ := number?_eq_some hl
    exact ⟨c, r ++ rest, by rw [hcr]; rfl, by tauto⟩
  | string => exact ⟨_, _, rfl, by tauto⟩
  | emptyArray => exact ⟨_, _, rfl, by tauto⟩
  | array => exact ⟨_, _, rfl, by tauto⟩
  | emptyObject => exact ⟨_, _, rfl, by tauto⟩
  | object => exact ⟨_, _, rfl, by tauto⟩

theorem items?_start {fuel : Nat} {cs rest : List Char} {xs : List Json} (h : items? fuel cs = some (xs, rest)) :
    ∃ c r, skipBlanks cs = c :: r ∧ IsStart c := by
  obtain _ | _ | fuel := fuel
  · cases h
  · obtain ⟨x, r, hx, -⟩ := items?_cases h
    cases hx
  · obtain ⟨x, r, hx, -⟩ := items?_cases h
    exact (front_of_value? hx).start

theorem fields?_start {fuel : Nat} {cs rest : List Char} {fs : List (String × Json)}
    (h : fields? fuel cs = some (fs, rest)) : ∃ r, skipBlanks cs = '\x22' :: r := by
  obtain _ | fuel := fuel
  · cases h
  · obtain ⟨r, -, -, -, -, -, hcs, -⟩ := fields?_cases h
    exact ⟨r, hcs⟩

/-! ## Fuel -/

theorem fields?_skip {fuel : Nat} {cs r : List Char} (h : skipBlanks cs = r) : fields? fuel cs = fields? fuel r := by
  rw [← fields?_skipBlanks, h]

theorem length_le_of_skipBlanks {cs r : List Char} {c : Char} (h : skipBlanks cs = c :: r) :
    r.length < cs.length := by
  have := length_skipBlanks_le cs
  rw [h, List.length_cons] at this
  omega

mutual

/-- **What is read with some fuel is read with any that is enough**, and something is used up. -/
theorem value?_enough : ∀ (fuel : Nat) {cs rest : List Char} {j : Json}, value? fuel cs = some (j, rest) →
    rest.length < cs.length ∧ ∀ m, 2 * cs.length ≤ m + 1 → value? m cs = some (j, rest)
  | 0, _, _, _, h => by cases h
  | fuel + 1, cs, rest, j, h => by
    have hlen := length_skipBlanks_le cs
    suffices hfront : rest.length < (skipBlanks cs).length ∧
        ∀ m, 2 * (skipBlanks cs).length ≤ m + 2 → Front m (skipBlanks cs) j rest by
      refine ⟨by omega, fun m hm => ?_⟩
      obtain _ | m := m
      · omega
      · exact value?_succ_iff.mpr (hfront.2 m (by omega))
    have hread := front_of_value? h
    generalize skipBlanks cs = cs' at hread
    cases hread with
    | word hw rest =>
      refine ⟨?_, fun m _ => .word hw rest⟩
      cases hw <;> simp only [List.length_append, List.length_cons] <;> omega
    | number hl =>
      refine ⟨?_, fun m _ => .number hl⟩
      obtain ⟨hcs, ⟨c, r, hcr, -⟩, -⟩ := number?_eq_some hl
      rw [hcs, hcr]
      simp only [List.length_append, List.length_cons]
      omega
    | string hs =>
      have := length_stringTail?_lt hs
      exact ⟨by rw [List.length_cons]; omega, fun m _ => .string hs⟩
    | emptyArray hr =>
      have := length_le_of_skipBlanks hr
      exact ⟨by rw [List.length_cons]; omega, fun m _ => .emptyArray hr⟩
    | array hr hitems =>
      obtain ⟨hlt, hall⟩ := items?_enough fuel hitems
      simp only [List.length_cons]
      exact ⟨by omega, fun m hm => .array hr (hall m (by omega))⟩
    | emptyObject hr =>
      have := length_le_of_skipBlanks hr
      exact ⟨by rw [List.length_cons]; omega, fun m _ => .emptyObject hr⟩
    | object hr hfields =>
      obtain ⟨hlt, hall⟩ := fields?_enough fuel hfields
      simp only [List.length_cons]
      exact ⟨by omega, fun m hm => .object hr (hall m (by omega))⟩

theorem items?_enough : ∀ (fuel : Nat) {cs rest : List Char} {xs : List Json}, items? fuel cs = some (xs, rest) →
    rest.length < cs.length ∧ ∀ m, 2 * cs.length ≤ m → items? m cs = some (xs, rest)
  | 0, _, _, _, h => by cases h
  | fuel + 1, cs, rest, xs, h => by
    obtain ⟨x, r, hx, hmore⟩ := items?_cases h
    obtain ⟨hlt, hall⟩ := value?_enough fuel hx
    obtain ⟨hr, rfl⟩ | ⟨r', ys, hr, hys, rfl⟩ := hmore
    · have := length_le_of_skipBlanks hr
      refine ⟨by omega, fun m hm => ?_⟩
      obtain _ | m := m
      · omega
      · rw [items?_step (hall m (by omega)) hr]
        rfl
    · have := length_le_of_skipBlanks hr
      obtain ⟨hlt', hall'⟩ := items?_enough fuel hys
      refine ⟨by omega, fun m hm => ?_⟩
      obtain _ | m := m
      · omega
      · rw [items?_step (hall m (by omega)) hr, if_pos rfl, hall' m (by omega)]
        rfl

theorem fields?_enough : ∀ (fuel : Nat) {cs rest : List Char} {fs : List (String × Json)},
    fields? fuel cs = some (fs, rest) →
    rest.length < cs.length ∧ ∀ m, 2 * cs.length ≤ m → fields? m cs = some (fs, rest)
  | 0, _, _, _, h => by cases h
  | fuel + 1, cs, rest, fs, h => by
    obtain ⟨r, key, r₁, r₂, x, r₃, hcs, hkey, hcolon, hx, hmore⟩ := fields?_cases h
    obtain ⟨hlt, hall⟩ := value?_enough fuel hx
    have hquote := length_le_of_skipBlanks hcs
    have hkeyLen := length_stringTail?_lt hkey
    have hcolonLen := length_le_of_skipBlanks hcolon
    obtain ⟨hr, rfl⟩ | ⟨r', gs, hr, hgs, rfl⟩ := hmore
    · have := length_le_of_skipBlanks hr
      refine ⟨by omega, fun m hm => ?_⟩
      obtain _ | m := m
      · omega
      · rw [fields?_skip hcs, fields?_step hkey hcolon (hall m (by omega)) hr]
        rfl
    · have := length_le_of_skipBlanks hr
      obtain ⟨hlt', hall'⟩ := fields?_enough fuel hgs
      refine ⟨by omega, fun m hm => ?_⟩
      obtain _ | m := m
      · omega
      · rw [fields?_skip hcs, fields?_step hkey hcolon (hall m (by omega)) hr, if_pos rfl, hall' m (by omega)]
        rfl

end

/-- The first value of a text is the one that is read with any fuel, if it is not too deep. -/
theorem readFront?_of_value? {fuel : Nat} {cs rest : List Char} {j : Json} (h : value? fuel cs = some (j, rest)) :
    readFront? cs = if j.depth ≤ maxDepth then some (j, rest) else none := by
  rw [readFront?, (value?_enough fuel h).2 _ (by omega), Option.filter_some]
  simp only [decide_eq_true_eq]

end ScriptSplit.Json
