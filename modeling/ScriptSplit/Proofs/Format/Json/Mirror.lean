import Mathlib
import ScriptSplit.Proofs.Format.Json.Literal

/-!
# Texts of the same tokens

A JSON text is read as bytes when it is passed on, as characters when its value is wanted, and both again after
it was compacted. Where the bytes are read, all the others are, to the same value.

* `Mirrors`: texts whose tokens are the same; **`Mirrors.value?`**: two texts give one value where a third is read.
* `mirrors_lossy`, `mirrors_bytes`: the forms of a byte text.
* **`read?_compactBytes`**: the compacted text has the same value, and is read where it stands in another text.
-/

namespace ScriptSplit.Json

/-- A character that is a token or part of one, and no quote. -/
def IsToken (c : Char) : Prop := c.toNat < 128 ∧ c ≠ '\x22' ∧ isBlank c = false

theorem isToken_numeral {c : Char} (h : IsNumeral c) : IsToken c := by
  obtain hdigit | rfl | rfl | rfl | rfl | rfl := h
  · have hstart : IsStart c := by
      unfold IsStart
      tauto
    refine ⟨?_, ?_, hstart.not_blank⟩
    · simp only [Char.isDigit, Bool.and_eq_true, decide_eq_true_eq] at hdigit
      exact Nat.lt_of_le_of_lt hdigit.2 (by decide)
    · rintro rfl
      exact absurd hdigit (by decide)
  all_goals exact ⟨by decide, by decide, by decide⟩

theorem IsStart.token {c : Char} (h : IsStart c) : IsToken c ∨ c = '\x22' := by
  obtain rfl | rfl | rfl | rfl | rfl | rfl | rfl | h := h
  case inr.inr.inr.inl => exact .inr rfl
  all_goals refine .inl ?_
  all_goals first
    | exact ⟨by decide, by decide, by decide⟩
    | exact isToken_numeral (.inl h)

theorem Word.tokens {w : List Char} {j : Json} (h : Word w j) : ∀ c ∈ w, IsToken c := by
  cases h <;> simp [IsToken, isBlank]

/-- A value ends here. -/
def Closes (cs : List Char) : Prop := ∀ c r, skipBlanks cs = c :: r → c = ',' ∨ c = ']' ∨ c = '\x7d'

theorem Closes.ends {cs : List Char} (h : Closes cs) : Ends cs := by
  rintro c hc
  cases cs with
  | nil => cases hc
  | cons d r =>
    obtain rfl := Option.some.inj hc
    by_cases hblank : isBlank d = true
    · simp only [isBlank, Bool.or_eq_true, decide_eq_true_eq] at hblank
      obtain ((rfl | rfl) | rfl) | rfl := hblank <;> decide
    · obtain rfl | rfl | rfl := h d r (skipBlanks_cons (by simpa using hblank) r) <;> decide

theorem closes_nil : Closes [] := fun _ _ h => by cases h

theorem closes_of_skipBlanks {cs r : List Char} {c : Char} (h : skipBlanks cs = c :: r)
    (hc : c = ',' ∨ c = ']' ∨ c = '\x7d') : Closes cs := by
  intro d r' hd
  rw [h] at hd
  cases hd
  exact hc

/-- **Three texts of the same tokens**; where the first has a string, the other two have one and the same. -/
structure Mirrors (R : List Char → List Char → List Char → Prop) : Prop where
  blanks : ∀ {cs a b}, R cs a b → R (skipBlanks cs) (skipBlanks a) (skipBlanks b)
  token : ∀ {c cs a b}, R (c :: cs) a b → IsToken c → ∃ a' b', a = c :: a' ∧ b = c :: b' ∧ R cs a' b'
  quote : ∀ {cs a b}, R ('\x22' :: cs) a b → ∃ a' b', a = '\x22' :: a' ∧ b = '\x22' :: b' ∧
    ∀ {s rest}, stringTail? cs = some (s, rest) →
      ∃ s' a'' b'', stringTail? a' = some (s', a'') ∧ stringTail? b' = some (s', b'') ∧ R rest a'' b''
  nil : ∀ {a b}, R [] a b → Closes a ∧ Closes b

section Mirrors

variable {R : List Char → List Char → List Char → Prop} (hR : Mirrors R) {cs a b rest : List Char}
include hR

/-- The two other texts give the same, of the size of what the first one gave. -/
def Mirrored {α : Type} (R : List Char → List Char → List Char → Prop) (size : α → Nat)
    (read : List Char → Option (α × List Char)) (a b : List Char) (x : α) (rest : List Char) : Prop :=
  ∃ x' a' b', read a = some (x', a') ∧ read b = some (x', b') ∧ size x' = size x ∧ R rest a' b'

theorem Mirrors.tokens {w : List Char} (hw : ∀ c ∈ w, IsToken c) (h : R (w ++ rest) a b) :
    ∃ a' b', a = w ++ a' ∧ b = w ++ b' ∧ R rest a' b' := by
  induction w generalizing a b with
  | nil => exact ⟨a, b, rfl, rfl, h⟩
  | cons c w ih =>
    obtain ⟨a', b', rfl, rfl, h'⟩ := hR.token h (hw c List.mem_cons_self)
    obtain ⟨a'', b'', rfl, rfl, h''⟩ := ih (fun d hd => hw d (List.mem_cons_of_mem c hd)) h'
    exact ⟨a'', b'', rfl, rfl, h''⟩

/-- A token after blanks is found in the other texts. -/
theorem Mirrors.next (h : R cs a b) {c : Char} (hc : IsToken c) (hcs : skipBlanks cs = c :: rest) :
    ∃ a' b', skipBlanks a = c :: a' ∧ skipBlanks b = c :: b' ∧ R rest a' b' :=
  hR.token (hcs ▸ hR.blanks h) hc

/-- The first character after blanks is the same. -/
theorem Mirrors.first (h : R cs a b) {c : Char} (hc : IsToken c ∨ c = '\x22') (hcs : skipBlanks cs = c :: rest) :
    ∃ a' b', skipBlanks a = c :: a' ∧ skipBlanks b = c :: b' := by
  have hskip := hR.blanks h
  rw [hcs] at hskip
  obtain hc | rfl := hc
  · obtain ⟨a', b', ha, hb, -⟩ := hR.token hskip hc
    exact ⟨a', b', ha, hb⟩
  · obtain ⟨a', b', ha, hb, -⟩ := hR.quote hskip
    exact ⟨a', b', ha, hb⟩

theorem Mirrors.closes (h : R cs a b) (hcs : Closes cs) : Closes a ∧ Closes b := by
  cases hskip : skipBlanks cs with
  | nil =>
    obtain ⟨ha, hb⟩ := hR.nil (hskip ▸ hR.blanks h)
    unfold Closes at *
    rw [skipBlanks_skipBlanks] at ha hb
    exact ⟨ha, hb⟩
  | cons c r =>
    have hc := hcs c r hskip
    have htoken : IsToken c := by
      obtain rfl | rfl | rfl := hc <;> exact ⟨by decide, by decide, by decide⟩
    obtain ⟨a', b', ha, hb, -⟩ := hR.next h htoken hskip
    exact ⟨closes_of_skipBlanks ha hc, closes_of_skipBlanks hb hc⟩

mutual

/-- **A value of the first text** is one and the same value in the other two. -/
theorem value?_mirror : ∀ (fuel : Nat) {cs a b rest : List Char} {j : Json}, R cs a b → Closes rest →
    value? fuel cs = some (j, rest) → Mirrored R depth (value? fuel) a b j rest
  | 0, _, _, _, _, _, _, _, h => by cases h
  | fuel + 1, cs, a, b, rest, j, hcs, hrest, h => by
    have hread := front_of_value? h
    have hskip := hR.blanks hcs
    unfold Mirrored
    simp only [value?_succ_iff]
    generalize skipBlanks cs = cs' at hread hskip
    generalize skipBlanks a = a at hskip
    generalize skipBlanks b = b at hskip
    cases hread with
    | @word w j hw rest =>
      obtain ⟨a', b', rfl, rfl, h'⟩ := hR.tokens hw.tokens hskip
      exact ⟨j, a', b', .word hw a', .word hw b', rfl, h'⟩
    | @number _ _ l hl =>
      obtain ⟨rfl, -, hnumerals, hagain⟩ := number?_eq_some hl
      obtain ⟨a', b', rfl, rfl, h'⟩ := hR.tokens (fun c hc => isToken_numeral (hnumerals c hc)) hskip
      obtain ⟨ha', hb'⟩ := hR.closes h' hrest
      exact ⟨_, a', b', .number (hagain a' ha'.ends), .number (hagain b' hb'.ends), rfl, h'⟩
    | string hs =>
      obtain ⟨a', b', rfl, rfl, hstring⟩ := hR.quote hskip
      obtain ⟨s', a'', b'', ha, hb, h'⟩ := hstring hs
      exact ⟨_, a'', b'', .string ha, .string hb, by simp [Json.depth], h'⟩
    | emptyArray hr =>
      obtain ⟨a', b', rfl, rfl, h'⟩ := hR.token hskip ⟨by decide, by decide, by decide⟩
      obtain ⟨a'', b'', ha, hb, h''⟩ := hR.next h' (c := ']') ⟨by decide, by decide, by decide⟩ hr
      exact ⟨_, a'', b'', .emptyArray ha, .emptyArray hb, rfl, h''⟩
    | array hr hitems =>
      obtain ⟨a', b', rfl, rfl, h'⟩ := hR.token hskip ⟨by decide, by decide, by decide⟩
      obtain ⟨c, r, hfirst, hc⟩ := items?_start hitems
      obtain ⟨ra, rb, ha, hb⟩ := hR.first h' hc.token hfirst
      obtain ⟨xs, a'', b'', hxa, hxb, hdepth, h''⟩ := items?_mirror fuel h' hitems
      have hne : ∀ {u t r : List Char}, skipBlanks u = c :: r → skipBlanks u ≠ ']' :: t := by
        intro u t r hu ht
        rw [hu] at ht
        exact hc.ne (.inl rfl) (List.cons.inj ht).1
      exact ⟨.array xs, a'', b'', .array (fun t => hne ha) hxa, .array (fun t => hne hb) hxb,
        congrArg (· + 1) hdepth, h''⟩
    | emptyObject hr =>
      obtain ⟨a', b', rfl, rfl, h'⟩ := hR.token hskip ⟨by decide, by decide, by decide⟩
      obtain ⟨a'', b'', ha, hb, h''⟩ := hR.next h' (c := '\x7d') ⟨by decide, by decide, by decide⟩ hr
      exact ⟨_, a'', b'', .emptyObject ha, .emptyObject hb, rfl, h''⟩
    | object hr hfields =>
      obtain ⟨a', b', rfl, rfl, h'⟩ := hR.token hskip ⟨by decide, by decide, by decide⟩
      obtain ⟨r, hfirst⟩ := fields?_start hfields
      obtain ⟨ra, rb, ha, hb⟩ := hR.first h' (.inr rfl) hfirst
      obtain ⟨fs, a'', b'', hfa, hfb, hdepth, h''⟩ := fields?_mirror fuel h' hfields
      have hne : ∀ {u t r : List Char}, skipBlanks u = '\x22' :: r → skipBlanks u ≠ '\x7d' :: t := by
        intro u t r hu ht
        rw [hu] at ht
        cases ht
      exact ⟨.object fs, a'', b'', .object (fun t => hne ha) hfa, .object (fun t => hne hb) hfb,
        congrArg (· + 1) hdepth, h''⟩

theorem items?_mirror : ∀ (fuel : Nat) {cs a b rest : List Char} {xs : List Json}, R cs a b →
    items? fuel cs = some (xs, rest) → Mirrored R depthOfItems (items? fuel) a b xs rest
  | 0, _, _, _, _, _, _, h => by cases h
  | fuel + 1, cs, a, b, rest, xs, hcs, h => by
    obtain ⟨x, r, hx, hmore⟩ := items?_cases h
    obtain ⟨hr, rfl⟩ | ⟨r', ys, hr, hys, rfl⟩ := hmore
    · obtain ⟨y, a', b', hya, hyb, hdepth, h'⟩ :=
        value?_mirror fuel hcs (closes_of_skipBlanks hr (by tauto)) hx
      obtain ⟨a'', b'', ha, hb, h''⟩ := hR.next h' (c := ']') ⟨by decide, by decide, by decide⟩ hr
      refine ⟨[y], a'', b'', ?_, ?_, ?_, h''⟩
      · rw [items?_step hya ha]
        rfl
      · rw [items?_step hyb hb]
        rfl
      · simp only [depthOfItems, hdepth]
    · obtain ⟨y, a', b', hya, hyb, hdepth, h'⟩ :=
        value?_mirror fuel hcs (closes_of_skipBlanks hr (by tauto)) hx
      obtain ⟨a'', b'', ha, hb, h''⟩ := hR.next h' (c := ',') ⟨by decide, by decide, by decide⟩ hr
      obtain ⟨zs, a₃, b₃, hza, hzb, hdepth', h₃⟩ := items?_mirror fuel h'' hys
      refine ⟨y :: zs, a₃, b₃, ?_, ?_, ?_, h₃⟩
      · rw [items?_step hya ha, if_pos rfl, hza]
        rfl
      · rw [items?_step hyb hb, if_pos rfl, hzb]
        rfl
      · simp only [depthOfItems, hdepth, hdepth']

theorem fields?_mirror : ∀ (fuel : Nat) {cs a b rest : List Char} {fs : List (String × Json)}, R cs a b →
    fields? fuel cs = some (fs, rest) → Mirrored R depthOfFields (fields? fuel) a b fs rest
  | 0, _, _, _, _, _, _, h => by cases h
  | fuel + 1, cs, a, b, rest, fs, hcs, h => by
    obtain ⟨r, key, r₁, r₂, x, r₃, hopen, hkey, hcolon, hx, hmore⟩ := fields?_cases h
    have hskip := hR.blanks hcs
    rw [hopen] at hskip
    obtain ⟨a₀, b₀, ha₀, hb₀, hstring⟩ := hR.quote hskip
    obtain ⟨key', a₁, b₁, hka, hkb, h₁⟩ := hstring hkey
    obtain ⟨a₂, b₂, ha₂, hb₂, h₂⟩ := hR.next h₁ (c := ':') ⟨by decide, by decide, by decide⟩ hcolon
    have hclose : Closes r₃ := by
      obtain ⟨hr, -⟩ | ⟨_, _, hr, -⟩ := hmore <;> exact closes_of_skipBlanks hr (by tauto)
    obtain ⟨y, a₃, b₃, hya, hyb, hdepth, h₃⟩ := value?_mirror fuel h₂ hclose hx
    obtain ⟨hr, rfl⟩ | ⟨r', gs, hr, hgs, rfl⟩ := hmore
    · obtain ⟨a₄, b₄, ha₄, hb₄, h₄⟩ := hR.next h₃ (c := '\x7d') ⟨by decide, by decide, by decide⟩ hr
      refine ⟨[(key', y)], a₄, b₄, ?_, ?_, ?_, h₄⟩
      · rw [fields?_skip ha₀, fields?_step hka ha₂ hya ha₄]
        rfl
      · rw [fields?_skip hb₀, fields?_step hkb hb₂ hyb hb₄]
        rfl
      · simp only [depthOfFields, hdepth]
    · obtain ⟨a₄, b₄, ha₄, hb₄, h₄⟩ := hR.next h₃ (c := ',') ⟨by decide, by decide, by decide⟩ hr
      obtain ⟨gs', a₅, b₅, hga, hgb, hdepth', h₅⟩ := fields?_mirror fuel h₄ hgs
      refine ⟨(key', y) :: gs', a₅, b₅, ?_, ?_, ?_, h₅⟩
      · rw [fields?_skip ha₀, fields?_step hka ha₂ hya ha₄, if_pos rfl, hga]
        rfl
      · rw [fields?_skip hb₀, fields?_step hkb hb₂ hyb hb₄, if_pos rfl, hgb]
        rfl
      · simp only [depthOfFields, hdepth, hdepth']

end

/-- **The first value of the first text** is the first value of the other two. -/
theorem readFront?_mirror (hcs : R cs a b) (hrest : Closes rest) {j : Json} (h : readFront? cs = some (j, rest)) :
    Mirrored R depth readFront? a b j rest := by
  obtain ⟨hvalue, hdepth⟩ := Option.filter_eq_some_iff.mp h
  obtain ⟨j', a', b', ha, hb, hsame, h'⟩ := value?_mirror hR _ hcs hrest hvalue
  have hdepth' : j'.depth ≤ maxDepth := by
    rw [hsame]
    simpa using hdepth
  exact ⟨j', a', b', (readFront?_of_value? ha).trans (if_pos hdepth'), (readFront?_of_value? hb).trans (if_pos hdepth'),
    hsame, h'⟩

end Mirrors

/-! ## The forms of a byte text -/

/-- The byte of a blank. -/
def isBlankByte (b : UInt8) : Bool := b == 0x20 || b == 0x09 || b == 0x0a || b == 0x0d

theorem isBlank_byteChar (b : UInt8) : isBlank (byteChar b) = isBlankByte b := by
  have hiff : ∀ c : Char, ∀ k : UInt8, c = byteChar k → (byteChar b = c ↔ b = k) := by
    rintro c k rfl
    exact ⟨fun h => (eq_of_byteChar h).trans (eq_of_byteChar rfl).symm, congrArg byteChar⟩
  rw [Bool.eq_iff_iff]
  simp only [isBlank, isBlankByte, Bool.or_eq_true, decide_eq_true_eq, beq_iff_eq, hiff ' ' 0x20 rfl, hiff '\t' 0x09 rfl,
    hiff '\n' 0x0a rfl, hiff '\r' 0x0d rfl]

theorem skipBlanks_byteChars (t : Bytes) : skipBlanks (byteChars t) = byteChars (t.dropWhile isBlankByte) := by
  rw [skipBlanks, byteChars, List.dropWhile_map]
  congr 2
  exact funext isBlank_byteChar

/-- The first character of a text is a blank only if its first byte is. -/
theorem lossy_cons_not_blank {b : UInt8} (hb : isBlankByte b = false) (t : Bytes) :
    ∃ c cs, Utf8.lossy (b :: t) = c :: cs ∧ isBlank c = false := by
  have hhigh : ∀ c : Char, 128 ≤ c.toNat → isBlank c = false := by
    intro c hc
    have hne : ∀ d : Char, d.toNat < 128 → c ≠ d := by
      rintro d hd rfl
      omega
    simp [isBlank, hne ' ' (by decide), hne '\t' (by decide), hne '\n' (by decide), hne '\r' (by decide)]
  by_cases hascii : b.toNat < 128
  · exact ⟨_, _, lossy_ascii hascii t, (isBlank_byteChar b).trans hb⟩
  · obtain ⟨c, r, hc⟩ | hstray := Utf8.cases_chunk b t
    · refine ⟨c, _, by rw [hc, Utf8.lossy_encode_append], hhigh c ?_⟩
      by_contra hlt
      obtain ⟨-, henc⟩ | ⟨_, _, hc', -⟩ := Utf8.encode_cases c
      · rw [henc] at hc
        obtain ⟨rfl, -⟩ := List.cons.inj hc
        rw [Utf8.toNat_ofNat_of_lt (by omega)] at hascii
        omega
      · omega
    · exact ⟨_, _, Utf8.lossy_stray hstray, hhigh _ (by decide)⟩

theorem skipBlanks_lossy (t : Bytes) : skipBlanks (Utf8.lossy t) = Utf8.lossy (t.dropWhile isBlankByte) := by
  induction t with
  | nil => simp [skipBlanks]
  | cons b t ih =>
    by_cases hb : isBlankByte b = true
    · have hascii : b.toNat < 128 := by
        simp only [isBlankByte, Bool.or_eq_true, beq_iff_eq] at hb
        obtain ((rfl | rfl) | rfl) | rfl := hb <;> decide
      rw [lossy_ascii hascii, List.dropWhile_cons_of_pos hb, ← ih]
      exact List.dropWhile_cons_of_pos ((isBlank_byteChar b).trans hb)
    · rw [List.dropWhile_cons_of_neg hb]
      obtain ⟨c, cs, hcs, hc⟩ := lossy_cons_not_blank (by simpa using hb) t
      rw [hcs, skipBlanks_cons hc]

theorem compactFrom_dropWhile (t : Bytes) :
    compactFrom false false (t.dropWhile isBlankByte) = compactFrom false false t := by
  induction t with
  | nil => rfl
  | cons b t ih =>
    by_cases hb : isBlankByte b = true
    · rw [List.dropWhile_cons_of_pos hb, ih, compactFrom_blank hb]
    · rw [List.dropWhile_cons_of_neg hb]

/-- A compacted text begins with no blank. -/
theorem compactFrom_start (t : Bytes) : compactFrom false false t = [] ∨
    ∃ b r, compactFrom false false t = b :: r ∧ isBlankByte b = false := by
  rw [← compactFrom_dropWhile]
  cases h : t.dropWhile isBlankByte with
  | nil => exact .inl rfl
  | cons b r =>
    have hb : isBlankByte b = false := by
      have := List.head?_dropWhile_not isBlankByte t
      rw [h] at this
      exact this
    unfold compactFrom
    split
    case h_1 heq => cases heq
    case h_2 => exact .inr ⟨0x5c, _, rfl, by decide⟩
    case h_3 => exact .inr ⟨0x5c, _, rfl, by decide⟩
    case h_4 heq =>
      cases heq
      rw [if_pos (by simp), if_neg (by rw [← isBlankByte, hb]; exact Bool.false_ne_true)]
      exact .inr ⟨b, _, rfl, hb⟩

/-- A token is kept by compacting. -/
theorem compactFrom_token {b : UInt8} (hb : IsToken (byteChar b)) (t : Bytes) :
    b.toNat < 128 ∧ compactFrom false false (b :: t) = b :: compactFrom false false t := by
  obtain ⟨hascii, hquote, hblank⟩ := hb
  rw [byteChar, toNat_ofNat_byte] at hascii
  rw [isBlank_byteChar] at hblank
  have hne : (b == 0x22) = false := by
    rw [beq_eq_false_iff_ne]
    rintro rfl
    exact hquote rfl
  rw [compactFrom_outside hascii hblank, hne]
  exact ⟨hascii, rfl⟩

/-- What may follow a compacted text. -/
structure Trails (x : List Char) : Prop where
  closes : Closes x
  skip : skipBlanks x = x

theorem trails_nil : Trails [] := ⟨closes_nil, rfl⟩

theorem trails_brace : Trails ['\x7d'] := ⟨closes_of_skipBlanks (r := []) (c := '\x7d') rfl (by simp), rfl⟩

section Forms

variable {x : List Char} (hx : Trails x)
include hx

theorem skipBlanks_lossy_compact (t : Bytes) : skipBlanks (Utf8.lossy (compactFrom false false t) ++ x) =
    Utf8.lossy (compactFrom false false t) ++ x := by
  obtain h | ⟨b, r, h, hb⟩ := compactFrom_start t
  · rw [h, Utf8.lossy_nil, List.nil_append, hx.skip]
  · obtain ⟨c, cs, hcs, hc⟩ := lossy_cons_not_blank hb r
    rw [h, hcs, List.cons_append, skipBlanks_cons hc]

theorem skipBlanks_bytes_compact (t : Bytes) : skipBlanks (byteChars (compactFrom false false t) ++ x) =
    byteChars (compactFrom false false t) ++ x := by
  obtain h | ⟨b, r, h, hb⟩ := compactFrom_start t
  · rw [h]
    exact hx.skip
  · rw [h, byteChars_cons, List.cons_append, skipBlanks_cons ((isBlank_byteChar b).trans hb)]

/-- The bytes of a text, its characters, and the characters of the compacted text. -/
theorem mirrors_lossy : Mirrors fun cs a b => ∃ t, cs = byteChars t ∧ a = Utf8.lossy t ∧
    b = Utf8.lossy (compactFrom false false t) ++ x where
  blanks := by
    rintro _ _ _ ⟨t, rfl, rfl, rfl⟩
    refine ⟨_, skipBlanks_byteChars t, skipBlanks_lossy t, ?_⟩
    rw [skipBlanks_lossy_compact hx, compactFrom_dropWhile]
  token := by
    rintro c _ _ _ ⟨t, ht, rfl, rfl⟩ hc
    obtain ⟨b, r, rfl, rfl, rfl⟩ := byteChars_eq_cons ht.symm
    obtain ⟨hascii, hcompact⟩ := compactFrom_token hc r
    exact ⟨_, _, lossy_ascii hascii r, by rw [hcompact, lossy_ascii hascii]; rfl, r, rfl, rfl, rfl⟩
  quote := by
    rintro _ _ _ ⟨t, ht, rfl, rfl⟩
    obtain ⟨b, r, rfl, hb, rfl⟩ := byteChars_eq_cons ht.symm
    obtain rfl := eq_of_byteChar hb.symm
    refine ⟨Utf8.lossy r, Utf8.lossy (compactFrom true false r) ++ x, lossy_ascii (by decide) r, ?_, ?_⟩
    · rw [compactFrom_outside (by decide) (by decide), lossy_ascii (by decide)]
      rfl
    · intro s rest hs
      obtain ⟨⟨ps, rest'⟩, hps, heq⟩ := Option.map_eq_some_iff.mp hs
      cases heq
      obtain ⟨r', rfl, hbody⟩ := body_of_pieces? hps
      obtain ⟨qs, qs', hqs, hqs', hsame⟩ := hbody.pieces?_lossy x
      refine ⟨String.ofList (joinPieces qs), _, _, ?_, ?_, r', rfl, rfl, rfl⟩
      · rw [stringTail?, hqs]
        rfl
      · rw [stringTail?, hqs', joinPieces_congr hsame]
        rfl
  nil := by
    rintro _ _ ⟨t, ht, rfl, rfl⟩
    obtain rfl := List.map_eq_nil_iff.mp ht.symm
    exact ⟨by rw [Utf8.lossy_nil]; exact closes_nil, by rw [compactFrom, Utf8.lossy_nil]; exact hx.closes⟩

/-- The bytes of a text and of the compacted text. -/
theorem mirrors_bytes : Mirrors fun cs a b => ∃ t, cs = byteChars t ∧
    a = byteChars (compactFrom false false t) ++ x ∧ b = byteChars (compactFrom false false t) ++ x where
  blanks := by
    rintro _ _ _ ⟨t, rfl, rfl, rfl⟩
    have hskip := skipBlanks_bytes_compact hx t
    exact ⟨_, skipBlanks_byteChars t, by rw [hskip, compactFrom_dropWhile], by rw [hskip, compactFrom_dropWhile]⟩
  token := by
    rintro c _ _ _ ⟨t, ht, rfl, rfl⟩ hc
    obtain ⟨b, r, rfl, rfl, rfl⟩ := byteChars_eq_cons ht.symm
    obtain ⟨hascii, hcompact⟩ := compactFrom_token hc r
    exact ⟨_, _, by rw [hcompact]; rfl, by rw [hcompact]; rfl, r, rfl, rfl, rfl⟩
  quote := by
    rintro _ _ _ ⟨t, ht, rfl, rfl⟩
    obtain ⟨b, r, rfl, hb, rfl⟩ := byteChars_eq_cons ht.symm
    obtain rfl : b = 0x22 := eq_of_byteChar hb.symm
    have hopen := compactFrom_outside (b := 0x22) (by decide) (by decide) r
    refine ⟨byteChars (compactFrom true false r) ++ x, byteChars (compactFrom true false r) ++ x,
      by rw [hopen]; rfl, by rw [hopen]; rfl, ?_⟩
    intro s rest hs
    obtain ⟨⟨ps, rest'⟩, hps, heq⟩ := Option.map_eq_some_iff.mp hs
    cases heq
    obtain ⟨r', rfl, hbody⟩ := body_of_pieces? hps
    obtain ⟨qs, hqs⟩ := hbody.pieces?_bytes x
    have hread : stringTail? (byteChars (compactFrom true false r) ++ x) =
        some (String.ofList (joinPieces qs), byteChars (compactFrom false false r') ++ x) := by
      rw [stringTail?, hqs]
      rfl
    exact ⟨_, _, _, hread, hread, r', rfl, rfl, rfl⟩
  nil := by
    rintro _ _ ⟨t, ht, rfl, rfl⟩
    obtain rfl := List.map_eq_nil_iff.mp ht.symm
    exact ⟨hx.closes, hx.closes⟩

end Forms

theorem lossy_of_blanks {t : Bytes} (h : skipBlanks (byteChars t) = []) :
    compactFrom false false t = [] ∧ skipBlanks (Utf8.lossy t) = [] := by
  rw [skipBlanks_byteChars] at h
  have hnil := List.map_eq_nil_iff.mp h
  rw [← compactFrom_dropWhile, skipBlanks_lossy, hnil]
  exact ⟨rfl, Utf8.lossy_nil⟩

theorem skipBlanks_compactBytes {t u : Bytes} (h : compactBytes? t = some u) {x : List Char} (hx : Trails x) :
    skipBlanks (byteChars u ++ x) = byteChars u ++ x := by
  obtain ⟨-, -, rfl⟩ := Option.map_eq_some_iff.mp h
  exact skipBlanks_bytes_compact hx t

/-- **A compacted text** has the value of the text, alone and where it stands in another text. -/
theorem read?_compactBytes {t u : Bytes} (h : compactBytes? t = some u) : ∃ j, read? t = some j ∧ read? u = some j ∧
    ∀ x, Trails x → readFront? (Utf8.lossy u ++ x) = some (j, x) ∧
      ∃ j', readFront? (byteChars u ++ x) = some (j', x) := by
  obtain ⟨j₀, hread, rfl⟩ := Option.map_eq_some_iff.mp h
  unfold readChars? at hread
  split at hread
  case h_2 => cases hread
  case h_1 j₁ rest hfront =>
    split_ifs at hread with hblank
    cases hread
    have hrest : skipBlanks rest = [] := List.isEmpty_iff.mp hblank
    have hcloses : Closes rest := fun c r hcr => by
      rw [hrest] at hcr
      cases hcr
    have hlossy : ∀ x, Trails x → ∃ j a, readFront? (Utf8.lossy t) = some (j, a) ∧ skipBlanks a = [] ∧
        readFront? (Utf8.lossy (compactFrom false false t) ++ x) = some (j, x) := by
      intro x hx
      obtain ⟨j, a, b, ha, hb, -, t', rfl, rfl, rfl⟩ :=
        readFront?_mirror (mirrors_lossy hx) ⟨t, rfl, rfl, rfl⟩ hcloses hfront
      obtain ⟨hnil, hend⟩ := lossy_of_blanks hrest
      rw [hnil, Utf8.lossy_nil, List.nil_append] at hb
      exact ⟨j, _, ha, hend, hb⟩
    have hbytes : ∀ x, Trails x → ∃ j, readFront? (byteChars (compactFrom false false t) ++ x) = some (j, x) := by
      intro x hx
      obtain ⟨j, a, -, ha, -, -, t', rfl, rfl, -⟩ :=
        readFront?_mirror (mirrors_bytes hx) ⟨t, rfl, rfl, rfl⟩ hcloses hfront
      rw [(lossy_of_blanks hrest).1] at ha
      exact ⟨j, ha⟩
    obtain ⟨j, a, ha, hend, hb⟩ := hlossy [] trails_nil
    rw [List.append_nil] at hb
    refine ⟨j, ?_, ?_, fun x hx => ⟨?_, hbytes x hx⟩⟩
    · rw [read?, readChars?, ← Utf8.lossy, ha]
      simp [hend]
    · rw [read?, readChars?, ← Utf8.lossy, hb]
      rfl
    · obtain ⟨j', a', ha', -, hb'⟩ := hlossy x hx
      rw [ha] at ha'
      cases ha'
      exact hb'

end ScriptSplit.Json
