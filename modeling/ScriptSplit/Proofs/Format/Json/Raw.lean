import Mathlib
import ScriptSplit.Format.Json.Raw
import ScriptSplit.Proofs.Format.Json.Inversion
import ScriptSplit.Proofs.Text.Lossy

/-!
# JSON texts as bytes

What compacting does to a byte text, outside of strings and inside of them.

* `spread`: the bytes of a character, one character each; `byteChars_ofString`.
* `compactFrom_outside`, `compactFrom_blank`: outside of strings.
* `compactFrom_encode`, `compactFrom_page`, `compactFrom_escaped`: inside of strings.
* `Body`: what stands in a string literal; **`body_of_pieces?`**: it is what the reader reads.
-/

namespace ScriptSplit.Json

/-! ## One character for each byte -/

/-- The bytes of a character, one character for each. -/
def spread (c : Char) : List Char := byteChars (String.utf8EncodeChar c)

theorem byteChars_ofString (s : String) : byteChars (Bytes.ofString s) = s.toList.flatMap spread := by
  rw [Bytes.ofString_eq, byteChars, List.map_flatMap]
  rfl

theorem toNat_ofNat_byte (b : UInt8) : (Char.ofNat b.toNat).toNat = b.toNat := by
  have hvalid : b.toNat.isValidChar := .inl (by have := b.toNat_lt; omega)
  rw [Char.ofNat, dif_pos hvalid]
  rfl

theorem charBytes_byteChars (t : Bytes) : charBytes (byteChars t) = t := by
  rw [charBytes, byteChars, List.map_map]
  refine (List.map_congr_left fun b _ => ?_).trans (List.map_id t)
  rw [Function.comp_apply, toNat_ofNat_byte, UInt8.ofNat_toNat]
  rfl

theorem high_of_mem_encode {c : Char} (hc : 128 ≤ c.toNat) : ∀ b ∈ String.utf8EncodeChar c, 128 ≤ b.toNat := by
  obtain ⟨hlt, -⟩ | ⟨a, tail, -, henc, ha, htail⟩ := Utf8.encode_cases c
  · omega
  · rw [henc]
    exact List.forall_mem_cons.mpr ⟨ha, fun b hb => (Utf8.toNat_of_isTail (htail b hb)).1⟩

theorem spreads_spread : Spreads spread where
  ascii c hc := by
    rw [spread, Utf8.encode_eq, if_pos (by omega)]
    change [Char.ofNat (UInt8.ofNat c.toNat).toNat] = [c]
    rw [Utf8.toNat_ofNat_of_lt (by omega), Char.ofNat_toNat]
  high c hc d hd := by
    obtain ⟨b, hb, rfl⟩ := List.mem_map.mp hd
    rw [toNat_ofNat_byte]
    exact high_of_mem_encode hc b hb

/-! ## Compacting -/

/-- No line separator starts here. -/
def NoSeparator (b : UInt8) (r : Bytes) : Prop :=
  b = 0xe2 → (∀ r', r ≠ 0x80 :: 0xa8 :: r') ∧ ∀ r', r ≠ 0x80 :: 0xa9 :: r'

theorem compactFrom_cons {b : UInt8} {r : Bytes} (h : NoSeparator b r) (inString escaped : Bool) :
    compactFrom inString escaped (b :: r) =
      if !inString then
        if b == 0x20 || b == 0x09 || b == 0x0a || b == 0x0d then compactFrom false false r
        else b :: compactFrom (b == 0x22) false r
      else if b == 0x3c then Bytes.ofString "\\u003c" ++ compactFrom true false r
      else if b == 0x3e then Bytes.ofString "\\u003e" ++ compactFrom true false r
      else if b == 0x26 then Bytes.ofString "\\u0026" ++ compactFrom true false r
      else b :: compactFrom (escaped || b != 0x22) (!escaped && b == 0x5c) r := by
  rw [compactFrom]
  · intro r' hb hr
    exact (h hb).1 r' hr
  · intro r' hb hr
    exact (h hb).2 r' hr

theorem noSeparator_of_ne {b : UInt8} (hb : b ≠ 0xe2) (r : Bytes) : NoSeparator b r := fun h => absurd h hb

/-- **Outside of strings** a character stays. -/
theorem compactFrom_outside {b : UInt8} (hb : b.toNat < 128)
    (hblank : (b == 0x20 || b == 0x09 || b == 0x0a || b == 0x0d) = false) (r : Bytes) :
    compactFrom false false (b :: r) = b :: compactFrom (b == 0x22) false r := by
  have hne : b ≠ 0xe2 := by
    rintro rfl
    exact absurd hb (by decide)
  rw [compactFrom_cons (noSeparator_of_ne hne r), if_pos (show (!false) = true from rfl),
    if_neg (by rw [hblank]; exact Bool.false_ne_true)]

/-- **Outside of strings** a blank goes. -/
theorem compactFrom_blank {b : UInt8} (hblank : (b == 0x20 || b == 0x09 || b == 0x0a || b == 0x0d) = true)
    (r : Bytes) : compactFrom false false (b :: r) = compactFrom false false r := by
  have hne : b ≠ 0xe2 := by
    rintro rfl
    exact absurd hblank (by decide)
  rw [compactFrom_cons (noSeparator_of_ne hne r), if_pos (show (!false) = true from rfl), if_pos hblank]

/-- A byte that is not escaped for web pages passes inside a string. -/
theorem compactFrom_inside {b : UInt8} {r : Bytes} (h : NoSeparator b r)
    (hb : (b == 0x3c || b == 0x3e || b == 0x26) = false) (escaped : Bool) :
    compactFrom true escaped (b :: r) =
      b :: compactFrom (escaped || b != 0x22) (!escaped && b == 0x5c) r := by
  simp only [Bool.or_eq_false_iff] at hb
  rw [compactFrom_cons h, if_neg (by simp), if_neg (by simp [hb.1.1]), if_neg (by simp [hb.1.2]),
    if_neg (by simp [hb.2])]

theorem ofNat_ne {n k : Nat} (hn : n < 256) (hk : k < 256) (h : n ≠ k) : UInt8.ofNat n ≠ UInt8.ofNat k := by
  intro heq
  have := congrArg UInt8.toNat heq
  rw [Utf8.toNat_ofNat_of_lt hn, Utf8.toNat_ofNat_of_lt hk] at this
  exact h this

/-- The bytes of a line separator are its encoding. -/
theorem noSeparator_of_step {b : UInt8} {r : Bytes}
    (h : ∀ c : Char, c.toNat = 0x2028 ∨ c.toNat = 0x2029 → (Utf8.step b r).1 ≠ some c) : NoSeparator b r := by
  rintro rfl
  constructor
  · rintro r' rfl
    exact h '\u2028' (.inl (by decide)) (Utf8.step_encode (s := r') rfl)
  · rintro r' rfl
    exact h '\u2029' (.inr (by decide)) (Utf8.step_encode (s := r') rfl)

theorem compactFrom_high {b : UInt8} {r : Bytes} (h : NoSeparator b r) (hb : 128 ≤ b.toNat) :
    compactFrom true false (b :: r) = b :: compactFrom true false r := by
  have hne : ∀ k : UInt8, k.toNat < 128 → (b == k) = false := by
    intro k hk
    rw [beq_eq_false_iff_ne]
    rintro rfl
    omega
  rw [compactFrom_inside h (by simp [hne 0x3c (by decide), hne 0x3e (by decide), hne 0x26 (by decide)])]
  simp [bne, hne 0x22 (by decide), hne 0x5c (by decide)]

theorem compactFrom_tail {tail : Bytes} (h : ∀ b ∈ tail, Utf8.isTail b = true) (r : Bytes) :
    compactFrom true false (tail ++ r) = tail ++ compactFrom true false r := by
  induction tail with
  | nil => rfl
  | cons b tail ih =>
    have hb := Utf8.toNat_of_isTail (h b List.mem_cons_self)
    have hne : b ≠ 0xe2 := by
      rintro rfl
      exact absurd hb (by decide)
    rw [List.cons_append, compactFrom_high (noSeparator_of_ne hne _) hb.1,
      ih fun x hx => h x (List.mem_cons_of_mem b hx), List.cons_append]

/-- **Inside of strings** a character that is not escaped stays. -/
theorem compactFrom_encode {c : Char} (hsafe : Safe c) (hc : Harmless c) (r : Bytes) :
    compactFrom true false (String.utf8EncodeChar c ++ r) =
      String.utf8EncodeChar c ++ compactFrom true false r := by
  obtain ⟨hquote, hslash, -⟩ := hsafe
  obtain ⟨hlt, hgt, hand, hline, hpar⟩ := hc
  obtain ⟨hascii, henc⟩ | ⟨a, tail, -, henc, ha, htail⟩ := Utf8.encode_cases c
  · have hne : ∀ d : Char, d.toNat < 128 → c ≠ d → (UInt8.ofNat c.toNat == UInt8.ofNat d.toNat) = false :=
      fun d hd h => beq_eq_false_iff_ne.mpr
        (ofNat_ne (by omega) (by omega) fun h' => h (Char.toNat_inj.mp h'))
    have h22 : (UInt8.ofNat c.toNat == 0x22) = false := hne '\x22' (by decide) hquote
    have h5c : (UInt8.ofNat c.toNat == 0x5c) = false := hne '\x5c' (by decide) hslash
    have h3c : (UInt8.ofNat c.toNat == 0x3c) = false := hne '<' (by decide) hlt
    have h3e : (UInt8.ofNat c.toNat == 0x3e) = false := hne '>' (by decide) hgt
    have h26 : (UInt8.ofNat c.toNat == 0x26) = false := hne '&' (by decide) hand
    have hsep := noSeparator_of_ne (ofNat_ne (k := 226) (by omega) (by decide) (show c.toNat ≠ 226 by omega)) r
    rw [henc, List.singleton_append, compactFrom_inside hsep (by rw [h3c, h3e, h26]; rfl)]
    simp [bne, h22, h5c]
  · have hsep : NoSeparator a (tail ++ r) := by
      refine noSeparator_of_step fun d hd h => ?_
      have hstep := Utf8.step_encode (show a :: (tail ++ r) = String.utf8EncodeChar c ++ r by rw [henc]; rfl)
      rw [hstep] at h
      cases h
      exact hd.elim hline hpar
    rw [henc, List.cons_append, compactFrom_high hsep ha, compactFrom_tail htail, List.cons_append]

/-- **Inside of strings** a stray byte stays. -/
theorem compactFrom_stray {b : UInt8} {r : Bytes} (h : (Utf8.step b r).1 = none) :
    compactFrom true false (b :: r) = b :: compactFrom true false r := by
  refine compactFrom_high (noSeparator_of_step fun c _ h' => ?_) ?_
  · rw [h] at h'
    cases h'
  · by_contra hlt
    rw [Utf8.step_one r (by omega)] at h
    cases h

/-- **Inside of strings** a character that is not safe in a web page is written by its number. -/
theorem compactFrom_page {c : Char} (hc : ¬ Harmless c) (r : Bytes) :
    compactFrom true false (String.utf8EncodeChar c ++ r) =
      Bytes.ofString (String.ofList (unitEscape c.toNat)) ++ compactFrom true false r := by
  have hcases : c = '<' ∨ c = '>' ∨ c = '&' ∨ c = '\u2028' ∨ c = '\u2029' := by
    simp only [← Char.toNat_inj]
    simp only [Harmless, ne_eq, ← Char.toNat_inj] at hc
    simp only [Char.reduceToNat] at hc ⊢
    omega
  rcases hcases with rfl | rfl | rfl | rfl | rfl <;> rfl

/-- **Inside of strings** a letter after a backslash stays. -/
theorem compactFrom_escaped {e : UInt8} (he : e.toNat < 128)
    (hpage : (e == 0x3c || e == 0x3e || e == 0x26) = false) (r : Bytes) :
    compactFrom true false (0x5c :: e :: r) = 0x5c :: e :: compactFrom true false r := by
  have hne : e ≠ 0xe2 := by
    rintro rfl
    exact absurd he (by decide)
  rw [compactFrom_inside (noSeparator_of_ne (by decide) _) (by decide)]
  exact congrArg (0x5c :: ·) (compactFrom_inside (noSeparator_of_ne hne r) hpage true)

/-- The string ends at its quote. -/
theorem compactFrom_quote (r : Bytes) : compactFrom true false (0x22 :: r) = 0x22 :: compactFrom false false r :=
  compactFrom_inside (noSeparator_of_ne (by decide) r) (by decide) false

/-- Continuation bytes come first in the compacted text if they do in the text, and are the same. -/
theorem takeWhile_compactFrom (t : Bytes) :
    (compactFrom true false t).takeWhile Utf8.isTail = t.takeWhile Utf8.isTail := by
  induction t with
  | nil => rfl
  | cons b t ih =>
    by_cases hb : Utf8.isTail b = true
    · have hpass := compactFrom_tail (List.forall_mem_singleton.mpr hb) t
      rw [List.singleton_append, List.singleton_append] at hpass
      rw [hpass, List.takeWhile_cons_of_pos hb, List.takeWhile_cons_of_pos hb, ih]
    · have hstart : ∀ {a : UInt8} {r : Bytes}, Utf8.isTail a = false → (a :: r).takeWhile Utf8.isTail = [] :=
        fun h => List.takeWhile_cons_of_neg (by simp [h])
      rw [Bool.not_eq_true] at hb
      rw [hstart hb]
      unfold compactFrom
      split
      case h_1 => rfl
      case h_2 => exact hstart (a := 0x5c) (by decide)
      case h_3 => exact hstart (a := 0x5c) (by decide)
      case h_4 heq =>
        cases heq
        rw [if_neg (by simp)]
        split_ifs
        · exact hstart (a := 0x5c) (by decide)
        · exact hstart (a := 0x5c) (by decide)
        · exact hstart (a := 0x5c) (by decide)
        · exact hstart hb

end ScriptSplit.Json
