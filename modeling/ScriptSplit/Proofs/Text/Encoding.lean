import Mathlib
import ScriptSplit.Text.Utf8

/-!
# The encoding of strings

The bytes of a string are the encodings of its characters, one after the other. Decoding gives the
characters back, and the order of strings is the order of their bytes.

* `Bytes.ofString_eq`, `Bytes.ofString_append`: the bytes of a string, character by character.
* **`Utf8.decodeLossy_ofString`**: decoding the bytes of a string gives the string.
* **`Bytes.ofString_lt_iff`**: strings compare as their bytes do.
* **`Utf8.isValid_iff`**: the well-formed texts are the bytes of strings.
-/

namespace ScriptSplit

namespace Utf8

/-- The bound is a number here, as `omega` needs it. -/
theorem toNat_ofNat_of_lt {n : Nat} (h : n < 256) : (UInt8.ofNat n).toNat = n := UInt8.toNat_ofNat_of_lt' h

theorem encode_eq (c : Char) : String.utf8EncodeChar c =
    if c.toNat ≤ 127 then [UInt8.ofNat c.toNat]
    else if c.toNat ≤ 2047 then
      [UInt8.ofNat (c.toNat / 64 % 32 + 192), UInt8.ofNat (c.toNat % 64 + 128)]
    else if c.toNat ≤ 65535 then
      [UInt8.ofNat (c.toNat / 4096 % 16 + 224), UInt8.ofNat (c.toNat / 64 % 64 + 128),
        UInt8.ofNat (c.toNat % 64 + 128)]
    else
      [UInt8.ofNat (c.toNat / 262144 % 8 + 240), UInt8.ofNat (c.toNat / 4096 % 64 + 128),
        UInt8.ofNat (c.toNat / 64 % 64 + 128), UInt8.ofNat (c.toNat % 64 + 128)] := rfl

theorem valid_toNat (c : Char) : c.toNat < 0xd800 ∨ 0xdfff < c.toNat ∧ c.toNat < 0x110000 := c.valid

/-! ## Decoding -/

theorem isTail_ofNat {n : Nat} (h : n < 64) : isTail (UInt8.ofNat (n + 128)) = true := by
  have h₁ := toNat_ofNat_of_lt (n := n + 128) (by omega)
  simp only [isTail, Bool.and_eq_true, decide_eq_true_eq, UInt8.le_iff_toNat_le, h₁]
  exact ⟨by show 128 ≤ n + 128; omega, by show n + 128 ≤ 191; omega⟩

theorem tailBits_ofNat {n : Nat} (h : n < 64) : tailBits (UInt8.ofNat (n + 128)) = n := by
  rw [tailBits, toNat_ofNat_of_lt (by omega)]
  omega

theorem mayFollow_of_toNat {a b : UInt8} (hb : isTail b = true)
    (h₁ : a.toNat = 0xe0 → 0xa0 ≤ b.toNat) (h₂ : a.toNat = 0xed → b.toNat ≤ 0x9f)
    (h₃ : a.toNat = 0xf0 → 0x90 ≤ b.toNat) (h₄ : a.toNat = 0xf4 → b.toNat ≤ 0x8f) :
    mayFollow a b = true := by
  have hb' := hb
  simp only [isTail, Bool.and_eq_true, decide_eq_true_eq, UInt8.le_iff_toNat_le] at hb'
  simp only [mayFollow, beq_iff_eq, ← UInt8.toNat_inj]
  split_ifs with ha ha ha ha
  · simpa [UInt8.le_iff_toNat_le] using ⟨h₁ ha, hb'.2⟩
  · simpa [UInt8.le_iff_toNat_le] using ⟨hb'.1, h₂ ha⟩
  · simpa [UInt8.le_iff_toNat_le] using ⟨h₃ ha, hb'.2⟩
  · simpa [UInt8.le_iff_toNat_le] using ⟨hb'.1, h₄ ha⟩
  · exact hb

theorem step_one {a : UInt8} (t : Bytes) (h : a.toNat < 0x80) :
    step a t = (some (Char.ofNat a.toNat), t) := by
  have h' : a < 0x80 := UInt8.lt_iff_toNat_lt.mpr h
  unfold step
  rw [if_pos h']

/-- The tests that the first byte of a longer sequence passes. -/
theorem lead_of_toNat {a : UInt8} (h₁ : 0xc2 ≤ a.toNat) (h₂ : a.toNat ≤ 0xf4) :
    ¬ a < 0x80 ∧ ¬ (decide (a < 0xc2) || decide (0xf4 < a)) = true := by
  simp only [Bool.or_eq_true, decide_eq_true_eq, UInt8.lt_iff_toNat_lt]
  change ¬ a.toNat < 0x80 ∧ ¬ (a.toNat < 0xc2 ∨ 0xf4 < a.toNat)
  omega

theorem not_lt_of_toNat {a b : UInt8} (h : b.toNat ≤ a.toNat) : ¬ a < b := fun h' => by
  have := UInt8.lt_iff_toNat_lt.mp h'
  omega

theorem step_two {a b : UInt8} (t : Bytes) (h₁ : 0xc2 ≤ a.toNat) (h₂ : a.toNat < 0xe0)
    (hb : mayFollow a b = true) :
    step a (b :: t) = (some (Char.ofNat ((a.toNat - 0xc0) * 64 + tailBits b)), t) := by
  obtain ⟨e₁, e₂⟩ := lead_of_toNat h₁ (by omega)
  have e₃ : a < 0xe0 := UInt8.lt_iff_toNat_lt.mpr h₂
  rw [step, if_neg e₁, if_neg e₂, if_pos e₃]
  simp only [hb, if_true]

theorem step_three {a b c : UInt8} (t : Bytes) (h₁ : 0xe0 ≤ a.toNat) (h₂ : a.toNat < 0xf0)
    (hb : mayFollow a b = true) (hc : isTail c = true) :
    step a (b :: c :: t) =
      (some (Char.ofNat (((a.toNat - 0xe0) * 64 + tailBits b) * 64 + tailBits c)), t) := by
  obtain ⟨e₁, e₂⟩ := lead_of_toNat (a := a) (by omega) (by omega)
  have e₃ : ¬ a < 0xe0 := not_lt_of_toNat h₁
  have e₄ : a < 0xf0 := UInt8.lt_iff_toNat_lt.mpr h₂
  rw [step, if_neg e₁, if_neg e₂, if_neg e₃, if_pos e₄]
  simp only [hb, hc, Bool.and_self, if_true]

theorem step_four {a b c d : UInt8} (t : Bytes) (h₁ : 0xf0 ≤ a.toNat) (h₂ : a.toNat ≤ 0xf4)
    (hb : mayFollow a b = true) (hc : isTail c = true) (hd : isTail d = true) :
    step a (b :: c :: d :: t) =
      (some (Char.ofNat ((((a.toNat - 0xf0) * 64 + tailBits b) * 64 + tailBits c) * 64 +
        tailBits d)), t) := by
  obtain ⟨e₁, e₂⟩ := lead_of_toNat (a := a) (by omega) h₂
  have e₃ : ¬ a < 0xe0 := not_lt_of_toNat (le_trans (by decide) h₁)
  have e₄ : ¬ a < 0xf0 := not_lt_of_toNat h₁
  rw [step, if_neg e₁, if_neg e₂, if_neg e₃, if_neg e₄]
  simp only [hb, hc, hd, Bool.and_self, if_true]

/-- The first step over the encoding of a character reads the character. -/
theorem chars_encode_append (c : Char) (t : Bytes) :
    chars (String.utf8EncodeChar c ++ t) = some c :: chars t := by
  have hv := valid_toNat c
  have hc : ∀ n, n = c.toNat → some (Char.ofNat n) = some c := fun n hn => by
    rw [hn, Char.ofNat_toNat]
  have hlow : c.toNat % 64 < 64 := Nat.mod_lt _ (by omega)
  have hmid : c.toNat / 64 % 64 < 64 := Nat.mod_lt _ (by omega)
  have hhigh : c.toNat / 4096 % 64 < 64 := Nat.mod_lt _ (by omega)
  rw [encode_eq]
  split_ifs with h₁ h₂ h₃
  · have ha := toNat_ofNat_of_lt (n := c.toNat) (by omega)
    rw [List.singleton_append, chars, step_one t (by omega), ha, hc _ rfl]
  · have ha := toNat_ofNat_of_lt (n := c.toNat / 64 % 32 + 192) (by omega)
    have hm := mayFollow_of_toNat (a := UInt8.ofNat (c.toNat / 64 % 32 + 192)) (isTail_ofNat hlow)
      (by omega) (by omega) (by omega) (by omega)
    rw [List.cons_append, List.singleton_append, chars, step_two t (by omega) (by omega) hm, ha,
      tailBits_ofNat hlow, hc _ (by omega)]
  · have ha := toNat_ofNat_of_lt (n := c.toNat / 4096 % 16 + 224) (by omega)
    have hb := toNat_ofNat_of_lt (n := c.toNat / 64 % 64 + 128) (by omega)
    have hm := mayFollow_of_toNat (a := UInt8.ofNat (c.toNat / 4096 % 16 + 224)) (isTail_ofNat hmid)
      (by omega) (by omega) (by omega) (by omega)
    rw [List.cons_append, List.cons_append, List.singleton_append, chars,
      step_three t (by omega) (by omega) hm (isTail_ofNat hlow), ha, tailBits_ofNat hlow,
      tailBits_ofNat hmid, hc _ (by omega)]
  · have ha := toNat_ofNat_of_lt (n := c.toNat / 262144 % 8 + 240) (by omega)
    have hb := toNat_ofNat_of_lt (n := c.toNat / 4096 % 64 + 128) (by omega)
    have hm := mayFollow_of_toNat (a := UInt8.ofNat (c.toNat / 262144 % 8 + 240))
      (isTail_ofNat hhigh) (by omega) (by omega) (by omega) (by omega)
    rw [List.cons_append, List.cons_append, List.cons_append, List.singleton_append, chars,
      step_four t (by omega) (by omega) hm (isTail_ofNat hmid) (isTail_ofNat hlow), ha,
      tailBits_ofNat hlow, tailBits_ofNat hmid, tailBits_ofNat hhigh, hc _ (by omega)]

theorem chars_flatMap_encode (l : List Char) :
    chars (l.flatMap String.utf8EncodeChar) = l.map some := by
  induction l with
  | nil => simp [chars]
  | cons c l ih => rw [List.flatMap_cons, chars_encode_append, ih, List.map_cons]

/-! ## Order -/

theorem ofNat_cons_lt {m n : Nat} (hm : m < 256) (hn : n < 256) {x y : Bytes}
    (h : m < n ∨ m = n ∧ x < y) : UInt8.ofNat m :: x < UInt8.ofNat n :: y := by
  rw [List.cons_lt_cons_iff]
  rcases h with h | ⟨rfl, h⟩
  · refine Or.inl (UInt8.lt_iff_toNat_lt.mpr ?_)
    rwa [toNat_ofNat_of_lt hm, toNat_ofNat_of_lt hn]
  · exact Or.inr ⟨rfl, h⟩

/-- The encoding of the lesser character comes first, whatever follows. -/
theorem encode_append_lt {c d : Char} (h : c.toNat < d.toNat) (x y : Bytes) :
    String.utf8EncodeChar c ++ x < String.utf8EncodeChar d ++ y := by
  have hv := valid_toNat d
  rw [encode_eq c, encode_eq d]
  generalize c.toNat = m at h
  generalize d.toNat = n at h hv
  -- a longer encoding has a greater first byte; of two equally long ones the first byte that
  -- differs decides
  split_ifs
  any_goals omega
  all_goals simp only [List.cons_append, List.nil_append]
  all_goals refine ofNat_cons_lt (by omega) (by omega) ?_
  any_goals (left; omega)
  · rcases (by omega : m / 64 < n / 64 ∨ m / 64 = n / 64 ∧ m % 64 < n % 64) with h | ⟨h, h'⟩
    · exact Or.inl (by omega)
    · exact Or.inr ⟨by omega, ofNat_cons_lt (by omega) (by omega) (Or.inl (by omega))⟩
  · rcases (by omega : m / 4096 < n / 4096 ∨ m / 4096 = n / 4096 ∧ (m / 64 % 64 < n / 64 % 64 ∨
        m / 64 % 64 = n / 64 % 64 ∧ m % 64 < n % 64)) with h | ⟨h, h' | ⟨h', h''⟩⟩
    · exact Or.inl (by omega)
    · exact Or.inr ⟨by omega, ofNat_cons_lt (by omega) (by omega) (Or.inl (by omega))⟩
    · refine Or.inr ⟨by omega, ofNat_cons_lt (by omega) (by omega) (Or.inr ⟨by omega, ?_⟩)⟩
      exact ofNat_cons_lt (by omega) (by omega) (Or.inl (by omega))
  · rcases (by omega : m / 262144 < n / 262144 ∨ m / 262144 = n / 262144 ∧
        (m / 4096 % 64 < n / 4096 % 64 ∨ m / 4096 % 64 = n / 4096 % 64 ∧
        (m / 64 % 64 < n / 64 % 64 ∨ m / 64 % 64 = n / 64 % 64 ∧ m % 64 < n % 64)))
      with h | ⟨h, h' | ⟨h', h'' | ⟨h'', h₃⟩⟩⟩
    · exact Or.inl (by omega)
    · exact Or.inr ⟨by omega, ofNat_cons_lt (by omega) (by omega) (Or.inl (by omega))⟩
    · refine Or.inr ⟨by omega, ofNat_cons_lt (by omega) (by omega) (Or.inr ⟨by omega, ?_⟩)⟩
      exact ofNat_cons_lt (by omega) (by omega) (Or.inl (by omega))
    · refine Or.inr ⟨by omega, ofNat_cons_lt (by omega) (by omega) (Or.inr ⟨by omega, ?_⟩)⟩
      refine ofNat_cons_lt (by omega) (by omega) (Or.inr ⟨by omega, ?_⟩)
      exact ofNat_cons_lt (by omega) (by omega) (Or.inl (by omega))

theorem flatMap_encode_lt {l m : List Char} (h : l < m) :
    l.flatMap String.utf8EncodeChar < m.flatMap String.utf8EncodeChar := by
  induction h with
  | nil =>
    rename_i a l
    rw [List.flatMap_nil, List.flatMap_cons]
    cases ha : String.utf8EncodeChar a with
    | nil => exact absurd ha String.utf8EncodeChar_ne_nil
    | cons b bs => exact List.nil_lt_cons _ _
  | cons _ ih =>
    rw [List.flatMap_cons, List.flatMap_cons]
    exact List.append_left_lt ih
  | rel hab =>
    rw [List.flatMap_cons, List.flatMap_cons]
    exact encode_append_lt hab _ _

end Utf8

namespace Bytes

theorem ofString_eq (s : String) : ofString s = s.toList.flatMap String.utf8EncodeChar := by
  have h : s.toByteArray = s.toList.utf8Encode := by
    rw [← String.toByteArray_ofList, String.ofList_toList]
  unfold ofString
  rw [String.toUTF8_eq_toByteArray, h]
  simp [List.utf8Encode]

theorem ofString_append (s t : String) : ofString (s ++ t) = ofString s ++ ofString t := by
  rw [ofString_eq, ofString_eq, ofString_eq, String.toList_append, List.flatMap_append]

/-- **Strings compare as their bytes do.** -/
theorem ofString_lt_iff {s t : String} : ofString s < ofString t ↔ s < t := by
  have mono : ∀ {s t : String}, s < t → ofString s < ofString t := fun {s t} h => by
    rw [ofString_eq, ofString_eq]
    exact Utf8.flatMap_encode_lt (String.lt_iff_toList_lt.mp h)
  refine ⟨fun h => ?_, mono⟩
  rcases lt_trichotomy s t with hst | rfl | hts
  · exact hst
  · exact absurd h (List.lt_irrefl _)
  · exact absurd (mono hts) (List.lt_asymm h)

end Bytes

namespace Utf8

theorem chars_ofString (s : String) : chars (Bytes.ofString s) = s.toList.map some := by
  rw [Bytes.ofString_eq, chars_flatMap_encode]

/-- **Decoding the bytes of a string gives the string.** -/
theorem decodeLossy_ofString (s : String) : decodeLossy (Bytes.ofString s) = s := by
  rw [decodeLossy, chars_ofString, List.map_map]
  exact (congrArg String.ofList (List.map_id _)).trans String.ofList_toList

end Utf8

theorem Bytes.ofString_injective : Function.Injective Bytes.ofString :=
  Function.LeftInverse.injective Utf8.decodeLossy_ofString

/-! ## Well-formed texts -/

namespace Utf8

theorem toNat_ofNat_char {n : Nat} (h : n < 0xd800 ∨ 0xdfff < n ∧ n < 0x110000) :
    (Char.ofNat n).toNat = n := by
  have hvalid : n.isValidChar := h
  rw [Char.ofNat, dif_pos hvalid]
  rfl

theorem ofNat_eq_of_toNat {a : UInt8} {n : Nat} (h : n = a.toNat) : UInt8.ofNat n = a := by
  rw [h, UInt8.ofNat_toNat]

theorem toNat_of_isTail {b : UInt8} (h : isTail b = true) : 0x80 ≤ b.toNat ∧ b.toNat ≤ 0xbf := by
  simp only [isTail, Bool.and_eq_true, decide_eq_true_eq, UInt8.le_iff_toNat_le] at h
  exact h

theorem toNat_of_mayFollow {a b : UInt8} (h : mayFollow a b = true) :
    0x80 ≤ b.toNat ∧ b.toNat ≤ 0xbf ∧ (a.toNat = 0xe0 → 0xa0 ≤ b.toNat) ∧
      (a.toNat = 0xed → b.toNat ≤ 0x9f) ∧ (a.toNat = 0xf0 → 0x90 ≤ b.toNat) ∧
      (a.toNat = 0xf4 → b.toNat ≤ 0x8f) := by
  simp only [mayFollow, beq_iff_eq, ← UInt8.toNat_inj, UInt8.reduceToNat] at h
  split_ifs at h
  all_goals simp only [isTail, Bool.and_eq_true, decide_eq_true_eq, UInt8.le_iff_toNat_le,
    UInt8.reduceToNat] at h
  all_goals omega

theorem encode_two {a b : UInt8} (h₁ : 0xc2 ≤ a.toNat) (h₂ : a.toNat < 0xe0)
    (hb : mayFollow a b = true) :
    String.utf8EncodeChar (Char.ofNat ((a.toNat - 0xc0) * 64 + tailBits b)) = [a, b] := by
  have hb' := toNat_of_mayFollow hb
  unfold tailBits
  rw [encode_eq, toNat_ofNat_char (by omega), if_neg (by omega), if_pos (by omega),
    ofNat_eq_of_toNat (a := a) (by omega), ofNat_eq_of_toNat (a := b) (by omega)]

theorem encode_three {a b c : UInt8} (h₁ : 0xe0 ≤ a.toNat) (h₂ : a.toNat < 0xf0)
    (hb : mayFollow a b = true) (hc : isTail c = true) :
    String.utf8EncodeChar (Char.ofNat (((a.toNat - 0xe0) * 64 + tailBits b) * 64 + tailBits c)) =
      [a, b, c] := by
  have hb' := toNat_of_mayFollow hb
  have hc' := toNat_of_isTail hc
  unfold tailBits
  rw [encode_eq, toNat_ofNat_char (by omega), if_neg (by omega), if_neg (by omega), if_pos (by omega),
    ofNat_eq_of_toNat (a := a) (by omega), ofNat_eq_of_toNat (a := b) (by omega),
    ofNat_eq_of_toNat (a := c) (by omega)]

theorem encode_four {a b c d : UInt8} (h₁ : 0xf0 ≤ a.toNat) (h₂ : a.toNat ≤ 0xf4)
    (hb : mayFollow a b = true) (hc : isTail c = true) (hd : isTail d = true) :
    String.utf8EncodeChar (Char.ofNat ((((a.toNat - 0xf0) * 64 + tailBits b) * 64 + tailBits c) * 64 +
      tailBits d)) = [a, b, c, d] := by
  have hb' := toNat_of_mayFollow hb
  have hc' := toNat_of_isTail hc
  have hd' := toNat_of_isTail hd
  unfold tailBits
  rw [encode_eq, toNat_ofNat_char (by omega), if_neg (by omega), if_neg (by omega), if_neg (by omega),
    ofNat_eq_of_toNat (a := a) (by omega), ofNat_eq_of_toNat (a := b) (by omega),
    ofNat_eq_of_toNat (a := c) (by omega), ofNat_eq_of_toNat (a := d) (by omega)]

/-- A step that reads a character goes over its encoding. -/
theorem eq_encode_of_step {a : UInt8} {t r : Bytes} {c : Char} (h : step a t = (some c, r)) :
    a :: t = String.utf8EncodeChar c ++ r := by
  unfold step at h
  split_ifs at h with h₁ h₂ h₃ h₄
  · have ha : a.toNat < 128 := UInt8.lt_iff_toNat_lt.mp h₁
    cases h
    rw [encode_eq, toNat_ofNat_char (by omega), if_pos (by omega), UInt8.ofNat_toNat]
    rfl
  · cases h
  -- what is left starts with the first byte of two, three or four
  all_goals simp only [Bool.or_eq_true, decide_eq_true_eq, not_or, UInt8.lt_iff_toNat_lt,
    UInt8.reduceToNat] at h₂ h₃
  · split at h
    · split_ifs at h with hb
      · cases h
        rw [encode_two (by omega) h₃ hb]
        rfl
      · cases h
    · cases h
  · simp only [UInt8.lt_iff_toNat_lt, UInt8.reduceToNat] at h₄
    split at h
    · split_ifs at h with hbc
      · obtain ⟨hb, hc⟩ := Bool.and_eq_true_iff.mp hbc
        cases h
        rw [encode_three (by omega) h₄ hb hc]
        rfl
      · cases h
    · cases h
  · simp only [UInt8.lt_iff_toNat_lt, UInt8.reduceToNat] at h₄
    split at h
    · split_ifs at h with hbcd
      · obtain ⟨hbc, hd⟩ := Bool.and_eq_true_iff.mp hbcd
        obtain ⟨hb, hc⟩ := Bool.and_eq_true_iff.mp hbc
        cases h
        rw [encode_four (by omega) (by omega) hb hc hd]
        rfl
      · cases h
    · cases h

theorem eq_flatMap_of_chars {t : Bytes} {l : List Char} (h : chars t = l.map some) :
    t = l.flatMap String.utf8EncodeChar := by
  induction l generalizing t with
  | nil =>
    cases t with
    | nil => rfl
    | cons a t =>
      rw [chars] at h
      cases h
  | cons c l ih =>
    cases t with
    | nil =>
      rw [chars] at h
      cases h
    | cons a t =>
      rw [chars, List.map_cons, List.cons.injEq] at h
      rw [List.flatMap_cons, ← ih h.2]
      exact eq_encode_of_step (Prod.ext h.1 rfl)

/-- **A text is well formed exactly if it encodes a string.** -/
theorem isValid_iff {t : Bytes} : isValid t = true ↔ ∃ s : String, Bytes.ofString s = t := by
  constructor
  · intro h
    have hsome : ∀ x ∈ chars t, some (x.getD default) = x := by
      intro x hx
      obtain ⟨c, rfl⟩ := Option.isSome_iff_exists.mp (List.all_eq_true.mp h x hx)
      rfl
    refine ⟨String.ofList ((chars t).map fun x => x.getD default), ?_⟩
    rw [Bytes.ofString_eq, String.toList_ofList]
    refine (eq_flatMap_of_chars ?_).symm
    rw [List.map_map]
    exact ((List.map_congr_left hsome).trans (List.map_id _)).symm
  · rintro ⟨s, rfl⟩
    rw [isValid, chars_ofString]
    simp

end Utf8

/-- The string of an ASCII text has its bytes. -/
theorem Bytes.ofString_ascii {t : Bytes} (h : ∀ b ∈ t, b.toNat < 128) : ofString (ascii t) = t := by
  rw [ofString_eq, ascii, String.toList_ofList, List.flatMap_map]
  induction t with
  | nil => rfl
  | cons b t ih =>
    have hb := h b List.mem_cons_self
    have hchar : (Char.ofNat b.toNat).toNat = b.toNat := Utf8.toNat_ofNat_char (.inl (by omega))
    rw [List.flatMap_cons, ih fun c hc => h c (List.mem_cons_of_mem b hc), Utf8.encode_eq, hchar,
      if_pos (by omega), UInt8.ofNat_toNat]
    rfl

end ScriptSplit
