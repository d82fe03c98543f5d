import Mathlib
import ScriptSplit.Proofs.Format.Json.Raw

/-!
# String literals as bytes and as characters

A string literal is read chunk by chunk. From the chunks follow the readings of all the forms that a byte text
takes: its bytes, its characters, and both after it was compacted.

* `Body`: the chunks up to the closing quote; **`body_of_pieces?`**: they are what the reader goes over.
* `Respelled`: a character that is written by its number stands for the same string.
* **`Body.stringTail?_lossy`**: the characters of a text and of its compacted form are the same string.
* `Body.stringTail?_bytes`: the bytes of the compacted form are a string.
-/

namespace ScriptSplit.Json

/-! ## Chunks -/

/-- The character of a byte. -/
def byteChar (b : UInt8) : Char := Char.ofNat b.toNat

theorem byteChars_cons (b : UInt8) (t : Bytes) : byteChars (b :: t) = byteChar b :: byteChars t := rfl

theorem byteChars_append (t u : Bytes) : byteChars (t ++ u) = byteChars t ++ byteChars u := List.map_append

theorem byteChars_eq_cons {t : Bytes} {c : Char} {cs : List Char} (h : byteChars t = c :: cs) :
    ∃ b r, t = b :: r ∧ c = byteChar b ∧ cs = byteChars r := by
  obtain ⟨b, r, rfl, rfl, rfl⟩ := List.map_eq_cons_iff.mp h
  exact ⟨b, r, rfl, rfl, rfl⟩

/-- A byte whose character is ASCII is that character. -/
theorem eq_of_byteChar {b : UInt8} {c : Char} (h : byteChar b = c) : b = UInt8.ofNat c.toNat := by
  rw [← h, byteChar, toNat_ofNat_byte, UInt8.ofNat_toNat]

theorem encode_byteChar {b : UInt8} (hb : b.toNat < 128) : String.utf8EncodeChar (byteChar b) = [b] := by
  have hlow : (byteChar b).toNat = b.toNat := toNat_ofNat_byte b
  obtain ⟨-, henc⟩ | ⟨_, _, hhigh, -⟩ := Utf8.encode_cases (byteChar b)
  · rw [henc, hlow, UInt8.ofNat_toNat]
  · omega

/-- The chunks of a string literal after its opening quote, and what follows its closing one. -/
inductive Body : Bytes → Bytes → Prop
  | close (r : Bytes) : Body (0x22 :: r) r
  | code {a b c d : UInt8} {n : Nat} {t r : Bytes}
      (hn : hexUnit? (byteChar a) (byteChar b) (byteChar c) (byteChar d) = some n) (h : Body t r) :
      Body (0x5c :: 0x75 :: a :: b :: c :: d :: t) r
  | letter {e : UInt8} {x : Char} {t r : Bytes} (hx : escapedChar? (byteChar e) = some x) (h : Body t r) :
      Body (0x5c :: e :: t) r
  | char {c : Char} {t r : Bytes} (hc : Safe c) (h : Body t r) : Body (String.utf8EncodeChar c ++ t) r
  | stray {b : UInt8} {t r : Bytes} (hb : (Utf8.step b t).1 = none) (h : Body t r) : Body (b :: t) r

theorem safe_of_high {c : Char} (h : 128 ≤ c.toNat) : Safe c := by
  have hne : ∀ d : Char, d.toNat < 128 → c ≠ d := by
    rintro d hd rfl
    omega
  exact ⟨hne _ (by decide), hne _ (by decide), by omega⟩

/-- Bytes outside of ASCII are gone over one by one. -/
theorem pieces?_high {t u : Bytes} {ps : List Piece} {rest : List Char} (ht : ∀ b ∈ t, 128 ≤ b.toNat)
    (h : pieces? (byteChars (t ++ u)) = some (ps, rest)) : ∃ qs, pieces? (byteChars u) = some (qs, rest) := by
  have hsafe : ∀ d ∈ byteChars t, Safe d := by
    intro d hd
    obtain ⟨b, hb, rfl⟩ := List.mem_map.mp hd
    exact safe_of_high (by rw [toNat_ofNat_byte]; exact ht b hb)
  rw [byteChars_append, pieces?_plains hsafe] at h
  obtain ⟨⟨qs, r⟩, hqs, h⟩ := Option.map_eq_some_iff.mp h
  cases h
  exact ⟨qs, hqs⟩

/-- **What the reader goes over** in a string literal are chunks. -/
theorem body_of_pieces? {t : Bytes} {ps : List Piece} {rest : List Char}
    (h : pieces? (byteChars t) = some (ps, rest)) : ∃ r, rest = byteChars r ∧ Body t r := by
  induction hlen : t.length using Nat.strong_induction_on generalizing t ps with
  | _ n ih =>
    subst hlen
    obtain ⟨hcs, -⟩ | ⟨a, b, c, d, cs, n, qs, hcs, hn, hqs, -⟩ | ⟨e, x, cs, qs, hcs, hx, hqs, -⟩ |
      ⟨c, cs, qs, hcs, hsafe, hqs, -⟩ := pieces?_cases h
    · obtain ⟨b, r, rfl, hb, rfl⟩ := byteChars_eq_cons hcs
      obtain rfl := eq_of_byteChar hb.symm
      exact ⟨r, rfl, .close r⟩
    · obtain ⟨b₀, t₀, rfl, hb₀, h₀⟩ := byteChars_eq_cons hcs
      obtain ⟨b₁, t₁, rfl, hb₁, h₁⟩ := byteChars_eq_cons h₀.symm
      obtain ⟨b₂, t₂, rfl, rfl, h₂⟩ := byteChars_eq_cons h₁.symm
      obtain ⟨b₃, t₃, rfl, rfl, h₃⟩ := byteChars_eq_cons h₂.symm
      obtain ⟨b₄, t₄, rfl, rfl, h₄⟩ := byteChars_eq_cons h₃.symm
      obtain ⟨b₅, t₅, rfl, rfl, rfl⟩ := byteChars_eq_cons h₄.symm
      obtain rfl := eq_of_byteChar hb₀.symm
      obtain rfl := eq_of_byteChar hb₁.symm
      obtain ⟨r, rfl, hbody⟩ := ih t₅.length (by simp only [List.length_cons]; omega) hqs rfl
      exact ⟨r, rfl, .code hn hbody⟩
    · obtain ⟨b₀, t₀, rfl, hb₀, h₀⟩ := byteChars_eq_cons hcs
      obtain ⟨b₁, t₁, rfl, rfl, rfl⟩ := byteChars_eq_cons h₀.symm
      obtain rfl := eq_of_byteChar hb₀.symm
      obtain ⟨r, rfl, hbody⟩ := ih t₁.length (by simp only [List.length_cons]; omega) hqs rfl
      exact ⟨r, rfl, .letter hx hbody⟩
    · obtain ⟨b, t, rfl, rfl, rfl⟩ := byteChars_eq_cons hcs
      by_cases hascii : b.toNat < 128
      · obtain ⟨r, rfl, hbody⟩ := ih t.length (by simp only [List.length_cons]; omega) hqs rfl
        have hchar := Body.char hsafe hbody
        rw [encode_byteChar hascii] at hchar
        exact ⟨r, rfl, hchar⟩
      · -- the reader goes on byte by byte, while a character has several
        obtain ⟨c, u, hchunk⟩ | hstray := Utf8.cases_chunk b t
        · have hc : 128 ≤ c.toNat := by
            by_contra hlt
            obtain ⟨-, henc⟩ | ⟨_, _, hc', -⟩ := Utf8.encode_cases c
            · rw [henc] at hchunk
              obtain ⟨rfl, -⟩ := List.cons.inj hchunk
              rw [Utf8.toNat_ofNat_of_lt (by omega)] at hascii
              omega
            · omega
          have hhigh := high_of_mem_encode hc
          have ht : pieces? (byteChars (b :: t)) = some (.plain (byteChar b) :: qs, rest) := by
            rw [byteChars_cons, pieces?_plain hsafe, hqs]
            rfl
          rw [hchunk] at ht ⊢
          obtain ⟨qs', hqs'⟩ := pieces?_high hhigh ht
          have hlt : u.length < (String.utf8EncodeChar c ++ u).length := by
            have := List.length_pos_of_ne_nil (String.utf8EncodeChar_ne_nil (c := c))
            rw [List.length_append]
            omega
          obtain ⟨r, rfl, hbody⟩ := ih u.length (by rw [hchunk]; exact hlt) hqs' rfl
          exact ⟨r, rfl, .char (safe_of_high hc) hbody⟩
        · obtain ⟨r, rfl, hbody⟩ := ih t.length (by simp only [List.length_cons]; omega) hqs rfl
          exact ⟨r, rfl, .stray hstray hbody⟩

/-! ## Pieces -/

/-- A character is also given by its number. -/
inductive Respelled : Piece → Piece → Prop
  | same (p : Piece) : Respelled p p
  | numbered {c : Char} (hc : c.toNat < 0xd800) : Respelled (.plain c) (.unit c.toNat)

/-- The character of a unit that belongs to no pair. -/
def lone (n : Nat) : Char := if 0xd800 ≤ n && n < 0xe000 then Char.ofNat 0xfffd else Char.ofNat n

theorem joinPieces_unit_plain (n : Nat) (c : Char) (ps : List Piece) :
    joinPieces (.unit n :: .plain c :: ps) = lone n :: joinPieces (.plain c :: ps) := by
  rw [joinPieces]
  rfl

theorem joinPieces_units (h l : Nat) (ps : List Piece) : joinPieces (.unit h :: .unit l :: ps) =
    if 0xd800 ≤ h && h < 0xdc00 && 0xdc00 ≤ l && l < 0xe000 then
      Char.ofNat (0x10000 + (h - 0xd800) * 1024 + (l - 0xdc00)) :: joinPieces ps
    else lone h :: joinPieces (.unit l :: ps) := by
  rw [joinPieces]
  rfl

theorem joinPieces_unit_low (n : Nat) {l : Nat} (hl : l < 0xd800) (ps : List Piece) :
    joinPieces (.unit n :: .unit l :: ps) = lone n :: joinPieces (.unit l :: ps) := by
  rw [joinPieces_units, if_neg]
  simp only [Bool.and_eq_true, decide_eq_true_eq]
  omega

/-- **Pieces that are spelled otherwise** join to the same string. -/
theorem joinPieces_congr {ps qs : List Piece} (h : List.Forall₂ Respelled ps qs) :
    joinPieces ps = joinPieces qs := by
  induction hlen : ps.length using Nat.strong_induction_on generalizing ps qs with
  | _ n ih =>
    subst hlen
    cases h with
    | nil => rfl
    | @cons p q ps qs hp htail =>
      have htails := ih ps.length (by simp) htail rfl
      cases hp with
      | numbered hc => rw [joinPieces, joinPieces_unit hc, htails, Char.ofNat_toNat]
      | same p =>
        cases p with
        | plain c => rw [joinPieces, joinPieces, htails]
        | unit h =>
          -- a second half of a pair is spelled by its number only
          cases htail with
          | nil => rfl
          | @cons p q ps qs hp htail =>
            cases hp with
            | numbered hc => rw [joinPieces_unit_plain, joinPieces_unit_low h hc, htails]
            | same p =>
              cases p with
              | plain c => rw [joinPieces_unit_plain, joinPieces_unit_plain, htails]
              | unit l => rw [joinPieces_units, joinPieces_units, htails, ih ps.length (by simp) htail rfl]

/-! ## Chunks that are compacted -/

/-- A character that stays as it is in a string, in ASCII. -/
structure Stays (b : UInt8) : Prop where
  ascii : b.toNat < 128
  safe : Safe (byteChar b)
  harmless : Harmless (byteChar b)

theorem Stays.compactFrom {b : UInt8} (h : Stays b) (r : Bytes) :
    compactFrom true false (b :: r) = b :: compactFrom true false r := by
  have hpass := compactFrom_encode h.safe h.harmless r
  rwa [encode_byteChar h.ascii] at hpass

theorem stays_of_digit {b : UInt8} {k : Nat} (h : digitValue? (byteChar b) = some k) : Stays b := by
  have hcode : (byteChar b).toNat = b.toNat := toNat_ofNat_byte b
  have hrange : 48 ≤ (byteChar b).toNat ∧ (byteChar b).toNat ≤ 122 ∧ (byteChar b).toNat ≠ 60 ∧
      (byteChar b).toNat ≠ 62 ∧ (byteChar b).toNat ≠ 92 := by
    have hle : ∀ c d : Char, c ≤ d ↔ c.toNat ≤ d.toNat := fun _ _ => Iff.rfl
    unfold digitValue? at h
    simp only [Bool.and_eq_true, decide_eq_true_eq, hle, Char.reduceToNat] at h
    split_ifs at h <;> omega
  have hne : ∀ d : Char, (byteChar b).toNat ≠ d.toNat → byteChar b ≠ d := fun d hd heq => hd (by rw [heq])
  refine ⟨by omega, ⟨hne _ ?_, hne _ ?_, by omega⟩, hne _ ?_, hne _ ?_, hne _ ?_, by omega, by omega⟩
  all_goals simp only [Char.reduceToNat]; omega

theorem stays_of_hexUnit? {a b c d : UInt8} {n : Nat}
    (h : hexUnit? (byteChar a) (byteChar b) (byteChar c) (byteChar d) = some n) :
    Stays a ∧ Stays b ∧ Stays c ∧ Stays d := by
  unfold hexUnit? natInBase? at h
  rw [if_neg (by simp)] at h
  simp only [List.foldlM_cons, Option.bind_eq_bind, Option.bind_eq_some_iff] at h
  obtain ⟨_, ⟨_, ha, -⟩, _, ⟨_, hb, -⟩, _, ⟨_, hc, -⟩, _, ⟨_, hd, -⟩, -⟩ := h
  exact ⟨stays_of_digit ha, stays_of_digit hb, stays_of_digit hc, stays_of_digit hd⟩

/-- The code of a character stays. -/
theorem compactFrom_code {a b c d : UInt8} (ha : Stays a) (hb : Stays b) (hc : Stays c) (hd : Stays d)
    (r : Bytes) : compactFrom true false (0x5c :: 0x75 :: a :: b :: c :: d :: r) =
      0x5c :: 0x75 :: a :: b :: c :: d :: compactFrom true false r := by
  rw [compactFrom_escaped (by decide) (by decide), ha.compactFrom, hb.compactFrom, hc.compactFrom, hd.compactFrom]

theorem escapedChar?_byte {e : UInt8} {x : Char} (h : escapedChar? (byteChar e) = some x) :
    e.toNat < 128 ∧ (e == 0x3c || e == 0x3e || e == 0x26) = false ∧ byteChar e ≠ 'u' := by
  have hletter : byteChar e ∈ ['\x22', '\x5c', '/', 'b', 'f', 'n', 'r', 't'] := by
    unfold escapedChar? at h
    simp only [Bool.or_eq_true, decide_eq_true_eq] at h
    simp only [List.mem_cons, List.not_mem_nil, or_false]
    split_ifs at h <;> tauto
  simp only [List.mem_cons, List.not_mem_nil, or_false] at hletter
  rcases hletter with hx | hx | hx | hx | hx | hx | hx | hx
  all_goals
    rw [hx, eq_of_byteChar hx]
    decide

/-! ## Readings -/

theorem lossy_ascii {b : UInt8} (hb : b.toNat < 128) (t : Bytes) :
    Utf8.lossy (b :: t) = byteChar b :: Utf8.lossy t := by
  have h := Utf8.lossy_encode_append (byteChar b) t
  rwa [encode_byteChar hb] at h

theorem unitEscape_eq {n : Nat} (hn : n < 65536) : ∃ a b c d, unitEscape n = ['\x5c', 'u', a, b, c, d] ∧
    hexUnit? a b c d = some n ∧ ∀ x ∈ unitEscape n, x.toNat < 128 := by
  obtain ⟨a, b, c, d, hdigits, hvalue, hlower⟩ := hexUnit?_lastDigits hn
  refine ⟨a, b, c, d, by rw [unitEscape, hdigits], hvalue, ?_⟩
  rw [unitEscape, hdigits]
  refine List.forall_mem_cons.mpr ⟨by decide, List.forall_mem_cons.mpr ⟨by decide, fun x hx => ?_⟩⟩
  obtain ⟨k, hk, rfl⟩ := hlower x hx
  exact lowerDigit_ascii k hk

theorem not_harmless_low {c : Char} (hc : ¬ Harmless c) : c.toNat < 0xd800 := by
  by_contra h
  have hne : ∀ d : Char, d.toNat < 0xd800 → c ≠ d := by
    rintro d hd rfl
    omega
  exact hc ⟨hne _ (by decide), hne _ (by decide), hne _ (by decide), by omega, by omega⟩

/-- **The characters of a text and of its compacted form** are the same string. -/
theorem Body.pieces?_lossy {t r : Bytes} (h : Body t r) (x : List Char) : ∃ ps qs,
    pieces? (Utf8.lossy t) = some (ps, Utf8.lossy r) ∧
    pieces? (Utf8.lossy (compactFrom true false t) ++ x) = some (qs, Utf8.lossy (compactFrom false false r) ++ x) ∧
    List.Forall₂ Respelled ps qs := by
  induction h with
  | close r =>
    refine ⟨[], [], ?_, ?_, .nil⟩
    · rw [lossy_ascii (by decide)]
      rfl
    · rw [compactFrom_quote, lossy_ascii (by decide)]
      rfl
  | @code a b c d n t r hn h ih =>
    obtain ⟨ps, qs, hps, hqs, hsame⟩ := ih
    obtain ⟨ha, hb, hc, hd⟩ := stays_of_hexUnit? hn
    have hlossy : ∀ u, Utf8.lossy (0x5c :: 0x75 :: a :: b :: c :: d :: u) =
        '\x5c' :: 'u' :: byteChar a :: byteChar b :: byteChar c :: byteChar d :: Utf8.lossy u := fun u => by
      rw [lossy_ascii (by decide), lossy_ascii (by decide), lossy_ascii ha.ascii, lossy_ascii hb.ascii,
        lossy_ascii hc.ascii, lossy_ascii hd.ascii]
      rfl
    refine ⟨.unit n :: ps, .unit n :: qs, ?_, ?_, .cons (.same _) hsame⟩
    · rw [hlossy]
      exact pieces?_unit hn hps
    · rw [compactFrom_code ha hb hc hd, hlossy]
      exact pieces?_unit hn hqs
  | @letter e y t r hy h ih =>
    obtain ⟨ps, qs, hps, hqs, hsame⟩ := ih
    obtain ⟨hascii, hpage, hu⟩ := escapedChar?_byte hy
    have hlossy : ∀ u, Utf8.lossy (0x5c :: e :: u) = '\x5c' :: byteChar e :: Utf8.lossy u := fun u => by
      rw [lossy_ascii (by decide), lossy_ascii hascii]
      rfl
    refine ⟨.plain y :: ps, .plain y :: qs, ?_, ?_, .cons (.same _) hsame⟩
    · rw [hlossy, pieces?_letter hu hy, hps]
      rfl
    · rw [compactFrom_escaped hascii hpage, hlossy, List.cons_append, List.cons_append, pieces?_letter hu hy, hqs]
      rfl
  | @char c t r hc h ih =>
    obtain ⟨ps, qs, hps, hqs, hsame⟩ := ih
    have hread : pieces? (Utf8.lossy (String.utf8EncodeChar c ++ t)) = some (.plain c :: ps, Utf8.lossy r) := by
      rw [Utf8.lossy_encode_append, pieces?_plain hc, hps]
      rfl
    by_cases hharmless : Harmless c
    · refine ⟨.plain c :: ps, .plain c :: qs, hread, ?_, .cons (.same _) hsame⟩
      rw [compactFrom_encode hc hharmless, Utf8.lossy_encode_append, List.cons_append, pieces?_plain hc, hqs]
      rfl
    · have hlow := not_harmless_low hharmless
      obtain ⟨a, b, c', d, hunit, hvalue, -⟩ := unitEscape_eq (show c.toNat < 65536 by omega)
      refine ⟨.plain c :: ps, .unit c.toNat :: qs, hread, ?_, .cons (.numbered hlow) hsame⟩
      rw [compactFrom_page hharmless, Utf8.lossy_ofString_append, String.toList_ofList, hunit]
      exact pieces?_unit hvalue hqs
  | @stray b t r hb h ih =>
    obtain ⟨ps, qs, hps, hqs, hsame⟩ := ih
    have hhigh : 128 ≤ b.toNat := by
      by_contra hlt
      rw [Utf8.step_one t (by omega)] at hb
      cases hb
    have hsafe : Safe (Char.ofNat 0xfffd) := safe_of_high (by decide)
    refine ⟨.plain (Char.ofNat 0xfffd) :: ps, .plain (Char.ofNat 0xfffd) :: qs, ?_, ?_, .cons (.same _) hsame⟩
    · rw [Utf8.lossy_stray hb, pieces?_plain hsafe, hps]
      rfl
    · rw [compactFrom_stray hb, Utf8.lossy_stray (Utf8.step_none_congr hhigh hb (takeWhile_compactFrom t)),
        List.cons_append, pieces?_plain hsafe, hqs]
      rfl

/-- **The bytes of the compacted form** are a string. -/
theorem Body.pieces?_bytes {t r : Bytes} (h : Body t r) (x : List Char) : ∃ qs,
    pieces? (byteChars (compactFrom true false t) ++ x) =
      some (qs, byteChars (compactFrom false false r) ++ x) := by
  have hplain : ∀ {u v : Bytes} {qs : List Piece}, (∀ d ∈ byteChars u, Safe d) →
      pieces? (byteChars v ++ x) = some (qs, byteChars (compactFrom false false r) ++ x) →
      ∃ qs, pieces? (byteChars (u ++ v) ++ x) = some (qs, byteChars (compactFrom false false r) ++ x) := by
    intro u v qs hu hv
    rw [byteChars_append, List.append_assoc, pieces?_plains hu, hv]
    exact ⟨_, rfl⟩
  induction h with
  | close r =>
    rw [compactFrom_quote]
    exact ⟨[], rfl⟩
  | @code a b c d n t r hn h ih =>
    obtain ⟨qs, hqs⟩ := ih hplain
    obtain ⟨ha, hb, hc, hd⟩ := stays_of_hexUnit? hn
    rw [compactFrom_code ha hb hc hd]
    exact ⟨.unit n :: qs, pieces?_unit hn hqs⟩
  | @letter e y t r hy h ih =>
    obtain ⟨qs, hqs⟩ := ih hplain
    obtain ⟨hascii, hpage, hu⟩ := escapedChar?_byte hy
    rw [compactFrom_escaped hascii hpage]
    refine ⟨.plain y :: qs, ?_⟩
    rw [byteChars_cons, byteChars_cons, List.cons_append, List.cons_append]
    exact (pieces?_letter hu hy _).trans (by rw [hqs]; rfl)
  | @char c t r hc h ih =>
    obtain ⟨qs, hqs⟩ := ih hplain
    by_cases hharmless : Harmless c
    · rw [compactFrom_encode hc hharmless]
      exact hplain (spreads_spread.safe hc) hqs
    · obtain ⟨a, b, c', d, hunit, hvalue, hascii⟩ :=
        unitEscape_eq (show c.toNat < 65536 by have := not_harmless_low hharmless; omega)
      rw [compactFrom_page hharmless, byteChars_append, byteChars_ofString, String.toList_ofList,
        spreads_spread.flatMap_ascii hascii, hunit]
      exact ⟨.unit c.toNat :: qs, pieces?_unit hvalue hqs⟩
  | @stray b t r hb h ih =>
    obtain ⟨qs, hqs⟩ := ih hplain
    have hhigh : 128 ≤ (byteChar b).toNat := by
      by_contra hlt
      rw [byteChar, toNat_ofNat_byte] at hlt
      rw [Utf8.step_one t (by omega)] at hb
      cases hb
    rw [compactFrom_stray hb]
    exact hplain (u := [b]) (List.forall_mem_singleton.mpr (safe_of_high hhigh)) hqs

end ScriptSplit.Json
