import Mathlib
import ScriptSplit.Proofs.Text.Encoding

/-!
# Texts that are not well formed

A text is decoded chunk by chunk: each chunk is the encoding of a character or one stray byte. Whether a
byte is stray depends on the continuation bytes after it and on nothing else.

* `lossy`: the characters of a text; `lossy_encode_append`, `lossy_stray`: the two kinds of chunks.
* `cases_chunk`: the first chunk of a text.
* **`chars_append`**, **`lossy_append`**: a text that begins with no continuation byte is decoded on its own.
-/

namespace ScriptSplit.Utf8

/-- The characters of a text, with the replacement character for each stray byte. -/
def lossy (t : Bytes) : List Char := (decodeLossy t).toList

theorem lossy_eq (t : Bytes) : lossy t = (chars t).map fun c => c.getD (Char.ofNat 0xfffd) := by
  rw [lossy, decodeLossy, String.toList_ofList]

@[simp] theorem lossy_nil : lossy [] = [] := by simp [lossy_eq, chars]

/-- A chunk that is a character. -/
theorem lossy_encode_append (c : Char) (t : Bytes) : lossy (String.utf8EncodeChar c ++ t) = c :: lossy t := by
  rw [lossy_eq, chars_encode_append, List.map_cons, ← lossy_eq]
  rfl

theorem lossy_ofString_append (s : String) (t : Bytes) : lossy (Bytes.ofString s ++ t) = s.toList ++ lossy t := by
  rw [Bytes.ofString_eq]
  induction s.toList with
  | nil => rfl
  | cons c cs ih => rw [List.flatMap_cons, List.append_assoc, lossy_encode_append, ih, List.cons_append]

theorem step_of_none {a : UInt8} {t : Bytes} (h : (step a t).1 = none) : step a t = (none, t) := by
  refine Prod.ext h ?_
  revert h
  unfold step
  repeat' split
  all_goals simp

/-- A chunk that is a stray byte. -/
theorem chars_stray {a : UInt8} {t : Bytes} (h : (step a t).1 = none) : chars (a :: t) = none :: chars t := by
  rw [chars, step_of_none h]

theorem lossy_stray {a : UInt8} {t : Bytes} (h : (step a t).1 = none) :
    lossy (a :: t) = Char.ofNat 0xfffd :: lossy t := by
  rw [lossy_eq, chars_stray h, List.map_cons, ← lossy_eq]
  rfl

/-- The first chunk of a text. -/
theorem cases_chunk (a : UInt8) (t : Bytes) :
    (∃ c r, a :: t = String.utf8EncodeChar c ++ r) ∨ (step a t).1 = none := by
  obtain ⟨x, r, h⟩ : ∃ x r, step a t = (x, r) := ⟨_, _, rfl⟩
  cases x with
  | none => exact .inr (by rw [h])
  | some c => exact .inl ⟨c, r, eq_encode_of_step h⟩

theorem step_encode {c : Char} {a : UInt8} {s t : Bytes} (h : a :: t = String.utf8EncodeChar c ++ s) :
    (step a t).1 = some c := by
  have hchars := chars_encode_append c s
  rw [← h, chars] at hchars
  exact (List.cons.inj hchars).1

/-- A character is encoded by one ASCII byte, or by a byte that is none and continuation bytes. -/
theorem encode_cases (c : Char) :
    (c.toNat < 128 ∧ String.utf8EncodeChar c = [UInt8.ofNat c.toNat]) ∨
    ∃ a tail, 128 ≤ c.toNat ∧ String.utf8EncodeChar c = a :: tail ∧ 128 ≤ a.toNat ∧ ∀ b ∈ tail, isTail b = true := by
  have hv := valid_toNat c
  have hlow : c.toNat % 64 < 64 := Nat.mod_lt _ (by omega)
  have hmid : c.toNat / 64 % 64 < 64 := Nat.mod_lt _ (by omega)
  have hhigh : c.toNat / 4096 % 64 < 64 := Nat.mod_lt _ (by omega)
  rw [encode_eq]
  split_ifs with h₁ h₂ h₃
  · exact .inl ⟨by omega, rfl⟩
  · refine .inr ⟨_, _, by omega, rfl, ?_, ?_⟩
    · rw [toNat_ofNat_of_lt (by omega)]
      omega
    · exact List.forall_mem_singleton.mpr (isTail_ofNat hlow)
  · refine .inr ⟨_, _, by omega, rfl, ?_, ?_⟩
    · rw [toNat_ofNat_of_lt (by omega)]
      omega
    · exact List.forall_mem_cons.mpr ⟨isTail_ofNat hmid, List.forall_mem_singleton.mpr (isTail_ofNat hlow)⟩
  · refine .inr ⟨_, _, by omega, rfl, ?_, ?_⟩
    · rw [toNat_ofNat_of_lt (by omega)]
      omega
    · exact List.forall_mem_cons.mpr ⟨isTail_ofNat hhigh, List.forall_mem_cons.mpr ⟨isTail_ofNat hmid,
        List.forall_mem_singleton.mpr (isTail_ofNat hlow)⟩⟩

/-- **Whether a byte is stray** depends on the continuation bytes that follow it. -/
theorem step_none_congr {a : UInt8} {t u : Bytes} (ha : 128 ≤ a.toNat) (h : (step a t).1 = none)
    (htail : u.takeWhile isTail = t.takeWhile isTail) : (step a u).1 = none := by
  obtain ⟨c, r, hc⟩ | hnone := cases_chunk a u
  · -- the continuation bytes of the character follow in the other text as well
    exfalso
    obtain ⟨hascii, henc⟩ | ⟨a', tail, -, henc, -, hall⟩ := encode_cases c
    · rw [henc, List.singleton_append] at hc
      obtain ⟨rfl, -⟩ := List.cons.inj hc
      rw [toNat_ofNat_of_lt (by omega)] at ha
      omega
    · rw [henc, List.cons_append] at hc
      obtain ⟨rfl, rfl⟩ := List.cons.inj hc
      rw [List.takeWhile_append_of_pos hall] at htail
      have ht : a :: t = String.utf8EncodeChar c ++ (r.takeWhile isTail ++ t.dropWhile isTail) := by
        rw [henc, List.cons_append, ← List.append_assoc, htail, List.takeWhile_append_dropWhile]
      rw [step_encode ht] at h
      cases h
  · exact hnone

/-- **A text that begins with no continuation byte** is decoded on its own. -/
theorem chars_append {x : Bytes} (hx : x.takeWhile isTail = []) (t : Bytes) : chars (t ++ x) = chars t ++ chars x := by
  induction hlen : t.length using Nat.strong_induction_on generalizing t with
  | _ n ih =>
    subst hlen
    cases t with
    | nil => rw [List.nil_append, chars, List.nil_append]
    | cons a t =>
      obtain ⟨c, r, hc⟩ | hnone := cases_chunk a t
      · have hlt : r.length < (a :: t).length := by
          rw [hc, List.length_append]
          have := List.length_pos_of_ne_nil (String.utf8EncodeChar_ne_nil (c := c))
          omega
        rw [hc, List.append_assoc, chars_encode_append, chars_encode_append, ih _ hlt r rfl, List.cons_append]
      · rw [List.cons_append, chars_stray hnone]
        by_cases ha : a.toNat < 128
        · rw [step_one t ha] at hnone
          cases hnone
        · have htail : (t ++ x).takeWhile isTail = t.takeWhile isTail := by
            rw [List.takeWhile_append, hx, List.append_nil]
            split_ifs with hall
            · exact ((List.takeWhile_prefix isTail).eq_of_length hall).symm
            · rfl
          rw [chars_stray (step_none_congr (by omega) hnone htail), ih t.length (by simp) t rfl, List.cons_append]

theorem lossy_append {x : Bytes} (hx : x.takeWhile isTail = []) (t : Bytes) : lossy (t ++ x) = lossy t ++ lossy x := by
  rw [lossy_eq, chars_append hx, List.map_append, ← lossy_eq, ← lossy_eq]

end ScriptSplit.Utf8
