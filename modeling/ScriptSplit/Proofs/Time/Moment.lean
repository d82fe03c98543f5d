import Mathlib
import ScriptSplit.Report.Directory

/-!
# Moments and their texts

A number that is written in a fixed number of digits is read back from the front of a text, and so are
the fraction of a second, which is written without the zeros at its end, and the offset.

* `Moment.IsCalendar`: the fields are those of a date and a time of day.
* `digits?_padded`, `fraction?_fractionText`, `offset?_offsetText`: the parts of a text.
* **`parse?_text`**: a moment that can be written is read back.
-/

namespace ScriptSplit

theorem Decimal.ofDigits_eq (ds : List Char) : Decimal.ofDigits ds = Nat.ofDigitChars 10 ds 0 := by
  rw [Decimal.ofDigits, Nat.ofDigitChars_eq_foldl]
  simp only [Nat.mul_comm 10]
  rfl

namespace Moment

/-- The fields are those of a date and a time of day. -/
structure IsCalendar (m : Moment) : Prop where
  month : 1 ≤ m.month ∧ m.month ≤ 12
  day : 1 ≤ m.day ∧ m.day ≤ daysIn m.year m.month
  hour : m.hour < 24
  minute : m.minute < 60
  second : m.second < 60
  nanosecond : m.nanosecond < 10 ^ 9

/-! ## Numbers of a fixed width -/

section Padded

variable {width n : Nat}

theorem length_padded (hwidth : 0 < width) (hn : n < 10 ^ width) : (padded width n).toList.length = width := by
  have hlength : (Nat.toDigits 10 n).length ≤ width := (Nat.length_toDigits_le_iff (by decide) hwidth).mpr hn
  rw [padded, String.toList_ofList, List.length_append, List.length_replicate]
  omega

theorem isDigit_of_mem_padded {c : Char} (hc : c ∈ (padded width n).toList) : c.isDigit = true := by
  rw [padded, String.toList_ofList, List.mem_append] at hc
  obtain hzero | hdigit := hc
  · rw [List.eq_of_mem_replicate hzero]
    decide
  · exact Nat.isDigit_of_mem_toDigits (b := 10) (by decide) (by decide) hdigit

theorem ofDigits_padded (width n : Nat) : Decimal.ofDigits (padded width n).toList = n := by
  have hzeros : ∀ k, Nat.ofDigitChars 10 (List.replicate k '0') 0 = 0 := by
    intro k
    induction k with
    | zero => rfl
    | succ k ih => exact ih
  rw [Decimal.ofDigits_eq, padded, String.toList_ofList, Nat.ofDigitChars_append, hzeros]
  exact Nat.ofDigitChars_ten_toDigits

/-- **A number of a fixed width** is read from the front of a text. -/
theorem digits?_padded (hwidth : 0 < width) (hn : n < 10 ^ width) (rest : List Char) :
    digits? width ((padded width n).toList ++ rest) = some (n, rest) := by
  have hlength := length_padded hwidth hn
  have htake : ((padded width n).toList ++ rest).take width = (padded width n).toList := by
    rw [List.take_append_of_le_length hlength.ge, List.take_of_length_le hlength.le]
  have hdrop : ((padded width n).toList ++ rest).drop width = rest := List.drop_left' hlength
  have hdigits : (padded width n).toList.all Char.isDigit = true := by
    rw [List.all_eq_true]
    exact fun c hc => isDigit_of_mem_padded hc
  unfold digits?
  rw [htake, hdrop, if_pos (by simp [hlength, hdigits]), ofDigits_padded]

end Padded

/-! ## The fraction and the offset -/

/-- The digits of a fraction are those that remain when the zeros at the end are dropped. -/
theorem exists_eq_append_zeros (ds : List Char) :
    ∃ k, ds = (ds.reverse.dropWhile (· = '0')).reverse ++ List.replicate k '0' := by
  have hzeros : ∀ c ∈ ds.reverse.takeWhile (· = '0'), c = '0' := by
    intro c hc
    simpa using List.mem_takeWhile_imp hc
  refine ⟨(ds.reverse.takeWhile (· = '0')).length, ?_⟩
  rw [← List.reverse_replicate, ← List.eq_replicate_of_mem hzeros, ← List.reverse_append,
    List.takeWhile_append_dropWhile, List.reverse_reverse]

theorem fraction?_fractionText {n : Nat} (hn : n < 10 ^ 9) {c : Char} (hdigit : c.isDigit = false)
    (hpoint : c ≠ '.') (hcomma : c ≠ ',') (rest : List Char) :
    fraction? ((fractionText n).toList ++ c :: rest) = some (n, c :: rest) := by
  obtain ⟨k, hk⟩ := exists_eq_append_zeros (padded 9 n).toList
  have hlength := length_padded (by decide) hn
  unfold fractionText
  generalize hds : ((padded 9 n).toList.reverse.dropWhile (· = '0')).reverse = ds at hk
  by_cases hnil : ds = []
  · -- all nine digits are zeros, and nothing is written
    have hzero : n = 0 := by
      rw [← ofDigits_padded 9 n, hk, hnil]
      rw [hk, hnil, List.nil_append, List.length_replicate] at hlength
      rw [hlength]
      decide
    simp [hnil, fraction?, hpoint, hcomma, hzero]
  · have hall : ∀ x ∈ ds, x.isDigit = true := by
      intro x hx
      have hmem : x ∈ (padded 9 n).toList := hk ▸ List.mem_append_left _ hx
      exact isDigit_of_mem_padded hmem
    have hnine : (ds ++ List.replicate 9 '0').take 9 = (padded 9 n).toList := by
      rw [hk, List.length_append, List.length_replicate] at hlength
      have hzeros : min (9 - ds.length) 9 = k := by omega
      rw [hk, List.take_append, List.take_of_length_le (by omega), List.take_replicate, hzeros]
    have htake : (ds ++ c :: rest).takeWhile Char.isDigit = ds := by
      rw [List.takeWhile_append_of_pos hall, List.takeWhile_cons, if_neg (by simp [hdigit]), List.append_nil]
    have hdrop : (ds ++ c :: rest).dropWhile Char.isDigit = c :: rest := by
      rw [List.dropWhile_append_of_pos hall, List.dropWhile_cons, if_neg (by simp [hdigit])]
    have htext : ("." ++ String.ofList ds).toList = '.' :: ds := by simp
    rw [if_neg (by simpa using hnil), htext, List.cons_append, fraction?, if_pos (by decide)]
    simp only [htake, hdrop, hnine, ofDigits_padded]
    rw [if_neg (by simpa using hnil)]

/-- The first character of an offset ends a fraction. -/
theorem exists_offsetText (offset : Int) : ∃ c rest, (offsetText offset).toList = c :: rest ∧
    c.isDigit = false ∧ c ≠ '.' ∧ c ≠ ',' := by
  unfold offsetText
  split_ifs
  · exact ⟨'Z', [], by decide⟩
  · simp only [String.toList_append]
    exact ⟨'-', _, rfl, by decide⟩
  · simp only [String.toList_append]
    exact ⟨'+', _, rfl, by decide⟩

theorem offset?_offsetText {offset : Int} (h : offset.natAbs / 60 < 24) :
    offset? (offsetText offset).toList = some offset := by
  unfold offsetText
  by_cases hzero : offset = 0
  · rw [if_pos hzero, hzero]
    rfl
  have hhours : offset.natAbs / 60 < 10 ^ 2 := by omega
  have hminutes : offset.natAbs % 60 < 10 ^ 2 := by omega
  obtain ⟨a, b, hab⟩ := List.length_eq_two.mp (length_padded (by decide) hhours)
  obtain ⟨c, d, hcd⟩ := List.length_eq_two.mp (length_padded (by decide) hminutes)
  have ha : ∀ x ∈ [a, b], x.isDigit = true := fun x hx => isDigit_of_mem_padded (hab ▸ hx)
  have hc : ∀ x ∈ [c, d], x.isDigit = true := fun x hx => isDigit_of_mem_padded (hcd ▸ hx)
  have hhoursValue := ofDigits_padded 2 (offset.natAbs / 60)
  have hminutesValue := ofDigits_padded 2 (offset.natAbs % 60)
  rw [hab] at hhoursValue
  rw [hcd] at hminutesValue
  have hread : ∀ s : Char, s = '+' ∨ s = '-' → offset? [s, a, b, ':', c, d] =
      some (if s = '-' then -(offset.natAbs : Int) else offset.natAbs) := by
    intro s hs
    have hsum : offset.natAbs / 60 * 60 + offset.natAbs % 60 = offset.natAbs := by omega
    have hbound : offset.natAbs / 60 ≤ 24 ∧ offset.natAbs % 60 ≤ 60 := by omega
    simp only [List.forall_mem_cons] at ha hc
    unfold offset?
    simp only [hhoursValue, hminutesValue, hsum, ha, hc, hs, hbound, List.all_cons, List.all_nil,
      Bool.or_eq_true, decide_eq_true_eq, Bool.and_true, decide_true, guard_true]
    rfl
  rw [if_neg hzero]
  by_cases hneg : offset < 0
  · simp only [if_pos hneg, String.toList_append, hab, hcd]
    refine (hread '-' (.inr rfl)).trans ?_
    rw [if_pos rfl]
    exact congrArg some (by omega)
  · simp only [if_neg hneg, String.toList_append, hab, hcd]
    refine (hread '+' (.inl rfl)).trans ?_
    rw [if_neg (by decide)]
    exact congrArg some (by omega)

/-! ## The whole text -/

theorem bind_eq_of_some {α β : Type} {o : Option α} {a : α} {f : α → Option β} {r : Option β} (h : o = some a)
    (hf : f a = r) : (o >>= f) = r := by
  rw [h]
  exact hf

/-- **A moment that can be written is read back from its text.** -/
theorem parse?_text {m : Moment} (hcalendar : m.IsCalendar) (hfault : m.fault? = none) :
    parse? m.text = some m := by
  obtain ⟨hyear, hoffset⟩ : m.year < 10 ^ 4 ∧ m.offset.natAbs / 60 < 24 := by
    unfold fault? at hfault
    split_ifs at hfault with hyear hoffset
    omega
  have hmonth : m.month < 10 ^ 2 := by have := hcalendar.month; omega
  have hday : m.day < 10 ^ 2 := by
    have hle : daysIn m.year m.month ≤ 31 := by unfold daysIn; split_ifs <;> decide
    have := hcalendar.day
    omega
  have hhour : m.hour < 10 ^ 2 := by have := hcalendar.hour; omega
  have hminute : m.minute < 10 ^ 2 := by have := hcalendar.minute; omega
  have hsecond : m.second < 10 ^ 2 := by have := hcalendar.second; omega
  have hfraction : fraction? ((fractionText m.nanosecond).toList ++ (offsetText m.offset).toList) =
      some (m.nanosecond, (offsetText m.offset).toList) := by
    obtain ⟨c, rest, htext, hdigit, hpoint, hcomma⟩ := exists_offsetText m.offset
    rw [htext]
    exact fraction?_fractionText hcalendar.nanosecond hdigit hpoint hcomma rest
  have hchar : ∀ (c : Char) (rest : List Char), char? c (c :: rest) = some rest := by
    intro c rest
    rw [char?, if_pos rfl]
  have htext : m.text.toList = (padded 4 m.year).toList ++ '-' :: ((padded 2 m.month).toList ++
      '-' :: ((padded 2 m.day).toList ++ 'T' :: ((padded 2 m.hour).toList ++ ':' ::
      ((padded 2 m.minute).toList ++ ':' :: ((padded 2 m.second).toList ++
      ((fractionText m.nanosecond).toList ++ (offsetText m.offset).toList)))))) := by
    simp [text]
  have hdate : (1 ≤ m.month && m.month ≤ 12 && 1 ≤ m.day && m.day ≤ daysIn m.year m.month) = true := by
    simp [hcalendar.month, hcalendar.day]
  have htime : (m.hour < 24 && m.minute < 60 && m.second < 60) = true := by
    simp [hcalendar.hour, hcalendar.minute, hcalendar.second]
  have hyear := digits?_padded (by decide) hyear
  have hmonth := digits?_padded (by decide) hmonth
  have hday := digits?_padded (by decide) hday
  have hhour := digits?_padded (by decide) hhour
  have hminute := digits?_padded (by decide) hminute
  have hsecond := digits?_padded (by decide) hsecond
  -- from here on, nothing is known of the digits but how they are read
  generalize (padded 4 m.year).toList = year, (padded 2 m.month).toList = month, (padded 2 m.day).toList = day,
    (padded 2 m.hour).toList = hour, (padded 2 m.minute).toList = minute, (padded 2 m.second).toList = second
    at htext hyear hmonth hday hhour hminute hsecond
  unfold parse?
  rw [htext]
  refine bind_eq_of_some (hyear _) (bind_eq_of_some (hchar '-' _) ?_)
  refine bind_eq_of_some (hmonth _) (bind_eq_of_some (hchar '-' _) ?_)
  refine bind_eq_of_some (hday _) (bind_eq_of_some (hchar 'T' _) ?_)
  simp only [hhour]
  refine bind_eq_of_some rfl (bind_eq_of_some (hchar ':' _) ?_)
  refine bind_eq_of_some (hminute _) (bind_eq_of_some (hchar ':' _) ?_)
  refine bind_eq_of_some (hsecond _) (bind_eq_of_some hfraction ?_)
  refine bind_eq_of_some (offset?_offsetText hoffset) ?_
  simp only [hdate, htime, guard_true]
  rfl

end Moment

end ScriptSplit
