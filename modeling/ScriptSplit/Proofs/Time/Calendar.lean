import Mathlib
import ScriptSplit.Proofs.Time.Moment

/-!
# Days and dates

Four hundred years have the same number of days wherever they start. Within such an era the year of a day is
found by a division that makes up for the leap days; since it never falls back as the days go on, it is right
everywhere if it is right on the first and on the last day of each year.

* `yearOfEra_spec`: the year of a day lies where it starts.
* `dayNumber_dateOf`: the date of a day has the number of that day.
* **`nanos_ofNanos`**, **`parse?_ofNanos`**: a moment and its text say the count of nanoseconds it was made from.
-/

namespace ScriptSplit.Moment

/-! ## Years of an era -/

/-- The year of a day of an era. -/
def yearOfEra (day : Nat) : Nat := (day - day / 1460 + day / 36524 - day / 146096) / 365

/-- The day on which a year of an era starts; after the last year comes the day after the era. -/
def yearStart (year : Nat) : Nat := if year = 400 then 146097 else 365 * year + year / 4 - year / 100

theorem yearOfEra_mono : Monotone yearOfEra := by
  have hmono : Monotone fun d : Nat => d - d / 1460 + d / 36524 - d / 146096 :=
    monotone_nat_of_le_succ fun d => by omega
  exact fun a b h => Nat.div_le_div_right (hmono h)

theorem yearOfEra_bounds : ∀ y < 400, yearOfEra (yearStart y) = y ∧ yearOfEra (yearStart (y + 1) - 1) = y := by
  decide +kernel

theorem exists_year {d : Nat} (hd : d < 146097) : ∃ y < 400, yearStart y ≤ d ∧ d < yearStart (y + 1) := by
  have hbelow : ∀ n ≤ 400, d < yearStart n → ∃ y < n, yearStart y ≤ d ∧ d < yearStart (y + 1) := by
    intro n
    induction n with
    | zero =>
      intro _ h
      simp [yearStart] at h
    | succ n ih =>
      intro hn h
      by_cases hlt : d < yearStart n
      · obtain ⟨y, hy, hyear⟩ := ih (by omega) hlt
        exact ⟨y, by omega, hyear⟩
      · exact ⟨n, by omega, by omega, h⟩
  exact hbelow 400 le_rfl hd

/-- **The year of a day** of an era is the one in which it lies. -/
theorem yearOfEra_spec {d : Nat} (hd : d < 146097) :
    yearOfEra d < 400 ∧ yearStart (yearOfEra d) ≤ d ∧ d < yearStart (yearOfEra d + 1) := by
  obtain ⟨y, hy, hle, hlt⟩ := exists_year hd
  obtain ⟨hfirst, hlast⟩ := yearOfEra_bounds y hy
  have hge := yearOfEra_mono hle
  have hnot := yearOfEra_mono (show d ≤ yearStart (y + 1) - 1 by omega)
  obtain rfl : yearOfEra d = y := by omega
  exact ⟨hy, hle, hlt⟩

/-! ## Dates -/

/-- The days of the years of four digits. -/
def InYears (days : Int) : Prop := -719528 ≤ days ∧ days < 2932897

/-- The day of a year of an era, and how many there are. -/
theorem dayOfYear_spec {d : Nat} (hd : d < 146097) : ∃ year day : Nat, yearOfEra d = year ∧ year < 400 ∧ day ≤ 365 ∧
    d = 365 * year + year / 4 - year / 100 + day ∧
    (day = 365 → (year + 1) % 4 = 0 ∧ ((year + 1) % 100 ≠ 0 ∨ (year + 1) % 400 = 0)) := by
  obtain ⟨hyear, hstart, hend⟩ := yearOfEra_spec hd
  refine ⟨yearOfEra d, d - yearStart (yearOfEra d), rfl, hyear, ?_⟩
  generalize yearOfEra d = year at hyear hstart hend
  have hfour : (year + 1) / 4 ≤ year / 4 + 1 := by omega
  have hhundred : year / 100 ≤ (year + 1) / 100 := Nat.div_le_div_right (Nat.le_succ year)
  unfold yearStart at *
  split_ifs at * <;> omega

/-- Each month of a year that starts in March has its days. -/
theorem month_spec {day shifted year month : Nat} (hday : day ≤ 365) (hshifted : (5 * day + 2) / 153 = shifted)
    (hmonth : (if shifted < 10 then shifted + 3 else shifted - 9) = month)
    (leap : day = 365 → (year + 1) % 4 = 0 ∧ ((year + 1) % 100 ≠ 0 ∨ (year + 1) % 400 = 0)) :
    shifted ≤ 11 ∧ (153 * shifted + 2) / 5 ≤ day ∧
      day - (153 * shifted + 2) / 5 + 1 ≤ daysIn (if month ≤ 2 then year + 1 else year) month := by
  have hle : shifted ≤ 11 := by omega
  refine ⟨hle, by omega, ?_⟩
  subst hmonth
  unfold daysIn
  by_cases hlast : shifted = 11
  · -- February has a day more before a March that starts a leap year
    subst hlast
    simp only [Nat.reduceLT, if_false, Nat.reduceSub, Nat.reduceLeDiff, if_true]
    split_ifs with hleap <;> simp at hleap <;> omega
  · interval_cases shifted
    all_goals simp at hlast ⊢
    all_goals omega

/-- The days of a month depend on the year of the era alone. -/
theorem daysIn_congr {a b : Nat} (h : a % 400 = b % 400) (month : Nat) : daysIn a month = daysIn b month := by
  have hfour : a % 4 = b % 4 := by omega
  have hhundred : a % 100 = b % 100 := by omega
  unfold daysIn
  rw [h, hfour, hhundred]

/-- **The date of a day** lies in the calendar and has the number of the day. -/
theorem dateOf_spec {days : Int} (h : InYears days) {year month day : Nat} (hdate : dateOf days = (year, month, day)) :
    year ≤ 9999 ∧ (1 ≤ month ∧ month ≤ 12) ∧ (1 ≤ day ∧ day ≤ daysIn year month) ∧
      dayNumber year month day = days := by
  obtain ⟨hfirst, hlast⟩ := h
  have hera : ∃ d : Nat, d < 146097 ∧ days + 719468 = Int.fdiv (days + 719468) 146097 * 146097 + d := by
    refine ⟨(Int.fmod (days + 719468) 146097).toNat, ?_, ?_⟩
    · have := Int.fmod_lt_of_pos (days + 719468) (show (0 : Int) < 146097 by decide)
      omega
    · have := Int.fmod_nonneg_of_pos (days + 719468) (show (0 : Int) < 146097 by decide)
      have := Int.fmod_add_mul_fdiv (days + 719468) 146097
      omega
  obtain ⟨d, hd, hdays⟩ := hera
  obtain ⟨y, dayOfYear, hy, hlt, hle, hparts, leap⟩ := dayOfYear_spec hd
  simp only [dateOf] at hdate
  generalize Int.fdiv (days + 719468) 146097 = era at hdays hdate
  have hday : (days + 719468 - era * 146097).toNat = d := by omega
  have hrest : d - (365 * y + y / 4 - y / 100) = dayOfYear := by omega
  rw [hday, show (d - d / 1460 + d / 36524 - d / 146096) / 365 = y from hy, hrest, Prod.mk.injEq, Prod.mk.injEq] at hdate
  obtain ⟨hyear, hmonth, hdayOfMonth⟩ := hdate
  obtain ⟨hshifted, hstart, hdaysIn⟩ := month_spec hle rfl hmonth leap
  generalize hmarch : (5 * dayOfYear + 2) / 153 = shifted at *
  rw [hmonth] at hyear
  have hmonths : 1 ≤ month ∧ month ≤ 12 ∧ (month + 9) % 12 = shifted := by
    split_ifs at hmonth <;> omega
  -- the first year starts in the January before the first March, and the last one ends before the last
  have hlow : -1 ≤ era ∧ (era = -1 → y = 399 ∧ 306 ≤ dayOfYear) := ⟨by omega, by rintro rfl; omega⟩
  have hhigh : era ≤ 24 ∧ (era = 24 → y = 399 → dayOfYear < 306) := ⟨by omega, by rintro rfl rfl; omega⟩
  have hjanuary : month ≤ 2 ↔ 306 ≤ dayOfYear := by
    split_ifs at hmonth <;> omega
  have hsum : (year : Int) = era * 400 + y + (if month ≤ 2 then 1 else 0) := by
    clear hdays hparts hrest hday hmonth
    rw [← hyear]
    split_ifs <;> omega
  have hbefore : (if month ≤ 2 then (year : Int) - 1 else year) = era * 400 + y := by
    split_ifs at hsum ⊢ <;> omega
  have hfour : Int.fdiv (y : Int) 4 = (y / 4 : Nat) := by simp [Int.fdiv_eq_ediv_of_nonneg]
  have hhundred : Int.fdiv (y : Int) 100 = (y / 100 : Nat) := by simp [Int.fdiv_eq_ediv_of_nonneg]
  have hera : Int.fdiv (era * 400 + y) 400 = era := by
    rw [Int.fdiv_eq_ediv_of_nonneg _ (by decide)]
    omega
  refine ⟨?_, ⟨hmonths.1, hmonths.2.1⟩, ⟨by omega, ?_⟩, ?_⟩
  · clear hdays hparts hrest hday hmonth
    split_ifs at hsum <;> omega
  · have hcongr : daysIn year month = daysIn (if month ≤ 2 then y + 1 else y) month := by
      refine daysIn_congr ?_ month
      split_ifs at hsum ⊢ <;> omega
    rw [hcongr]
    omega
  · unfold dayNumber
    simp only [hbefore, hera, hmonths.2.2]
    rw [show era * 400 + (y : Int) - era * 400 = y by omega, hfour, hhundred]
    -- the number of the day adds up from the era, the year and the month
    clear leap hlow hhigh hjanuary hsum hbefore hmonths hmonth hera hmarch hdaysIn hfour hhundred hyear hday
    omega

/-! ## Moments -/

/-- The parts of a count of nanoseconds. -/
theorem ofNanos_spec {n : Int} (h : inYears n = true) :
    (ofNanos n).IsCalendar ∧ (ofNanos n).year ≤ 9999 ∧ (ofNanos n).offset = 0 ∧ (ofNanos n).nanos = n := by
  simp only [inYears, Bool.and_eq_true, decide_eq_true_eq] at h
  have hnanos : 0 ≤ n - Int.fdiv n 1000000000 * 1000000000 ∧ n - Int.fdiv n 1000000000 * 1000000000 < 1000000000 := by
    rw [Int.fdiv_eq_ediv_of_nonneg _ (by decide)]
    omega
  unfold ofNanos
  generalize Int.fdiv n 1000000000 = seconds at hnanos ⊢
  have hseconds : 0 ≤ seconds - Int.fdiv seconds 86400 * 86400 ∧ seconds - Int.fdiv seconds 86400 * 86400 < 86400 := by
    rw [Int.fdiv_eq_ediv_of_nonneg _ (by decide)]
    omega
  simp only []
  generalize Int.fdiv seconds 86400 = days at hseconds ⊢
  obtain ⟨year, month, day, hdate⟩ : ∃ year month day, dateOf days = (year, month, day) := ⟨_, _, _, rfl⟩
  obtain ⟨hyear, hmonth, hday, hnumber⟩ := dateOf_spec (show InYears days by unfold InYears; omega) hdate
  rw [hdate]
  refine ⟨⟨hmonth, hday, ?_, ?_, ?_, ?_⟩, hyear, trivial, ?_⟩
  · change (seconds - days * 86400).toNat / 3600 < 24
    omega
  · exact Nat.mod_lt _ (by decide)
  · exact Nat.mod_lt _ (by decide)
  · change (n - seconds * 1000000000).toNat < 10 ^ 9
    omega
  · simp only [nanos, hnumber]
    omega

/-- **A moment** says the count of nanoseconds it was made from. -/
theorem nanos_ofNanos {n : Int} (h : inYears n = true) : (ofNanos n).nanos = n := (ofNanos_spec h).2.2.2

/-- **The text of a moment** of a year of four digits is read back. -/
theorem parse?_ofNanos {n : Int} (h : inYears n = true) : parse? (ofNanos n).text = some (ofNanos n) := by
  obtain ⟨hcalendar, hyear, hoffset, -⟩ := ofNanos_spec h
  refine parse?_text hcalendar ?_
  rw [fault?, if_neg (by omega), if_neg (by rw [hoffset]; decide)]

end ScriptSplit.Moment
