import Mathlib
import ScriptSplit.Proofs.Script.Body

/-!
# The matches of a pattern in a text

A scan takes the leftmost match of a pattern, then the leftmost one at or after its end, and so on. This
is said here of places in the text, without the walk that finds them.

* `Pattern.at?`, `Match`: what a pattern gives at a place, and how far its match goes.
* `Scan`: a list of matches that such a scan takes; **`occurrences_scan`**: the matches that are listed.
* `Scan.exists_match`, `Scan.ordered`, `Scan.covers`: where the matches are that a scan takes.
-/

namespace ScriptSplit.Script

variable {α : Type} {p : Pattern α} {t : Bytes} {start stop i : Nat} {a : α} {found : List (Nat × α)}

/-- What a pattern gives at a place of a text. -/
def Pattern.at? (p : Pattern α) (t : Bytes) (i : Nat) : Option (α × Bytes) :=
  p (t.take i).getLast? (t.drop i)

/-- A match takes a front part off a text, which is not empty. -/
def Pattern.Takes (p : Pattern α) : Prop :=
  ∀ before t a rest, p before t = some (a, rest) → rest <:+ t ∧ rest.length < t.length

/-- A match of the pattern that starts at `start` and goes up to `stop`. -/
structure Match (p : Pattern α) (t : Bytes) (start : Nat) (a : α) (stop : Nat) : Prop where
  at_start : p.at? t start = some (a, t.drop stop)
  lt : start < stop
  le : stop ≤ t.length

/-- The matches of a scan that begins at `start`: each is the leftmost one at or after the end of the match
before it. -/
inductive Scan (p : Pattern α) (t : Bytes) : (start : Nat) → List (Nat × α) → Prop
  | done {start : Nat} (none : ∀ k, start ≤ k → p.at? t k = none) : Scan p t start []
  | next {start i stop : Nat} {a : α} {found : List (Nat × α)} (le : start ≤ i)
      (first : ∀ k, start ≤ k → k < i → p.at? t k = none) (here : Match p t i a stop)
      (onward : Scan p t stop found) : Scan p t start ((i, a) :: found)

/-! ## The matches that are listed -/

theorem Pattern.Takes.at?_of_length_le (hp : p.Takes) (h : t.length ≤ i) : p.at? t i = none := by
  rw [Pattern.at?, List.drop_of_length_le h, Option.eq_none_iff_forall_ne_some]
  intro m hm
  have := (hp _ _ _ _ hm).2
  simp at this

theorem Pattern.Takes.match_of_at? (hp : p.Takes) {rest : Bytes} (h : p.at? t i = some (a, rest)) :
    Match p t i a (t.length - rest.length) := by
  obtain ⟨hsuffix, hlt⟩ := hp _ _ _ _ h
  rw [List.length_drop] at hlt
  refine ⟨?_, by omega, Nat.sub_le _ _⟩
  rw [h, ← List.suffix_iff_eq_drop.mp (hsuffix.trans (List.drop_suffix i t))]

/-- A scan may begin earlier where there is no match. -/
theorem Scan.earlier (h : Scan p t (start + 1) found) (hnone : p.at? t start = none) : Scan p t start found := by
  have hfirst : ∀ k, start ≤ k → start + 1 ≤ k ∨ k = start := by omega
  cases h with
  | done none =>
    refine .done fun k hk => ?_
    rcases hfirst k hk with hlater | rfl
    · exact none k hlater
    · exact hnone
  | next le first here onward =>
    refine .next (Nat.le_of_succ_le le) (fun k hk hki => ?_) here onward
    rcases hfirst k hk with hlater | rfl
    · exact first k hlater hki
    · exact hnone

/-- The byte to the left of the next place. -/
theorem getLast?_take_succ {b : UInt8} {r : Bytes} (h : t.drop i = b :: r) :
    (t.take (i + 1)).getLast? = some b := by
  have hb : t[i]? = some b := by rw [← List.head?_drop, h, List.head?_cons]
  rw [List.take_add_one, hb, Option.toList_some, List.getLast?_concat]

theorem getLast?_take (hi : 0 < i) (hle : i ≤ t.length) : (t.take i).getLast? = t[i - 1]? := by
  rw [List.getLast?_take, if_neg (by omega), List.getElem?_eq_getElem (by omega)]
  rfl

/-- **The matches that are listed** are those of a scan. -/
theorem occurrencesFrom_scan (hp : p.Takes) (r : Bytes) (skip : Nat) (h : t.drop i = r) :
    Scan p t (i + skip) (occurrencesFrom p (t.take i).getLast? skip i r) := by
  induction r generalizing i skip with
  | nil =>
    rw [occurrencesFrom]
    refine .done fun k hk => hp.at?_of_length_le ?_
    exact (List.drop_eq_nil_iff.mp h).trans ((Nat.le_add_right i skip).trans hk)
  | cons b r ih =>
    have hrest : t.drop (i + 1) = r := by
      rw [← List.drop_drop, h]
      rfl
    have hbefore := getLast?_take_succ h
    cases skip with
    | succ skip =>
      rw [occurrencesFrom, ← hbefore, show i + (skip + 1) = i + 1 + skip by omega]
      exact ih skip hrest
    | zero =>
      rw [occurrencesFrom]
      have hat : p.at? t i = p (t.take i).getLast? (b :: r) := by rw [Pattern.at?, h]
      split
      · next a rest hmatch =>
        have hhere := hp.match_of_at? (hat.trans hmatch)
        have hlength := congrArg List.length h
        rw [List.length_drop, List.length_cons] at hlength
        obtain ⟨-, hlt⟩ := hp _ _ _ _ hmatch
        rw [List.length_cons] at hlt
        refine .next le_rfl (fun k hk hki => absurd hki (Nat.not_lt.mpr hk)) hhere ?_
        rw [← hbefore, show t.length - rest.length = i + 1 + (r.length - rest.length) by omega]
        exact ih _ hrest
      · next hnone =>
        rw [← hbefore]
        exact (ih 0 hrest).earlier (hat.trans hnone)

theorem occurrences_scan (hp : p.Takes) (t : Bytes) : Scan p t 0 (occurrences p t) :=
  occurrencesFrom_scan hp t 0 rfl

/-! ## Where the matches are -/

namespace Scan

theorem exists_match (h : Scan p t start found) {m : Nat × α} (hm : m ∈ found) :
    start ≤ m.1 ∧ ∃ stop, Match p t m.1 m.2 stop := by
  induction h with
  | done => exact absurd hm List.not_mem_nil
  | next le first here onward ih =>
    obtain rfl | hm := List.mem_cons.mp hm
    · exact ⟨le, _, here⟩
    · obtain ⟨hle, hmatch⟩ := ih hm
      exact ⟨le.trans (here.lt.le.trans hle), hmatch⟩

/-- Each match ends before the next one starts. -/
theorem ordered (h : Scan p t start found) :
    found.Pairwise fun m m' => ∃ stop, Match p t m.1 m.2 stop ∧ stop ≤ m'.1 := by
  induction h with
  | done => exact .nil
  | next le first here onward ih =>
    exact List.pairwise_cons.mpr ⟨fun m hm => ⟨_, here, (onward.exists_match hm).1⟩, ih⟩

/-- **No match is lost**: it is one of those that a scan takes, or starts inside one of them. -/
theorem covers (h : Scan p t start found) (hle : start ≤ i) (hat : (p.at? t i).isSome) :
    ∃ m ∈ found, ∃ stop, Match p t m.1 m.2 stop ∧ m.1 ≤ i ∧ i < stop := by
  induction h with
  | done none =>
    rw [none i hle] at hat
    cases hat
  | @next start j stop a found le first here onward ih =>
    have hji : j ≤ i := by
      by_contra hlt
      rw [first i hle (by omega)] at hat
      cases hat
    by_cases hstop : i < stop
    · exact ⟨_, List.mem_cons_self, stop, here, hji, hstop⟩
    · obtain ⟨m, hm, hcover⟩ := ih (Nat.not_lt.mp hstop)
      exact ⟨m, List.mem_cons_of_mem _ hm, hcover⟩

/-- A match that a scan takes starts where the scan began, or where a match ended, or next to a place where
there is no match. -/
theorem start_cases (h : Scan p t start found) {m : Nat × α} (hm : m ∈ found) :
    m.1 = start ∨ (∃ i a, Match p t i a m.1) ∨ 0 < m.1 ∧ p.at? t (m.1 - 1) = none := by
  induction h with
  | done => exact absurd hm List.not_mem_nil
  | @next start i stop a found le first here onward ih =>
    obtain rfl | hm := List.mem_cons.mp hm
    · obtain rfl | hlt := le.eq_or_lt
      · exact .inl rfl
      · exact .inr (.inr ⟨by dsimp only; omega, first _ (Nat.le_sub_one_of_lt hlt) (Nat.sub_lt (by omega) one_pos)⟩)
    · obtain heq | hother := ih hm
      · exact .inr (.inl ⟨i, a, heq ▸ here⟩)
      · exact .inr hother

end Scan

end ScriptSplit.Script
