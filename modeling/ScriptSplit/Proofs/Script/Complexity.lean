import Mathlib
import ScriptSplit.Proofs.Script.Header
import ScriptSplit.Script.Complexity

/-!
# Complexity adds up over statements

Statements that stand on lines of their own do not touch each other: no token reaches over the semicolon
between them, and no question mark finds its colon behind the newline. So each token of the whole is one of
a statement.

* `separator`: what stands between two statements.
* `Pattern.Confined`: a pattern whose matches do not reach over a separator, and **`length_occurrences_append`**:
  its matches in both parts are counted.
* `confined_pattern`: the branching tokens are such patterns; `ternariesFrom_append`: the ternary operators.
* `branches`: the tokens that a score counts.
* **`complexity_statements`**: the score of two statements.
-/

namespace ScriptSplit.Script

variable {α : Type} {p : Pattern α} {t r w x y z : Bytes} {b c : UInt8}

/-- The semicolon ends a statement. -/
def semicolon : UInt8 := 0x3b

/-- A semicolon and a newline stand between two statements. -/
def separator : Bytes := [semicolon, newlineByte]

theorem nil_separator_append (y : Bytes) : [] ++ separator ++ y = semicolon :: newlineByte :: y := rfl

/-! ## Readers in front of a byte that stops them -/

theorem after?_append_cons (hc : c ∉ w) : Bytes.after? w (x ++ c :: z) = (Bytes.after? w x).map (· ++ c :: z) := by
  induction w generalizing x with
  | nil => rfl
  | cons a w ih =>
    rw [List.mem_cons, not_or] at hc
    obtain ⟨hne, hc⟩ := hc
    cases x with
    | nil => simp [Bytes.after?, Ne.symm hne]
    | cons b x =>
      rw [List.cons_append, Bytes.after?, Bytes.after?, ih hc]
      split_ifs <;> rfl

theorem byte?_append_cons (hc : c ≠ b) : byte? b (x ++ c :: z) = (byte? b x).map (· ++ c :: z) := by
  cases x with
  | nil => simp [byte?, hc]
  | cons a x =>
    rw [List.cons_append, byte?, byte?]
    split_ifs <;> rfl

theorem blanks_append_cons (hc : isBlankByte c = false) : blanks (x ++ c :: z) = blanks x ++ c :: z := by
  unfold blanks
  rw [List.dropWhile_append]
  split_ifs with hnil
  · rw [List.isEmpty_iff.mp hnil, List.dropWhile_cons_of_neg (by simp [hc])]
    rfl
  · rfl

theorem blanks1_append_cons (hc : isBlankByte c = false) :
    blanks1 (x ++ c :: z) = (blanks1 x).map (· ++ c :: z) := by
  cases x with
  | nil => simp [blanks1, hc]
  | cons a x =>
    rw [List.cons_append, blanks1, blanks1, blanks_append_cons hc]
    split_ifs <;> rfl

theorem any_head?_append_cons (hc : isWordByte c = false) :
    (x ++ c :: z).head?.any isWordByte = x.head?.any isWordByte := by
  cases x with
  | nil => simp [hc]
  | cons a x => rfl

/-! ## Patterns that stay within a statement -/

/-- In front of a semicolon a pattern gives what it gives at the end of a text, its matches start with a word
byte, and a newline before it is like the beginning of a text. -/
structure Pattern.Confined (p : Pattern α) : Prop where
  stops : ∀ before x z, x ≠ [] →
    p before (x ++ semicolon :: z) = (p before x).map fun m => (m.1, m.2 ++ semicolon :: z)
  starts : ∀ before b z, isWordByte b = false → p before (b :: z) = none
  fresh : ∀ z, p (some newlineByte) z = p none z

theorem length_occurrencesFrom_offset (p : Pattern α) (t : Bytes) (before : Option UInt8) (skip i j : Nat) :
    (occurrencesFrom p before skip i t).length = (occurrencesFrom p before skip j t).length := by
  induction t generalizing before skip i j with
  | nil => rfl
  | cons b t ih =>
    cases skip with
    | succ skip => exact ih _ _ _ _
    | zero =>
      rw [occurrencesFrom, occurrencesFrom]
      split
      · rw [List.length_cons, List.length_cons, ih _ _ (i + 1) (j + 1)]
      · exact ih _ _ _ _

theorem Pattern.Confined.fresh_occurrences (hp : p.Confined) (i : Nat) (y : Bytes) :
    (occurrencesFrom p (some newlineByte) 0 i y).length = (occurrences p y).length := by
  rw [occurrences, length_occurrencesFrom_offset p y _ 0 i 0]
  cases y with
  | nil => rfl
  | cons b y => rw [occurrencesFrom, occurrencesFrom, hp.fresh]

/-- A match that is under way ends before the separator, and behind it the scan begins anew. -/
theorem Pattern.Confined.length_occurrencesFrom (hp : p.Confined) (x y : Bytes) (before : Option UInt8)
    {skip : Nat} (i : Nat) (hskip : skip ≤ x.length) :
    (occurrencesFrom p before skip i (x ++ separator ++ y)).length =
      (occurrencesFrom p before skip i x).length + (occurrences p y).length := by
  induction x generalizing before skip i with
  | nil =>
    obtain rfl : skip = 0 := Nat.le_zero.mp hskip
    have hsemicolon := hp.starts before semicolon (newlineByte :: y) (by decide)
    have hnewline := hp.starts (some semicolon) newlineByte y (by decide)
    rw [nil_separator_append]
    simp only [occurrencesFrom, hsemicolon, hnewline, hp.fresh_occurrences, List.length_nil, Nat.zero_add]
  | cons b x ih =>
    cases skip with
    | succ skip => exact ih _ _ (Nat.le_of_succ_le_succ hskip)
    | zero =>
      have hstops := hp.stops before (b :: x) (newlineByte :: y) (List.cons_ne_nil b x)
      have htext : b :: x ++ separator ++ y = b :: (x ++ separator ++ y) := rfl
      have hrest : b :: x ++ semicolon :: newlineByte :: y = b :: (x ++ separator ++ y) := by simp [separator]
      rw [hrest] at hstops
      rw [htext, occurrencesFrom, occurrencesFrom, hstops]
      cases p before (b :: x) with
      | none => exact ih _ _ (Nat.zero_le _)
      | some m =>
        obtain ⟨a, rest⟩ := m
        have hlength : (x ++ separator ++ y).length - (rest ++ semicolon :: newlineByte :: y).length =
            x.length - rest.length := by
          simp only [separator, List.length_append, List.length_cons, List.length_nil]
          omega
        simp only [Option.map_some, List.length_cons, hlength]
        rw [ih _ _ (Nat.sub_le _ _)]
        omega

/-- **The matches in two statements** are those of the one and of the other. -/
theorem length_occurrences_append (hp : p.Confined) (x y : Bytes) :
    (occurrences p (x ++ separator ++ y)).length = (occurrences p x).length + (occurrences p y).length :=
  hp.length_occurrencesFrom x y none 0 (Nat.zero_le _)

/-! ## Tokens and ternary operators -/

/-- A token is a word, and no semicolon ends it. -/
structure BranchToken.Plain (k : BranchToken) : Prop where
  word : IsWord (Bytes.ofString k.word)
  ending : ∀ b, k.ending = .byte b → semicolon ≠ b

theorem plain_of_mem_branchTokens {k : BranchToken} (h : k ∈ branchTokens) : k.Plain := by
  simp only [branchTokens, List.mem_cons, List.not_mem_nil, or_false] at h
  rcases h with rfl | rfl | rfl | rfl | rfl | rfl | rfl | rfl | rfl
  all_goals
    refine ⟨⟨by decide, by decide +kernel⟩, fun b hb => ?_⟩
    cases hb <;> decide

/-- A word does not start where there is no word byte. -/
theorem keyword?_cons_of_not_word {k : String} (hk : IsWord (Bytes.ofString k)) (hb : isWordByte b = false) :
    keyword? k (b :: z) = none := by
  rw [Option.eq_none_iff_forall_ne_some]
  intro r hr
  obtain ⟨a, w, hw⟩ := List.exists_cons_of_ne_nil hk.1
  have ht := keyword?_eq_some_iff.mp hr
  rw [hw, List.cons_append] at ht
  have ha := hk.2 a (by rw [hw]; exact List.mem_cons_self)
  rw [← (List.cons.inj ht).1, hb] at ha
  cases ha

/-- **The branching tokens do not reach over a separator.** -/
theorem confined_pattern {k : BranchToken} (hk : k.Plain) : k.pattern.Confined where
  stops := by
    intro before x z hx
    have hword : semicolon ∉ Bytes.ofString k.word := fun hmem => by
      have := hk.word.2 _ hmem
      revert this
      decide
    have hboundary : atBoundary before (x ++ semicolon :: z) = atBoundary before x := by
      cases x with
      | nil => exact absurd rfl hx
      | cons b x => rfl
    unfold BranchToken.pattern keyword?
    rw [hboundary, after?_append_cons hword]
    split_ifs
    · cases Bytes.after? (Bytes.ofString k.word) x with
      | none => rfl
      | some r =>
        simp only [Option.map_some, Option.bind_eq_bind, Option.bind_some]
        cases hending : k.ending with
        | byte b =>
          dsimp only
          rw [blanks_append_cons (by decide), byte?_append_cons (hk.ending b hending), Option.map_map, Option.map_map]
          rfl
        | blank =>
          dsimp only
          rw [blanks1_append_cons (by decide), Option.map_map, Option.map_map]
          rfl
        | boundary =>
          dsimp only
          rw [any_head?_append_cons (by decide)]
          split_ifs <;> rfl
    · rfl
  starts := by
    intro before b z hb
    unfold BranchToken.pattern
    rw [keyword?_cons_of_not_word hk.word hb]
    split_ifs <;> rfl
  fresh _ := rfl

theorem colonOnLine_append (x y : Bytes) : colonOnLine (x ++ separator ++ y) = colonOnLine x := by
  have hseparator : (separator ++ y).takeWhile (· != newlineByte) = [semicolon] := rfl
  have hcolon : (0x3a : UInt8) ≠ semicolon := by decide
  unfold colonOnLine
  rw [List.append_assoc, List.takeWhile_append]
  split_ifs with hall
  · rw [hseparator, (List.takeWhile_prefix _).eq_of_length hall]
    simp [hcolon]
  · rfl

theorem ternariesFrom_newline (y : Bytes) : ternariesFrom (some newlineByte) y = ternariesFrom none y := by
  cases y with
  | nil => rfl
  | cons b y => rfl

/-- **The ternary operators of two statements** are those of the one and of the other. -/
theorem ternariesFrom_append (x y : Bytes) (before : Option UInt8) :
    ternariesFrom before (x ++ separator ++ y) = ternariesFrom before x + ternaries y := by
  induction x generalizing before with
  | nil =>
    have hsemicolon : (semicolon == questionMark) = false := rfl
    have hnewline : (newlineByte == questionMark) = false := rfl
    rw [nil_separator_append]
    simp only [ternariesFrom, ternariesFrom_newline, hsemicolon, hnewline, Bool.false_and, Bool.false_eq_true,
      if_false, Nat.zero_add]
    rfl
  | cons b x ih =>
    have hhead : ∀ c : UInt8, c ≠ semicolon → ((x ++ separator ++ y).head? == some c) = (x.head? == some c) := by
      intro c hc
      cases x with
      | nil => simp [separator, hc.symm]
      | cons a x => rfl
    rw [show b :: x ++ separator ++ y = b :: (x ++ separator ++ y) from rfl, ternariesFrom, ternariesFrom, ih,
      hhead _ (by decide), hhead _ (by decide), colonOnLine_append, Nat.add_assoc]

/-! ## The score -/

/-- The branching tokens and the ternary operators of a body. -/
def branches (body : Bytes) : Nat :=
  (branchTokens.map fun k => (occurrences k.pattern body).length).sum + ternaries body

theorem complexity_eq (body : Bytes) : complexity body = 1 + branches body := by
  rw [complexity, branches, List.sum_eq_foldr, List.foldr_map, Nat.add_assoc]

theorem branches_append (x y : Bytes) : branches (x ++ separator ++ y) = branches x + branches y := by
  have htokens : (branchTokens.map fun k => (occurrences k.pattern (x ++ separator ++ y)).length) =
      branchTokens.map fun k => (occurrences k.pattern x).length + (occurrences k.pattern y).length :=
    List.map_congr_left fun k hk => length_occurrences_append (confined_pattern (plain_of_mem_branchTokens hk)) x y
  have hternaries : ternaries (x ++ separator ++ y) = ternaries x + ternaries y := ternariesFrom_append x y none
  rw [branches, htokens, List.sum_map_add, hternaries, branches, branches]
  omega

/-- A statement that begins as a conditional has a branching token. -/
theorem branches_conditional_pos {s : Bytes} (hs : IsBlank s) (r : Bytes) :
    0 < branches (Bytes.ofString "if" ++ (s ++ openParen :: r)) := by
  set body := Bytes.ofString "if" ++ (s ++ openParen :: r) with hbody
  have hmatch : BranchToken.pattern ⟨"if", .byte openParen⟩ none body = some ((), r) := by
    have hboundary : atBoundary none body = true :=
      atBoundary_of_word nofun ⟨by decide, by decide +kernel⟩
    have hopens : byte? openParen (blanks (s ++ openParen :: r)) = some r :=
      (byte?_blanks_iff (by decide)).mpr ⟨s, hs, rfl⟩
    unfold BranchToken.pattern
    rw [if_pos hboundary, keyword?_eq_some_iff.mpr hbody]
    simp [hopens]
  have hlength : 0 < (occurrences (BranchToken.pattern ⟨"if", .byte openParen⟩) body).length := by
    have hcons : body = 0x69 :: 0x66 :: (s ++ openParen :: r) := rfl
    rw [hcons] at hmatch ⊢
    rw [occurrences, occurrencesFrom, hmatch]
    exact Nat.succ_pos _
  unfold branches
  rw [branchTokens, List.map_cons, List.sum_cons]
  omega

/-- **Complexity adds up over statements** on separate lines. A statement that is put between two others
raises the score by the number of its own tokens, which for a conditional is not zero, and no score is less
than one. -/
theorem complexity_statements (a b : Bytes) :
    complexity (a ++ separator ++ b) + 1 = complexity a + complexity b ∧
    (∀ s, complexity (a ++ separator ++ s ++ separator ++ b) = complexity (a ++ separator ++ b) + branches s) ∧
    (∀ s r, IsBlank s → 0 < branches (Bytes.ofString "if" ++ (s ++ openParen :: r))) ∧
    1 ≤ complexity a := by
  refine ⟨?_, fun s => ?_, fun s r hs => branches_conditional_pos hs r, ?_⟩
  · rw [complexity_eq, complexity_eq, complexity_eq, branches_append]
    omega
  · rw [complexity_eq, complexity_eq, branches_append, branches_append, branches_append]
    omega
  · rw [complexity_eq]
    omega

/-- What ends one statement and begins the next would make a token, a ternary operator and a longer one. -/
example : complexity (Bytes.ofString "x ? case;\n : if\n(y) ? 1 : 2") = 3 ∧
    branches (Bytes.ofString "if (x ?? y) { throw e } else z?.f ? 1 : 0") = 4 := by decide

end ScriptSplit.Script
