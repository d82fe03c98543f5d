import Mathlib
import ScriptSplit.Text.Dict

/-!
# Sorted lists and dictionaries

What sorting and dictionaries keep of the lists that they are made from.

* `sortStrings`: a permutation in increasing order, which depends on the members alone.
* `sortedSet`: the members of a list, strictly increasing.
* **`Dict.perm_ofList`**: a dictionary of distinct keys holds exactly the given pairs, and
  `Dict.ofList_eq_self`: one that is in order already is left as it is.
* `Dict.lookup_put`, `Dict.lookup_erase`: what a change leaves to be found.
-/

namespace ScriptSplit

/-! ## Sorting -/

theorem sortStrings_perm (names : List String) : (sortStrings names).Perm names :=
  List.mergeSort_perm _ _

theorem mem_sortStrings {x : String} {names : List String} : x ∈ sortStrings names ↔ x ∈ names :=
  (sortStrings_perm names).mem_iff

theorem length_sortStrings (names : List String) : (sortStrings names).length = names.length :=
  (sortStrings_perm names).length_eq

theorem sortStrings_sorted (names : List String) : (sortStrings names).Pairwise (· ≤ ·) := by
  have h := @List.pairwise_mergeSort String (fun a b => decide (a ≤ b))
    (fun a b c hab hbc => by
      simp only [decide_eq_true_eq] at hab hbc ⊢
      exact String.le_trans hab hbc)
    (fun a b => by
      simp only [Bool.or_eq_true, decide_eq_true_eq]
      exact String.le_total a b) names
  exact h.imp fun hab => by simpa using hab

/-- **Sorting depends on the members alone.** -/
theorem sortStrings_eq_of_perm {names names' : List String} (h : names.Perm names') :
    sortStrings names = sortStrings names' := by
  refine List.Perm.eq_of_pairwise (fun a b _ _ hab hba => String.le_antisymm hab hba)
    (sortStrings_sorted names) (sortStrings_sorted names') ?_
  exact (sortStrings_perm names).trans (h.trans (sortStrings_perm names').symm)

/-- Distinct names are sorted strictly. -/
theorem sortStrings_strict {names : List String} (h : names.Nodup) :
    (sortStrings names).Pairwise (· < ·) := by
  have hd : (sortStrings names).Nodup := (sortStrings_perm names).nodup_iff.mpr h
  refine (List.Pairwise.and (sortStrings_sorted names) hd).imp fun {a b} hab => ?_
  exact String.not_le.mp fun hba => hab.2 (String.le_antisymm hab.1 hba)

theorem lt_of_append_lt {a b c : String} (h : a ++ b < a ++ c) : b < c := by
  by_contra hnot
  have hle : c ≤ b := String.not_lt.mp hnot
  by_cases heq : c = b
  · subst heq
    exact String.lt_irrefl _ h
  · have hlt : a.toList ++ c.toList < a.toList ++ b.toList :=
      List.append_left_lt (String.lt_iff_toList_lt.mp (lt_of_le_of_ne hle heq))
    rw [← String.toList_append, ← String.toList_append, ← String.lt_iff_toList_lt] at hlt
    exact String.lt_irrefl _ (String.lt_trans h hlt)

/-! ## Sets in order -/

theorem mem_insertSorted {x s : String} {names : List String} :
    x ∈ insertSorted s names ↔ x = s ∨ x ∈ names := by
  induction names with
  | nil => simp [insertSorted]
  | cons t rest ih =>
    simp only [insertSorted]
    split_ifs with hlt heq
    · simp
    · subst heq
      simp
    · simp only [List.mem_cons, ih]
      tauto

theorem insertSorted_strict (s : String) {names : List String} (h : names.Pairwise (· < ·)) :
    (insertSorted s names).Pairwise (· < ·) := by
  induction names with
  | nil => simp [insertSorted]
  | cons t rest ih =>
    obtain ⟨ht, hrest⟩ := List.pairwise_cons.mp h
    simp only [insertSorted]
    split_ifs with hlt heq
    · refine List.pairwise_cons.mpr ⟨fun u hu => ?_, h⟩
      rcases List.mem_cons.mp hu with rfl | hu
      · exact hlt
      · exact String.lt_trans hlt (ht u hu)
    · exact h
    · refine List.pairwise_cons.mpr ⟨fun u hu => ?_, ih hrest⟩
      rcases mem_insertSorted.mp hu with rfl | hu
      · exact lt_of_le_of_ne (String.not_lt.mp hlt) (Ne.symm heq)
      · exact ht u hu

theorem foldl_insertSorted (names acc : List String) (h : acc.Pairwise (· < ·)) :
    (names.foldl (fun acc s => insertSorted s acc) acc).Pairwise (· < ·) ∧
      ∀ x, x ∈ names.foldl (fun acc s => insertSorted s acc) acc ↔ x ∈ names ∨ x ∈ acc := by
  induction names generalizing acc with
  | nil => exact ⟨h, fun x => by simp⟩
  | cons s rest ih =>
    obtain ⟨h₁, h₂⟩ := ih (insertSorted s acc) (insertSorted_strict s h)
    refine ⟨h₁, fun x => ?_⟩
    rw [List.foldl_cons, h₂, mem_insertSorted, List.mem_cons]
    tauto

theorem mem_sortedSet {x : String} {names : List String} : x ∈ sortedSet names ↔ x ∈ names := by
  unfold sortedSet
  rw [(foldl_insertSorted names [] List.Pairwise.nil).2]
  simp

theorem sortedSet_strict (names : List String) : (sortedSet names).Pairwise (· < ·) :=
  (foldl_insertSorted names [] List.Pairwise.nil).1

/-! ## Dictionaries -/

namespace Dict

variable {α β : Type}

/-- The keys increase strictly. -/
def Ordered (d : Dict α) : Prop := d.keys.Pairwise (· < ·)

theorem mem_keys_put {x key : String} {value : α} {d : Dict α} :
    x ∈ (put key value d).keys ↔ x = key ∨ x ∈ d.keys := by
  induction d with
  | nil => simp [put, keys]
  | cons p rest ih =>
    obtain ⟨k, v⟩ := p
    simp only [keys] at ih
    simp only [put]
    split_ifs with hlt heq
    · simp [keys]
    · subst heq
      simp [keys]
    · simp only [keys, List.map_cons, List.mem_cons, ih]
      tauto

theorem Ordered.put {d : Dict α} (h : d.Ordered) (key : String) (value : α) :
    (put key value d).Ordered := by
  induction d with
  | nil => simp [Dict.put, Ordered, keys]
  | cons p rest ih =>
    obtain ⟨k, v⟩ := p
    obtain ⟨hk, hrest⟩ := List.pairwise_cons.mp h
    simp only [Dict.put]
    split_ifs with hlt heq
    · refine List.pairwise_cons.mpr ⟨fun u hu => ?_, h⟩
      rcases List.mem_cons.mp hu with rfl | hu
      · exact hlt
      · exact String.lt_trans hlt (hk u hu)
    · subst heq
      exact h
    · refine List.pairwise_cons.mpr ⟨fun u hu => ?_, ih hrest⟩
      rcases mem_keys_put.mp hu with rfl | hu
      · exact lt_of_le_of_ne (String.not_lt.mp hlt) (Ne.symm heq)
      · exact hk u hu

theorem mem_keys_foldl_put (pairs : List (String × α)) (d : Dict α) (x : String) :
    x ∈ (pairs.foldl (fun d p => put p.1 p.2 d) d).keys ↔ x ∈ pairs.map Prod.fst ∨ x ∈ d.keys := by
  induction pairs generalizing d with
  | nil => simp
  | cons p rest ih =>
    rw [List.foldl_cons, ih, mem_keys_put, List.map_cons, List.mem_cons]
    tauto

theorem mem_keys_ofList {x : String} {pairs : List (String × α)} :
    x ∈ (ofList pairs).keys ↔ x ∈ pairs.map Prod.fst := by
  unfold ofList
  rw [mem_keys_foldl_put]
  simp [keys]

theorem foldl_put_ordered (pairs : List (String × α)) (d : Dict α) (h : d.Ordered) :
    (pairs.foldl (fun d p => put p.1 p.2 d) d).Ordered := by
  induction pairs generalizing d with
  | nil => exact h
  | cons p rest ih => exact ih _ (h.put p.1 p.2)

theorem ofList_ordered (pairs : List (String × α)) : (ofList pairs).Ordered :=
  foldl_put_ordered pairs [] List.Pairwise.nil

/-- A dictionary holds values of its pairs only. -/
theorem mem_of_mem_put {key : String} {value : α} {d : Dict α} {p : String × α} (h : p ∈ put key value d) :
    p = (key, value) ∨ p ∈ d := by
  induction d with
  | nil => exact .inl (List.mem_singleton.mp h)
  | cons q rest ih =>
    obtain ⟨k, v⟩ := q
    rw [put] at h
    split_ifs at h
    · exact List.mem_cons.mp h
    · exact (List.mem_cons.mp h).imp_right (List.mem_cons_of_mem _)
    · rcases List.mem_cons.mp h with rfl | h
      · exact .inr List.mem_cons_self
      · exact (ih h).imp_right (List.mem_cons_of_mem _)

theorem mem_of_mem_foldl_put {pairs : List (String × α)} {d : Dict α} {p : String × α}
    (h : p ∈ pairs.foldl (fun d q => put q.1 q.2 d) d) : p ∈ pairs ∨ p ∈ d := by
  induction pairs generalizing d with
  | nil => exact .inr h
  | cons q rest ih =>
    rcases ih h with hp | hp
    · exact .inl (List.mem_cons_of_mem q hp)
    · rcases mem_of_mem_put hp with rfl | hp
      · exact .inl List.mem_cons_self
      · exact .inr hp

theorem mem_of_mem_ofList {pairs : List (String × α)} {p : String × α} (h : p ∈ ofList pairs) : p ∈ pairs :=
  (mem_of_mem_foldl_put h).elim id fun hnil => absurd hnil List.not_mem_nil

theorem Ordered.nodup {d : Dict α} (h : d.Ordered) : d.keys.Nodup := by
  refine List.Pairwise.imp (fun {a b} hab heq => ?_) h
  subst heq
  exact String.lt_irrefl a hab

/-- A new key joins the pairs that are there. -/
theorem perm_put {key : String} {value : α} {d : Dict α} (h : key ∉ d.keys) :
    (put key value d).Perm ((key, value) :: d) := by
  induction d with
  | nil => exact List.Perm.refl _
  | cons p rest ih =>
    obtain ⟨k, v⟩ := p
    simp only [keys, List.map_cons, List.mem_cons, not_or] at h
    simp only [put]
    rw [if_neg h.1]
    split_ifs with hlt
    · exact List.Perm.refl _
    · exact ((ih h.2).cons (k, v)).trans (List.Perm.swap _ _ _)

theorem perm_foldl_put (pairs : List (String × α)) (d : Dict α)
    (h : (pairs.map Prod.fst ++ d.keys).Nodup) :
    (pairs.foldl (fun d p => put p.1 p.2 d) d).Perm (pairs ++ d) := by
  induction pairs generalizing d with
  | nil => exact List.Perm.refl _
  | cons p rest ih =>
    rw [List.map_cons, List.cons_append, List.nodup_cons] at h
    have hp : (put p.1 p.2 d).Perm (p :: d) := perm_put fun hk => h.1 (List.mem_append_right _ hk)
    have hk : ((put p.1 p.2 d).keys).Perm (p.1 :: d.keys) := hp.map Prod.fst
    refine (ih _ ?_).trans ?_
    · refine ((hk.append_left _).trans List.perm_middle).nodup_iff.mpr ?_
      exact List.nodup_cons.mpr h
    · exact (hp.append_left rest).trans List.perm_middle

/-- **A dictionary of distinct keys holds exactly the given pairs.** -/
theorem perm_ofList {pairs : List (String × α)} (h : (pairs.map Prod.fst).Nodup) :
    (ofList pairs).Perm pairs := by
  have h' := perm_foldl_put pairs [] (by simpa [keys] using h)
  rwa [List.append_nil] at h'

/-- Pairs in order are their own dictionary. -/
theorem ofList_eq_self {d : Dict α} (h : d.Ordered) : ofList d = d := by
  have hs : ∀ l : Dict α, l.Ordered → l.Pairwise (fun p q => p.1 < q.1) :=
    fun l hl => List.pairwise_map.mp hl
  refine List.Perm.eq_of_pairwise (fun p q _ _ hpq hqp => ?_) (hs _ (ofList_ordered d)) (hs d h)
    (perm_ofList h.nodup)
  exact absurd (String.lt_trans hpq hqp) (String.lt_irrefl _)

/-! ## Look-ups -/

theorem lookup_cons_eq (x key : String) (value : α) (d : Dict α) :
    ((key, value) :: d).lookup x = if x = key then some value else d.lookup x := by
  by_cases h : x = key
  · rw [if_pos h, h, List.lookup_cons_self]
  · rw [if_neg h, List.lookup_cons, beq_eq_false_iff_ne.mpr h]

theorem lookup_put (x key : String) (value : α) (d : Dict α) :
    (put key value d).lookup x = if x = key then some value else d.lookup x := by
  induction d with
  | nil => exact lookup_cons_eq x key value []
  | cons p rest ih =>
    obtain ⟨k, v⟩ := p
    rw [put]
    by_cases hlt : key < k
    · rw [if_pos hlt]
      exact lookup_cons_eq x key value ((k, v) :: rest)
    rw [if_neg hlt]
    by_cases heq : key = k
    · rw [if_pos heq, lookup_cons_eq, lookup_cons_eq, heq]
      split_ifs <;> rfl
    · rw [if_neg heq, lookup_cons_eq, lookup_cons_eq, ih]
      split_ifs with hk hkey
      · exact absurd (hkey.symm.trans hk) heq
      all_goals rfl

theorem lookup_erase (x key : String) (d : Dict α) :
    (erase key d).lookup x = if x = key then none else d.lookup x := by
  induction d with
  | nil => exact (ite_self none).symm
  | cons p rest ih =>
    obtain ⟨k, v⟩ := p
    unfold erase at ih ⊢
    by_cases hk : k = key
    · rw [List.filter_cons_of_neg (by simp [hk]), ih, lookup_cons_eq, hk]
      split_ifs <;> rfl
    · rw [List.filter_cons_of_pos (by simp [hk]), lookup_cons_eq, ih, lookup_cons_eq]
      split_ifs with hx hkey
      · exact absurd (hx.symm.trans hkey) hk
      all_goals rfl

theorem mem_of_lookup {d : Dict α} {key : String} {value : α} (h : d.lookup key = some value) : (key, value) ∈ d := by
  obtain ⟨before, after, hsplit, -⟩ := List.lookup_eq_some_iff.mp h
  simp [hsplit]

theorem lookup_eq_some_iff_mem {d : Dict α} (h : (d.map Prod.fst).Nodup) {key : String} {value : α} :
    d.lookup key = some value ↔ (key, value) ∈ d := by
  induction d with
  | nil => simp
  | cons p rest ih =>
    obtain ⟨k, v⟩ := p
    rw [List.map_cons, List.nodup_cons] at h
    rw [lookup_cons_eq, List.mem_cons, Prod.mk.injEq]
    split_ifs with hkey
    · subst hkey
      have hnot : (key, value) ∉ rest := fun hmem => h.1 (List.mem_map.mpr ⟨(key, value), hmem, rfl⟩)
      simp [hnot, eq_comm]
    · simp [hkey, ih h.2]

/-- Looking a key up finds the pair of the key. -/
theorem Ordered.get?_eq_some_iff {d : Dict α} (h : d.Ordered) {key : String} {value : α} :
    d.get? key = some value ↔ (key, value) ∈ d :=
  lookup_eq_some_iff_mem h.nodup

theorem keys_map (f : α → β) (d : Dict α) : keys (d.map fun p => (p.1, f p.2)) = d.keys := by
  simp [keys]

theorem Ordered.map {d : Dict α} (h : d.Ordered) (f : α → β) : Ordered (d.map fun p => (p.1, f p.2)) := by
  unfold Ordered
  rw [keys_map]
  exact h

theorem get?_map (f : α → β) (d : Dict α) (key : String) :
    get? (d.map fun p => (p.1, f p.2)) key = (d.get? key).map f := by
  induction d with
  | nil => rfl
  | cons p rest ih =>
    simp only [get?] at ih ⊢
    rw [List.map_cons, lookup_cons_eq, lookup_cons_eq, ih, apply_ite (Option.map f)]
    rfl

end Dict

end ScriptSplit
