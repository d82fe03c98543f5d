import Mathlib
import ScriptSplit.Format.Toml.Reader
import ScriptSplit.Proofs.Format.Range

/-!
# The range of numbers in TOML

A scalar is a whole number only if it fits in 64 bits, and the operations on the tree of a document only move
its parts.

* `Toml.Tree.InRange`: all whole numbers in a part of a document lie within 64 bits.
* `Tree.InRange.put`, `Tree.InRange.grow?`, `Tree.InRange.assign?`: the operations at paths keep it.
* `Toml.inRange_step?`: a statement keeps it.
* **`Toml.inRange_read?`**: what a text says is in range.
-/

namespace ScriptSplit.Toml


namespace Tree

/-- What the part says is in range. -/
def InRange (t : Tree) : Prop := t.toDatum.InRange

theorem entriesToData_eq (entries : List (String × Tree)) :
    entriesToData entries = entries.map fun e => (e.1, e.2.toDatum) := by
  induction entries with
  | nil => rfl
  | cons e rest ih => rw [entriesToData, ih, List.map_cons]

theorem itemsToData_eq (items : List Tree) : itemsToData items = items.map toDatum := by
  induction items with
  | nil => rfl
  | cons t rest ih => rw [itemsToData, ih, List.map_cons]

theorem inRange_value {d : Datum} : (value d).InRange ↔ d.InRange := by rw [InRange, toDatum]

theorem inRange_table {closed : Bool} {entries : List (String × Tree)} :
    (table closed entries).InRange ↔ ∀ e ∈ entries, e.2.InRange := by
  rw [InRange, toDatum, Datum.inRange_table, entriesToData_eq, List.forall_mem_map]
  rfl

theorem inRange_tables {items : List Tree} : (tables items).InRange ↔ ∀ t ∈ items, t.InRange := by
  rw [InRange, toDatum, Datum.inRange_list, itemsToData_eq, List.forall_mem_map]
  rfl

theorem inRange_empty : empty.InRange := inRange_table.mpr (by simp)

theorem InRange.lookup {closed : Bool} {entries : List (String × Tree)} (h : (table closed entries).InRange)
    {key : String} {t : Tree} (ht : entries.lookup key = some t) : t.InRange :=
  inRange_table.mp h _ (Dict.mem_of_lookup ht)

/-- The part at a key, or another where there is none. -/
theorem InRange.next {closed : Bool} {entries : List (String × Tree)} (h : (table closed entries).InRange)
    {other : Tree} (hother : other.InRange) (key : String) : ((entries.lookup key).getD other).InRange := by
  cases hlookup : entries.lookup key with
  | none => exact hother
  | some t => exact h.lookup hlookup

theorem InRange.setEntry {closed : Bool} {entries : List (String × Tree)} (h : (table closed entries).InRange)
    {t : Tree} (ht : t.InRange) (key : String) : (table closed (setEntry key t entries)).InRange := by
  rw [inRange_table] at h ⊢
  unfold Tree.setEntry
  split_ifs
  · intro e he
    obtain ⟨e', he', rfl⟩ := List.mem_map.mp he
    split_ifs
    · exact ht
    · exact h e' he'
  · intro e he
    rcases List.mem_append.mp he with he | he
    · exact h e he
    · exact List.mem_singleton.mp he ▸ ht

/-- The last of some tables is replaced. -/
theorem InRange.replaceLast {items : List Tree} (h : (tables items).InRange) {t : Tree} (ht : t.InRange) :
    (tables (items.dropLast ++ [t])).InRange := by
  rw [inRange_tables] at h ⊢
  intro t' ht'
  rcases List.mem_append.mp ht' with ht' | ht'
  · exact h t' (List.dropLast_subset items ht')
  · exact List.mem_singleton.mp ht' ▸ ht

theorem InRange.onInner? {f : Tree → Option Tree} (hf : ∀ t t', t.InRange → f t = some t' → t'.InRange)
    {t t' : Tree} (h : t.InRange) (ht : onInner? f t = some t') : t'.InRange := by
  cases t with
  | value d => cases ht
  | table closed entries => exact hf _ _ h ht
  | tables items =>
    obtain ⟨last, hlast, ht⟩ := Option.bind_eq_some_iff.mp ht
    obtain ⟨new, hnew, ht⟩ := Option.bind_eq_some_iff.mp ht
    cases ht
    exact h.replaceLast (hf last new (inRange_tables.mp h last (List.mem_of_getLast? hlast)) hnew)

theorem InRange.inner? {t t' : Tree} (h : t.InRange) (ht : t.inner? = some t') : t'.InRange := by
  cases t with
  | value d => cases ht
  | table closed entries => exact Option.some.inj ht ▸ h
  | tables items => exact inRange_tables.mp h t' (List.mem_of_getLast? ht)

theorem InRange.get? {path : List String} {t t' : Tree} (h : t.InRange) (ht : t.get? path = some t') :
    t'.InRange := by
  induction path generalizing t with
  | nil => exact Option.some.inj ht ▸ h
  | cons key rest ih =>
    rw [Tree.get?] at ht
    split at ht
    · rename_i closed entries hinner
      obtain ⟨next, hnext, ht⟩ := Option.bind_eq_some_iff.mp ht
      exact ih ((h.inner? hinner).lookup hnext) ht
    · cases ht

theorem InRange.grow? {f : Tree → Option Tree} (hf : ∀ t t', t.InRange → f t = some t' → t'.InRange)
    {path : List String} {t t' : Tree} (h : t.InRange) (ht : grow? f path t = some t') : t'.InRange := by
  induction path generalizing t t' with
  | nil => exact h.onInner? hf ht
  | cons key rest ih =>
    refine h.onInner? (fun inner inner' hinner hgrow => ?_) ht
    cases inner with
    | value d => cases hgrow
    | tables items => cases hgrow
    | table closed entries =>
      obtain ⟨new, hnew, hgrow⟩ := Option.bind_eq_some_iff.mp hgrow
      cases hgrow
      exact hinner.setEntry (ih (hinner.next (inRange_table.mpr (by simp)) key) hnew) key

theorem InRange.put {new : Tree} (hnew : new.InRange) {path : List String} {t : Tree} (h : t.InRange) :
    (Tree.put new path t).InRange := by
  fun_induction Tree.put new path t with
  | case1 t => exact h
  | case2 key closed entries => exact h.setEntry hnew key
  | case3 key rest closed entries _ c es hnext ih =>
    exact h.setEntry (ih (hnext ▸ h.next inRange_empty key)) key
  | case4 key rest closed entries _ items hnext last hlast ih =>
    have hitems : (tables items).InRange := hnext ▸ h.next inRange_empty key
    exact h.setEntry (hitems.replaceLast (ih (inRange_tables.mp hitems last (List.mem_of_getLast? hlast)))) key
  | case5 key rest closed entries _ items hnext hlast ih =>
    refine h.setEntry (inRange_tables.mpr fun t ht => ?_) key
    exact List.mem_singleton.mp ht ▸ ih inRange_empty
  | case6 key rest closed entries _ d hnext ih => exact ih h
  | case7 => exact h

theorem InRange.assign? {new : Tree} (hnew : new.InRange) {path : List String} {key : String} {t t' : Tree}
    (h : t.InRange) (ht : Tree.assign? path key new t = some t') : t'.InRange := by
  refine h.grow? (fun inner inner' hinner hadd => ?_) ht
  unfold addField? at hadd
  split at hadd
  · rename_i entries
    split_ifs at hadd
    cases hadd
    rw [inRange_table] at hinner ⊢
    intro e he
    rcases List.mem_append.mp he with he | he
    · exact hinner e he
    · exact List.mem_singleton.mp he ▸ hnew
  · cases hadd

end Tree

theorem inRange_inRange? {signed : Bool} {n : Int} {d : Datum} (h : inRange? signed n = some d) : d.InRange := by
  unfold inRange? at h
  split_ifs at h with hfits hunsigned
  · cases h
    exact .inl hfits
  · cases h
    exact .inr (Bool.and_eq_true_iff.mp hunsigned).2

theorem inRange_basedInt? {base : Nat} {mark : Char} {cs rest : List Char} {d : Datum}
    (h : basedInt? base mark cs = some (d, rest)) : d.InRange := by
  simp only [basedInt?, Option.bind_eq_bind, Option.bind_eq_some_iff] at h
  obtain ⟨-, -, -, -, n, -, x, hx, h⟩ := h
  cases h
  exact inRange_inRange? hx

theorem inRange_signedNumber? {sign cs rest : List Char} {d : Datum}
    (h : signedNumber? sign cs = some (d, rest)) : d.InRange := by
  unfold signedNumber? at h
  obtain ⟨⟨ds, isReal, rest'⟩, -, h⟩ := Option.bind_eq_some_iff.mp h
  dsimp only at h
  split_ifs at h
  · obtain ⟨x, hx, h⟩ := Option.bind_eq_some_iff.mp h
    cases h
    simp only [real?, Option.bind_eq_bind, Option.bind_eq_some_iff] at hx
    obtain ⟨-, -, r, -, hx⟩ := hx
    split_ifs at hx
    cases hx
    trivial
  · obtain ⟨x, hx, h⟩ := Option.bind_eq_some_iff.mp h
    cases h
    simp only [decimalInt?, Option.bind_eq_bind, Option.bind_eq_some_iff] at hx
    obtain ⟨-, -, -, -, n, -, hx⟩ := hx
    exact inRange_inRange? hx

theorem inRange_number? {cs rest : List Char} {d : Datum} (h : number? cs = some (d, rest)) : d.InRange := by
  unfold number? at h
  split at h
  · exact inRange_basedInt? h
  · exact inRange_basedInt? h
  · exact inRange_basedInt? h
  · split_ifs at h
    exact inRange_signedNumber? h
  · split_ifs at h
    · split at h
      · cases h
        trivial
      · exact inRange_signedNumber? h
    · exact inRange_signedNumber? h
  · cases h

theorem inRange_word? {cs rest : List Char} {d : Datum} (h : word? cs = some (d, rest)) : d.InRange := by
  unfold word? at h
  split at h
  · cases h
    trivial
  split at h
  · cases h
    trivial
  split at h
  · cases h
    trivial
  split_ifs at h
  · obtain ⟨rest', -, h⟩ := Option.map_eq_some_iff.mp h
    cases h
    trivial
  · exact inRange_number? h

/-- A scalar is in range. -/
theorem inRange_scalar? {cs rest : List Char} {d : Datum} (h : scalar? cs = some (d, rest)) : d.InRange := by
  unfold scalar? at h
  split at h
  · obtain ⟨⟨text, rest'⟩, -, h⟩ := Option.map_eq_some_iff.mp h
    cases h
    trivial
  · obtain ⟨⟨text, rest'⟩, -, h⟩ := Option.map_eq_some_iff.mp h
    cases h
    trivial
  · exact inRange_word? h

theorem inRange_listOf {items : List Tree} (h : ∀ t ∈ items, t.InRange) : (listOf items).InRange := by
  unfold listOf
  dsimp only
  split_ifs
  · exact Tree.inRange_tables.mpr h
  · rw [Tree.inRange_value, Datum.inRange_list, List.forall_mem_map]
    exact h

theorem inRange_emptyList : emptyList.InRange := Tree.inRange_value.mpr (Datum.inRange_list.mpr (by simp))

theorem inRange_closeTable {t : Tree} (h : t.InRange) : (closeTable t).InRange := by
  cases t with
  | table closed entries => exact Tree.inRange_table.mpr (Tree.inRange_table.mp h)
  | value d => exact h
  | tables items => exact h

/-- Values, lists and tables in braces are in range, since their scalars are. -/
theorem inRange_values (fuel : Nat) :
    (∀ cs t rest, value? fuel cs = some (t, rest) → t.InRange) ∧
    (∀ cs ts rest, listItems? fuel cs = some (ts, rest) → ∀ t ∈ ts, t.InRange) ∧
    (∀ t cs t' rest, t.InRange → tableFields? fuel t cs = some (t', rest) → t'.InRange) := by
  induction fuel with
  | zero =>
    refine ⟨fun cs t rest h => ?_, fun cs ts rest h => ?_, fun t cs t' rest _ h => ?_⟩
    · cases h
    · cases h
    · cases h
  | succ fuel ih =>
    obtain ⟨hvalue, hitems, hfields⟩ := ih
    refine ⟨fun cs t rest h => ?_, fun cs ts rest h => ?_, fun t cs t' rest ht h => ?_⟩
    · rw [value?] at h
      split at h
      · obtain ⟨⟨items, rest'⟩, hlist, h⟩ := Option.map_eq_some_iff.mp h
        cases h
        exact inRange_listOf (hitems _ _ _ hlist)
      · split at h
        · cases h
          exact inRange_closeTable Tree.inRange_empty
        · obtain ⟨⟨table, rest'⟩, htable, h⟩ := Option.map_eq_some_iff.mp h
          cases h
          exact inRange_closeTable (hfields _ _ _ _ Tree.inRange_empty htable)
      · obtain ⟨⟨d, rest'⟩, hd, h⟩ := Option.map_eq_some_iff.mp h
        cases h
        exact Tree.inRange_value.mpr (inRange_scalar? hd)
    · rw [listItems?] at h
      split at h
      · cases h
        simp
      · obtain ⟨⟨x, r⟩, hx, h⟩ := Option.bind_eq_some_iff.mp h
        dsimp only at h
        split at h
        · obtain ⟨⟨xs, rest'⟩, hxs, h⟩ := Option.bind_eq_some_iff.mp h
          cases h
          exact List.forall_mem_cons.mpr ⟨hvalue _ _ _ hx, hitems _ _ _ hxs⟩
        · cases h
          simpa using hvalue _ _ _ hx
        · cases h
    · rw [tableFields?] at h
      obtain ⟨⟨path, r⟩, -, h⟩ := Option.bind_eq_some_iff.mp h
      dsimp only at h
      split at h
      · obtain ⟨rest', -, h⟩ := Option.bind_eq_some_iff.mp h
        cases h
        exact inRange_emptyList.put ht
      · obtain ⟨⟨x, r'⟩, hx, h⟩ := Option.bind_eq_some_iff.mp h
        have hput : (Tree.put x path t).InRange := (hvalue _ _ _ hx).put ht
        dsimp only at h
        split at h
        · exact hfields _ _ _ _ hput h
        · obtain ⟨rest', -, h⟩ := Option.map_eq_some_iff.mp h
          cases h
          exact hput

/-- What a statement gives a key is in range. -/
def Statement.InRange : Statement → Prop
  | assign _ value => value.InRange
  | _ => True

theorem inRange_statement? {cs rest : List Char} {s : Statement} (h : statement? cs = some (s, rest)) : s.InRange := by
  unfold statement? at h
  split at h
  · obtain ⟨⟨text, r⟩, -, h⟩ := Option.bind_eq_some_iff.mp h
    obtain ⟨rest', -, h⟩ := Option.bind_eq_some_iff.mp h
    cases h
    trivial
  · obtain ⟨⟨text, r⟩, -, h⟩ := Option.bind_eq_some_iff.mp h
    cases h
    trivial
  · obtain ⟨⟨path, r⟩, -, h⟩ := Option.bind_eq_some_iff.mp h
    dsimp only at h
    split at h
    · cases h
      exact inRange_emptyList
    · simp only [Option.bind_eq_bind, Option.bind_eq_some_iff] at h
      obtain ⟨⟨x, r'⟩, hx, rest', -, h⟩ := h
      cases h
      exact (inRange_values _).1 _ _ _ hx

theorem inRange_statementsFrom? {fuel : Nat} {cs : List Char} {ss : List Statement}
    (h : statementsFrom? fuel cs = some ss) : ∀ s ∈ ss, s.InRange := by
  induction fuel generalizing cs ss with
  | zero => cases h
  | succ fuel ih =>
    rw [statementsFrom?] at h
    split at h
    · cases h
      simp
    · obtain ⟨⟨s, r⟩, hs, h⟩ := Option.bind_eq_some_iff.mp h
      obtain ⟨more, hmore, h⟩ := Option.bind_eq_some_iff.mp h
      cases h
      exact List.forall_mem_cons.mpr ⟨inRange_statement? hs, ih hmore⟩

/-- **A statement keeps the document in range.** -/
theorem inRange_step? {b b' : Builder} {s : Statement} (hb : b.root.InRange) (hs : s.InRange)
    (h : b.step? s = some b') : b'.root.InRange := by
  cases s with
  | table text =>
    simp only [Builder.step?, Builder.openTable?, Option.bind_eq_bind, Option.bind_eq_some_iff] at h
    obtain ⟨-, -, path, -, root, hroot, -, -, h⟩ := h
    cases h
    exact hb.grow? (fun t t' ht hsome => Option.some.inj hsome ▸ ht) hroot
  | tableItem text =>
    unfold Builder.step? Builder.openItem? at h
    dsimp only at h
    obtain ⟨path, -, h⟩ := Option.bind_eq_some_iff.mp h
    have hroot : ((b.root.grow? some path.dropLast).getD b.root).InRange := by
      cases hgrow : b.root.grow? some path.dropLast with
      | none => exact hb
      | some root => exact hb.grow? (fun t t' ht hsome => Option.some.inj hsome ▸ ht) hgrow
    generalize (b.root.grow? some path.dropLast).getD b.root = root at h hroot
    split at h
    · cases h
      exact (Tree.inRange_tables.mpr (by simpa using Tree.inRange_empty)).put hroot
    · rename_i items hitems
      cases h
      refine (Tree.inRange_tables.mpr fun t ht => ?_).put hroot
      rcases List.mem_append.mp ht with ht | ht
      · exact Tree.inRange_tables.mp (hroot.get? hitems) t ht
      · exact List.mem_singleton.mp ht ▸ Tree.inRange_empty
    · cases h
  | assign path x =>
    simp only [Builder.step?, Option.bind_eq_bind, Option.bind_eq_some_iff] at h
    obtain ⟨key, -, root, hroot, h⟩ := h
    cases h
    exact Tree.InRange.assign? hs hb hroot

/-- **What a TOML text says is in range.** -/
theorem inRange_read? {t : Bytes} {d : Datum} (h : read? t = some d) : d.InRange := by
  simp only [read?, Option.bind_eq_bind, Option.bind_eq_some_iff] at h
  obtain ⟨ss, hss, b, hb, h⟩ := h
  cases h
  have hrun : ∀ (ss : List Statement) (b b' : Builder), (∀ s ∈ ss, s.InRange) → b.root.InRange →
      ss.foldlM Builder.step? b = some b' → b'.root.InRange := by
    intro ss
    induction ss with
    | nil => exact fun b b' _ hb h => Option.some.inj h ▸ hb
    | cons s rest ih =>
      intro b b' hss hb h
      rw [List.foldlM_cons] at h
      obtain ⟨next, hnext, h⟩ := Option.bind_eq_some_iff.mp h
      exact ih next b' (fun s hs => hss s (List.mem_cons_of_mem _ hs))
        (inRange_step? hb (hss s List.mem_cons_self) hnext) h
  exact hrun ss _ b (inRange_statementsFrom? hss) Tree.inRange_empty hb

end ScriptSplit.Toml
