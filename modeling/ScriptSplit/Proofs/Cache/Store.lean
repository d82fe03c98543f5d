import Mathlib
import ScriptSplit.Cache.Store
import ScriptSplit.Proofs.Disk.Tree

/-!
# What the cache does to its entries

Only storing adds an entry file to the directory of a cache; all other operations leave the entry files
that are there, or remove some.

* `Cache.Holds`: an entry file that some key leads to.
* `lookup_cases`: a look-up finds the data of an entry of the key and the content, or nothing.
* `holds_of_lookup`, `holds_of_invalidate`, `holds_of_clear`, **`holds_of_store`**: the entry files
  after each operation.
-/

namespace ScriptSplit.Cache

/-- The file of a key in a directory. -/
def entryPath (dir key : String) : String := Path.join dir (Hash.Blake3.hex (Bytes.ofString key) ++ ".json")

/-- In the directory there is an entry file with the given text. -/
def Holds (dir : String) (d : Disk) (raw : Bytes) : Prop :=
  ∃ key, d.read (entryPath dir key) = .ok raw ∧ (Entry.ofBytes? raw).isSome = true

theorem keyPath_eq (c : Cache) (key : String) : c.keyPath key = entryPath c.dir key := rfl

variable {c : Cache} {d d' : Disk} {dir key : String} {raw : Bytes}

theorem holds_of_remove {path : String} (h : d.remove path = .ok d') (hold : Holds dir d' raw) :
    Holds dir d raw := by
  obtain ⟨key, hread, hentry⟩ := hold
  exact ⟨key, Disk.read_of_remove h hread, hentry⟩

/-- What a look-up finds, and what it leaves. -/
theorem lookup_cases {now : Int} {content : Bytes} {found : Option Bytes}
    (h : c.lookup d now key content = (found, d')) :
    (found = none ∧ (d' = d ∨ d.remove (c.keyPath key) = .ok d')) ∨
    (d' = d ∧ c.enabled = true ∧ ∃ raw e, d.read (c.keyPath key) = .ok raw ∧ Entry.ofBytes? raw = some e ∧
      e.key = key ∧ e.hash = Hash.Blake3.hex content ∧ found = some e.data) := by
  unfold lookup at h
  split_ifs at h with henabled
  · cases h
    exact .inl ⟨rfl, .inl rfl⟩
  split at h
  · cases h
    exact .inl ⟨rfl, .inl rfl⟩
  case h_2 raw hread =>
    split at h
    · cases h
      exact .inl ⟨rfl, .inl rfl⟩
    case h_2 e hentry =>
      split_ifs at h with hother hexpired
      · cases h
        exact .inl ⟨rfl, .inl rfl⟩
      · obtain ⟨rfl, hd⟩ := Prod.mk.inj h
        refine .inl ⟨rfl, ?_⟩
        cases hremove : d.remove (c.keyPath key) with
        | ok d₁ =>
          rw [hremove] at hd
          exact .inr (congrArg Except.ok hd)
        | error e =>
          rw [hremove] at hd
          exact .inl hd.symm
      · cases h
        simp only [Bool.or_eq_true, decide_eq_true_eq, not_or, not_not] at hother
        exact .inr ⟨rfl, by simpa using henabled, raw, e, hread, hentry, hother.1, hother.2, rfl⟩

theorem holds_of_lookup {now : Int} {content : Bytes} {found : Option Bytes}
    (h : c.lookup d now key content = (found, d')) (hold : Holds dir d' raw) : Holds dir d raw := by
  obtain ⟨-, rfl | hremove⟩ | ⟨rfl, -⟩ := lookup_cases h
  · exact hold
  · exact holds_of_remove hremove hold
  · exact hold

theorem holds_of_invalidate (h : c.invalidate d key = .ok d') (hold : Holds dir d' raw) :
    Holds dir d raw := by
  unfold invalidate at h
  split_ifs at h
  · cases h
    exact hold
  split at h
  case h_1 d₁ hremove =>
    cases h
    exact holds_of_remove hremove hold
  case h_2 e hremove =>
    split_ifs at h
    cases h
    exact hold

theorem holds_of_tryClear (h : c.tryClear d = .ok d') (hold : Holds dir d' raw) : Holds dir d raw := by
  unfold tryClear at h
  split_ifs at h
  · obtain ⟨key, hread, hentry⟩ := hold
    exact ⟨key, Disk.read_of_tryRemoveAll h hread, hentry⟩
  · cases h
    exact hold

theorem holds_of_clear (hold : Holds dir (c.clear d) raw) : Holds dir d raw := by
  unfold clear at hold
  split at hold
  case h_1 hclear => exact holds_of_tryClear hclear hold
  case h_2 => exact hold

/-- What is stored, and where. -/
theorem store_eq_ok {now : Int} {content data : Bytes} (h : c.store d now key content data = .ok d')
    (henabled : c.enabled = true) :
    ∃ raw, entryText? now key content data = some raw ∧ d.replace (c.keyPath key) raw = .ok d' := by
  unfold store at h
  rw [henabled, if_neg (by simp)] at h
  split at h
  · cases h
  case h_2 raw hraw =>
    split at h
    · cases h
    · split at h
      case h_1 d₁ hreplace =>
        cases h
        exact ⟨raw, hraw, hreplace⟩
      case h_2 => cases h
    · cases h

theorem entryText?_eq_some {now : Int} {content data : Bytes} (h : entryText? now key content data = some raw) :
    Moment.inYears now = true ∧
      Entry.bytes? ⟨key, Hash.Blake3.hex content, Moment.ofNanos now, data⟩ = some raw := by
  obtain ⟨timestamp, hmoment, hraw⟩ := Option.bind_eq_some_iff.mp h
  unfold Moment.ofNanos? at hmoment
  split_ifs at hmoment with hyears
  cases hmoment
  exact ⟨hyears, hraw⟩

/-- **Storing** adds no more than the entry file of what is stored. -/
theorem holds_of_store {now : Int} {content data : Bytes} (h : c.store d now key content data = .ok d')
    (hold : Holds dir d' raw) :
    Entry.bytes? ⟨key, Hash.Blake3.hex content, Moment.ofNanos now, data⟩ = some raw ∨ Holds dir d raw := by
  by_cases henabled : c.enabled = true
  · obtain ⟨new, hnew, hreplace⟩ := store_eq_ok h henabled
    obtain ⟨key', hread, hentry⟩ := hold
    obtain rfl | hread := Disk.read_of_replace hreplace hread
    · exact .inl (entryText?_eq_some hnew).2
    · exact .inr ⟨key', hread, hentry⟩
  · unfold store at h
    rw [if_pos (by simpa using henabled)] at h
    cases h
    exact .inr hold

end ScriptSplit.Cache
