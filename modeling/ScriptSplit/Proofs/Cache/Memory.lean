import Mathlib
import ScriptSplit.Proofs.Cache.Directory
import ScriptSplit.Proofs.Cache.Entry
import ScriptSplit.Proofs.Cache.History
import ScriptSplit.Proofs.Time.Calendar

/-!
# A cache remembers what was stored last

Along every history of calls, the file of a key holds what was stored last under the key; it may be missing
once that is too old. So a look-up finds what was stored last, or nothing.

* `Keeps`: the file of a key and what was stored under it.
* `Home.lookup_cases`, `Home.store_eq`, `Home.invalidate_cases`: each call in a directory that is there.
* `Mirrors`: the entries of all keys; **`Mirrors.answer`**, **`Mirrors.run`**: kept by each call and by all.
* **`Mirrors.lookup_cases`**, `Mirrors.lookup_of_other`: what a look-up finds.
* `Mirrors.gone_of_cleared`: nothing is left once all entries were removed.
-/

namespace ScriptSplit.Cache

/-! ## The age of entries -/

/-- Entries of the age do not count. -/
def Expired (c : Cache) (age : Int) : Prop := 0 < c.ttlHours ∧ c.ttlHours * 3600000000000 < age

/-- The time to live is within the numbers of 64 bits. -/
def Measurable (c : Cache) : Prop := Word64.fits (c.ttlHours * 3600000000000) = true

instance (c : Cache) : Decidable c.Measurable := inferInstanceAs (Decidable (_ = true))

theorem Measurable.bounds {c : Cache} (h : c.Measurable) : -9223372036854775808 ≤ c.ttlHours * 3600000000000 ∧
    c.ttlHours * 3600000000000 ≤ 9223372036854775807 := by
  rw [Measurable, Word64.fits, Bool.and_eq_true, decide_eq_true_eq, decide_eq_true_eq] at h
  exact h

theorem Measurable.ttl_eq {c : Cache} (h : c.Measurable) : c.ttl = c.ttlHours * 3600000000000 := by
  have hbounds := h.bounds
  rw [ttl, Word64.wrap, Word64.count, Int.bmod_def]
  omega

/-- What was stored at a moment is too old, by its age. -/
theorem Measurable.isExpired_iff {c : Cache} (h : c.Measurable) {start : Int} (hstart : Moment.inYears start = true)
    (now : Int) : c.isExpired now (Moment.ofNanos start) = true ↔ c.Expired (now - start) := by
  have hbounds := h.bounds
  rw [isExpired, h.ttl_eq, Moment.nanos_ofNanos hstart, span, Word64.clamp, Word64.least, Word64.greatest, Expired,
    Bool.and_eq_true, decide_eq_true_eq, decide_eq_true_eq]
  omega

theorem Expired.mono {c : Cache} {start now now' : Int} (h : c.Expired (now - start)) (hle : now ≤ now') :
    c.Expired (now' - start) := ⟨h.1, by have := h.2; omega⟩

/-! ## The file of a key -/

/-- A look-up depends on the file of the key alone. -/
theorem lookup_fst_congr {c : Cache} {d d' : Disk} {key : String} (h : d'.read (c.keyPath key) = d.read (c.keyPath key))
    (now : Int) (content : Bytes) : (c.lookup d' now key content).1 = (c.lookup d now key content).1 := by
  unfold lookup
  rw [h]
  split_ifs
  · rfl
  cases d.read (c.keyPath key) with
  | error e => rfl
  | ok raw =>
    cases hentry : Entry.ofBytes? raw with
    | none => simp only [hentry]
    | some e =>
      simp only [hentry]
      split_ifs <;> rfl

/-- The file holds what was stored, if anything was. It may be missing once that is too old. -/
def Keeps (c : Cache) (now : Int) (key : String) (m : Option Stored) (file : Option Node) : Prop :=
  match m with
  | none => file = none
  | some s => (∃ raw, entryText? s.time key s.content s.data = some raw ∧ file = some (.file raw)) ∨
      file = none ∧ c.Expired (now - s.time)

/-- A look-up of the content finds what was stored: it came from the same content, it is not as deep as can be, and
it is not too old. -/
structure Stored.Current (s : Stored) (c : Cache) (now : Int) (content : Bytes) : Prop where
  hash : Hash.Blake3.hex s.content = Hash.Blake3.hex content
  depth : ∃ j, Json.read? s.data = some j ∧ j.depth < Json.maxDepth
  fresh : ¬ c.Expired (now - s.time)

namespace Keeps

variable {c : Cache} {now now' : Int} {key : String} {m : Option Stored} {file : Option Node}

theorem mono (h : Keeps c now key m file) (hle : now ≤ now') : Keeps c now' key m file := by
  cases m with
  | none => exact h
  | some s => exact h.imp_right fun ⟨hmissing, hexpired⟩ => ⟨hmissing, hexpired.mono hle⟩

theorem cases (h : Keeps c now key m file) : file = none ∨ ∃ raw, file = some (.file raw) := by
  cases m with
  | none => exact .inl h
  | some s =>
    obtain ⟨raw, -, hfile⟩ | ⟨hmissing, -⟩ := h
    · exact .inr ⟨raw, hfile⟩
    · exact .inl hmissing

theorem atMostFile {root : Node} {place : List String} (h : Keeps c now key m (root.at? place)) :
    root.AtMostFile place := by
  obtain hmissing | ⟨raw, hfile⟩ := h.cases
  · exact Node.atMostFile_of_none hmissing
  · exact Node.atMostFile_of_file hfile

end Keeps

/-- An entry file is read back. -/
theorem exists_entry {s : Stored} {key : String} {raw : Bytes} (h : entryText? s.time key s.content s.data = some raw) :
    Moment.inYears s.time = true ∧ ∃ j u, Json.read? s.data = some j ∧ Json.read? u = some j ∧ Entry.ofBytes? raw =
      if j.depth < Json.maxDepth then some ⟨key, Hash.Blake3.hex s.content, Moment.ofNanos s.time, u⟩ else none := by
  obtain ⟨hyears, hbytes⟩ := entryText?_eq_some h
  obtain ⟨j, u, hdata, hu, hread⟩ := Entry.ofBytes?_bytes? hbytes
  refine ⟨hyears, j, u, hdata, hu, ?_⟩
  rw [hread, Moment.parse?_ofNanos hyears]
  rfl

/-! ## Calls in a directory that is there -/

section Calls

variable {c : Cache} {d : Disk} {left : Nat} {home : List String} {key : String} {m : Option Stored} {now now' : Int}

/-- **What a look-up can do.** -/
theorem Home.lookup_cases (h : Home c d left home) (henabled : c.enabled = true) (hage : c.Measurable)
    (hkeeps : Keeps c now key m (d.root.at? (home ++ [entryName key]))) (hle : now ≤ now') (content : Bytes) :
    (∃ s u, m = some s ∧ s.Current c now' content ∧ Json.read? u = Json.read? s.data ∧
      c.lookup d now' key content = (some u, d)) ∨
    (∀ s, m = some s → ¬ s.Current c now' content) ∧ (c.lookup d now' key content = (none, d) ∨
      (∃ s, m = some s ∧ c.Expired (now' - s.time)) ∧
        c.lookup d now' key content = (none, withEntry d home key none)) := by
  cases m with
  | none =>
    refine .inr ⟨fun s hs => (by cases hs), .inl ?_⟩
    have hmissing : d.root.at? (home ++ [entryName key]) = none := hkeeps
    simp [lookup, henabled, h.read_missing hmissing]
  | some s =>
    obtain ⟨raw, hraw, hfile⟩ | ⟨hmissing, hexpired⟩ := hkeeps
    swap
    · refine .inr ⟨fun s' hs' hcurrent => ?_, .inl (by simp [lookup, henabled, h.read_missing hmissing])⟩
      obtain rfl := Option.some.inj hs'
      exact hcurrent.fresh (hexpired.mono hle)
    obtain ⟨hyears, j, u, hdata, hu, hentry⟩ := exists_entry hraw
    by_cases hdepth : j.depth < Json.maxDepth
    swap
    · rw [if_neg hdepth] at hentry
      refine .inr ⟨fun s' hs' hcurrent => ?_, .inl (by simp [lookup, henabled, h.read_file hfile, hentry])⟩
      obtain rfl := Option.some.inj hs'
      obtain ⟨j', hdata', hdepth'⟩ := hcurrent.depth
      rw [hdata] at hdata'
      exact hdepth (Option.some.inj hdata' ▸ hdepth')
    rw [if_pos hdepth] at hentry
    by_cases hhash : Hash.Blake3.hex s.content = Hash.Blake3.hex content
    swap
    · refine .inr ⟨fun s' hs' hcurrent => ?_, .inl (by simp [lookup, henabled, h.read_file hfile, hentry, hhash])⟩
      obtain rfl := Option.some.inj hs'
      exact hhash hcurrent.hash
    have hexpired := hage.isExpired_iff hyears now'
    by_cases hold : c.Expired (now' - s.time)
    · refine .inr ⟨fun s' hs' hcurrent => ?_, .inr ⟨⟨s, rfl, hold⟩, ?_⟩⟩
      · obtain rfl := Option.some.inj hs'
        exact hcurrent.fresh hold
      · simp [lookup, henabled, h.read_file hfile, hentry, hhash, hexpired.mpr hold, h.remove_file hfile, withEntry]
    · refine .inl ⟨s, u, rfl, ⟨hhash, ⟨j, hdata, hdepth⟩, hold⟩, hu.trans hdata.symm, ?_⟩
      simp [lookup, henabled, h.read_file hfile, hentry, hhash, mt hexpired.mp hold]

/-- **What storing does**: the file of the key is set, if what is stored has a text. -/
theorem Home.store_eq (h : Home c d left home) (hthere : ∃ entries, d.find .follow c.dir = .ok (.dir entries))
    (henabled : c.enabled = true) (hfile : d.root.AtMostFile (home ++ [entryName key])) (now : Int)
    (content data : Bytes) : c.store d now key content data = match entryText? now key content data with
      | none => .error .notJson
      | some raw => .ok (withEntry d home key (some (.file raw))) := by
  obtain ⟨entries, hthere⟩ := hthere
  unfold store
  rw [henabled, if_neg (by simp)]
  cases entryText? now key content data with
  | none => rfl
  | some raw =>
    have hreplace : d.replace (c.keyPath key) raw = .ok (withEntry d home key (some (.file raw))) := by
      cases hnode : d.root.at? (home ++ [entryName key]) with
      | none => exact h.replace_missing hnode raw
      | some n =>
        obtain ⟨t, rfl⟩ := hfile n hnode
        exact h.replace_file hnode raw
    simp [hthere, hreplace]

/-- What was just stored is found, if it is current. -/
theorem Home.stored (h : Home c d left home) (hthere : ∃ entries, d.find .follow c.dir = .ok (.dir entries))
    (henabled : c.enabled = true) (hage : c.Measurable) (hfile : d.root.AtMostFile (home ++ [entryName key])) {s : Stored}
    {raw : Bytes} (htext : entryText? s.time key s.content s.data = some raw) :
    c.store d s.time key s.content s.data = .ok (withEntry d home key (some (.file raw))) ∧
    ∀ later content, s.time ≤ later →
      ((c.lookup (withEntry d home key (some (.file raw))) later key content).1.isSome = true ↔
        s.Current c later content) := by
  have hstore := h.store_eq hthere henabled hfile s.time s.content s.data
  rw [htext] at hstore
  refine ⟨hstore, fun later content hle => ?_⟩
  obtain ⟨entries, hdir⟩ := h.dir
  have hkeeps : Keeps c s.time key (some s)
      ((withEntry d home key (some (.file raw))).root.at? (home ++ [entryName key])) :=
    .inl ⟨raw, htext, Node.at?_set_last hdir _ _⟩
  obtain ⟨s', u, hs', hcurrent, -, heq⟩ | ⟨hnot, heq | ⟨-, heq⟩⟩ :=
    (h.set hfile _).lookup_cases henabled hage hkeeps hle content
  · obtain rfl := Option.some.inj hs'
    simp [heq, hcurrent]
  · simp [heq, hnot s rfl]
  · simp [heq, hnot s rfl]

/-- **What invalidating does**: afterwards there is no file of the key. -/
theorem Home.invalidate_cases (h : Home c d left home) (henabled : c.enabled = true)
    (hfile : d.root.AtMostFile (home ++ [entryName key])) :
    d.root.at? (home ++ [entryName key]) = none ∧ c.invalidate d key = .ok d ∨
      c.invalidate d key = .ok (withEntry d home key none) := by
  cases hnode : d.root.at? (home ++ [entryName key]) with
  | none => exact .inl ⟨rfl, by simp [invalidate, henabled, h.remove_missing hnode]⟩
  | some n =>
    obtain ⟨t, rfl⟩ := hfile n hnode
    exact .inr (by simp [invalidate, henabled, h.remove_file hnode, withEntry])

/-- A call about a key changes no more than the file of the key. -/
theorem Standing.answer_disk (h : Standing c d left home) (henabled : c.enabled = true) (hage : c.Measurable)
    (hkeeps : Keeps c now key m (d.root.at? (home ++ [entryName key]))) (hle : now ≤ now') {call : Call}
    (hcall : call.key? = some key) : (c.answer d now' call).2 = d ∨
      ∃ new, (c.answer d now' call).2 = withEntry d home key new := by
  cases call with
  | lookup k content =>
    obtain rfl := Option.some.inj hcall
    change (c.lookup d now' k content).2 = d ∨ ∃ new, (c.lookup d now' k content).2 = withEntry d home k new
    obtain ⟨s, u, -, -, -, heq⟩ | ⟨-, heq | ⟨-, heq⟩⟩ := h.lookup_cases henabled hage hkeeps hle content
    · exact .inl (congrArg Prod.snd heq)
    · exact .inl (congrArg Prod.snd heq)
    · exact .inr ⟨none, congrArg Prod.snd heq⟩
  | store k content data =>
    obtain rfl := Option.some.inj hcall
    have hstore := h.store_eq h.there henabled hkeeps.atMostFile now' content data
    cases htext : entryText? now' k content data with
    | none =>
      rw [htext] at hstore
      exact .inl (by simp [answer, hstore])
    | some raw =>
      rw [htext] at hstore
      exact .inr ⟨some (.file raw), by simp [answer, hstore]⟩
  | invalidate k =>
    obtain rfl := Option.some.inj hcall
    obtain ⟨-, heq⟩ | heq := h.invalidate_cases henabled hkeeps.atMostFile
    · exact .inl (by simp [answer, heq])
    · exact .inr ⟨none, by simp [answer, heq]⟩
  | clear => cases hcall

end Calls

/-! ## All keys -/

/-- The directory is there, and the file of each key holds what was stored last; or nothing is left, and
nothing can be stored. -/
inductive Mirrors (c : Cache) (keys : Set String) (now : Int) (m : String → Option Stored) (d : Disk) : Prop where
  | standing (left : Nat) (home : List String) (h : Standing c d left home)
      (hkeeps : ∀ key ∈ keys, Keeps c now key (m key) (d.root.at? (home ++ [entryName key]))) :
      Mirrors c keys now m d
  | gone (h : Gone c keys d) (hnone : ∀ key ∈ keys, m key = none) : Mirrors c keys now m d

/-- What counts for the keys after an event. -/
def rememberAll (m : String → Option Stored) (e : Event) : String → Option Stored := fun key => remember key (m key) e

/-- **At the start** nothing was stored. -/
theorem Sited.mirrors {c : Cache} {keys : Set String} {d : Disk} (h : Sited c keys d) (now : Int) :
    Mirrors c keys now (fun _ => none) d := by
  obtain ⟨left, home, hstanding, hmissing⟩ | hgone := h.standing_or_gone
  · exact .standing left home hstanding hmissing
  · exact .gone hgone fun _ _ => rfl

section Steps

variable {c : Cache} {keys : Set String} {d : Disk} {now now' : Int} {m : String → Option Stored}

theorem Mirrors.mono (h : Mirrors c keys now m d) (hle : now ≤ now') : Mirrors c keys now' m d := by
  cases h with
  | standing left home h hkeeps => exact .standing left home h fun key hkey => (hkeeps key hkey).mono hle
  | gone h hnone => exact .gone h hnone

section Standing

variable (hinj : Set.InjOn entryName keys) {left : Nat} {home : List String} (h : Standing c d left home)
  (hkeeps : ∀ key ∈ keys, Keeps c now key (m key) (d.root.at? (home ++ [entryName key]))) (hle : now ≤ now')
include hinj h hkeeps hle

/-- **The file of one key changes**, and those of the others stay. -/
theorem Standing.mirrors_withEntry {key : String} (hkey : key ∈ keys) {new : Option Node} {m' : String → Option Stored}
    (hnew : Keeps c now' key (m' key) new) (hother : ∀ k ∈ keys, k ≠ key → m' k = m k) :
    Mirrors c keys now' m' (withEntry d home key new) := by
  refine .standing left home (h.set (hkeeps key hkey).atMostFile new) fun k hk => ?_
  by_cases heq : k = key
  · subst heq
    obtain ⟨entries, hdir⟩ := h.dir
    rw [withEntry, Node.at?_set_last hdir]
    exact hnew
  · rw [withEntry, Node.at?_set_sibling (fun hname => heq (hinj hk hkey hname)) (hkeeps k hk).atMostFile,
      hother k hk heq]
    exact (hkeeps k hk).mono hle

variable (henabled : c.enabled = true)
include henabled

theorem Standing.mirrors_lookup (hage : c.Measurable) {key : String} (hkey : key ∈ keys) (content : Bytes) :
    Mirrors c keys now' m (c.lookup d now' key content).2 := by
  have hsame := (Mirrors.standing left home h hkeeps).mono hle
  obtain ⟨s, u, -, -, -, heq⟩ | ⟨-, heq | ⟨⟨s, hs, hold⟩, heq⟩⟩ :=
    h.lookup_cases henabled hage (hkeeps key hkey) hle content
  · rw [heq]
    exact hsame
  · rw [heq]
    exact hsame
  · -- what was stored is too old, and its file goes
    rw [heq]
    refine h.mirrors_withEntry hinj hkeeps hle hkey ?_ fun _ _ _ => rfl
    rw [hs]
    exact .inr ⟨rfl, hold⟩

theorem Standing.mirrors_store {key : String} (hkey : key ∈ keys) (content data : Bytes) :
    Mirrors c keys now' (rememberAll m ⟨now', .store key content data, (c.answer d now' (.store key content data)).1⟩)
      (c.answer d now' (.store key content data)).2 := by
  have hstore := h.store_eq h.there henabled (hkeeps key hkey).atMostFile now' content data
  cases htext : entryText? now' key content data with
  | none =>
    rw [htext] at hstore
    simp only [Cache.answer, hstore]
    exact (Mirrors.standing left home h hkeeps).mono hle
  | some raw =>
    rw [htext] at hstore
    simp only [Cache.answer, hstore]
    refine h.mirrors_withEntry hinj hkeeps hle hkey ?_ fun k _ hk => if_neg (Ne.symm hk)
    have hstored : rememberAll m ⟨now', .store key content data, .done⟩ key = some ⟨now', content, data⟩ := if_pos rfl
    rw [hstored]
    exact .inl ⟨raw, htext, rfl⟩

theorem Standing.mirrors_invalidate {key : String} (hkey : key ∈ keys) :
    Mirrors c keys now' (rememberAll m ⟨now', .invalidate key, (c.answer d now' (.invalidate key)).1⟩)
      (c.answer d now' (.invalidate key)).2 := by
  have hforgotten : rememberAll m ⟨now', .invalidate key, .done⟩ key = none := if_pos rfl
  have hnew : Keeps c now' key (rememberAll m ⟨now', .invalidate key, .done⟩ key) none := by
    rw [hforgotten]
    rfl
  have hother : ∀ k ∈ keys, k ≠ key → rememberAll m ⟨now', .invalidate key, .done⟩ k = m k :=
    fun k _ hk => if_neg (Ne.symm hk)
  obtain ⟨hmissing, heq⟩ | heq := h.invalidate_cases henabled (hkeeps key hkey).atMostFile
  · simp only [Cache.answer, heq]
    refine .standing left home h fun k hk => ?_
    by_cases hkey' : k = key
    · subst hkey'
      rw [hmissing]
      exact hnew
    · rw [hother k hk hkey']
      exact (hkeeps k hk).mono hle
  · simp only [Cache.answer, heq]
    exact h.mirrors_withEntry hinj hkeeps hle hkey hnew hother

omit hinj in
theorem Standing.mirrors_clear :
    Mirrors c keys now' (rememberAll m ⟨now', .clear, (c.answer d now' .clear).1⟩) (c.answer d now' .clear).2 := by
  obtain ⟨e, hclear⟩ | ⟨d', hclear, hgone⟩ := h.tryClear henabled keys
  · simp only [Cache.answer, hclear]
    exact (Mirrors.standing left home h hkeeps).mono hle
  · simp only [Cache.answer, hclear]
    exact .gone hgone fun _ _ => rfl

end Standing

variable (henabled : c.enabled = true)
include henabled

/-- **Where nothing is left**, no call brings anything back. -/
theorem Gone.answer (h : Gone c keys d) {call : Call} (hcall : ∀ key, call.key? = some key → key ∈ keys) (now : Int) :
    Gone c keys (c.answer d now call).2 ∧ ∀ (s : Stored) key, ⟨now, call, (c.answer d now call).1⟩ ≠ s.event key := by
  cases call with
  | lookup key content =>
    refine ⟨?_, fun s key hevent => by cases hevent⟩
    simp only [Cache.answer, h.lookup_eq (hcall key rfl)]
    exact h
  | store key content data =>
    obtain ⟨e, hstore⟩ := h.exists_store_error henabled now key content data
    simp only [Cache.answer, hstore]
    exact ⟨h, fun s key hevent => by cases hevent⟩
  | invalidate key =>
    refine ⟨?_, fun s key hevent => by cases hevent⟩
    cases hinvalidate : c.invalidate d key with
    | ok d' =>
      simp only [Cache.answer, hinvalidate]
      exact h.invalidate hinvalidate
    | error e =>
      simp only [Cache.answer, hinvalidate]
      exact h
  | clear =>
    refine ⟨?_, fun s key hevent => by cases hevent⟩
    cases hclear : c.tryClear d with
    | ok d' =>
      simp only [Cache.answer, hclear]
      exact h.tryClear hclear
    | error e =>
      simp only [Cache.answer, hclear]
      exact h

variable (hage : c.Measurable)
include hage

/-- **What a look-up finds** is what was stored last under the key. -/
theorem Mirrors.lookup_cases (h : Mirrors c keys now m d) (hle : now ≤ now') {key : String} (hkey : key ∈ keys)
    (content : Bytes) :
    (∃ s u, m key = some s ∧ s.Current c now' content ∧ Json.read? u = Json.read? s.data ∧
      (c.lookup d now' key content).1 = some u) ∨
    (∀ s, m key = some s → ¬ s.Current c now' content) ∧ (c.lookup d now' key content).1 = none := by
  cases h with
  | standing left home h hkeeps =>
    obtain ⟨s, u, hs, hcurrent, hu, heq⟩ | ⟨hnot, heq | ⟨-, heq⟩⟩ :=
      h.lookup_cases henabled hage (hkeeps key hkey) hle content
    · exact .inl ⟨s, u, hs, hcurrent, hu, congrArg Prod.fst heq⟩
    · exact .inr ⟨hnot, congrArg Prod.fst heq⟩
    · exact .inr ⟨hnot, congrArg Prod.fst heq⟩
  | gone h hnone =>
    refine .inr ⟨fun s hs => ?_, by rw [h.lookup_eq hkey]⟩
    rw [hnone key hkey] at hs
    cases hs

variable (hinj : Set.InjOn entryName keys)
include hinj

/-- **Each call** leaves the files of the keys holding what was stored last. -/
theorem Mirrors.answer (h : Mirrors c keys now m d) (hle : now ≤ now') {call : Call}
    (hcall : ∀ key, call.key? = some key → key ∈ keys) :
    Mirrors c keys now' (rememberAll m ⟨now', call, (c.answer d now' call).1⟩) (c.answer d now' call).2 := by
  cases h with
  | gone h hnone =>
    obtain ⟨hgone, hnot⟩ := h.answer henabled hcall now'
    refine .gone hgone fun key hkey => ?_
    rw [rememberAll, hnone key hkey]
    obtain ⟨-, hremember⟩ | ⟨s, hevent⟩ | ⟨-, -, hremember⟩ :=
      remember_cases key ⟨now', call, (c.answer d now' call).1⟩
    · exact hremember none
    · exact absurd hevent (hnot s key)
    · exact hremember none
  | standing left home h hkeeps =>
    cases call with
    | lookup key content => exact h.mirrors_lookup hinj hkeeps hle henabled hage (hcall key rfl) content
    | store key content data => exact h.mirrors_store hinj hkeeps hle henabled (hcall key rfl) content data
    | invalidate key => exact h.mirrors_invalidate hinj hkeeps hle henabled (hcall key rfl)
    | clear => exact h.mirrors_clear hkeeps hle henabled

/-- **Along a history of calls** the files of the keys hold what was stored last. -/
theorem Mirrors.run (h : Mirrors c keys now m d) {calls : List (Int × Call)} {later : Int}
    (htimes : (now :: (calls.map Prod.fst ++ [later])).Pairwise (· ≤ ·))
    (hcalls : ∀ call ∈ calls, ∀ key, call.2.key? = some key → key ∈ keys) :
    Mirrors c keys later (fun key => (c.run d calls).1.foldl (remember key) (m key)) (c.run d calls).2 := by
  induction calls generalizing d now m with
  | nil => exact h.mono ((List.pairwise_cons.mp htimes).1 later (by simp))
  | cons call calls ih =>
    obtain ⟨time, call⟩ := call
    obtain ⟨hle, htimes⟩ := List.pairwise_cons.mp htimes
    have hstep := h.answer henabled hage hinj (hle time (by simp)) (hcalls _ List.mem_cons_self)
    exact ih hstep htimes fun call' hcall' => hcalls call' (List.mem_cons_of_mem _ hcall')

/-- **A call about another key** does not change what a look-up finds. -/
theorem Mirrors.lookup_of_other (h : Mirrors c keys now m d) (hle : now ≤ now') {key other : String} (hkey : key ∈ keys)
    (hother : other ∈ keys) (hne : other ≠ key) {call : Call} (hcall : call.key? = some other) (later : Int)
    (content : Bytes) :
    (c.lookup (c.answer d now' call).2 later key content).1 = (c.lookup d later key content).1 := by
  cases h with
  | standing left home h hkeeps =>
    obtain heq | ⟨new, heq⟩ := h.answer_disk henabled hage (hkeeps other hother) hle hcall
    · rw [heq]
    · rw [heq]
      refine lookup_fst_congr ?_ later content
      have hentry := Node.at?_set_sibling (fun hname => hne (hinj hother hkey hname.symm))
        (hkeeps key hkey).atMostFile new
      have hhome := h.toHome.set (hkeeps other hother).atMostFile new
      obtain hmissing | ⟨raw, hfile⟩ := (hkeeps key hkey).cases
      · rw [h.read_missing hmissing]
        exact hhome.read_missing (hentry.trans hmissing)
      · rw [h.read_file hfile]
        exact hhome.read_file (hentry.trans hfile)
  | gone h hnone =>
    have hkeys : ∀ k, call.key? = some k → k ∈ keys := fun k hk => by
      rw [hcall] at hk
      exact Option.some.inj hk ▸ hother
    rw [h.lookup_eq hkey, (h.answer henabled hkeys now').1.lookup_eq hkey]

end Steps

/-! ## After a removal of all entries -/

section Cleared

variable {c : Cache} {keys : Set String} {d : Disk} (henabled : c.enabled = true)
include henabled

theorem Gone.run (h : Gone c keys d) {calls : List (Int × Call)}
    (hcalls : ∀ call ∈ calls, ∀ key, call.2.key? = some key → key ∈ keys) : Gone c keys (c.run d calls).2 := by
  induction calls generalizing d with
  | nil => exact h
  | cons call calls ih =>
    have hstep := (h.answer henabled (hcalls call List.mem_cons_self) call.1).1
    exact ih hstep fun call' hcall' => hcalls call' (List.mem_cons_of_mem _ hcall')

/-- **Once all entries were removed** nothing is left for good. -/
theorem Mirrors.gone_of_cleared (hage : c.Measurable) (hinj : Set.InjOn entryName keys) {now : Int}
    {m : String → Option Stored} (h : Mirrors c keys now m d) {calls : List (Int × Call)}
    (htimes : (now :: calls.map Prod.fst).Pairwise (· ≤ ·))
    (hcalls : ∀ call ∈ calls, ∀ key, call.2.key? = some key → key ∈ keys)
    (hcleared : ∃ e ∈ (c.run d calls).1, e.call = .clear ∧ e.answer = .done) : Gone c keys (c.run d calls).2 := by
  induction calls generalizing d now m with
  | nil =>
    obtain ⟨e, he, -⟩ := hcleared
    cases he
  | cons call calls ih =>
    obtain ⟨time, call⟩ := call
    obtain ⟨hle, htimes⟩ := List.pairwise_cons.mp htimes
    have hrest : ∀ call' ∈ calls, ∀ key, call'.2.key? = some key → key ∈ keys := fun call' hcall' =>
      hcalls call' (List.mem_cons_of_mem _ hcall')
    obtain ⟨e, he, hclear, hdone⟩ := hcleared
    obtain rfl | he := List.mem_cons.mp he
    · -- this is the call that removed them
      simp only at hclear hdone
      subst hclear
      change Gone c keys (c.run (c.answer d time .clear).2 calls).2
      refine Gone.run henabled ?_ hrest
      cases h with
      | standing left home h hkeeps =>
        obtain ⟨e, hclear⟩ | ⟨d', hclear, hgone⟩ := h.tryClear henabled keys
        · simp [hclear] at hdone
        · simp only [Cache.answer, hclear]
          exact hgone
      | gone h hnone =>
        have hcall : ∀ key, Call.clear.key? = some key → key ∈ keys := fun key hkey => by cases hkey
        exact (h.answer henabled hcall time).1
    · have hstep := h.answer henabled hage hinj (hle time List.mem_cons_self) (hcalls _ List.mem_cons_self)
      exact ih hstep htimes hrest ⟨e, he, hclear, hdone⟩

end Cleared

/-- Data that are no JSON text are not stored. -/
theorem exists_store_error_of_not_json {c : Cache} {d : Disk} (henabled : c.enabled = true) {data : Bytes}
    (hdata : Json.read? data = none) (now : Int) (key : String) (content : Bytes) :
    ∃ e, c.store d now key content data = .error e := by
  cases hstore : c.store d now key content data with
  | error e => exact ⟨e, rfl⟩
  | ok d' =>
    obtain ⟨raw, htext, -⟩ := store_eq_ok hstore henabled
    obtain ⟨-, j, u, hj, -⟩ := exists_entry (s := ⟨now, content, data⟩) htext
    rw [hdata] at hj
    cases hj

theorem answer_store_failed {c : Cache} {d : Disk} {now : Int} {key : String} {content data : Bytes}
    (h : ∃ e, c.store d now key content data = .error e) :
    ∃ reason, (c.answer d now (.store key content data)).1 = .failed reason := by
  obtain ⟨e, he⟩ := h
  exact ⟨e.message, by simp [answer, he]⟩

end ScriptSplit.Cache
