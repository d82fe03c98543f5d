import Mathlib
import ScriptSplit.Proofs.Cache.Store
import ScriptSplit.Proofs.Disk.Cleaned
import ScriptSplit.Proofs.Text.Encoding

/-!
# The directory of a cache

The file of a key stands under a name of hexadecimal digits in the directory of the cache. The directory is
looked up under its cleaned path when files are read, and under its path as it is written when an entry is
stored or all are removed.

* `entryName`: the name of the file of a key; `entryName_injective`.
* `Home`: the place that the cleaned path of the directory leads to; reading, setting and removing the file
  of a key there.
* `withEntry`: a disk on which the file of one key is another one or none.
* `Standing`: the directory is there under both paths; `Standing.set`: it stays while files change.
* **`Standing.tryClear`**: what is left when the directory is removed.
* `Gone`: nothing is found, and nothing can be stored; `Gone.of_adds`: this stays so.
-/

namespace ScriptSplit

theorem Path.parts_name {name : String} (h : Path.IsName name) : Path.parts name = [name] := by
  have hparts := Path.parts_intercalate (List.cons_ne_nil name []) fun s hs => (List.mem_singleton.mp hs) ▸ h.2.2
  rwa [String.intercalate_singleton] at hparts

namespace Cache

/-! ## Names of entry files -/

/-- The name of the file of a key. -/
def entryName (key : String) : String := Hash.Blake3.hex (Bytes.ofString key) ++ ".json"

theorem not_slash_hexOfBytes (bytes : Bytes) : '/' ∉ (Hash.hexOfBytes bytes).toList := by
  have hdigit : ∀ n < 16, lowerDigit n ≠ '/' := by decide
  intro hmem
  rw [Hash.hexOfBytes, String.toList_ofList] at hmem
  obtain ⟨b, -, hb⟩ := List.mem_flatMap.mp hmem
  simp only [lastDigits, List.nil_append, List.cons_append, List.mem_cons, List.not_mem_nil, or_false] at hb
  obtain hb | hb := hb
  · exact hdigit _ (Nat.mod_lt _ (by decide)) hb.symm
  · exact hdigit _ (Nat.mod_lt _ (by decide)) hb.symm

theorem isName_entryName (key : String) : Path.IsName (entryName key) := by
  have hlength : 5 ≤ (entryName key).toList.length := by simp [entryName]
  refine ⟨fun h => ?_, fun h => ?_, ?_⟩
  · rw [h] at hlength
    exact absurd hlength (by decide)
  · rw [h] at hlength
    exact absurd hlength (by decide)
  · rw [entryName, String.toList_append, List.mem_append]
    rintro (hmem | hmem)
    · exact not_slash_hexOfBytes _ hmem
    · exact absurd hmem (by decide)

theorem entryName_ne_up (key : String) : entryName key ≠ ".." := by
  intro h
  have hlength : 5 ≤ (entryName key).toList.length := by simp [entryName]
  rw [h] at hlength
  exact absurd hlength (by decide)

theorem proper_entryName (key : String) : Disk.Proper (entryName key) :=
  ⟨(isName_entryName key).1, (isName_entryName key).2.1, entryName_ne_up key⟩

theorem parts_entryName (key : String) : Path.parts (entryName key) = [entryName key] :=
  Path.parts_name (isName_entryName key)

theorem descends_entryName (key : String) : Path.Descends (entryName key) := by
  intro s hs
  rw [parts_entryName, List.mem_singleton] at hs
  rw [hs]
  exact ⟨isName_entryName key, entryName_ne_up key⟩

/-- Keys whose hashes differ have files of different names. -/
theorem entryName_injOn {keys : Set String} (hhash : Set.InjOn Hash.Blake3.hex (Bytes.ofString '' keys)) :
    Set.InjOn entryName keys := by
  intro key hkey key' hkey' h
  have hhex : Hash.Blake3.hex (Bytes.ofString key) = Hash.Blake3.hex (Bytes.ofString key') := by
    have hlist := congrArg String.toList h
    rw [entryName, entryName, String.toList_append, String.toList_append] at hlist
    exact String.toList_inj.mp (List.append_cancel_right hlist)
  exact Bytes.ofString_injective (hhash ⟨key, hkey, rfl⟩ ⟨key', hkey', rfl⟩ hhex)

/-! ## Where entry files stand -/

open Disk (Trail maxLinks)

/-- The cleaned path of the directory leads to a directory at `home`. -/
structure Home (c : Cache) (d : Disk) (left : Nat) (home : List String) : Prop where
  trail : Trail d.root maxLinks [] (d.dirSteps c.dir) left home
  dir : ∃ entries, d.root.at? home = some (.dir entries)

theorem keyPath_ne_empty (c : Cache) (key : String) : c.keyPath key ≠ "" :=
  Disk.join_ne_empty (descends_entryName key) c.dir

theorem steps_keyPath (c : Cache) (d : Disk) (key : String) :
    d.steps (c.keyPath key) = d.dirSteps c.dir ++ [entryName key] := by
  rw [← parts_entryName key]
  exact Disk.steps_join d (descends_entryName key) c.dir

/-- A walk to the file of a key goes by the cleaned path of the directory. -/
theorem exists_home_of_place {c : Cache} {d : Disk} {last : LastStep} {key : String} {place : List String}
    (h : d.place last (c.keyPath key) = .ok place) : ∃ left home, Home c d left home ∧
      Disk.walk d.root last left home [entryName key] = .ok place := by
  rw [Disk.place_eq_walk (keyPath_ne_empty c key), steps_keyPath] at h
  obtain ⟨left, home, htrail, hrest⟩ := Disk.exists_trail (.inr (List.cons_ne_nil _ _)) _ _ _ h
  exact ⟨left, home, ⟨htrail, Disk.exists_dir_of_walk (List.cons_ne_nil _ _) hrest⟩, hrest⟩

/-- The file of the key is set or removed. -/
def withEntry (d : Disk) (home : List String) (key : String) (new : Option Node) : Disk :=
  { d with root := d.root.set (home ++ [entryName key]) new }

namespace Home

variable {c : Cache} {d : Disk} {left : Nat} {home : List String} (h : Home c d left home) {key : String}
include h

theorem place_eq (last : LastStep) (key : String) :
    d.place last (c.keyPath key) = Disk.walk d.root last left home [entryName key] := by
  rw [Disk.place_eq_walk (keyPath_ne_empty c key), steps_keyPath,
    Disk.walk_append_of_trail h.trail (.inr (List.cons_ne_nil _ _))]

/-- What stands under the name of a key is found there. -/
theorem place_of_node {n : Node} (hn : d.root.at? (home ++ [entryName key]) = some n) :
    d.place .keep (c.keyPath key) = .ok (home ++ [entryName key]) := by
  rw [h.place_eq, Disk.walk_keep (proper_entryName key) hn]

section Missing

variable (hnone : d.root.at? (home ++ [entryName key]) = none)
include hnone

theorem place_missing (last : LastStep) : d.place last (c.keyPath key) =
    if last = .create then .ok (home ++ [entryName key]) else .error .noEntry := by
  obtain ⟨entries, hdir⟩ := h.dir
  rw [h.place_eq, Disk.walk_missing (proper_entryName key) hdir hnone]
  simp

theorem read_missing : d.read (c.keyPath key) = .error ⟨"open", c.keyPath key, .noEntry⟩ := by
  simp [Disk.read, Disk.find, h.place_missing hnone]

theorem remove_missing : d.remove (c.keyPath key) = .error ⟨"remove", c.keyPath key, .noEntry⟩ := by
  simp [Disk.remove, h.place_missing hnone]

theorem replace_missing (raw : Bytes) : d.replace (c.keyPath key) raw =
    .ok (withEntry d home key (some (.file raw))) := by
  simp [Disk.replace, h.place_missing hnone, withEntry]

end Missing

section File

variable {raw : Bytes} (hfile : d.root.at? (home ++ [entryName key]) = some (.file raw))
include hfile

theorem place_file (last : LastStep) : d.place last (c.keyPath key) = .ok (home ++ [entryName key]) := by
  rw [h.place_eq, Disk.walk_down (proper_entryName key) hfile (fun _ hlink => by cases hlink), Disk.walk]

theorem read_file : d.read (c.keyPath key) = .ok raw :=
  Disk.read_eq_ok_iff.mpr ⟨_, h.place_file hfile .follow, hfile⟩

theorem remove_file : d.remove (c.keyPath key) = .ok (withEntry d home key none) := by
  simp [Disk.remove, h.place_file hfile, hfile, withEntry]

theorem replace_file (raw' : Bytes) : d.replace (c.keyPath key) raw' =
    .ok (withEntry d home key (some (.file raw'))) := by
  simp [Disk.replace, h.place_file hfile, hfile, withEntry]

end File

/-- The file of a key may change, and the directory stays. -/
theorem set (hfile : d.root.AtMostFile (home ++ [entryName key])) (new : Option Node) :
    Home c (withEntry d home key new) left home := by
  have hframed := Node.framed_set hfile new
  obtain ⟨entries, hdir⟩ := h.dir
  exact ⟨h.trail.framed hframed hdir, hframed.dirs _ _ hdir⟩

end Home

/-- The directory is there under its path and its cleaned path. It can be removed under its path, and then it
is gone under its cleaned path too, unless the path ends in a point. -/
structure Standing (c : Cache) (d : Disk) (left : Nat) (home : List String) : Prop extends Home c d left home where
  there : ∃ entries, d.find .follow c.dir = .ok (.dir entries)
  removable : Path.endsInPoint c.dir = true ∨ ∃ upper name,
    Disk.EndsAt d.root (d.steps (Path.withoutTrailingSlashes c.dir)) upper name ∧
    Disk.EndsAt d.root (d.dirSteps c.dir) upper name

namespace Standing

variable {c : Cache} {d : Disk} {left : Nat} {home : List String} (h : Standing c d left home) {key : String}
include h

/-- **The directory stays** while the file of a key changes. -/
theorem set (hfile : d.root.AtMostFile (home ++ [entryName key])) (new : Option Node) :
    Standing c (withEntry d home key new) left home := by
  have hframed := Node.framed_set hfile new
  refine ⟨h.toHome.set hfile new, Disk.find_dir_framed hframed h.there, ?_⟩
  obtain hpoint | ⟨upper, name, hwritten, hcleaned⟩ := h.removable
  · exact .inl hpoint
  · obtain ⟨n, hn⟩ := hcleaned.exists_node h.trail
    obtain ⟨entries, hdir⟩ := Node.exists_dir_of_append (List.cons_ne_nil name []) hn
    exact .inr ⟨upper, name, hwritten.framed hframed hdir, hcleaned.framed hframed hdir⟩

end Standing

/-- Nothing can be stored, since one of the two paths leads to no directory, and nothing is found for the keys. -/
structure Gone (c : Cache) (keys : Set String) (d : Disk) : Prop where
  shut : (∃ entries, d.find .follow c.dir = .ok (.dir entries)) → ∀ left home, ¬ Home c d left home
  empty : ∀ key ∈ keys, ∀ raw, d.read (c.keyPath key) ≠ .ok raw

namespace Gone

variable {c : Cache} {keys : Set String} {d : Disk} (h : Gone c keys d)
include h

/-- **What is gone stays away** as long as nothing is added. -/
theorem of_adds {root : Node} (hadds : Node.Adds none d.root root) : Gone c keys { d with root := root } := by
  refine ⟨fun hthere left home hhome => ?_, fun key hkey raw hread => ?_⟩
  · obtain ⟨entries, hdir⟩ := hhome.dir
    refine h.shut ?_ left home ⟨hhome.trail.of_adds hadds, hadds.dirs hdir⟩
    have hdir : c.dir ≠ "" := by
      intro hempty
      obtain ⟨entries, hfind⟩ := hthere
      rw [hempty] at hfind
      cases hfind
    obtain ⟨left', place, entries, htrail', hplace⟩ := (Disk.find_dir_iff hdir).mp hthere
    obtain ⟨entries', hplace'⟩ := hadds.dirs hplace
    exact (Disk.find_dir_iff hdir).mpr ⟨left', place, entries', htrail'.of_adds hadds, hplace'⟩
  · obtain hnew | hread := Disk.read_of_adds hadds hread
    · cases hnew
    · exact h.empty key hkey raw hread

theorem set_none (place : List String) : Gone c keys { d with root := d.root.set place none } :=
  h.of_adds (Node.adds_set none place d.root)

/-- **Nothing can be stored.** -/
theorem exists_store_error (henabled : c.enabled = true) (now : Int) (key : String) (content data : Bytes) :
    ∃ e, c.store d now key content data = .error e := by
  cases hstore : c.store d now key content data with
  | error e => exact ⟨e, rfl⟩
  | ok d' =>
    exfalso
    unfold store at hstore
    rw [henabled, if_neg (by simp)] at hstore
    split at hstore
    · cases hstore
    split at hstore
    · cases hstore
    · rename_i entries hfind
      -- the file would have its place in the directory under the cleaned path
      have hplace : ∀ last place, d.place last (c.keyPath key) ≠ .ok place := by
        intro last place hplace
        obtain ⟨left, home, hhome, -⟩ := exists_home_of_place hplace
        exact h.shut ⟨entries, hfind⟩ left home hhome
      unfold Disk.replace at hstore
      cases hkeep : d.place .keep (c.keyPath key) with
      | ok place => exact hplace _ _ hkeep
      | error e =>
        cases hcreate : d.place .create (c.keyPath key) with
        | ok place => exact hplace _ _ hcreate
        | error e' => simp [hkeep, hcreate] at hstore
    · cases hstore

theorem lookup_eq {key : String} (hkey : key ∈ keys) (now : Int) (content : Bytes) :
    c.lookup d now key content = (none, d) := by
  unfold lookup
  split_ifs
  · rfl
  cases hread : d.read (c.keyPath key) with
  | error e => rfl
  | ok raw => exact absurd hread (h.empty key hkey raw)

theorem invalidate {key : String} {d' : Disk} (hinvalidate : c.invalidate d key = .ok d') : Gone c keys d' := by
  unfold Cache.invalidate at hinvalidate
  split_ifs at hinvalidate
  · cases hinvalidate
    exact h
  split at hinvalidate
  · rename_i hremove
    cases hinvalidate
    unfold Disk.remove at hremove
    split at hremove
    · cases hremove
    split at hremove
    · cases hremove
    · rw [← Except.ok.inj hremove]
      exact h.set_none _
  · split_ifs at hinvalidate
    cases hinvalidate
    exact h

theorem tryClear {d' : Disk} (hclear : c.tryClear d = .ok d') : Gone c keys d' := by
  unfold Cache.tryClear Disk.tryRemoveAll at hclear
  split_ifs at hclear
  · split at hclear
    · rw [← Except.ok.inj hclear]
      exact h
    · rw [← Except.ok.inj hclear]
      exact h
    · rw [← Except.ok.inj hclear]
      exact h.set_none _
  · rw [← Except.ok.inj hclear]
    exact h

end Gone

/-- **When the directory is removed**, it is gone under both paths, or nothing was removed. -/
theorem Standing.tryClear {c : Cache} {d : Disk} {left : Nat} {home : List String} (h : Standing c d left home)
    (henabled : c.enabled = true) (keys : Set String) : (∃ e, c.tryClear d = .error e) ∨
      ∃ d', c.tryClear d = .ok d' ∧ Gone c keys d' := by
  unfold Cache.tryClear Disk.tryRemoveAll
  rw [if_pos henabled]
  split_ifs with hpoint
  · exact .inl ⟨_, rfl⟩
  obtain ⟨upper, name, hwritten, hcleaned⟩ := h.removable.resolve_left hpoint
  obtain ⟨n, hn⟩ := hcleaned.exists_node h.trail
  obtain ⟨entries, hdir⟩ := Node.exists_dir_of_append (List.cons_ne_nil name []) hn
  have hplace : d.place .keep (Path.withoutTrailingSlashes c.dir) = .ok (upper ++ [name]) := by
    rw [Disk.place_eq_walk hwritten.ne_empty, hwritten.walk_keep hn]
  have hne : upper ++ [name] ≠ [] := by simp
  have hadds : Node.Adds none d.root (d.root.set (upper ++ [name]) none) := Node.adds_set none _ _
  have htrail := fun left home => hcleaned.not_trail hadds (Node.at?_set_none hdir name) left home
  rw [hplace]
  refine .inr ⟨{ d with root := d.root.set (upper ++ [name]) none }, ?_, fun _ left home hhome =>
    htrail left home hhome.trail, ?_⟩
  · split
    · rename_i heq
      cases heq
    · rename_i heq
      exact absurd (Except.ok.inj heq) hne
    · rename_i heq
      rw [← Except.ok.inj heq]
  · intro key _ raw hread
    obtain ⟨place, hfollow, -⟩ := Disk.read_eq_ok_iff.mp hread
    obtain ⟨left, home, hhome, -⟩ := exists_home_of_place hfollow
    exact htrail left home hhome.trail

/-! ## Where a cache may be -/

/-- The path of the directory ends in a name and may be cleaned, or it ends in a point. Nothing stands under
the names of the keys. -/
structure Sited (c : Cache) (keys : Set String) (d : Disk) : Prop where
  path : Path.endsInPoint c.dir = true ∨ Path.EndsInName c.dir ∧
    d.place .keep (Path.clean c.dir) = d.place .keep (Path.withoutTrailingSlashes c.dir)
  fresh : ∀ key ∈ keys, ∀ place, d.place .keep (c.keyPath key) ≠ .ok place

namespace Sited

/-- Without steps upwards a path may be cleaned. -/
theorem of_not_up {c : Cache} {keys : Set String} {d : Disk} (hname : Path.EndsInName c.dir)
    (hup : ".." ∉ Path.parts c.dir) (hfresh : ∀ key ∈ keys, ∀ place, d.place .keep (c.keyPath key) ≠ .ok place) :
    Sited c keys d :=
  ⟨.inr ⟨hname, Disk.place_clean hname hup d .keep⟩, hfresh⟩

variable {c : Cache} {keys : Set String} {d : Disk} (h : Sited c keys d)
include h

theorem removable (hthere : ∃ entries, d.find .follow c.dir = .ok (.dir entries)) :
    Path.endsInPoint c.dir = true ∨ ∃ upper name,
      Disk.EndsAt d.root (d.steps (Path.withoutTrailingSlashes c.dir)) upper name ∧
      Disk.EndsAt d.root (d.dirSteps c.dir) upper name := by
  refine h.path.imp_right fun ⟨hpath, hplaces⟩ => ?_
  obtain ⟨above, cleaned, name, blanks, hname, -, hsteps, hwritten, hdirSteps, hcleaned⟩ :=
    Disk.exists_steps hpath d
  obtain ⟨left, place, entries, htrail, -⟩ := (Disk.find_dir_iff hpath.ne_empty).mp hthere
  have hwalk := Disk.walk_of_trail htrail
  rw [hsteps] at hwalk
  obtain ⟨left', upper, habove, hrest⟩ := Disk.exists_trail (.inl rfl) _ _ _ hwalk
  obtain ⟨n, hn⟩ := Disk.exists_node_of_walk hname (by decide) hrest
  have hends : Disk.EndsAt d.root (d.steps (Path.withoutTrailingSlashes c.dir)) upper name :=
    ⟨hname, above, left', hwritten, habove⟩
  have hkeep : d.place .keep (Path.withoutTrailingSlashes c.dir) = .ok (upper ++ [name]) := by
    rw [Disk.place_eq_walk hends.ne_empty, hends.walk_keep hn]
  obtain ⟨upper', hupper, hends'⟩ := Disk.exists_endsAt hcleaned hname (hplaces.trans hkeep)
  obtain rfl : upper = upper' := List.append_cancel_right hupper
  rw [hcleaned, ← hdirSteps] at hends'
  exact ⟨upper, name, hends, hends'⟩

theorem entry_missing {left : Nat} {home : List String} (hhome : Home c d left home) {key : String} (hkey : key ∈ keys) :
    d.root.at? (home ++ [entryName key]) = none := by
  cases hchild : d.root.at? (home ++ [entryName key]) with
  | none => rfl
  | some n => exact absurd (hhome.place_of_node hchild) (h.fresh key hkey _)

theorem read_ne_ok {key : String} (hkey : key ∈ keys) (raw : Bytes) : d.read (c.keyPath key) ≠ .ok raw := by
  intro hread
  obtain ⟨place, hfollow, -⟩ := Disk.read_eq_ok_iff.mp hread
  obtain ⟨left, home, hhome, hwalk⟩ := exists_home_of_place hfollow
  obtain ⟨n, hn⟩ := Disk.exists_node_of_walk (proper_entryName key) (by decide) hwalk
  rw [h.entry_missing hhome hkey] at hn
  cases hn

/-- **At the start** the directory stands without entries, or nothing can be stored at all. -/
theorem standing_or_gone : (∃ left home, Standing c d left home ∧
    ∀ key ∈ keys, d.root.at? (home ++ [entryName key]) = none) ∨ Gone c keys d := by
  by_cases hthere : ∃ entries, d.find .follow c.dir = .ok (.dir entries)
  · by_cases hhome : ∃ left home, Home c d left home
    · obtain ⟨left, home, hhome⟩ := hhome
      exact .inl ⟨left, home, ⟨hhome, hthere, h.removable hthere⟩, fun key hkey => h.entry_missing hhome hkey⟩
    · exact .inr ⟨fun _ left home hcontra => hhome ⟨left, home, hcontra⟩, fun key hkey => h.read_ne_ok hkey⟩
  · exact .inr ⟨fun hcontra => absurd hcontra hthere, fun key hkey => h.read_ne_ok hkey⟩

end Sited

end Cache

end ScriptSplit
