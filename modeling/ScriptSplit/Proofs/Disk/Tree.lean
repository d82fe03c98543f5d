import Mathlib
import ScriptSplit.Disk.Tree
import ScriptSplit.Proofs.Text.Sorted

/-!
# What a change of a file tree can bring to light

After a file is written, every path leads to the new content or to what it led to before; after
something is removed, to what it led to before or to nothing. This holds through links and across all
directories, since a path is walked in the old tree the way it is walked in the new one.

* `Node.Adds`: nothing is new in a tree but files of one content.
* `adds_set`: one change of a tree; `walk_of_adds`: a walk in the changed tree.
* `find_eq_ok_iff`, `read_eq_ok_iff`: what is found, and what is read.
* **`read_of_write`**, **`read_of_replace`**, **`read_of_remove`**, **`read_of_tryRemoveAll`**: the contents that
  are read.
-/

namespace ScriptSplit

namespace Node

/-- Both are directories, or there is no difference. -/
def Like (n m : Node) : Prop := n = m ∨ n.isDir = true ∧ m.isDir = true

/-- Whatever is in the second tree is in the first one, up to the entries of directories, or is a file of
the given content. -/
def Adds (content : Option Bytes) (old new : Node) : Prop :=
  ∀ place n, new.at? place = some n →
    (∃ t, content = some t ∧ n = .file t) ∨ ∃ m, old.at? place = some m ∧ n.Like m

theorem at?_append (n : Node) (place place' : List String) :
    n.at? (place ++ place') = (n.at? place).bind (at? place') := by
  induction place generalizing n with
  | nil => rfl
  | cons name place ih =>
    rw [List.cons_append, at?, at?, Option.bind_assoc]
    exact Option.bind_congr fun m _ => ih m

theorem at?_concat {n : Node} {place : List String} {entries : List (String × Node)}
    (h : n.at? place = some (.dir entries)) (name : String) :
    n.at? (place ++ [name]) = entries.lookup name := by
  rw [at?_append, h, Option.bind_some, at?]
  change (entries.lookup name).bind (at? []) = _
  cases entries.lookup name with
  | none => rfl
  | some m => rfl

theorem Adds.refl (content : Option Bytes) (n : Node) : Adds content n n :=
  fun _ m hm => .inr ⟨m, hm, .inl rfl⟩

/-- Directories whose entries differ by files of a content differ by such files. -/
theorem Adds.dir {content : Option Bytes} {old new : List (String × Node)}
    (h : ∀ name n, new.lookup name = some n →
      (∃ t, content = some t ∧ n = .file t) ∨ ∃ m, old.lookup name = some m ∧ Adds content m n) :
    Adds content (.dir old) (.dir new) := by
  intro place n hn
  cases place with
  | nil =>
    cases hn
    exact .inr ⟨_, rfl, .inr ⟨rfl, rfl⟩⟩
  | cons name rest =>
    rw [at?] at hn
    obtain ⟨m, hm, hn⟩ := Option.bind_eq_some_iff.mp hn
    obtain ⟨t, ht, rfl⟩ | ⟨m', hm', hadds⟩ := h name m hm
    · cases rest with
      | nil =>
        cases hn
        exact .inl ⟨t, ht, rfl⟩
      | cons name' rest =>
        cases hn
    · obtain hfile | ⟨n', hn', hlike⟩ := hadds rest n hn
      · exact .inl hfile
      · exact .inr ⟨n', Option.bind_eq_some_iff.mpr ⟨m', hm', hn'⟩, hlike⟩

theorem adds_getD (content : Option Bytes) (n : Node) : Adds content n ((content.map file).getD n) := by
  cases content with
  | none => exact Adds.refl none n
  | some t =>
    intro place m hm
    cases place with
    | nil =>
      cases hm
      exact .inl ⟨t, rfl, rfl⟩
    | cons name rest => cases hm

/-- **One change** of a tree adds at most the file that it sets. -/
theorem adds_set (content : Option Bytes) (place : List String) (n : Node) :
    Adds content n (n.set place (content.map file)) := by
  induction place generalizing n with
  | nil =>
    rw [set]
    exact adds_getD content n
  | cons name rest ih =>
    cases n with
    | file t => cases rest <;> exact Adds.refl content _
    | link target => cases rest <;> exact Adds.refl content _
    | dir entries =>
      cases rest with
      | nil =>
        cases content with
        | none =>
          change Adds none (dir entries) (dir (Dict.erase name entries))
          refine Adds.dir fun x n hn => .inr ⟨n, ?_, Adds.refl none n⟩
          rw [Dict.lookup_erase] at hn
          split_ifs at hn
          exact hn
        | some t =>
          change Adds (some t) (dir entries) (dir (Dict.put name (file t) entries))
          refine Adds.dir fun x n hn => ?_
          rw [Dict.lookup_put] at hn
          split_ifs at hn
          · exact .inl ⟨t, rfl, (Option.some.inj hn).symm⟩
          · exact .inr ⟨n, hn, Adds.refl (some t) n⟩
      | cons name' rest =>
        cases hchild : entries.lookup name with
        | none =>
          simp only [set, hchild]
          exact Adds.refl content _
        | some m =>
          simp only [set, hchild]
          refine Adds.dir fun x n hn => .inr ?_
          rw [Dict.lookup_put] at hn
          split_ifs at hn with hx
          · cases hn
            exact ⟨m, hx ▸ hchild, ih m⟩
          · exact ⟨n, hn, Adds.refl content n⟩

/-- Below a directory of both trees, a link of the second one is a link of the first one. -/
theorem Adds.link {content : Option Bytes} {old new : Node} (h : Adds content old new) {place : List String}
    {target : String} (hnew : new.at? place = some (.link target)) : old.at? place = some (.link target) := by
  obtain ⟨t, -, ht⟩ | ⟨m, hm, rfl | ⟨hdir, -⟩⟩ := h place _ hnew
  · cases ht
  · exact hm
  · cases hdir

theorem Adds.dirs {content : Option Bytes} {old new : Node} (h : Adds content old new) {place : List String}
    {entries : List (String × Node)} (hnew : new.at? place = some (.dir entries)) :
    ∃ entries', old.at? place = some (.dir entries') := by
  obtain ⟨t, -, ht⟩ | ⟨m, hm, rfl | ⟨-, hdir⟩⟩ := h place _ hnew
  · cases ht
  · exact ⟨entries, hm⟩
  · cases m with
    | dir entries' => exact ⟨entries', hm⟩
    | file t => cases hdir
    | link target => cases hdir

end Node

namespace Disk

/-- Nothing lies below a file. -/
theorem walk_file {root : Node} {last : LastStep} {links : Nat} {here todo place : List String} {t : Bytes}
    (hfile : root.at? here = some (.file t)) (hwalk : walk root last links here todo = .ok place) :
    place = here := by
  cases todo with
  | nil =>
    rw [walk] at hwalk
    exact (Except.ok.inj hwalk).symm
  | cons segment rest =>
    rw [walk] at hwalk
    simp only [hfile] at hwalk
    cases hwalk

/-- **A walk in the changed tree** ends at a new file, or it is a walk in the old tree. -/
theorem walk_of_adds {content : Option Bytes} {old new : Node} (h : Node.Adds content old new)
    {links : Nat} {here todo place : List String} (hwalk : walk new .follow links here todo = .ok place) :
    (∃ t, content = some t ∧ new.at? place = some (.file t)) ∨ walk old .follow links here todo = .ok place := by
  fun_induction walk new .follow links here todo with
  | case1 links here =>
    rw [walk]
    exact .inr hwalk
  | case2 links here segment rest entries hdir hsegment ih =>
    obtain ⟨entries', hdir'⟩ := h.dirs hdir
    rw [walk]
    simp only [hdir', hsegment]
    exact ih hwalk
  | case3 links here rest entries hdir hsegment ih =>
    obtain ⟨entries', hdir'⟩ := h.dirs hdir
    rw [walk]
    simp only [hdir']
    exact ih hwalk
  | case4 => simp_all
  | case5 => cases hwalk
  | case6 => simp_all
  | case7 => cases hwalk
  | case8 here segment rest entries hdir hsegment hup target hlink hkeep links ih =>
    obtain ⟨entries', hdir'⟩ := h.dirs hdir
    rw [← Node.at?_concat hdir] at hlink
    have hlink' := h.link hlink
    rw [Node.at?_concat hdir'] at hlink'
    rw [walk]
    simp only [hdir', hsegment, hup, hlink', hkeep]
    exact ih hwalk
  | case9 links here segment rest entries hdir hsegment hup n hn hchild ih =>
    obtain ⟨entries', hdir'⟩ := h.dirs hdir
    have hplace := Node.at?_concat hdir segment
    rw [hchild] at hplace
    obtain ⟨t, ht, rfl⟩ | ⟨m, hm, hlike⟩ := h _ n hplace
    · rw [walk_file hplace hwalk]
      exact .inl ⟨t, ht, hplace⟩
    · rw [Node.at?_concat hdir'] at hm
      have hm' : ∀ target, m ≠ .link target := by
        rintro target rfl
        obtain rfl | ⟨-, hdir⟩ := hlike
        · exact hn target rfl
        · cases hdir
      rw [walk]
      simp only [hdir', hsegment, hup, hm]
      exact ih hwalk
  | case10 => cases hwalk

theorem find_eq_ok_iff {d : Disk} {last : LastStep} {path : String} {n : Node} : d.find last path = .ok n ↔
    ∃ place, d.place last path = .ok place ∧ d.root.at? place = some n := by
  unfold find
  cases d.place last path with
  | error e => simp
  | ok place => cases hnode : d.root.at? place <;> simp [hnode]

theorem read_eq_ok_iff {d : Disk} {path : String} {t : Bytes} :
    d.read path = .ok t ↔ ∃ place, d.place .follow path = .ok place ∧ d.root.at? place = some (.file t) := by
  unfold read find
  cases d.place .follow path with
  | error e => simp
  | ok place =>
    cases hnode : d.root.at? place with
    | none => simp [hnode]
    | some n => cases n <;> simp [hnode]

theorem read_of_adds {content : Option Bytes} {d : Disk} {root : Node} (h : Node.Adds content d.root root)
    {path : String} {t : Bytes} (hread : ({ d with root := root } : Disk).read path = .ok t) :
    content = some t ∨ d.read path = .ok t := by
  obtain ⟨place, hplace, hfile⟩ := read_eq_ok_iff.mp hread
  have hold : (∃ u, content = some u ∧ root.at? place = some (.file u)) ∨ d.place .follow path = .ok place := by
    unfold Disk.place at hplace ⊢
    split_ifs at hplace ⊢
    · exact walk_of_adds h hplace
    · exact walk_of_adds h hplace
  obtain ⟨u, hu, hfile'⟩ | hold := hold
  · rw [hfile] at hfile'
    cases hfile'
    exact .inl hu
  · obtain ⟨u, hu, hfile'⟩ | ⟨n, hn, rfl | ⟨hdir, -⟩⟩ := h place _ hfile
    · cases hfile'
      exact .inl hu
    · exact .inr (read_eq_ok_iff.mpr ⟨place, hold, hn⟩)
    · cases hdir

/-- **After a file is written** a path leads to the new content or to what it led to before. -/
theorem read_of_write {d d' : Disk} {path path' : String} {content t : Bytes}
    (hwrite : d.write path content = .ok d') (hread : d'.read path' = .ok t) :
    t = content ∨ d.read path' = .ok t := by
  unfold write at hwrite
  split at hwrite
  · cases hwrite
  split at hwrite
  · cases hwrite
  cases hwrite
  obtain hnew | hold := read_of_adds (Node.adds_set (some content) _ d.root) hread
  · exact .inl (Option.some.inj hnew).symm
  · exact .inr hold

theorem read_of_set_none {d : Disk} {place : List String} {path : String} {t : Bytes}
    (hread : ({ d with root := d.root.set place none } : Disk).read path = .ok t) : d.read path = .ok t := by
  obtain hnew | hold := read_of_adds (Node.adds_set none place d.root) hread
  · cases hnew
  · exact hold

/-- **After something is removed** a path leads to what it led to before. -/
theorem read_of_remove {d d' : Disk} {path path' : String} {t : Bytes} (hremove : d.remove path = .ok d')
    (hread : d'.read path' = .ok t) : d.read path' = .ok t := by
  unfold remove at hremove
  split at hremove
  · cases hremove
  split at hremove
  · cases hremove
  cases hremove
  exact read_of_set_none hread

/-- **After a directory is removed with all below it** a path leads to what it led to before. -/
theorem read_of_tryRemoveAll {d d' : Disk} {path path' : String} {t : Bytes} (hremove : d.tryRemoveAll path = .ok d')
    (hread : d'.read path' = .ok t) : d.read path' = .ok t := by
  unfold tryRemoveAll at hremove
  split_ifs at hremove
  split at hremove
  · cases hremove
    exact hread
  · cases hremove
    exact hread
  · cases hremove
    exact read_of_set_none hread

/-- After a file takes the place of a file or a link, a path leads to the new content or to what it led to
before. -/
theorem read_of_replace {d d' : Disk} {path path' : String} {content t : Bytes}
    (hreplace : d.replace path content = .ok d') (hread : d'.read path' = .ok t) :
    t = content ∨ d.read path' = .ok t := by
  have hset : ∀ place, d' = { d with root := d.root.set place (some (.file content)) } →
      t = content ∨ d.read path' = .ok t := by
    rintro place rfl
    obtain hnew | hold := read_of_adds (Node.adds_set (some content) place d.root) hread
    · exact .inl (Option.some.inj hnew).symm
    · exact .inr hold
  unfold replace at hreplace
  split at hreplace
  · split at hreplace
    · cases hreplace
    · exact hset _ (Except.ok.inj hreplace).symm
  · split at hreplace
    · exact hset _ (Except.ok.inj hreplace).symm
    · cases hreplace

end Disk

end ScriptSplit
