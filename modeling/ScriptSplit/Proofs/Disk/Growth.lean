import Mathlib
import ScriptSplit.Proofs.Disk.Path
import ScriptSplit.Proofs.Disk.Tree

/-!
# Trees that only grow

To write a file and to make directories adds to a tree: what is there stays, files keep their content
but for those that are written, and no link is new.

* `Node.at?_set_append`, `Node.rel_like_set`: the node at a place after one change.
* `Node.Linkless`: a node without links below it.
* `Node.Grows`: one tree holds all of another; `Node.grows_set`: one change.
* **`Disk.grows_mkdirAll`**, **`Disk.write_eq_ok`**: what the operations on a disk do.
-/

namespace ScriptSplit

namespace Node

/-! ## One change of a tree -/

theorem set_cons {name : String} {rest : List String} (hrest : rest ≠ []) (new : Option Node)
    (entries : List (String × Node)) : (dir entries).set (name :: rest) new =
      match entries.lookup name with
      | some n => dir (Dict.put name (set rest new n) entries)
      | none => dir entries := by
  cases rest with
  | nil => exact absurd rfl hrest
  | cons name' rest => rfl

theorem isDir_set (name : String) (rest : List String) (new : Option Node) (entries : List (String × Node)) :
    ((dir entries).set (name :: rest) new).isDir = true := by
  cases rest with
  | nil => cases new <;> rfl
  | cons name' rest =>
    rw [set_cons (List.cons_ne_nil _ _)]
    split <;> rfl

theorem child?_set_of_ne {name x : String} (hx : x ≠ name) (rest : List String) (new : Option Node)
    (entries : List (String × Node)) :
    ((dir entries).set (name :: rest) new).child? x = entries.lookup x := by
  have hput : ∀ m : Node, (Dict.put name m entries).lookup x = entries.lookup x := by
    intro m
    rw [Dict.lookup_put, if_neg hx]
  cases rest with
  | nil =>
    cases new with
    | none => exact (Dict.lookup_erase x name entries).trans (if_neg hx)
    | some n => exact hput n
  | cons name' rest =>
    rw [set_cons (List.cons_ne_nil _ _)]
    split
    · exact hput _
    · rfl

/-- Below the place of a change stands what was set. -/
theorem at?_set_append {root n : Node} {above : List String} {name : String} {entries : List (String × Node)}
    (h : root.at? above = some (.dir entries)) (below : List String) :
    (root.set (above ++ [name]) (some n)).at? (above ++ [name] ++ below) = n.at? below := by
  induction above generalizing root with
  | nil =>
    cases h
    change ((Dict.put name n entries).lookup name).bind (at? below) = _
    rw [Dict.lookup_put, if_pos rfl]
    rfl
  | cons x above ih =>
    rw [at?] at h
    obtain ⟨child, hchild, habove⟩ := Option.bind_eq_some_iff.mp h
    cases root with
    | file t => cases hchild
    | link target => cases hchild
    | dir entries' =>
      change entries'.lookup x = some child at hchild
      rw [List.cons_append, set_cons (by simp)]
      simp only [hchild]
      change ((Dict.put x _ entries').lookup x).bind (at? (above ++ [name] ++ below)) = _
      rw [Dict.lookup_put, if_pos rfl]
      exact ih habove

theorem at?_set_self {root : Node} {above : List String} {entries : List (String × Node)}
    (h : root.at? above = some (.dir entries)) (name : String) (n : Node) :
    (root.set (above ++ [name]) (some n)).at? (above ++ [name]) = some n := by
  have hbelow : (root.set (above ++ [name]) (some n)).at? (above ++ [name] ++ []) = n.at? [] :=
    at?_set_append h []
  rwa [List.append_nil] at hbelow

/-- What was removed is not there. -/
theorem at?_set_none {root : Node} {above : List String} {entries : List (String × Node)}
    (h : root.at? above = some (.dir entries)) (name : String) :
    (root.set (above ++ [name]) none).at? (above ++ [name]) = none := by
  induction above generalizing root with
  | nil =>
    cases h
    change ((Dict.erase name entries).lookup name).bind (at? []) = none
    rw [Dict.lookup_erase, if_pos rfl]
    rfl
  | cons x above ih =>
    rw [at?] at h
    obtain ⟨child, hchild, habove⟩ := Option.bind_eq_some_iff.mp h
    cases root with
    | file t => cases hchild
    | link target => cases hchild
    | dir entries' =>
      change entries'.lookup x = some child at hchild
      rw [List.cons_append, set_cons (by simp)]
      simp only [hchild]
      change ((Dict.put x _ entries').lookup x).bind (at? (above ++ [name])) = none
      rw [Dict.lookup_put, if_pos rfl]
      exact ih habove

theorem rel_like_refl (o : Option Node) : Option.Rel Like o o := by
  cases o with
  | none => exact .none
  | some n => exact .some (.inl rfl)

/-- Away from the place of a change, nodes are as they were up to the entries of directories. -/
theorem rel_like_set {root : Node} {place place' : List String} (h : ¬ place <+: place') (new : Option Node) :
    Option.Rel Like ((root.set place new).at? place') (root.at? place') := by
  induction place generalizing root place' with
  | nil => exact absurd List.nil_prefix h
  | cons name rest ih =>
    cases root with
    | file t => cases rest <;> exact rel_like_refl _
    | link target => cases rest <;> exact rel_like_refl _
    | dir entries =>
      cases place' with
      | nil => exact .some (.inr ⟨isDir_set name rest new entries, rfl⟩)
      | cons x below =>
        rw [at?, at?]
        by_cases hx : x = name
        · subst hx
          have hbelow : ¬ rest <+: below := fun hprefix => h (List.cons_prefix_cons.mpr ⟨rfl, hprefix⟩)
          have hrest : rest ≠ [] := fun hnil => hbelow (hnil ▸ List.nil_prefix)
          rw [set_cons hrest, child?]
          cases hchild : entries.lookup x with
          | none =>
            simp only [child?, hchild]
            exact .none
          | some m =>
            simp only [child?, Dict.lookup_put, if_pos]
            exact ih hbelow
        · rw [child?_set_of_ne hx]
          exact rel_like_refl _

/-! ## Trees that hold all of another -/

/-- There are no links in the tree. -/
def Linkless (n : Node) : Prop := ∀ place target, n.at? place ≠ some (.link target)

theorem linkless_file (t : Bytes) : (file t).Linkless := by
  intro place target h
  cases place with
  | nil => cases h
  | cons name rest => cases h

theorem linkless_dir_nil : (dir []).Linkless := by
  intro place target h
  cases place with
  | nil => cases h
  | cons name rest => cases h

/-- The second tree holds all of the first one, up to the entries of directories and the contents of the
files that were written, and no link is new. -/
structure Grows (written : Set (List String)) (old new : Node) : Prop where
  kept : ∀ place n, old.at? place = some n → ∃ m, new.at? place = some m ∧
    (m.Like n ∨ place ∈ written ∧ ∃ s t, n = .file s ∧ m = .file t)
  links : ∀ place target, new.at? place = some (.link target) → old.at? place = some (.link target)

theorem Like.file_right {n m : Node} (h : n.Like m) {t : Bytes} (hm : m = .file t) : n = .file t := by
  obtain rfl | ⟨-, hdir⟩ := h
  · exact hm
  · rw [hm] at hdir
    cases hdir

theorem Like.file_left {n m : Node} (h : n.Like m) {t : Bytes} (hn : n = .file t) : m = .file t := by
  obtain rfl | ⟨hdir, -⟩ := h
  · exact hn
  · rw [hn] at hdir
    cases hdir

theorem Like.trans {a b c : Node} (hab : a.Like b) (hbc : b.Like c) : a.Like c := by
  obtain rfl | ⟨ha, hb⟩ := hab
  · exact hbc
  · obtain rfl | ⟨-, hc⟩ := hbc
    · exact .inr ⟨ha, hb⟩
    · exact .inr ⟨ha, hc⟩

namespace Grows

variable {written written' : Set (List String)} {old new newer : Node} {place : List String}

theorem refl (written : Set (List String)) (n : Node) : Grows written n n :=
  ⟨fun _ m hm => ⟨m, hm, .inl (.inl rfl)⟩, fun _ _ h => h⟩

theorem mono (h : Grows written old new) (hsubset : written ⊆ written') : Grows written' old new := by
  refine ⟨fun place n hn => ?_, h.links⟩
  obtain ⟨m, hm, hlike | ⟨hwritten, hfiles⟩⟩ := h.kept place n hn
  · exact ⟨m, hm, .inl hlike⟩
  · exact ⟨m, hm, .inr ⟨hsubset hwritten, hfiles⟩⟩

theorem trans (h : Grows written old new) (h' : Grows written new newer) : Grows written old newer := by
  refine ⟨fun place n hn => ?_, fun place target hlink => h.links _ _ (h'.links _ _ hlink)⟩
  obtain ⟨m, hm, hlike⟩ := h.kept place n hn
  obtain ⟨m', hm', hlike'⟩ := h'.kept place m hm
  refine ⟨m', hm', ?_⟩
  rcases hlike with hlike | ⟨hwritten, s, t, hs, ht⟩
  · rcases hlike' with hlike' | ⟨hwritten, s, t, hs, ht⟩
    · exact .inl (hlike'.trans hlike)
    · exact .inr ⟨hwritten, s, t, hlike.file_left hs, ht⟩
  · rcases hlike' with hlike' | ⟨-, s', t', hs', ht'⟩
    · exact .inr ⟨hwritten, s, t, hs, hlike'.file_right ht⟩
    · exact .inr ⟨hwritten, s, t', hs, ht'⟩

theorem dir (h : Grows written old new) {entries : List (String × Node)}
    (hold : old.at? place = some (.dir entries)) : ∃ entries', new.at? place = some (.dir entries') := by
  obtain ⟨m, hm, (rfl | ⟨hdir, -⟩) | ⟨-, s, t, hs, -⟩⟩ := h.kept place _ hold
  · exact ⟨entries, hm⟩
  · cases m with
    | dir entries' => exact ⟨entries', hm⟩
    | file t => cases hdir
    | link target => cases hdir
  · cases hs

theorem link (h : Grows written old new) {target : String} (hold : old.at? place = some (.link target)) :
    new.at? place = some (.link target) := by
  obtain ⟨m, hm, (rfl | ⟨-, hdir⟩) | ⟨-, s, t, hs, -⟩⟩ := h.kept place _ hold
  · exact hm
  · cases hdir
  · cases hs

theorem file (h : Grows written old new) (hplace : place ∉ written) {t : Bytes}
    (hold : old.at? place = some (.file t)) : new.at? place = some (.file t) := by
  obtain ⟨m, hm, hlike | ⟨hwritten, -⟩⟩ := h.kept place _ hold
  · rw [hm, hlike.file_right rfl]
  · exact absurd hwritten hplace

end Grows

/-- What has something below it is a directory. -/
theorem exists_dir_of_append {root n : Node} {place below : List String} (hbelow : below ≠ [])
    (h : root.at? (place ++ below) = some n) : ∃ entries, root.at? place = some (.dir entries) := by
  rw [at?_append] at h
  obtain ⟨m, hm, hn⟩ := Option.bind_eq_some_iff.mp h
  cases below with
  | nil => exact absurd rfl hbelow
  | cons name below =>
    cases m with
    | dir entries => exact ⟨entries, hm⟩
    | file t => cases hn
    | link target => cases hn

/-- **One change**: a file takes the place of a file or of nothing, or a directory that of nothing. -/
theorem grows_set {written : Set (List String)} {root n : Node} {above : List String} {name : String}
    {entries : List (String × Node)} (habove : root.at? above = some (.dir entries)) (hn : n.Linkless)
    (hold : ∀ m, root.at? (above ++ [name]) = some m →
      above ++ [name] ∈ written ∧ ∃ s t, m = .file s ∧ n = .file t) :
    Grows written root (root.set (above ++ [name]) (some n)) := by
  refine ⟨fun place m hm => ?_, fun place target hlink => ?_⟩
  · by_cases hprefix : above ++ [name] <+: place
    · obtain ⟨below, rfl⟩ := hprefix
      by_cases hbelow : below = []
      · subst hbelow
        rw [List.append_nil] at hm ⊢
        obtain ⟨hwritten, s, t, rfl, rfl⟩ := hold m hm
        exact ⟨.file t, at?_set_self habove name _, .inr ⟨hwritten, s, t, rfl, rfl⟩⟩
      · -- something below the place would make a directory of it, and directories are not replaced
        obtain ⟨entries', hdir⟩ := exists_dir_of_append hbelow hm
        obtain ⟨-, s, t, hs, -⟩ := hold _ hdir
        cases hs
    · have hrel : Option.Rel Like _ (root.at? place) := rel_like_set hprefix (some n)
      rw [hm] at hrel
      generalize (root.set (above ++ [name]) (some n)).at? place = o at hrel ⊢
      cases hrel with
      | some hlike => exact ⟨_, rfl, .inl hlike⟩
  · by_cases hprefix : above ++ [name] <+: place
    · obtain ⟨below, rfl⟩ := hprefix
      rw [at?_set_append habove] at hlink
      exact absurd hlink (hn below target)
    · have hrel : Option.Rel Like _ (root.at? place) := rel_like_set hprefix (some n)
      rw [hlink] at hrel
      generalize root.at? place = o at hrel ⊢
      cases hrel with
      | some hlike =>
        obtain rfl | ⟨hdir, -⟩ := hlike
        · rfl
        · cases hdir

end Node

namespace Disk

/-! ## Where a walk ends -/

/-- There is something at the place, and it is no link. -/
def Solid (root : Node) (place : List String) : Prop :=
  ∃ n, root.at? place = some n ∧ ∀ target, n ≠ .link target

theorem solid_of_dir {root : Node} {place : List String} {entries : List (String × Node)}
    (h : root.at? place = some (.dir entries)) : Solid root place :=
  ⟨_, h, fun _ hlink => by cases hlink⟩

theorem Solid.grows {written : Set (List String)} {old new : Node} {place : List String} (h : Solid old place)
    (hgrows : Node.Grows written old new) : Solid new place := by
  obtain ⟨n, hn, hlink⟩ := h
  obtain ⟨m, hm, -⟩ := hgrows.kept place n hn
  refine ⟨m, hm, fun target heq => ?_⟩
  rw [heq] at hm
  have hold := hgrows.links place target hm
  rw [hn] at hold
  exact hlink target (Option.some.inj hold)

theorem solid_dropLast {root : Node} {place : List String} {entries : List (String × Node)}
    (h : root.at? place = some (.dir entries)) : Solid root place.dropLast := by
  by_cases hnil : place = []
  · subst hnil
    exact solid_of_dir h
  · rw [← List.dropLast_append_getLast hnil] at h
    obtain ⟨entries', hdir⟩ := Node.exists_dir_of_append (List.cons_ne_nil _ _) h
    exact solid_of_dir hdir

theorem solid_root {root : Node} {place : List String} {entries : List (String × Node)}
    (h : root.at? place = some (.dir entries)) : Solid root [] := by
  cases place with
  | nil => exact solid_of_dir h
  | cons name rest =>
    have happend : root.at? ([] ++ name :: rest) = some (.dir entries) := h
    obtain ⟨entries', hdir⟩ := Node.exists_dir_of_append (List.cons_ne_nil name rest) happend
    exact solid_of_dir hdir

/-- A walk that follows links ends at something that is no link. -/
theorem solid_walk {root : Node} {links : Nat} {here todo place : List String} (hhere : Solid root here)
    (h : walk root .follow links here todo = .ok place) : Solid root place := by
  fun_induction walk root .follow links here todo with
  | case1 links here =>
    cases h
    exact hhere
  | case2 links here segment rest entries hdir hsegment ih => exact ih hhere h
  | case3 links here rest entries hdir hsegment ih => exact ih (solid_dropLast hdir) h
  | case4 => simp_all
  | case5 => cases h
  | case6 => simp_all
  | case7 => cases h
  | case8 here segment rest entries hdir hsegment hup target hlink hkeep links ih =>
    refine ih ?_ h
    split_ifs
    · exact solid_root hdir
    · exact hhere
  | case9 links here segment rest entries hdir hsegment hup n hn hchild ih =>
    refine ih ⟨n, ?_, hn⟩ h
    rw [Node.at?_concat hdir]
    exact hchild
  | case10 => cases h

/-- A walk that may end at a new name ends at one, or it is a walk to something that is there. -/
theorem walk_create {root : Node} {links : Nat} {here todo place : List String}
    (h : walk root .create links here todo = .ok place) :
    walk root .follow links here todo = .ok place ∨ root.at? place = none ∧
      ∃ above name entries, place = above ++ [name] ∧ root.at? above = some (.dir entries) := by
  fun_induction walk root .create links here todo with
  | case1 links here =>
    rw [walk]
    exact .inl h
  | case2 links here segment rest entries hdir hsegment ih =>
    rw [walk]
    simp only [hdir, hsegment]
    exact ih h
  | case3 links here rest entries hdir hsegment ih =>
    rw [walk]
    simp only [hdir]
    exact ih h
  | case4 links here segment rest entries hdir hsegment hup hchild hrest =>
    -- the one step at which the two walks differ
    cases h
    refine .inr ⟨?_, here, segment, entries, rfl, hdir⟩
    rw [Node.at?_concat hdir]
    exact hchild
  | case5 => cases h
  | case6 => simp_all
  | case7 => cases h
  | case8 here segment rest entries hdir hsegment hup target hlink hkeep links ih =>
    rw [walk]
    simp only [hdir, hsegment, hup, hlink]
    exact ih h
  | case9 links here segment rest entries hdir hsegment hup n hn hchild ih =>
    rw [walk]
    simp only [hdir, hsegment, hup, hchild]
    exact ih h
  | case10 => cases h

/-- A walk that takes a step starts in a directory. -/
theorem exists_dir_of_walk {root : Node} {last : LastStep} {links : Nat} {here todo place : List String}
    (hne : todo ≠ []) (h : walk root last links here todo = .ok place) :
    ∃ entries, root.at? here = some (.dir entries) := by
  cases todo with
  | nil => exact absurd rfl hne
  | cons segment rest =>
    rw [walk] at h
    split at h
    · exact ⟨_, ‹_›⟩
    · cases h

/-- The steps of a path, from the root on. -/
def steps (d : Disk) (path : String) : List String :=
  Path.parts (if Path.isAbs path then path else d.cwd ++ "/" ++ path)

theorem steps_ne_nil (d : Disk) (path : String) : d.steps path ≠ [] := Path.parts_ne_nil _

theorem place_eq_walk {path : String} (hpath : path ≠ "") (d : Disk) (last : LastStep) :
    d.place last path = walk d.root last maxLinks [] (d.steps path) := by
  unfold place
  rw [if_neg hpath]
  rfl

theorem ne_empty_of_place {d : Disk} {last : LastStep} {path : String} {place : List String}
    (h : d.place last path = .ok place) : path ≠ "" := by
  rintro rfl
  cases h

/-- A path that leads somewhere through all links leads to something that is no link. -/
theorem solid_place {d : Disk} {path : String} {place : List String} (h : d.place .follow path = .ok place) :
    Solid d.root place := by
  rw [place_eq_walk (ne_empty_of_place h)] at h
  obtain ⟨entries, hdir⟩ := exists_dir_of_walk (d.steps_ne_nil path) h
  exact solid_walk (solid_of_dir hdir) h

/-- The place of a path that may be new is the place of something that is there, or it is free in a
directory. -/
theorem place_create {d : Disk} {path : String} {place : List String} (h : d.place .create path = .ok place) :
    d.place .follow path = .ok place ∨ d.root.at? place = none ∧
      ∃ above name entries, place = above ++ [name] ∧ d.root.at? above = some (.dir entries) := by
  have hpath := ne_empty_of_place h
  rw [place_eq_walk hpath] at h ⊢
  exact walk_create h

/-! ## Operations -/

/-- **A file that was written** took the place of a file or of nothing. -/
theorem write_eq_ok {d d' : Disk} {path : String} {content : Bytes} (h : d.write path content = .ok d') :
    ∃ above name entries, d.place .create path = .ok (above ++ [name]) ∧
      d.root.at? above = some (.dir entries) ∧
      (∀ n, d.root.at? (above ++ [name]) = some n → ∃ t, n = .file t) ∧
      d' = { d with root := d.root.set (above ++ [name]) (some (.file content)) } := by
  unfold write at h
  split at h
  · cases h
  rename_i place hplace
  split at h
  · cases h
  rename_i hnotdir
  cases h
  rcases place_create hplace with hfollow | ⟨hnone, above, name, entries, rfl, hdir⟩
  · obtain ⟨n, hn, hlink⟩ := solid_place hfollow
    obtain ⟨t, rfl⟩ : ∃ t, n = .file t := by
      cases n with
      | file t => exact ⟨t, rfl⟩
      | dir entries => exact absurd hn (hnotdir entries)
      | link target => exact absurd rfl (hlink target)
    have hne : place ≠ [] := by
      rintro rfl
      rw [place_eq_walk (ne_empty_of_place hplace)] at hplace
      obtain ⟨entries, hdir⟩ := exists_dir_of_walk (d.steps_ne_nil path) hplace
      exact hnotdir entries hdir
    obtain ⟨above, name, rfl⟩ : ∃ above name, place = above ++ [name] :=
      ⟨_, _, (List.dropLast_append_getLast hne).symm⟩
    obtain ⟨entries, hdir⟩ := Node.exists_dir_of_append (List.cons_ne_nil name []) hn
    refine ⟨above, name, entries, hplace, hdir, fun m hm => ?_, rfl⟩
    rw [hn] at hm
    exact ⟨t, (Option.some.inj hm).symm⟩
  · refine ⟨above, name, entries, hplace, hdir, fun m hm => ?_, rfl⟩
    rw [hnone] at hm
    cases hm

theorem grows_write {d d' : Disk} {path : String} {content : Bytes} {place : List String}
    (h : d.write path content = .ok d') (hplace : d.place .create path = .ok place) :
    Node.Grows {place} d.root d'.root ∧ d'.root.at? place = some (.file content) ∧ d'.cwd = d.cwd := by
  obtain ⟨above, name, entries, hplace', hdir, hfile, rfl⟩ := write_eq_ok h
  rw [hplace] at hplace'
  cases hplace'
  refine ⟨Node.grows_set hdir (Node.linkless_file content) fun n hn => ?_, Node.at?_set_self hdir name _, rfl⟩
  obtain ⟨t, rfl⟩ := hfile n hn
  exact ⟨rfl, t, content, rfl, rfl⟩

/-- The place of a directory that is made was free. -/
theorem place_of_missing {d : Disk} {path : String} {place : List String} {e : Errno}
    (hfind : d.find .follow path = .error e) (hplace : d.place .create path = .ok place) :
    d.root.at? place = none ∧ ∃ above name entries, place = above ++ [name] ∧
      d.root.at? above = some (.dir entries) := by
  refine (place_create hplace).resolve_left fun hfollow => ?_
  obtain ⟨n, hn, -⟩ := solid_place hfollow
  simp [find, hfollow, hn] at hfind

/-- To make directories adds directories. -/
theorem grows_makeDirs {d d' : Disk} {above : String} {segments : List String}
    (h : d.makeDirs above segments = .ok d') : Node.Grows ∅ d.root d'.root ∧ d'.cwd = d.cwd := by
  induction segments generalizing d above with
  | nil =>
    cases h
    exact ⟨Node.Grows.refl ∅ _, rfl⟩
  | cons segment rest ih =>
    rw [makeDirs] at h
    split at h
    · exact ih h
    · cases h
    rename_i e hfind
    split at h
    · cases h
    split at h
    · rename_i place hplace
      obtain ⟨hnone, above', name, entries, rfl, hdir⟩ := place_of_missing hfind hplace
      obtain ⟨hgrows, hcwd⟩ := ih h
      refine ⟨(Node.grows_set hdir Node.linkless_dir_nil fun n hn => ?_).trans hgrows, hcwd⟩
      rw [hnone] at hn
      cases hn
    · cases h

/-- **To make a directory and those above it** adds directories. -/
theorem grows_mkdirAll {d d' : Disk} {path : String} (h : d.mkdirAll path = .ok d') :
    Node.Grows ∅ d.root d'.root ∧ d'.cwd = d.cwd := by
  unfold mkdirAll at h
  split at h
  · cases h
  split at h
  · cases h
    exact ⟨Node.Grows.refl ∅ _, rfl⟩
  · cases h
  · exact grows_makeDirs h

end Disk

end ScriptSplit
