import Mathlib
import ScriptSplit.Proofs.Disk.Absolute

/-!
# Resolved forms below a directory

A path that goes on from a directory resolves from the place of the directory, whichever links lead there.
What is left of the links to follow depends on the way.

* **`Path.abs_along`**: a path below a directory is made absolute as the directory is.
* `Disk.evalLinksFrom_mono`: more links to follow do not change a resolved form.
* **`Disk.evalLinksFrom_of_trail`**: along a trail and on.
* **`Disk.exists_evalLinks_along`**: the resolved form of a path below a directory.
-/

namespace ScriptSplit

/-! ## Absolute paths below a directory -/

namespace Path

theorem ne_empty_of_isAbs {path : String} (h : isAbs path = true) : path ≠ "" := by
  rintro rfl
  exact absurd h (by decide)

/-- A step upwards takes back a name that was kept. -/
theorem pushSegment_up_name {rooted : Bool} {kept : List String} {name : String} (h : IsName name) (hup : name ≠ "..") :
    pushSegment rooted (pushSegment rooted kept name) ".." = kept := by
  rw [pushSegment_name h hup, pushSegment_up]
  simp only [if_neg hup]

/-- **Steps that were cleaned** lead on from anywhere as they did. -/
theorem foldl_cleaned (rooted : Bool) (kept : List String) {steps : List String} (hsteps : ∀ s ∈ steps, '/' ∉ s.toList) :
    ((steps.foldl (pushSegment false) []).reverse).foldl (pushSegment rooted) kept =
      steps.foldl (pushSegment rooted) kept := by
  induction steps using List.reverseRecOn with
  | nil => rfl
  | append_singleton steps step ih =>
    have hfront : ∀ s ∈ steps, '/' ∉ s.toList := fun s hs => hsteps s (List.mem_append_left _ hs)
    have hslash : '/' ∉ step.toList := hsteps step (by simp)
    have hcleaned : Kept false (steps.foldl (pushSegment false) []) := kept_foldl trivial hfront
    rw [List.foldl_concat, List.foldl_concat, ← ih hfront]
    generalize steps.foldl (pushSegment false) [] = cleaned at hcleaned
    by_cases hstays : step = "" ∨ step = "."
    · have hsame : ∀ rooted kept, pushSegment rooted kept step = kept := fun rooted kept => by
        unfold pushSegment
        rw [if_pos (by simpa using hstays)]
      rw [hsame, hsame]
    have hname : IsName step := ⟨fun h => hstays (.inl h), fun h => hstays (.inr h), hslash⟩
    by_cases hup : step = ".."
    · subst hup
      cases cleaned with
      | nil => rfl
      | cons last rest =>
        by_cases hlast : last = ".."
        · rw [hlast, pushSegment_up]
          simp only [if_pos, List.reverse_cons, List.foldl_concat]
        · rw [pushSegment_up]
          simp only [if_neg hlast, List.reverse_cons, List.foldl_concat]
          exact (pushSegment_up_name hcleaned.1 hlast).symm
    · rw [pushSegment_name hname hup, List.reverse_cons, List.foldl_concat]

theorem parts_slash_end (path : String) : parts (path ++ "/") = parts path ++ [""] := by
  rw [← String.append_empty (s := path ++ "/"), parts_append_slash]
  rfl

theorem isAbs_slash_end {path : String} (h : path ≠ "") : isAbs (path ++ "/") = isAbs path := by
  obtain ⟨c, cs, hcs⟩ : ∃ c cs, path.toList = c :: cs :=
    List.exists_cons_of_ne_nil fun hnil => h (String.toList_inj.mp hnil)
  simp [isAbs, hcs]

/-- A slash at its end does not change what a path is made to. -/
theorem abs_slash_end {cwd path : String} (hcwd : isAbs cwd = true) (hpath : path ≠ "") :
    abs cwd (path ++ "/") = abs cwd path := by
  rw [abs, abs, isAbs_slash_end hpath, clean_append_slash hpath, join_eq (ne_empty_of_isAbs hcwd) (by simp),
    join_eq (ne_empty_of_isAbs hcwd) hpath, parts_slash_end, List.foldl_concat]
  rfl

/-- An absolute path is that of its segments. -/
theorem exists_abs {cwd path : String} (hcwd : isAbs cwd = true) (hpath : path ≠ "") :
    ∃ segs, Kept true segs.reverse ∧ abs cwd path = absolute segs := by
  have hcwdNe : cwd ≠ "" := ne_empty_of_isAbs hcwd
  by_cases habs : isAbs path = true
  · exact ⟨segments path, habs ▸ kept_segments path, by rw [abs, if_pos habs, clean, habs, absolute]⟩
  · refine ⟨_, ?_, by rw [abs, if_neg habs, join_eq hcwdNe hpath, hcwd, absolute]⟩
    rw [List.reverse_reverse]
    exact kept_foldl (hcwd ▸ kept_segments cwd) fun s hs => not_slash_of_mem_parts hs

/-- **A path below a directory** is made absolute as the directory is. -/
theorem abs_along {cwd dir : String} (hcwd : isAbs cwd = true) (hdir : dir ≠ "") {names : List String}
    (hnames : Names names) (hne : names ≠ []) : abs cwd (along dir names) = along (abs cwd dir) names := by
  have hkept : Kept (isAbs dir) (segments dir ++ names).reverse := kept_append (kept_segments dir) hnames
  have hlong : segments dir ++ names ≠ [] := by simp [hne]
  have hcwdNe : cwd ≠ "" := ne_empty_of_isAbs hcwd
  rw [along, along, if_neg hne, if_neg hne]
  by_cases habs : isAbs dir = true
  · rw [abs, isAbs_ofSegments hkept, if_pos habs, clean_ofSegments hkept, abs, if_pos habs, isAbs_clean, segments_clean]
  · have hrelative : isAbs dir = false := Bool.eq_false_iff.mpr habs
    have hjoined : Kept true ((parts dir).foldl (pushSegment true) (segments cwd).reverse) :=
      kept_foldl (hcwd ▸ kept_segments cwd) fun s hs => not_slash_of_mem_parts hs
    rw [hrelative] at hkept ⊢
    rw [abs, isAbs_ofSegments hkept, if_neg Bool.false_ne_true, join_eq hcwdNe (ofSegments_ne_empty hkept hlong),
      parts_ofSegments hkept hlong, if_neg Bool.false_ne_true, List.nil_append, List.foldl_append, hcwd, abs,
      if_neg habs, join_eq hcwdNe hdir, hcwd]
    rw [isAbs_ofSegments (by rwa [List.reverse_reverse]), segments_ofSegments (by rwa [List.reverse_reverse])]
    have hcleaned := foldl_cleaned true (segments cwd).reverse fun s (hs : s ∈ parts dir) => not_slash_of_mem_parts hs
    have hsegments : segments dir = ((parts dir).foldl (pushSegment false) []).reverse := by rw [segments, hrelative]
    rw [foldl_names hnames, List.reverse_append, List.reverse_reverse, hsegments, hcleaned]

end Path

namespace Disk

/-! ## Links that are left to follow -/

/-- **More links to follow** do not change a resolved form. -/
theorem evalLinksFrom_mono {root : Node} {links links' : Nat} (hle : links ≤ links') {dest todo place : List String}
    (h : evalLinksFrom root links dest todo = .ok place) : evalLinksFrom root links' dest todo = .ok place := by
  fun_induction evalLinksFrom root links dest todo generalizing links' with
  | case1 links dest => rwa [evalLinksFrom]
  | case2 links dest segment rest hstay ih =>
    rw [evalLinksFrom, if_pos hstay]
    exact ih hle h
  | case3 links dest rest hstay ih =>
    rw [evalLinksFrom_up]
    exact ih hle h
  | case4 => cases h
  | case5 => cases h
  | case6 dest segment rest hstay hup next target hlink links =>
    rename_i ih
    obtain ⟨more, rfl⟩ : ∃ more, links' = more + 1 := ⟨links' - 1, by omega⟩
    rw [evalLinksFrom, if_neg hstay, if_neg hup]
    simp only [show root.at? (dest ++ [segment]) = _ from hlink]
    exact ih (by omega) h
  | case7 links dest segment rest hstay hup next t hfile =>
    rename_i hlast
    rw [evalLinksFrom, if_neg hstay, if_neg hup]
    simp only [show root.at? (dest ++ [segment]) = _ from hfile, if_pos hlast]
    exact h
  | case8 => cases h
  | case9 links dest segment rest hstay hup next entries hdir =>
    rename_i ih
    rw [evalLinksFrom, if_neg hstay, if_neg hup]
    simp only [show root.at? (dest ++ [segment]) = _ from hdir]
    exact ih hle h

section Trail

variable {root : Node} {links left : Nat} {here todo place : List String} {entries : List (String × Node)}

theorem Trail.left_le (h : Trail root links here todo left place) : left ≤ links := by
  induction h with
  | done => exact le_rfl
  | stay _ _ _ ih => exact ih
  | up _ _ ih => exact ih
  | link _ _ _ ih => exact ih.trans (Nat.le_succ _)
  | down _ _ _ ih => exact ih

/-- **Along a trail to a directory and on**: a resolved form goes on from its place, with the links that are left. -/
theorem evalLinksFrom_of_trail (h : Trail root links here todo left place)
    (hdir : root.at? place = some (.dir entries)) (more : Nat) (rest : List String) :
    evalLinksFrom root (links + more) here (todo ++ rest) = evalLinksFrom root (left + more) place rest := by
  induction h with
  | done => rfl
  | stay _ hsegment _ ih =>
    rw [List.cons_append, evalLinksFrom_stay hsegment]
    exact ih hdir
  | up _ _ ih =>
    rw [List.cons_append, evalLinksFrom_up]
    exact ih hdir
  | link hsegment hlink _ ih =>
    rw [List.cons_append, Nat.add_right_comm, evalLinksFrom_link hsegment hlink, ← List.append_assoc]
    exact ih hdir
  | down hsegment _ htrail ih =>
    obtain ⟨below, hbelow⟩ := htrail.exists_dir hdir
    rw [List.cons_append, evalLinksFrom_dir hsegment hbelow]
    exact ih hdir

end Trail

/-- **The resolved form of a path below a directory** is found from the place of the directory, with some of the
links left to follow. -/
theorem exists_evalLinks_along {d : Disk} {dir : String} {place : List String} {entries : List (String × Node)}
    (hcwd : Path.isAbs d.cwd = true) (hdir : dir ≠ "") (hplace : d.place .follow (Path.abs d.cwd dir) = .ok place)
    (hat : d.root.at? place = some (.dir entries)) :
    ∃ left ≤ maxLinks, ∀ names, Path.Names names → names ≠ [] → d.evalLinks (Path.along dir names) =
      (evalLinksFrom d.root (left + 215) place names).map (Path.ofSegments true) := by
  obtain ⟨segs, hkept, habs⟩ := Path.exists_abs hcwd hdir
  obtain ⟨stays, hparts, hstays⟩ := exists_parts_absolute hkept
  rw [place_eq_walk (ne_empty_of_place hplace), steps, if_pos (Path.isAbs_abs hcwd dir), habs, hparts] at hplace
  obtain ⟨left, middle, htrail, hrest⟩ := exists_trail (.inl rfl) _ _ _ hplace
  obtain rfl := walk_stays hstays hrest
  refine ⟨left, htrail.left_le, fun names hnames hne => ?_⟩
  have hlong : Path.parts (Path.along (Path.absolute segs) names) = "" :: segs ++ names := by
    rw [Path.along, if_neg hne, Path.absolute, Path.isAbs_ofSegments hkept, Path.segments_ofSegments hkept,
      Path.parts_ofSegments (Path.kept_append hkept hnames) (by simp [hne])]
    rfl
  have hgoes := evalLinksFrom_of_trail htrail hat 215 names
  rw [evalLinks, Path.abs_along hcwd hdir hnames hne, habs, hlong]
  exact congrArg (Except.map (Path.ofSegments true)) hgoes

end Disk

end ScriptSplit
