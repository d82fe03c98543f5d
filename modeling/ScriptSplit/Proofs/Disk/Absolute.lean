import Mathlib
import ScriptSplit.Proofs.Disk.Cleaned
import ScriptSplit.Proofs.Disk.Names
import ScriptSplit.Proofs.Disk.Room

/-!
# Clean paths to files

A clean path to a file ends in a name, and what stands before the name is its directory. A relative path is
made absolute without a look at the disk: its steps upwards take names of the working directory back. Where
there are none of them or the working directory is given by its place, this leads to where the relative path
leads.

* `Path.base_ofSegments`, `Path.exists_ups`: the parts of a clean path.
* **`Disk.exists_leaf`**: where a clean path to a file ends; **`Disk.find_keep_dir`**: what its directory is.
* `Disk.CwdFor`: a working directory that is given by its place, if a path has steps upwards.
* **`Disk.evalLinks_of_trail`**: a directory has a resolved form.
-/

namespace ScriptSplit

namespace Path

/-! ## Parts of a clean path -/

/-- Of a relative path first steps upwards are kept and then names. -/
theorem exists_ups {segs : List String} (h : Kept false segs.reverse) :
    ∃ count names, segs = List.replicate count ".." ++ names ∧ Names names := by
  induction segs using List.reverseRecOn with
  | nil => exact ⟨0, [], rfl, fun s hs => absurd hs List.not_mem_nil⟩
  | append_singleton segs s ih =>
    obtain ⟨count, names, rfl, hnames⟩ := ih h.front
    rw [List.reverse_append] at h
    obtain ⟨hname, -, hup⟩ := h
    by_cases hs : s = ".."
    · have hall : ∀ t ∈ List.replicate count ".." ++ names, t = ".." :=
        fun t ht => (hup hs).2 t (List.mem_reverse.mpr ht)
      obtain rfl : names = [] := by
        refine List.eq_nil_iff_forall_not_mem.mpr fun t ht => (hnames t ht).2 ?_
        exact hall t (List.mem_append_right _ ht)
      refine ⟨count + 1, [], ?_, hnames⟩
      rw [hs, List.append_nil, List.append_nil, List.replicate_succ']
    · exact ⟨count, names ++ [s], List.append_assoc _ _ _, hnames.append (names_singleton ⟨hname, hs⟩)⟩

/-- **The last name of a clean path.** -/
theorem base_ofSegments {rooted : Bool} {above : List String} {name : String}
    (h : Kept rooted (above ++ [name]).reverse) : base (ofSegments rooted (above ++ [name])) = name := by
  have hparts : parts (ofSegments rooted (above ++ [name])) = (if rooted then [""] else []) ++ above ++ [name] := by
    rw [parts_ofSegments h (by simp), List.append_assoc]
  have hname : name ≠ "" := (isName_of_kept_reverse h name (by simp)).1
  obtain ⟨blanks, hblanks, hall⟩ := exists_parts (ofSegments rooted (above ++ [name]))
  -- a slash at the end would make the last part empty
  have hnil : blanks = [] := by
    by_contra hne
    have hlast := congrArg List.getLast? (hparts.symm.trans hblanks)
    rw [List.getLast?_concat, List.getLast?_append_of_ne_nil _ hne, List.getLast?_eq_some_getLast hne,
      Option.some_inj] at hlast
    exact hname (hlast.trans (hall _ (List.getLast_mem hne)))
  rw [hnil, List.append_nil] at hblanks
  have hafter : afterLastSlash (withoutTrailingSlashes (ofSegments rooted (above ++ [name]))) = name := by
    rw [afterLastSlash, ← hblanks, hparts, List.getLastD_concat]
  unfold base
  rw [if_neg (ofSegments_ne_empty h (by simp))]
  simp only [hafter]
  rw [if_neg hname]

/-- A clean path goes on from its directory along its last name. -/
theorem along_ofSegments {rooted : Bool} {above : List String} {name : String} (h : Kept rooted (above ++ [name]).reverse) :
    along (ofSegments rooted above) [name] = ofSegments rooted (above ++ [name]) := by
  rw [along, if_neg (List.cons_ne_nil _ _), isAbs_ofSegments h.front, segments_ofSegments h.front]

/-! ## Absolute paths -/

theorem foldl_ups {kept : List String} (h : ∀ s ∈ kept, s ≠ "..") (count : Nat) :
    (List.replicate count "..").foldl (pushSegment true) kept = kept.drop count := by
  induction count generalizing kept with
  | zero => rfl
  | succ count ih =>
    rw [List.replicate_succ, List.foldl_cons, pushSegment_up]
    cases kept with
    | nil =>
      rw [List.drop_nil, if_pos rfl, ih h, List.drop_nil]
    | cons s kept =>
      simp only [if_neg (h s List.mem_cons_self)]
      exact ih fun t ht => h t (List.mem_cons_of_mem s ht)

theorem join_eq {dir path : String} (hdir : dir ≠ "") (hpath : path ≠ "") : join dir path =
    ofSegments (isAbs dir) ((parts path).foldl (pushSegment (isAbs dir)) (segments dir).reverse).reverse := by
  have hfilter : [dir, path].filter (· ≠ "") = [dir, path] := by simp [hdir, hpath]
  have habs : isAbs (dir ++ "/" ++ path) = isAbs dir := by
    obtain ⟨c, cs, hcs⟩ : ∃ c cs, dir.toList = c :: cs :=
      List.exists_cons_of_ne_nil fun hnil => hdir (String.toList_inj.mp hnil)
    simp [isAbs, hcs]
  unfold join joinAll
  simp only [hfilter]
  rw [if_neg (by simp), String.intercalate_cons_cons, String.intercalate_singleton, clean, habs, segments, habs,
    parts_append_slash, List.foldl_append, segments, List.reverse_reverse]

/-- **Steps upwards take names of the working directory back.** -/
theorem abs_ofSegments {names rest : List String} (hnames : Names names) (hrest : Names rest) {count : Nat}
    (hkept : Kept false (List.replicate count ".." ++ rest).reverse) :
    abs (absolute names) (ofSegments false (List.replicate count ".." ++ rest)) =
      absolute (names.take (names.length - count) ++ rest) := by
  have hcwd : absolute names ≠ "" := by
    intro hempty
    have habs := isAbs_absolute hnames
    rw [hempty] at habs
    exact absurd habs (by decide)
  have hpath : ofSegments false (List.replicate count ".." ++ rest) ≠ "" := by
    by_cases hnil : List.replicate count ".." ++ rest = []
    · rw [hnil]
      decide
    · exact ofSegments_ne_empty hkept hnil
  have hparts : ∀ kept, (parts (ofSegments false (List.replicate count ".." ++ rest))).foldl (pushSegment true) kept =
      (List.replicate count ".." ++ rest).foldl (pushSegment true) kept := by
    intro kept
    by_cases hnil : List.replicate count ".." ++ rest = []
    · rw [hnil]
      rfl
    · rw [parts_ofSegments hkept hnil]
      rfl
  have hup : ∀ s ∈ names.reverse, s ≠ ".." := fun s hs => (hnames s (List.mem_reverse.mp hs)).2
  rw [abs, if_neg (by rw [isAbs_ofSegments hkept]; exact Bool.false_ne_true), join_eq hcwd hpath,
    isAbs_absolute hnames, segments_absolute hnames, hparts, List.foldl_append, foldl_ups hup, foldl_names hrest,
    List.reverse_append, List.reverse_reverse, List.drop_reverse, List.reverse_reverse, absolute]

end Path

namespace Disk

/-! ## Where clean paths to files end -/

/-- A step that names nothing leads to a directory. -/
theorem dir_of_walk_step {root : Node} {last : LastStep} {links : Nat} {here place : List String} {s : String}
    (hs : ¬ Proper s) (h : walk root last links here [s] = .ok place) :
    ∃ entries, root.at? place = some (.dir entries) := by
  obtain ⟨entries, hdir⟩ := exists_dir_of_walk (List.cons_ne_nil s []) h
  by_cases hstay : s = "" ∨ s = "."
  · rw [walk_stay hdir hstay, walk] at h
    exact ⟨entries, Except.ok.inj h ▸ hdir⟩
  · obtain rfl : s = ".." := by
      by_contra hup
      exact hs ⟨fun h => hstay (.inl h), fun h => hstay (.inr h), hup⟩
    rw [walk_up hdir, walk] at h
    rw [← Except.ok.inj h]
    by_cases hnil : here = []
    · exact ⟨entries, by rw [hnil] at hdir ⊢; exact hdir⟩
    · rw [← List.dropLast_append_getLast hnil] at hdir
      exact Node.exists_dir_of_append (List.cons_ne_nil _ _) hdir

/-- A clean path ends in a name, which stands in a directory. -/
structure LeafAt (d : Disk) (path : String) (above : List String) (name : String) (left : Nat) (upper : List String)
    (entries : List (String × Node)) : Prop where
  path_eq : path = Path.ofSegments (Path.isAbs path) (above ++ [name])
  kept : Path.Kept (Path.isAbs path) (above ++ [name]).reverse
  proper : Proper name
  trail : Trail d.root maxLinks [] (d.origin (Path.isAbs path) ++ above) left upper
  dir : d.root.at? upper = some (.dir entries)

/-- **A clean path to a file** ends in its name. -/
theorem exists_leaf {d : Disk} {path : String} {t : Bytes} (hclean : Path.clean path = path)
    (hfile : d.find .keep path = .ok (.file t)) : ∃ above name left upper entries,
      LeafAt d path above name left upper entries ∧ entries.lookup name = some (.file t) := by
  obtain ⟨place, hplace, hat⟩ := find_eq_ok_iff.mp hfile
  have hpath := ne_empty_of_place hplace
  rw [place_eq_walk hpath] at hplace
  -- the last step of the path is a name, since the others lead to directories
  have hlast : ∀ front s, d.steps path = front ++ [s] → Proper s ∧ ∃ left upper,
      Trail d.root maxLinks [] front left upper ∧ walk d.root .keep left upper [s] = .ok place := by
    intro front s hsteps
    rw [hsteps] at hplace
    obtain ⟨left, upper, htrail, hwalk⟩ := exists_trail (.inr (List.cons_ne_nil _ _)) _ _ _ hplace
    refine ⟨?_, left, upper, htrail, hwalk⟩
    by_contra hs
    obtain ⟨entries, hdir⟩ := dir_of_walk_step hs hwalk
    rw [hat] at hdir
    cases hdir
  have hne : Path.segments path ≠ [] := by
    intro hnil
    rw [Path.clean, hnil] at hclean
    cases habs : Path.isAbs path with
    | true =>
      rw [habs] at hclean
      have hsteps : d.steps path = [""] ++ [""] := by
        rw [← hclean, steps, if_pos (by decide)]
        decide
      exact (hlast _ _ hsteps).1.1 rfl
    | false =>
      rw [habs] at hclean
      have hsteps : d.steps path = Path.parts d.cwd ++ ["."] := by
        rw [← hclean, steps, if_neg (by decide)]
        exact Path.parts_append_slash d.cwd "."
      exact (hlast _ _ hsteps).1.2.1 rfl
  obtain ⟨above, name, hsegs⟩ : ∃ above name, Path.segments path = above ++ [name] :=
    ⟨_, _, (List.dropLast_append_getLast hne).symm⟩
  have hkept := Path.kept_segments path
  rw [hsegs] at hkept
  have hpath_eq : path = Path.ofSegments (Path.isAbs path) (above ++ [name]) := by
    rw [← hsegs]
    exact hclean.symm
  have hsteps : d.steps path = d.origin (Path.isAbs path) ++ above ++ [name] := by
    rw [List.append_assoc, ← d.steps_ofSegments hkept (by simp), ← hpath_eq]
  obtain ⟨hname, left, upper, htrail, hwalk⟩ := hlast _ _ hsteps
  obtain ⟨entries, hdir⟩ := exists_dir_of_walk (List.cons_ne_nil _ _) hwalk
  obtain ⟨n, hn⟩ := exists_node_of_walk hname (by decide) hwalk
  rw [walk_keep hname hn] at hwalk
  rw [← Except.ok.inj hwalk, Node.at?_concat hdir] at hat
  exact ⟨above, name, left, upper, entries, ⟨hpath_eq, hkept, hname, htrail, hdir⟩, hat⟩

/-- **A walk that keeps a link at its end** goes where the trail goes, unless it ends at a link. -/
theorem walk_keep_of_trail {root : Node} {links left : Nat} {here todo place : List String}
    (h : Trail root links here todo left place)
    (hlink : ∀ place target, walk root .keep links here todo = .ok place → root.at? place ≠ some (.link target)) :
    walk root .keep links here todo = .ok place := by
  induction todo using List.reverseRecOn with
  | nil =>
    cases h
    rw [walk]
  | append_singleton front s _ =>
    have hfollow := walk_of_trail h
    obtain ⟨middle, upper, htrail, hstep⟩ := exists_trail (.inl rfl) _ _ _ hfollow
    have hkeep : walk root .keep links here (front ++ [s]) = walk root .keep middle upper [s] :=
      walk_append_of_trail htrail (.inr (List.cons_ne_nil _ _))
    rw [hkeep] at hlink ⊢
    rcases walk_cons_cases (.inl rfl) hstep with ⟨entries, hdir, hstay, hrest⟩ | ⟨entries, hdir, rfl, hrest⟩ |
      ⟨target, links', hs, htarget, -, -⟩ | ⟨hs, ⟨n, hn, -⟩, hrest⟩
    · rw [walk] at hrest
      rw [walk_stay hdir hstay, walk, Except.ok.inj hrest]
    · rw [walk] at hrest
      rw [walk_up hdir, walk, Except.ok.inj hrest]
    · exact absurd htarget (hlink _ target (walk_keep hs htarget))
    · rw [walk] at hrest
      rw [walk_keep hs hn, Except.ok.inj hrest]

theorem trail_stays {root : Node} {stays here : List String} {entries : List (String × Node)} (links : Nat)
    (hdir : root.at? here = some (.dir entries)) (hstays : ∀ s ∈ stays, s = "" ∨ s = ".") :
    Trail root links here stays links here := by
  induction stays with
  | nil => exact .done links here
  | cons s stays ih =>
    exact .stay hdir (hstays s List.mem_cons_self) (ih fun t ht => hstays t (List.mem_cons_of_mem s ht))

section Leaf

variable {d : Disk} {path name : String} {above upper : List String} {left : Nat} {entries : List (String × Node)}
  (h : LeafAt d path above name left upper entries)
include h

theorem LeafAt.dir_eq : Path.dir path = Path.ofSegments (Path.isAbs path) above := by
  conv_lhs => rw [h.path_eq]
  exact Path.dir_ofSegments h.kept

theorem LeafAt.base_eq : Path.base path = name := by
  conv_lhs => rw [h.path_eq]
  exact Path.base_ofSegments h.kept

theorem LeafAt.along_eq : Path.along (Path.dir path) [name] = path := by
  rw [h.dir_eq, Path.along_ofSegments h.kept, ← h.path_eq]

/-- The steps of the directory, those that stay included, lead to it. -/
theorem LeafAt.trail_dir : Path.dir path ≠ "" ∧ Trail d.root maxLinks [] (d.steps (Path.dir path)) left upper := by
  have habove := h.kept.front
  have hclean : Path.clean (Path.dir path) = Path.dir path := by rw [h.dir_eq, Path.clean_ofSegments habove]
  have hdirSteps : d.dirSteps (Path.dir path) = d.origin (Path.isAbs path) ++ above := by
    rw [h.dir_eq, dirSteps, Path.isAbs_ofSegments habove, Path.segments_ofSegments habove]
  obtain ⟨stays, hsteps, hstays⟩ := d.steps_clean (Path.dir path)
  rw [hclean, hdirSteps] at hsteps
  refine ⟨hclean ▸ clean_ne_empty _, ?_⟩
  rw [hsteps]
  exact h.trail.append (trail_stays left h.dir hstays)

/-- **The directory of a clean path**, unless it is a link. -/
theorem LeafAt.find_dir (hlink : ∀ target, d.find .keep (Path.dir path) ≠ .ok (.link target)) :
    d.find .keep (Path.dir path) = .ok (.dir entries) := by
  obtain ⟨hpath, htrail⟩ := h.trail_dir
  refine find_eq_ok_iff.mpr ⟨upper, ?_, h.dir⟩
  rw [place_eq_walk hpath]
  refine walk_keep_of_trail htrail fun place target hwalk hat => hlink target ?_
  exact find_eq_ok_iff.mpr ⟨place, by rw [place_eq_walk hpath]; exact hwalk, hat⟩

/-- What the name stands for is found, if it is no link. -/
theorem LeafAt.find_follow {n : Node} (hn : entries.lookup name = some n) (hsolid : ∀ target, n ≠ .link target) :
    d.find .follow path = .ok n := by
  have hat : d.root.at? (upper ++ [name]) = some n := by rw [Node.at?_concat h.dir, hn]
  have hpath : path ≠ "" := by
    rw [h.path_eq]
    exact Path.ofSegments_ne_empty h.kept (by simp)
  have hsteps : d.steps path = d.origin (Path.isAbs path) ++ above ++ [name] := by
    rw [List.append_assoc, ← d.steps_ofSegments h.kept (by simp), ← h.path_eq]
  refine find_eq_ok_iff.mpr ⟨upper ++ [name], ?_, hat⟩
  rw [place_eq_walk hpath, hsteps, walk_append_of_trail h.trail (.inl rfl), walk_down h.proper hat hsolid, walk]

end Leaf

/-! ## Resolved forms -/

/-- The working directory is a clean path, and given by its place if the path has steps upwards. -/
def CwdFor (d : Disk) (path : String) : Prop :=
  ∃ names, Path.Names names ∧ d.cwd = Path.absolute names ∧
    (".." ∈ Path.segments path → ∃ entries, d.root.at? names = some (.dir entries))

theorem proper_of_names {names : List String} (h : Path.Names names) : ∀ s ∈ names, Proper s :=
  fun s hs => ⟨(h s hs).1.1, (h s hs).1.2.1, (h s hs).2⟩

theorem exists_parts_absolute {segs : List String} (h : Path.Kept true segs.reverse) :
    ∃ stays, Path.parts (Path.absolute segs) = "" :: segs ++ stays ∧ ∀ s ∈ stays, s = "" ∨ s = "." := by
  by_cases hnil : segs = []
  · subst hnil
    exact ⟨[""], by decide, by simp⟩
  · exact ⟨[], by rw [Path.absolute, Path.parts_ofSegments h hnil, List.append_nil]; rfl, by simp⟩

/-- Names from the root lead to the directory that is there. -/
theorem trail_root {root : Node} {names : List String} {entries : List (String × Node)} (links : Nat)
    (hnames : Path.Names names) (h : root.at? names = some (.dir entries)) :
    Trail root links [] ("" :: names) links names := by
  have htrail : Trail root links [] names links ([] ++ names) :=
    trail_names links (proper_of_names hnames) (solid_of_dir h)
  obtain ⟨entries', hroot⟩ := htrail.exists_dir h
  exact .stay hroot (.inl rfl) htrail

theorem exists_dir_take {root : Node} {names : List String} {entries : List (String × Node)}
    (h : root.at? names = some (.dir entries)) (count : Nat) :
    ∃ entries', root.at? (names.take count) = some (.dir entries') := by
  rw [← List.take_append_drop count names] at h
  by_cases hnil : names.drop count = []
  · rw [hnil, List.append_nil] at h
    exact ⟨entries, h⟩
  · exact Node.exists_dir_of_append hnil h

/-- Steps upwards take names back. -/
theorem walk_ups {root : Node} {last : LastStep} {links : Nat} {here rest : List String} {entries : List (String × Node)}
    (h : root.at? here = some (.dir entries)) (count : Nat) :
    walk root last links here (List.replicate count ".." ++ rest) =
      walk root last links (here.take (here.length - count)) rest := by
  induction count generalizing here entries with
  | zero => simp
  | succ count ih =>
    have hlength : (here.take (here.length - 1)).length = here.length - 1 := by
      rw [List.length_take]
      omega
    obtain ⟨entries', hdir⟩ := exists_dir_take h (here.length - 1)
    rw [List.replicate_succ, List.cons_append, walk_up h, List.dropLast_eq_take, ih hdir, hlength, List.take_take,
      Nat.sub_sub, Nat.add_comm 1, Nat.min_eq_left (by omega)]

section Resolved

variable {d : Disk} {dir : String} {left : Nat} {place : List String} {entries : List (String × Node)}

/-- Steps that go on from a directory given by its place are those of an absolute path: after the steps upwards
both walks are at the same place. -/
theorem exists_trail_absolute {root : Node} {names rest : List String} {count : Nat} (hnames : Path.Names names)
    (hat : root.at? names = some (.dir entries))
    (h : Trail root maxLinks [] (Path.parts (Path.absolute names) ++ (List.replicate count ".." ++ rest)) left place) :
    ∃ left', Trail root maxLinks [] ("" :: (names.take (names.length - count) ++ rest)) left' place := by
  obtain ⟨entries', hat'⟩ := exists_dir_take hat (names.length - count)
  obtain ⟨stays, hparts, hstays⟩ := exists_parts_absolute hnames.kept
  have hstart : Trail root maxLinks [] (Path.parts (Path.absolute names)) maxLinks names := by
    rw [hparts]
    exact (trail_root maxLinks hnames hat).append (trail_stays maxLinks hat hstays)
  have hwalk := walk_of_trail h
  rw [walk_append_of_trail hstart (.inl rfl), walk_ups hat, ← List.append_nil rest] at hwalk
  obtain ⟨left', middle, hdown, hend⟩ := exists_trail (.inl rfl) _ _ _ hwalk
  rw [walk] at hend
  obtain rfl := Except.ok.inj hend
  have hfront : Path.Names (names.take (names.length - count)) := fun s hs => hnames s (List.mem_of_mem_take hs)
  exact ⟨left', (trail_root maxLinks hfront hat').append hdown⟩

/-- A directory has a resolved form, if the path that it is made to leads there. -/
theorem evalLinks_of_absolute {segs : List String} (hkept : Path.Kept true segs.reverse)
    (habs : Path.abs d.cwd dir = Path.absolute segs) (htrail : Trail d.root maxLinks [] ("" :: segs) left place)
    (hdir : d.root.at? place = some (.dir entries)) : d.evalLinks dir = .ok (Path.ofSegments true place) := by
  obtain ⟨stays, hparts, hstays⟩ := exists_parts_absolute hkept
  have hwalk : walk d.root .follow maxLinks [] (Path.parts (Path.absolute segs)) = .ok place := by
    rw [hparts, walk_append_of_trail htrail (.inl rfl), walk_stays_of_dir hdir hstays]
  rw [evalLinks, habs, evalLinksFrom_of_walk maxLinks 255 [] _ (by decide) hwalk]
  rfl

/-- **A directory has a resolved form**, if its path starts at the root or in a working directory that suits it. -/
theorem evalLinks_of_trail (hclean : Path.clean dir = dir) (hcwd : Path.isAbs dir = true ∨ d.CwdFor dir)
    (htrail : Trail d.root maxLinks [] (d.dirSteps dir) left place) (hdir : d.root.at? place = some (.dir entries)) :
    d.evalLinks dir = .ok (Path.ofSegments true place) := by
  have hkept := Path.kept_segments dir
  cases habs : Path.isAbs dir with
  | true =>
    rw [habs] at hkept
    rw [dirSteps, origin, habs, if_pos rfl] at htrail
    refine evalLinks_of_absolute hkept ?_ htrail hdir
    rw [Path.abs, if_pos habs, Path.clean, habs, Path.absolute]
  | false =>
    rw [habs] at hkept
    obtain ⟨names, hnames, hcwd, hups⟩ := hcwd.resolve_left (by rw [habs]; exact Bool.false_ne_true)
    obtain ⟨count, rest, hsegs, hrest⟩ := Path.exists_ups hkept
    rw [hsegs] at hkept hups
    rw [dirSteps, origin, habs, if_neg Bool.false_ne_true, hsegs, hcwd] at htrail
    have hfront : Path.Names (names.take (names.length - count)) := fun s hs => hnames s (List.mem_of_mem_take hs)
    have habsolute : Path.abs d.cwd dir = Path.absolute (names.take (names.length - count) ++ rest) := by
      rw [← hclean, Path.clean, habs, hsegs, hcwd]
      exact Path.abs_ofSegments hnames hrest hkept
    obtain ⟨left', htrail'⟩ : ∃ left',
        Trail d.root maxLinks [] ("" :: (names.take (names.length - count) ++ rest)) left' place := by
      by_cases hat : ∃ entries, d.root.at? names = some (.dir entries)
      · obtain ⟨entries', hat⟩ := hat
        exact exists_trail_absolute hnames hat htrail
      · -- there are no steps upwards, and the working directory is not the root
        obtain rfl : count = 0 := by
          by_contra hcount
          exact hat (hups (List.mem_append_left _ (List.mem_replicate.mpr ⟨hcount, rfl⟩)))
        have hnil : names ≠ [] := by
          rintro rfl
          exact hat (htrail.exists_dir hdir)
        rw [Path.absolute, Path.parts_ofSegments hnames.kept hnil] at htrail
        rw [Nat.sub_zero, List.take_length]
        exact ⟨left, htrail⟩
    exact evalLinks_of_absolute (hfront.append hrest).kept habsolute htrail' hdir

/-- The directory of a clean path has a resolved form. -/
theorem LeafAt.evalLinks_dir {path name : String} {above : List String} (h : LeafAt d path above name left place entries)
    (hcwd : Path.isAbs path = true ∨ d.CwdFor path) : d.evalLinks (Path.dir path) = .ok (Path.ofSegments true place) := by
  have habove := h.kept.front
  have htrail : Trail d.root maxLinks [] (d.dirSteps (Path.ofSegments (Path.isAbs path) above)) left place := by
    rw [dirSteps, Path.isAbs_ofSegments habove, Path.segments_ofSegments habove]
    exact h.trail
  have hsegs : Path.segments path = above ++ [name] := by
    conv_lhs => rw [h.path_eq]
    exact Path.segments_ofSegments h.kept
  have hcwdDir : Path.isAbs (Path.ofSegments (Path.isAbs path) above) = true ∨
      d.CwdFor (Path.ofSegments (Path.isAbs path) above) := by
    rw [Path.isAbs_ofSegments habove]
    obtain habs | ⟨names, hnames, hcwd, hups⟩ := hcwd
    · exact .inl habs
    refine .inr ⟨names, hnames, hcwd, fun hup => hups ?_⟩
    rw [Path.segments_ofSegments habove] at hup
    rw [hsegs]
    exact List.mem_append_left _ hup
  rw [h.dir_eq]
  exact evalLinks_of_trail (Path.clean_ofSegments habove) hcwdDir htrail h.dir

end Resolved

end Disk

end ScriptSplit
