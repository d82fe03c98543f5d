import Mathlib
import ScriptSplit.Proofs.Disk.Trail

/-!
# Files below a directory

A directory in which there are no links is at one place, and it stays there while files are written and
directories are made. What is written below it under a name stands below that place, and reading the name
gives it back.

* `Disk.LinklessDir`: whatever is at a path, there are no links in it.
* `Disk.Settled`: the directory of a path is at a place without links below it.
* `Settled.place_of_create`, `Settled.read`: writing and reading below the directory.
* **`settled_mkdirAll`**: the directory is settled once a directory in it was made, whether it was there
  before or not.
-/

namespace ScriptSplit

namespace Path

/-- After a name there are no steps upwards. -/
theorem Kept.not_up {rooted : Bool} {first rest : List String} {s : String}
    (h : Kept rooted (first ++ s :: rest).reverse) (hs : s ≠ "..") : ∀ t ∈ rest, t ≠ ".." := by
  rintro t ht rfl
  obtain ⟨a, b, rfl⟩ := List.append_of_mem ht
  have hfull : Kept rooted ((first ++ s :: a ++ [".."]) ++ b).reverse := by simpa using h
  have hfront := hfull.front
  rw [List.reverse_append] at hfront
  exact hs ((hfront.2.2 rfl).2 s (by simp))

end Path

namespace Disk

/-! ## The steps of clean paths -/

/-- The steps to where a path starts. -/
def origin (d : Disk) (rooted : Bool) : List String := if rooted then [""] else Path.parts d.cwd

/-- The steps of a directory. -/
def dirSteps (d : Disk) (dir : String) : List String := d.origin (Path.isAbs dir) ++ Path.segments dir

section Steps

variable (d : Disk)

theorem steps_ofSegments {rooted : Bool} {segs : List String} (h : Path.Kept rooted segs.reverse)
    (hne : segs ≠ []) : d.steps (Path.ofSegments rooted segs) = d.origin rooted ++ segs := by
  have hparts := Path.parts_ofSegments h hne
  unfold steps origin
  rw [Path.isAbs_ofSegments h]
  cases rooted with
  | true => exact hparts
  | false => exact (Path.parts_append_slash _ _).trans (congrArg (Path.parts d.cwd ++ ·) hparts)

/-- The steps of a clean path; where it has no segments, a step that stays is added. -/
theorem steps_clean (dir : String) : ∃ stays, d.steps (Path.clean dir) = d.dirSteps dir ++ stays ∧
    ∀ s ∈ stays, s = "" ∨ s = "." := by
  unfold dirSteps
  by_cases hnil : Path.segments dir = []
  · rw [hnil, List.append_nil]
    cases habs : Path.isAbs dir with
    | true =>
      refine ⟨[""], ?_, by simp⟩
      have hclean : Path.clean dir = "/" := by
        rw [Path.clean, hnil, habs]
        decide
      rw [hclean, steps, if_pos (by decide)]
      change Path.parts "/" = ["", ""]
      decide
    | false =>
      refine ⟨["."], ?_, by simp⟩
      have hclean : Path.clean dir = "." := by
        rw [Path.clean, hnil, habs]
        decide
      rw [hclean, steps, if_neg (by decide), Path.parts_append_slash]
      rfl
  · refine ⟨[], ?_, by simp⟩
    rw [List.append_nil]
    exact steps_ofSegments d (Path.kept_segments dir) hnil

theorem steps_join {name : String} (h : Path.Descends name) (dir : String) :
    d.steps (Path.join dir name) = d.dirSteps dir ++ Path.parts name := by
  rw [h.join, steps_ofSegments d (Path.kept_append (Path.kept_segments dir) h)
    (by simp [Path.parts_ne_nil name]), dirSteps, List.append_assoc]

theorem dirSteps_ne_nil (dir : String) : d.dirSteps dir ≠ [] := by
  unfold dirSteps origin
  split_ifs
  · simp
  · simp [Path.parts_ne_nil]

end Steps

theorem join_ne_empty {name : String} (h : Path.Descends name) (dir : String) : Path.join dir name ≠ "" := by
  rw [h.join]
  exact Path.ofSegments_ne_empty (Path.kept_append (Path.kept_segments dir) h) (by simp [Path.parts_ne_nil name])

/-! ## Settled directories -/

/-- Whatever is at the path, there are no links in it. -/
def LinklessDir (d : Disk) (dir : String) : Prop :=
  ∀ n, d.find .follow (Path.clean dir) = .ok n → n.Linkless

/-- The directory is at a place without links below it, with `left` links to follow. -/
structure Settled (d : Disk) (dir : String) (left : Nat) (place : List String) : Prop where
  trail : Trail d.root maxLinks [] (d.dirSteps dir) left place
  linkless : LinklessAt d.root place

theorem proper_of_descends {name : String} (h : Path.Descends name) : ∀ s ∈ Path.parts name, Proper s :=
  fun s hs => ⟨(h s hs).1.1, (h s hs).1.2.1, (h s hs).2⟩

namespace Settled

variable {d d' : Disk} {dir name : String} {left : Nat} {place : List String}

theorem grows (h : Settled d dir left place) {written : Set (List String)}
    (hgrows : Node.Grows written d.root d'.root) (hcwd : d'.cwd = d.cwd) : Settled d' dir left place := by
  refine ⟨?_, h.linkless.grows hgrows⟩
  have hsteps : d'.dirSteps dir = d.dirSteps dir := by simp [dirSteps, origin, hcwd]
  rw [hsteps]
  exact h.trail.grows hgrows

theorem place_eq_walk (h : Settled d dir left place) (hname : Path.Descends name) (last : LastStep) :
    d.place last (Path.join dir name) = walk d.root last left place (Path.parts name) := by
  rw [Disk.place_eq_walk (join_ne_empty hname dir), steps_join d hname,
    walk_append_of_trail h.trail (.inr (Path.parts_ne_nil name))]

/-- What is written under a name is written below the directory. -/
theorem place_of_create (h : Settled d dir left place) (hname : Path.Descends name) {target : List String}
    (hplace : d.place .create (Path.join dir name) = .ok target) : target = place ++ Path.parts name := by
  rw [h.place_eq_walk hname] at hplace
  exact walk_names h.linkless (proper_of_descends hname) hplace

/-- A file below the directory is read under its name. -/
theorem read (h : Settled d dir left place) (hname : Path.Descends name) {t : Bytes}
    (hfile : d.root.at? (place ++ Path.parts name) = some (.file t)) :
    d.read (Path.join dir name) = .ok t := by
  refine read_eq_ok_iff.mpr ⟨place ++ Path.parts name, ?_, hfile⟩
  rw [h.place_eq_walk hname]
  exact walk_to h.linkless (proper_of_descends hname) hfile

/-- **To write a file below the directory** leaves the directory where it is. -/
theorem write (h : Settled d dir left place) (hname : Path.Descends name) {content : Bytes}
    (hwrite : d.write (Path.join dir name) content = .ok d') : Settled d' dir left place ∧
      Node.Grows {place ++ Path.parts name} d.root d'.root ∧
      d'.root.at? (place ++ Path.parts name) = some (.file content) := by
  obtain ⟨above, base, entries, hplace, -⟩ := write_eq_ok hwrite
  obtain ⟨hgrows, hfile, hcwd⟩ := grows_write hwrite hplace
  rw [h.place_of_create hname hplace] at hgrows hfile
  exact ⟨h.grows hgrows hcwd, hgrows, hfile⟩

theorem mkdirAll (h : Settled d dir left place) {path : String} (hmake : d.mkdirAll path = .ok d') :
    Settled d' dir left place ∧ Node.Grows ∅ d.root d'.root := by
  obtain ⟨hgrows, hcwd⟩ := grows_mkdirAll hmake
  exact ⟨h.grows hgrows hcwd, hgrows⟩

end Settled

/-! ## Directories that are there -/

theorem walk_stays {root : Node} {last : LastStep} {links : Nat} {here stays place : List String}
    (hstays : ∀ s ∈ stays, s = "" ∨ s = ".") (h : walk root last links here stays = .ok place) : place = here := by
  induction stays with
  | nil =>
    rw [walk] at h
    exact (Except.ok.inj h).symm
  | cons s stays ih =>
    obtain ⟨entries, hdir⟩ := exists_dir_of_walk (List.cons_ne_nil s stays) h
    rw [walk_stay hdir (hstays s List.mem_cons_self)] at h
    exact ih (fun t ht => hstays t (List.mem_cons_of_mem s ht)) h

theorem walk_stays_of_dir {root : Node} {last : LastStep} {links : Nat} {here stays : List String}
    {entries : List (String × Node)} (hdir : root.at? here = some (.dir entries))
    (hstays : ∀ s ∈ stays, s = "" ∨ s = ".") : walk root last links here stays = .ok here := by
  induction stays with
  | nil => rw [walk]
  | cons s stays ih =>
    rw [walk_stay hdir (hstays s List.mem_cons_self)]
    exact ih fun t ht => hstays t (List.mem_cons_of_mem s ht)

theorem clean_ne_empty (dir : String) : Path.clean dir ≠ "" := by
  by_cases hnil : Path.segments dir = []
  · rw [Path.clean, hnil]
    cases Path.isAbs dir <;> decide
  · exact Path.ofSegments_ne_empty (Path.kept_segments dir) hnil

/-- What is found at a directory is at the end of a trail. -/
theorem exists_trail_of_find {d : Disk} {dir : String} {n : Node} (h : d.find .follow (Path.clean dir) = .ok n) :
    ∃ left place, Trail d.root maxLinks [] (d.dirSteps dir) left place ∧ d.root.at? place = some n := by
  obtain ⟨stays, hsteps, hstays⟩ := d.steps_clean dir
  obtain ⟨place, hplace, hn⟩ := find_eq_ok_iff.mp h
  rw [place_eq_walk (clean_ne_empty dir), hsteps] at hplace
  obtain ⟨left, middle, htrail, hwalk⟩ := exists_trail (.inl rfl) _ _ _ hplace
  obtain rfl := walk_stays hstays hwalk
  exact ⟨left, _, htrail, hn⟩

theorem find_of_trail {d : Disk} {dir : String} {left : Nat} {place : List String} {entries : List (String × Node)}
    (htrail : Trail d.root maxLinks [] (d.dirSteps dir) left place) (hdir : d.root.at? place = some (.dir entries)) :
    d.find .follow (Path.clean dir) = .ok (.dir entries) := by
  obtain ⟨stays, hsteps, hstays⟩ := d.steps_clean dir
  rw [find, place_eq_walk (clean_ne_empty dir), hsteps, walk_append_of_trail htrail (.inl rfl),
    walk_stays_of_dir hdir hstays]
  simp only [hdir]

/-- What is found under a name in a directory is at the end of a walk from the directory. -/
theorem exists_walk_of_find {d : Disk} {dir name : String} {n : Node} (hname : Path.Descends name)
    (h : d.find .follow (Path.join dir name) = .ok n) :
    ∃ left middle place, Trail d.root maxLinks [] (d.dirSteps dir) left middle ∧
      walk d.root .follow left middle (Path.parts name) = .ok place ∧ d.root.at? place = some n := by
  obtain ⟨place, hplace, hn⟩ := find_eq_ok_iff.mp h
  rw [place_eq_walk (join_ne_empty hname dir), steps_join _ hname] at hplace
  obtain ⟨left, middle, htrail, hwalk⟩ := exists_trail (.inl rfl) _ _ _ hplace
  exact ⟨left, middle, place, htrail, hwalk, hn⟩

theorem linklessDir_of_empty {d : Disk} {dir : String}
    (h : d.find .follow (Path.clean dir) = .ok (.dir [])) : d.LinklessDir dir := by
  intro n hn
  rw [h] at hn
  cases hn
  exact Node.linkless_dir_nil

/-- A trail to a directory without links makes it settled. -/
theorem LinklessDir.settled {d : Disk} {dir : String} (h : d.LinklessDir dir) {left : Nat} {place : List String}
    (htrail : Trail d.root maxLinks [] (d.dirSteps dir) left place) : Settled d dir left place := by
  refine ⟨htrail, fun below target hlink => ?_⟩
  by_cases hbelow : below = []
  · -- the place itself is no link, since the trail went through all links
    have hwalk := walk_of_trail htrail
    obtain ⟨entries, hroot⟩ := exists_dir_of_walk (d.dirSteps_ne_nil dir) hwalk
    obtain ⟨n, hn, hnot⟩ := solid_walk (solid_of_dir hroot) hwalk
    rw [hbelow, List.append_nil, hn] at hlink
    exact hnot target (Option.some.inj hlink)
  · obtain ⟨entries, hdir⟩ := Node.exists_dir_of_append hbelow hlink
    have hfind := find_of_trail htrail hdir
    rw [Node.at?_append, hdir] at hlink
    exact h _ hfind below target hlink

theorem Settled.linklessDir {d : Disk} {dir : String} {left : Nat} {place : List String}
    (h : Settled d dir left place) : d.LinklessDir dir := by
  intro n hfind below target hlink
  obtain ⟨left', place', htrail, hn⟩ := exists_trail_of_find hfind
  have hsame := walk_of_trail htrail
  rw [walk_of_trail h.trail] at hsame
  obtain rfl := Except.ok.inj hsame
  refine h.linkless below target ?_
  rw [Node.at?_append, hn]
  exact hlink

/-! ## Directories that are made -/

/-- The path from which the next directory is made. -/
def aboveText (rooted : Bool) (done : List String) : String := (if rooted then "/" else "") ++ "/".intercalate done

theorem endsWith_iff (s t : String) : s.endsWith t = true ↔ t.toList <:+ s.toList := by
  rw [String.endsWith_eq_endsWith_toSlice, String.Slice.endsWith_string_iff, String.copy_toSlice]

theorem aboveText_eq {rooted : Bool} {segs : List String} (hne : segs ≠ []) :
    aboveText rooted segs = Path.ofSegments rooted segs := by
  unfold aboveText Path.ofSegments
  cases rooted with
  | true => rfl
  | false => simp [hne]

/-- The path of the next directory. -/
theorem nextPath_eq {rooted : Bool} {done : List String} {segment : String}
    (h : Path.Kept rooted (done ++ [segment]).reverse) :
    (if aboveText rooted done = "" || (aboveText rooted done).endsWith "/" then aboveText rooted done ++ segment
      else aboveText rooted done ++ "/" ++ segment) = aboveText rooted (done ++ [segment]) := by
  by_cases hnil : done = []
  · subst hnil
    cases rooted with
    | true =>
      have hends : (aboveText true []).endsWith "/" = true := (endsWith_iff _ _).mpr (by decide)
      rw [if_pos (by simp [hends])]
      rfl
    | false =>
      rw [if_pos (by decide)]
      rfl
  · obtain ⟨init, last, rfl⟩ : ∃ init last, done = init ++ [last] :=
      ⟨_, _, (List.dropLast_append_getLast hnil).symm⟩
    obtain ⟨hlast, -, hslash⟩ := Path.isName_of_kept_reverse h last (by simp)
    obtain ⟨front, hfront⟩ : ∃ front, aboveText rooted (init ++ [last]) = front ++ last := by
      by_cases hinit : init = []
      · exact ⟨_, by rw [hinit, aboveText, List.nil_append, String.intercalate_singleton]⟩
      · refine ⟨(if rooted then "/" else "") ++ ("/".intercalate init ++ "/"), ?_⟩
        rw [aboveText, String.intercalate_append_of_ne_nil hinit (List.cons_ne_nil _ _),
          String.intercalate_singleton]
        simp only [String.append_assoc]
    obtain ⟨l, c, hl⟩ : ∃ l c, last.toList = l ++ [c] := by
      have hchars : last.toList ≠ [] := fun hnil => hlast (String.toList_inj.mp hnil)
      exact ⟨_, _, (List.dropLast_append_getLast hchars).symm⟩
    have hne : front ++ last ≠ "" := by
      intro hempty
      have hlist := congrArg String.toList hempty
      simp [hl] at hlist
    have hends : ¬ (front ++ last).endsWith "/" = true := by
      rw [endsWith_iff, String.toList_append, hl]
      rintro ⟨t, ht⟩
      rw [← List.append_assoc] at ht
      have hc : "/".toList = [c] := List.append_inj_right' ht rfl
      rw [hl, ← hc] at hslash
      exact hslash (List.mem_append_right l (by decide))
    have hnext : aboveText rooted (init ++ [last] ++ [segment]) =
        aboveText rooted (init ++ [last]) ++ "/" ++ segment := by
      rw [aboveText, String.intercalate_append_of_ne_nil hnil (List.cons_ne_nil _ _),
        String.intercalate_singleton, aboveText]
      simp only [String.append_assoc]
    rw [hnext, hfront, if_neg (by simp [hne, hends])]

/-- A new directory stands below the one that was made or found before it. -/
theorem place_of_make {d : Disk} {rooted : Bool} {done : List String} {segment : String} {e e' : Errno}
    {place : List String} (hkept : Path.Kept rooted (done ++ [segment]).reverse)
    (hfind : d.find .follow (Path.ofSegments rooted (done ++ [segment])) = .error e)
    (hkeep : d.place .keep (Path.ofSegments rooted (done ++ [segment])) = .error e')
    (hplace : d.place .create (Path.ofSegments rooted (done ++ [segment])) = .ok place) :
    ∃ left above entries, Trail d.root maxLinks [] (d.origin rooted ++ done) left above ∧ Proper segment ∧
      d.root.at? above = some (.dir entries) ∧ d.root.at? place = none ∧ place = above ++ [segment] := by
  obtain ⟨hnone, -⟩ := place_of_missing hfind hplace
  have hpath := Path.ofSegments_ne_empty hkept (by simp)
  have hsteps := d.steps_ofSegments hkept (by simp)
  rw [← List.append_assoc] at hsteps
  rw [place_eq_walk hpath, hsteps] at hkeep hplace
  obtain ⟨left, above, htrail, hwalk⟩ := exists_trail (.inr (List.cons_ne_nil _ _)) _ _ _ hplace
  rw [walk_append_of_trail htrail (.inr (List.cons_ne_nil _ _))] at hkeep
  obtain ⟨entries, hdir⟩ := exists_dir_of_walk (List.cons_ne_nil _ _) hwalk
  obtain ⟨hempty, hpoint, -⟩ := Path.isName_of_kept_reverse hkept segment (by simp)
  have hup : segment ≠ ".." := by
    rintro rfl
    rw [walk_up hdir, walk] at hwalk
    obtain ⟨n, hn, -⟩ := solid_dropLast hdir
    rw [← Except.ok.inj hwalk, hn] at hnone
    cases hnone
  have hproper : Proper segment := ⟨hempty, hpoint, hup⟩
  refine ⟨left, above, entries, htrail, hproper, hdir, hnone, ?_⟩
  cases hchild : d.root.at? (above ++ [segment]) with
  | none =>
    rw [walk_missing hproper hdir hchild] at hwalk
    exact (Except.ok.inj hwalk).symm
  | some n =>
    rw [walk_keep hproper hchild] at hkeep
    cases hkeep

/-- The path of the first directory leads somewhere, if directories are made. -/
theorem exists_place_of_makeDirs {d d' : Disk} {above : String} {segment : String} {rest : List String}
    (h : d.makeDirs above (segment :: rest) = .ok d') : ∃ last place, d.place last
      (if above = "" || above.endsWith "/" then above ++ segment else above ++ "/" ++ segment) = .ok place := by
  rw [makeDirs] at h
  split at h
  · rename_i hfind
    obtain ⟨place, hplace, -⟩ := find_eq_ok_iff.mp hfind
    exact ⟨.follow, place, hplace⟩
  · cases h
  split at h
  · cases h
  split at h
  · exact ⟨.create, _, ‹_›⟩
  · cases h

/-- A new directory is empty, and names lead on below it. -/
theorem linklessAt_of_made {root : Node} {links left left' : Nat} {steps above todo place : List String}
    {next : String} {entries : List (String × Node)} (htrail : Trail root links [] steps left above)
    (hdir : root.at? above = some (.dir entries)) (hnone : root.at? (above ++ [next]) = none)
    (hnext : Proper next) (htodo : ∀ s ∈ todo, Proper s)
    (h : Trail (root.set (above ++ [next]) (some (.dir []))) links [] (steps ++ [next] ++ todo) left' place) :
    LinklessAt (root.set (above ++ [next]) (some (.dir []))) place := by
  have hgrows : Node.Grows ∅ root (root.set (above ++ [next]) (some (.dir []))) := by
    refine Node.grows_set hdir Node.linkless_dir_nil fun n hn => ?_
    rw [hnone] at hn
    cases hn
  have hsolid : Solid (root.set (above ++ [next]) (some (.dir []))) (above ++ [next]) :=
    solid_of_dir (Node.at?_set_self hdir next _)
  have hlinkless : LinklessAt (root.set (above ++ [next]) (some (.dir []))) (above ++ [next]) := by
    intro below target
    rw [Node.at?_set_append hdir]
    exact Node.linkless_dir_nil below target
  have hmade := (htrail.grows hgrows).append (.down hnext hsolid (.done left (above ++ [next])))
  have hwalk := walk_of_trail h
  rw [walk_append_of_trail hmade (.inl rfl)] at hwalk
  rw [walk_names hlinkless htodo hwalk]
  exact hlinkless.append todo

/-- **Directories are made one below the other**, until the one in which the last is made is settled. -/
theorem exists_trail_of_makeDirs {rooted : Bool} {d d' : Disk} {done todo : List String} {segment : String}
    (hkept : Path.Kept rooted (done ++ todo ++ [segment]).reverse)
    (hlinkless : ∀ left place, Trail d.root maxLinks [] (d.origin rooted ++ (done ++ todo)) left place →
      LinklessAt d.root place)
    (h : d.makeDirs (aboveText rooted done) (todo ++ [segment]) = .ok d') :
    ∃ left place, Trail d'.root maxLinks [] (d'.origin rooted ++ (done ++ todo)) left place ∧
      LinklessAt d'.root place := by
  -- along the way it stays known that the directory, if it is there already, has no links
  induction todo generalizing d done with
  | nil =>
    rw [List.append_nil] at hkept hlinkless ⊢
    obtain ⟨last, place, hplace⟩ := exists_place_of_makeDirs h
    rw [nextPath_eq hkept, aboveText_eq (by simp), place_eq_walk (Path.ofSegments_ne_empty hkept (by simp)),
      d.steps_ofSegments hkept (by simp), ← List.append_assoc] at hplace
    obtain ⟨left, middle, htrail, -⟩ := exists_trail (.inr (List.cons_ne_nil _ _)) _ _ _ hplace
    obtain ⟨hgrows, hcwd⟩ := grows_makeDirs h
    have horigin : d'.origin rooted = d.origin rooted := by simp [origin, hcwd]
    rw [horigin]
    exact ⟨left, middle, htrail.grows hgrows, (hlinkless left middle htrail).grows hgrows⟩
  | cons next todo ih =>
    have hfull : Path.Kept rooted (done ++ next :: (todo ++ [segment])).reverse := by simpa using hkept
    have hassoc : done ++ next :: todo = done ++ [next] ++ todo := by simp
    rw [hassoc] at hkept hlinkless ⊢
    have hnext : Path.Kept rooted (done ++ [next]).reverse := by
      rw [List.append_assoc] at hkept
      exact hkept.front
    rw [List.cons_append, makeDirs, nextPath_eq hnext] at h
    split at h
    · exact ih hkept hlinkless h
    · cases h
    rename_i e hfind
    split at h
    · cases h
    rename_i e' hkeep
    split at h
    swap
    · cases h
    rename_i place hplace
    rw [aboveText_eq (by simp)] at hfind hkeep hplace
    obtain ⟨left, above, entries, htrail, hproper, hdir, hnone, rfl⟩ := place_of_make hnext hfind hkeep hplace
    have htodo : ∀ s ∈ todo, Proper s := by
      intro s hs
      obtain ⟨hempty, hpoint, -⟩ := Path.isName_of_kept_reverse hfull s (by simp [hs])
      exact ⟨hempty, hpoint, hfull.not_up hproper.2.2 s (List.mem_append_left _ hs)⟩
    refine ih hkept (fun left' place' htrail' => ?_) h
    rw [← List.append_assoc, ← List.append_assoc] at htrail'
    exact linklessAt_of_made htrail hdir hnone hproper htodo htrail'

/-- What is at the path of a directory that is made is a directory already. -/
theorem mkdirAll_of_find {d d' : Disk} {path : String} {n : Node} (hfind : d.find .follow path = .ok n)
    (h : d.mkdirAll path = .ok d') : d' = d ∧ ∃ entries, n = .dir entries := by
  unfold mkdirAll at h
  split at h
  · cases h
  rw [hfind] at h
  cases n with
  | dir entries =>
    cases h
    exact ⟨rfl, entries, rfl⟩
  | file t => cases h
  | link target => cases h

/-- Where a directory is missing, it is made from the top. -/
theorem mkdirAll_missing {d : Disk} {rooted : Bool} {segs : List String} {e : Errno}
    (hkept : Path.Kept rooted segs.reverse) (hne : segs ≠ [])
    (hfind : d.find .follow (Path.ofSegments rooted segs) = .error e) :
    d.mkdirAll (Path.ofSegments rooted segs) = d.makeDirs (aboveText rooted []) segs := by
  have hnames : ∀ s ∈ segs, decide (s ≠ "") = true := fun s hs =>
    decide_eq_true (Path.isName_of_kept_reverse hkept s hs).1
  have hpaths : (Path.parts (Path.ofSegments rooted segs)).filter (· ≠ "") = segs := by
    rw [Path.parts_ofSegments hkept hne, List.filter_append, List.filter_eq_self.mpr hnames]
    cases rooted <;> simp
  have habove : (if Path.isAbs (Path.ofSegments rooted segs) then "/" else "") = aboveText rooted [] := by
    rw [Path.isAbs_ofSegments hkept, aboveText]
    simp
  unfold mkdirAll
  rw [if_neg (Path.ofSegments_ne_empty hkept hne)]
  simp only [hfind, hpaths, habove]

/-- **A directory is settled** once a directory in it was made, whether it was there before or not. -/
theorem settled_mkdirAll {d d' : Disk} {dir name : String} (hlinkless : d.LinklessDir dir)
    (hname : Path.Descends name) (hparts : Path.parts name = [name])
    (h : d.mkdirAll (Path.join dir name) = .ok d') : ∃ left place, Settled d' dir left place := by
  have hkept : Path.Kept (Path.isAbs dir) (Path.segments dir ++ [name]).reverse := by
    rw [← hparts]
    exact Path.kept_append (Path.kept_segments dir) hname
  have hjoin : Path.join dir name = Path.ofSegments (Path.isAbs dir) (Path.segments dir ++ [name]) := by
    rw [hname.join, hparts]
  cases hfind : d.find .follow (Path.join dir name) with
  | ok n =>
    -- the directory in it is there, so the directory is
    obtain ⟨rfl, entries, rfl⟩ := mkdirAll_of_find hfind h
    obtain ⟨left, middle, place, htrail, -⟩ := exists_walk_of_find hname hfind
    exact ⟨left, middle, hlinkless.settled htrail⟩
  | error e =>
    rw [hjoin] at h hfind
    rw [mkdirAll_missing hkept (by simp) hfind] at h
    obtain ⟨left, place, htrail, hat⟩ := exists_trail_of_makeDirs (by simpa using hkept)
      (fun left place htrail => (hlinkless.settled htrail).linkless) h
    exact ⟨left, place, htrail, hat⟩

end Disk

end ScriptSplit
