import Mathlib
import ScriptSplit.Proofs.Disk.Frame

/-!
# Room below a directory

A layout says which directories and which files there may be below a place. As long as nothing else is
there, every directory of the layout can be made and every file of it can be written, and again there is
nothing else below the place.

* `Layout`, `Layout.Allows`: directories and files below a place, none of them both.
* `Disk.HasRoom`: such a place is the place of a directory; **`HasRoom.mkdirAll`**, **`HasRoom.write`**: making
  directories and writing files below it succeed.
* `Disk.FreshDir`: a directory that is empty once it is made; **`FreshDir.mkdirAll`**: a directory can be made in it.
-/

namespace ScriptSplit

/-! ## Layouts -/

/-- The directories and the files that may be below a place, as lists of names. -/
structure Layout where
  dirs : Set (List String)
  files : Set (List String)
  apart : Disjoint dirs files

namespace Layout

/-- A file of the layout, with all directories above it. -/
structure HasFile (l : Layout) (below : List String) : Prop where
  file : below ∈ l.files
  above : ∀ first, first <+: below → first ≠ below → first ∈ l.dirs

/-- Below the place there is nothing but directories and files of the layout. -/
structure Allows (l : Layout) (root : Node) (place : List String) : Prop where
  dirs : ∀ below entries, root.at? (place ++ below) = some (.dir entries) → below ∈ l.dirs
  files : ∀ below t, root.at? (place ++ below) = some (.file t) → below ∈ l.files
  linkless : Disk.LinklessAt root place

/-- What is set at a place of the layout. -/
inductive Fits (l : Layout) (below : List String) : Node → Prop where
  | dir (h : below ∈ l.dirs) : Fits l below (.dir [])
  | file (t : Bytes) (h : below ∈ l.files) : Fits l below (.file t)

/-- **One change**: a tree is as the layout allows, after an empty directory or a file of it is set. -/
theorem Allows.set {l : Layout} {root n : Node} {place above : List String} {name : String}
    {entries : List (String × Node)} (h : l.Allows root place) (hdir : root.at? (place ++ above) = some (.dir entries))
    (hn : l.Fits (above ++ [name]) n) : l.Allows (root.set (place ++ above ++ [name]) (some n)) place := by
  -- a node of the new tree is the one that was set, or it was there but for the entries of a directory
  have hcases : ∀ below m, (root.set (place ++ above ++ [name]) (some n)).at? (place ++ below) = some m →
      below = above ++ [name] ∧ m = n ∨ ∃ m', root.at? (place ++ below) = some m' ∧ m.Like m' := by
    intro below m hm
    by_cases hprefix : place ++ above ++ [name] <+: place ++ below
    · obtain ⟨rest, hrest⟩ := hprefix
      rw [← hrest, Node.at?_set_append hdir] at hm
      have hbelow : below = above ++ [name] ++ rest := by
        simpa using hrest.symm
      cases rest with
      | nil =>
        cases hm
        exact .inl ⟨by simpa using hbelow, rfl⟩
      | cons first rest => cases hn <;> cases hm
    · have hrel : Option.Rel Node.Like _ (root.at? (place ++ below)) := Node.rel_like_set hprefix (some n)
      rw [hm] at hrel
      generalize root.at? (place ++ below) = o at hrel
      cases hrel with
      | some hlike => exact .inr ⟨_, rfl, hlike⟩
  refine ⟨fun below entries' hm => ?_, fun below t hm => ?_, fun below target hm => ?_⟩
  · obtain ⟨rfl, rfl⟩ | ⟨m', hm', rfl | ⟨-, hm''⟩⟩ := hcases below _ hm
    · cases hn with
      | dir hbelow => exact hbelow
    · exact h.dirs below entries' hm'
    · cases m' with
      | dir entries'' => exact h.dirs below entries'' hm'
      | file t => cases hm''
      | link target => cases hm''
  · obtain ⟨rfl, rfl⟩ | ⟨m', hm', rfl | ⟨hcontra, -⟩⟩ := hcases below _ hm
    · cases hn with
      | file _ hbelow => exact hbelow
    · exact h.files below t hm'
    · cases hcontra
  · obtain ⟨rfl, rfl⟩ | ⟨m', hm', rfl | ⟨hcontra, -⟩⟩ := hcases below _ hm
    · cases hn
    · exact h.linkless below target hm'
    · cases hcontra

end Layout

namespace Disk

/-! ## Directories on the way -/

theorem makeDirs_append {d : Disk} {rooted : Bool} {done first rest : List String}
    (hkept : Path.Kept rooted (done ++ first).reverse) : d.makeDirs (aboveText rooted done) (first ++ rest) =
      (d.makeDirs (aboveText rooted done) first).bind fun d => d.makeDirs (aboveText rooted (done ++ first)) rest := by
  induction first generalizing d done with
  | nil => simp [makeDirs, Except.bind]
  | cons next first ih =>
    have hassoc : done ++ next :: first = done ++ [next] ++ first := by simp
    rw [hassoc] at hkept ⊢
    have hnext : Path.Kept rooted (done ++ [next]).reverse := hkept.front
    rw [List.cons_append, makeDirs, makeDirs, nextPath_eq hnext]
    split
    · exact ih hkept
    · rfl
    split
    · rfl
    split
    · exact ih hkept
    · rfl

/-- The first steps of a trail to a directory lead to a directory. -/
theorem Trail.front {root : Node} {links left : Nat} {here first rest place : List String}
    {entries : List (String × Node)} (h : Trail root links here (first ++ rest) left place)
    (hdir : root.at? place = some (.dir entries)) :
    ∃ middle place' entries', Trail root links here first middle place' ∧ root.at? place' = some (.dir entries') := by
  obtain ⟨middle, place', htrail, hrest⟩ := exists_trail (.inl rfl) _ _ _ (walk_of_trail h)
  cases rest with
  | nil =>
    rw [walk] at hrest
    cases hrest
    exact ⟨middle, _, entries, htrail, hdir⟩
  | cons segment rest =>
    obtain ⟨entries', hdir'⟩ := exists_dir_of_walk (List.cons_ne_nil segment rest) hrest
    exact ⟨middle, place', entries', htrail, hdir'⟩

/-- Directories that are there are passed over. -/
theorem makeDirs_of_trail {d : Disk} {rooted : Bool} {done todo : List String} {left : Nat} {place : List String}
    {entries : List (String × Node)} (hkept : Path.Kept rooted (done ++ todo).reverse)
    (htrail : Trail d.root maxLinks [] (d.origin rooted ++ (done ++ todo)) left place)
    (hdir : d.root.at? place = some (.dir entries)) : d.makeDirs (aboveText rooted done) todo = .ok d := by
  induction todo generalizing done with
  | nil => rfl
  | cons next todo ih =>
    have hassoc : done ++ next :: todo = done ++ [next] ++ todo := by simp
    rw [hassoc] at hkept htrail
    have hnext : Path.Kept rooted (done ++ [next]).reverse := hkept.front
    have hfound : ∃ entries, d.find .follow (Path.ofSegments rooted (done ++ [next])) = .ok (.dir entries) := by
      rw [← List.append_assoc] at htrail
      obtain ⟨middle, place', entries', hfront, hdir'⟩ := htrail.front hdir
      rw [find_dir_iff (Path.ofSegments_ne_empty hnext (by simp)), d.steps_ofSegments hnext (by simp)]
      exact ⟨middle, place', entries', hfront, hdir'⟩
    obtain ⟨entries', hfind⟩ := hfound
    rw [makeDirs, nextPath_eq hnext, aboveText_eq (by simp), hfind, ← aboveText_eq (by simp)]
    exact ih hkept htrail

/-! ## Room for directories and files -/

section Room

variable {l : Layout} {d : Disk} {rooted : Bool} {segs names todo : List String} {left : Nat} {place : List String}

/-- Steps lead to a place and on along names to a directory, and below the place there is what a layout allows. -/
structure Reached (l : Layout) (d : Disk) (rooted : Bool) (segs names : List String) (left : Nat)
    (place : List String) : Prop where
  trail : Trail d.root maxLinks [] (d.origin rooted ++ (segs ++ names)) left (place ++ names)
  dir : ∃ entries, d.root.at? (place ++ names) = some (.dir entries)
  allows : l.Allows d.root place

theorem Reached.place_eq {next : String} (h : Reached l d rooted segs names left place)
    (hkept : Path.Kept rooted (segs ++ names ++ [next]).reverse) (last : LastStep) :
    d.place last (Path.ofSegments rooted (segs ++ names ++ [next])) =
      walk d.root last left (place ++ names) [next] := by
  rw [place_eq_walk (Path.ofSegments_ne_empty hkept (by simp)), d.steps_ofSegments hkept (by simp),
    ← List.append_assoc, walk_append_of_trail h.trail (.inr (List.cons_ne_nil _ _))]

/-- A tree that grew, with a directory of the next name. -/
theorem Reached.next {d₁ : Disk} {next : String} {entries : List (String × Node)}
    (h : Reached l d rooted segs names left place) (hname : Proper next) (hgrows : Node.Grows ∅ d.root d₁.root)
    (hcwd : d₁.cwd = d.cwd) (hdir : d₁.root.at? (place ++ names ++ [next]) = some (.dir entries))
    (hallows : l.Allows d₁.root place) : Reached l d₁ rooted segs (names ++ [next]) left place := by
  refine ⟨?_, ⟨entries, by rwa [← List.append_assoc]⟩, hallows⟩
  have hdown := (h.trail.grows hgrows).append (.down hname (solid_of_dir hdir) (.done left _))
  have horigin : d₁.origin rooted = d.origin rooted := by simp [origin, hcwd]
  simpa only [← horigin, List.append_assoc] using hdown

/-- **A directory is made or found** where a layout has one. -/
theorem makeDirs_step {next : String} (h : Reached l d rooted segs names left place)
    (hkept : Path.Kept rooted (segs ++ names ++ [next]).reverse) (hname : Proper next)
    (hmem : names ++ [next] ∈ l.dirs) (todo : List String) :
    ∃ d₁, d.makeDirs (aboveText rooted (segs ++ names)) (next :: todo) =
        d₁.makeDirs (aboveText rooted (segs ++ names ++ [next])) todo ∧
      Node.Grows ∅ d.root d₁.root ∧ d₁.cwd = d.cwd ∧ Reached l d₁ rooted segs (names ++ [next]) left place := by
  obtain ⟨entries, hdir⟩ := h.dir
  rw [makeDirs, nextPath_eq hkept, aboveText_eq (by simp)]
  cases hchild : d.root.at? (place ++ names ++ [next]) with
  | none =>
    have hmissing : ∀ last, d.place last (Path.ofSegments rooted (segs ++ names ++ [next])) =
        if last = .create then .ok (place ++ names ++ [next]) else .error .noEntry := by
      intro last
      rw [h.place_eq hkept, walk_missing hname hdir hchild]
      cases last <;> rfl
    have hfind : d.find .follow (Path.ofSegments rooted (segs ++ names ++ [next])) = .error .noEntry := by
      rw [find, hmissing]
      rfl
    simp only [hfind, hmissing]
    have hgrows : Node.Grows ∅ d.root (d.root.set (place ++ names ++ [next]) (some (.dir []))) := by
      refine Node.grows_set hdir Node.linkless_dir_nil fun m hm => ?_
      rw [hchild] at hm
      cases hm
    exact ⟨_, rfl, hgrows, rfl, h.next hname hgrows rfl (Node.at?_set_self hdir next _)
      (h.allows.set hdir (.dir hmem))⟩
  | some n =>
    cases n with
    | dir entries₁ =>
      have hfind : d.find .follow (Path.ofSegments rooted (segs ++ names ++ [next])) = .ok (.dir entries₁) := by
        rw [find, h.place_eq hkept, walk_down hname hchild (by simp), walk]
        simp only [hchild]
      simp only [hfind]
      exact ⟨d, rfl, Node.Grows.refl ∅ _, rfl, h.next hname (Node.Grows.refl ∅ _) rfl hchild h.allows⟩
    | file t =>
      rw [List.append_assoc] at hchild
      exact absurd (h.allows.files _ t hchild) (Set.disjoint_left.mp l.apart hmem)
    | link target =>
      rw [List.append_assoc] at hchild
      exact absurd hchild (h.allows.linkless _ target)

/-- **Directories are made one below the other**, where a layout has them. -/
theorem makeDirs_of_reached (h : Reached l d rooted segs names left place)
    (hkept : Path.Kept rooted (segs ++ names ++ todo).reverse) (hproper : ∀ s ∈ todo, Proper s)
    (hdirs : ∀ first, first <+: names ++ todo → first ∈ l.dirs) :
    ∃ d', d.makeDirs (aboveText rooted (segs ++ names)) todo = .ok d' ∧ Node.Grows ∅ d.root d'.root ∧
      d'.cwd = d.cwd ∧ Reached l d' rooted segs (names ++ todo) left place := by
  induction todo generalizing d names with
  | nil =>
    rw [List.append_nil]
    exact ⟨d, rfl, Node.Grows.refl ∅ _, rfl, h⟩
  | cons next todo ih =>
    have hassoc : names ++ next :: todo = names ++ [next] ++ todo := by simp
    have hfull : segs ++ names ++ next :: todo = segs ++ names ++ [next] ++ todo := by simp
    rw [hassoc] at hdirs ⊢
    rw [hfull] at hkept
    obtain ⟨d₁, hmake, hgrows, hcwd, hnext⟩ := makeDirs_step h hkept.front (hproper next List.mem_cons_self)
      (hdirs _ (List.prefix_append _ _)) todo
    rw [List.append_assoc segs] at hkept hmake
    obtain ⟨d', hrest, hgrows', hcwd', hreached⟩ :=
      ih hnext hkept (fun s hs => hproper s (List.mem_cons_of_mem next hs)) hdirs
    exact ⟨d', hmake.trans hrest, hgrows.trans hgrows', hcwd'.trans hcwd, hreached⟩

end Room

/-! ## A directory with room -/

/-- A directory is at a place, and below it there is what a layout allows. -/
structure HasRoom (l : Layout) (d : Disk) (dir : String) (left : Nat) (place : List String) : Prop where
  settled : Settled d dir left place
  exists_dir : ∃ entries, d.root.at? place = some (.dir entries)
  allows : l.Allows d.root place

/-- Names lead to what is there, if it is no link: what stands before it is a directory. -/
theorem trail_names {root : Node} {here names : List String} (links : Nat) (hnames : ∀ s ∈ names, Proper s)
    (h : Solid root (here ++ names)) : Trail root links here names links (here ++ names) := by
  induction names generalizing here with
  | nil =>
    rw [List.append_nil]
    exact .done links here
  | cons name names ih =>
    have happend : here ++ name :: names = here ++ [name] ++ names := by simp
    rw [happend] at h ⊢
    refine .down (hnames name List.mem_cons_self) ?_ (ih (fun s hs => hnames s (List.mem_cons_of_mem name hs)) h)
    by_cases hnil : names = []
    · rwa [hnil, List.append_nil] at h
    · obtain ⟨n, hn, -⟩ := h
      obtain ⟨entries, hdir⟩ := Node.exists_dir_of_append hnil hn
      exact solid_of_dir hdir

namespace HasRoom

variable {l : Layout} {d d' : Disk} {dir name : String} {left : Nat} {place : List String}

theorem grows (h : HasRoom l d dir left place) {written : Set (List String)}
    (hgrows : Node.Grows written d.root d'.root) (hcwd : d'.cwd = d.cwd) (hallows : l.Allows d'.root place) :
    HasRoom l d' dir left place := by
  obtain ⟨entries, hdir⟩ := h.exists_dir
  exact ⟨h.settled.grows hgrows hcwd, hgrows.dir hdir, hallows⟩

theorem reached (h : HasRoom l d dir left place) :
    Reached l d (Path.isAbs dir) (Path.segments dir) [] left place := by
  obtain ⟨entries, hdir⟩ := h.exists_dir
  refine ⟨?_, ⟨entries, by rwa [List.append_nil]⟩, h.allows⟩
  rw [List.append_nil, List.append_nil]
  exact h.settled.trail

/-- **Directories below a directory with room** are made, where the layout has them. -/
theorem makeDirs (h : HasRoom l d dir left place) (hname : Path.Descends name)
    (hdirs : ∀ first, first <+: Path.parts name → first ∈ l.dirs) :
    ∃ d' entries, d.makeDirs (aboveText (Path.isAbs dir) (Path.segments dir)) (Path.parts name) = .ok d' ∧
      HasRoom l d' dir left place ∧ d'.root.at? (place ++ Path.parts name) = some (.dir entries) := by
  have hkept := Path.kept_append (Path.kept_segments dir) hname
  obtain ⟨d', hmake, hgrows, hcwd, hreached⟩ := makeDirs_of_reached h.reached (by simpa using hkept)
    (proper_of_descends hname) hdirs
  rw [List.append_nil] at hmake
  obtain ⟨entries, hdir⟩ := hreached.dir
  exact ⟨d', entries, hmake, h.grows hgrows hcwd hreached.allows, hdir⟩

/-- **A directory below a directory with room** is made with those above it, where the layout has them. -/
theorem mkdirAll (h : HasRoom l d dir left place) (hname : Path.Descends name)
    (hdirs : ∀ first, first <+: Path.parts name → first ∈ l.dirs) :
    ∃ d' entries, d.mkdirAll (Path.join dir name) = .ok d' ∧ HasRoom l d' dir left place ∧
      d'.root.at? (place ++ Path.parts name) = some (.dir entries) := by
  have hkept := Path.kept_append (Path.kept_segments dir) hname
  cases hfind : d.find .follow (Path.join dir name) with
  | ok n =>
    have hn : d.root.at? (place ++ Path.parts name) = some n := by
      obtain ⟨target, htarget, hn⟩ := find_eq_ok_iff.mp hfind
      rw [h.settled.place_eq_walk hname] at htarget
      rwa [← walk_names h.settled.linkless (proper_of_descends hname) htarget]
    cases n with
    | dir entries =>
      refine ⟨d, entries, ?_, h, hn⟩
      unfold Disk.mkdirAll
      rw [if_neg (join_ne_empty hname dir), hfind]
    | file t =>
      exact absurd (h.allows.files _ t hn) (Set.disjoint_left.mp l.apart (hdirs _ (List.prefix_refl _)))
    | link target => exact absurd hn (h.allows.linkless _ target)
  | error e =>
    obtain ⟨entries, hdir⟩ := h.exists_dir
    obtain ⟨d', entries', hmake, hrest⟩ := h.makeDirs hname hdirs
    have hsegs : Path.Kept (Path.isAbs dir) ([] ++ Path.segments dir).reverse := Path.kept_segments dir
    have hpassed := makeDirs_of_trail hsegs h.settled.trail hdir
    refine ⟨d', entries', ?_, hrest⟩
    rw [hname.join] at hfind ⊢
    rw [mkdirAll_missing hkept (by simp [Path.parts_ne_nil]) hfind,
      makeDirs_append hsegs, hpassed]
    exact hmake

/-- **A file below a directory with room** is written, where the layout has it and its directory is there. -/
theorem write (h : HasRoom l d dir left place) (hname : Path.Descends name) (hfile : Path.parts name ∈ l.files)
    {above : List String} {last : String} (hparts : Path.parts name = above ++ [last]) {entries : List (String × Node)}
    (habove : d.root.at? (place ++ above) = some (.dir entries)) (content : Bytes) :
    ∃ d', d.write (Path.join dir name) content = .ok d' ∧ HasRoom l d' dir left place := by
  have hproper := proper_of_descends hname
  rw [hparts] at hproper hfile
  have hplace : d.place .create (Path.join dir name) = .ok (place ++ above ++ [last]) := by
    have htrail := trail_names left (fun s hs => hproper s (List.mem_append_left _ hs)) (solid_of_dir habove)
    rw [h.settled.place_eq_walk hname, hparts, walk_append_of_trail htrail (.inr (List.cons_ne_nil _ _))]
    cases hchild : d.root.at? (place ++ above ++ [last]) with
    | none =>
      rw [walk_missing (hproper last (by simp)) habove hchild]
      rfl
    | some n =>
      have hn : ∀ target, n ≠ .link target := by
        rintro target rfl
        rw [List.append_assoc] at hchild
        exact h.allows.linkless _ target hchild
      rw [walk_down (hproper last (by simp)) hchild hn, walk]
  have hwrite : d.write (Path.join dir name) content =
      .ok { d with root := d.root.set (place ++ above ++ [last]) (some (.file content)) } := by
    unfold Disk.write
    rw [hplace]
    split
    · rename_i hcontra
      cases hcontra
    rename_i p hp
    cases hp
    split
    · rename_i entries' hdir
      rw [List.append_assoc] at hdir
      exact absurd hfile (Set.disjoint_left.mp l.apart (h.allows.dirs _ entries' hdir))
    · rfl
  obtain ⟨hgrows, -, hcwd⟩ := grows_write hwrite hplace
  exact ⟨_, hwrite, h.grows hgrows hcwd (h.allows.set habove (.file content hfile))⟩

/-- **A file is put below a directory with room**: the directories above it are made and it is written. -/
theorem put (h : HasRoom l d dir left place) (hname : Path.Descends name) (hfile : l.HasFile (Path.parts name))
    {above : List String} {last : String} (hparts : Path.parts name = above ++ [last]) (hne : above ≠ [])
    (content : Bytes) : ∃ d₁ d', d.mkdirAll (Path.dir (Path.join dir name)) = .ok d₁ ∧
      d₁.write (Path.join dir name) content = .ok d' ∧ HasRoom l d' dir left place := by
  have hsteps : ∀ s ∈ above ++ [last], Path.IsName s ∧ s ≠ ".." := fun s hs => hname s (hparts ▸ hs)
  have habove : Path.parts ("/".intercalate above) = above :=
    Path.parts_intercalate hne fun s hs => (hsteps s (List.mem_append_left _ hs)).1.2.2
  have hdescends : Path.Descends ("/".intercalate above) := by
    intro s hs
    rw [habove] at hs
    exact hsteps s (List.mem_append_left _ hs)
  have hdir : Path.dir (Path.join dir name) = Path.join dir ("/".intercalate above) := by
    have hkept := Path.kept_append (Path.kept_segments dir) hname
    rw [hparts, ← List.append_assoc] at hkept
    rw [hname.join, hdescends.join, habove, hparts, ← List.append_assoc, Path.dir_ofSegments hkept]
  have hdirs : ∀ first, first <+: Path.parts ("/".intercalate above) → first ∈ l.dirs := by
    intro first hfirst
    rw [habove] at hfirst
    refine hfile.above first (hparts ▸ hfirst.trans (List.prefix_append _ _)) ?_
    rintro rfl
    rw [hparts] at hfirst
    exact absurd hfirst.length_le (by simp)
  obtain ⟨d₁, entries, hmake, hroom, hmade⟩ := h.mkdirAll hdescends hdirs
  rw [habove] at hmade
  obtain ⟨d', hwrite, hroom'⟩ := hroom.write hname hfile.file hparts hmade content
  exact ⟨d₁, d', hdir ▸ hmake, hwrite, hroom'⟩

end HasRoom

/-! ## Fresh directories -/

/-- The directory is there and empty, once it is made. -/
def FreshDir (d : Disk) (dir : String) : Prop :=
  ∃ d', d.mkdirAll (Path.clean dir) = .ok d' ∧ d'.find .follow (Path.clean dir) = .ok (.dir [])

theorem freshDir_of_empty {d : Disk} {dir : String} (h : d.find .follow (Path.clean dir) = .ok (.dir [])) :
    d.FreshDir dir := by
  refine ⟨d, ?_, h⟩
  unfold mkdirAll
  rw [if_neg (clean_ne_empty dir), h]

theorem Layout.allows_of_empty {l : Layout} {root : Node} {place : List String} (hnil : [] ∈ l.dirs)
    (h : root.at? place = some (.dir [])) : l.Allows root place := by
  have hbelow : ∀ below n, root.at? (place ++ below) = some n → below = [] ∧ n = .dir [] := by
    intro below n hn
    rw [Node.at?_append, h, Option.bind_some] at hn
    cases below with
    | nil => exact ⟨rfl, (Option.some.inj hn).symm⟩
    | cons name below => cases hn
  refine ⟨fun below entries hn => (hbelow below _ hn).1 ▸ hnil, fun below t hn => ?_, fun below target hn => ?_⟩
  · cases (hbelow below _ hn).2
  · cases (hbelow below _ hn).2

/-- In an empty directory there is nothing to find. -/
theorem walk_empty {root : Node} {links : Nat} {here names place : List String} (h : root.at? here = some (.dir []))
    (hnames : ∀ s ∈ names, Proper s) (hne : names ≠ []) : walk root .follow links here names ≠ .ok place := by
  intro hwalk
  cases names with
  | nil => exact hne rfl
  | cons name names =>
    obtain ⟨n, hn⟩ := exists_node_of_walk (hnames name List.mem_cons_self) (by decide) hwalk
    rw [Node.at?_concat h] at hn
    cases hn

/-- Where a path to the working directory leads somewhere, it leads to a directory. -/
theorem find_point {d : Disk} {last : LastStep} {place : List String} (h : d.place last "." = .ok place) :
    ∃ entries, d.find .follow "." = .ok (.dir entries) := by
  have hsteps : d.steps "." = Path.parts d.cwd ++ ["."] := (Path.parts_append_slash d.cwd ".").trans rfl
  rw [place_eq_walk (by decide), hsteps] at h
  obtain ⟨left, middle, htrail, hwalk⟩ := exists_trail (.inr (List.cons_ne_nil _ _)) _ _ _ h
  obtain ⟨entries, hdir⟩ := exists_dir_of_walk (List.cons_ne_nil _ _) hwalk
  rw [find_dir_iff (by decide), hsteps]
  exact ⟨left, middle, entries, htrail.append (.stay hdir (.inr rfl) (.done left middle)), hdir⟩

namespace FreshDir

variable {d : Disk} {dir : String} (h : d.FreshDir dir)
include h

/-- The root and the working directory are not made. -/
theorem segments_ne_nil {e : Errno} (hfind : d.find .follow (Path.clean dir) = .error e) : Path.segments dir ≠ [] := by
  intro hnil
  obtain ⟨d', hmake, hmade⟩ := h
  unfold mkdirAll at hmake
  rw [if_neg (clean_ne_empty dir), hfind] at hmake
  have hclean : Path.clean dir = Path.ofSegments (Path.isAbs dir) [] := by rw [Path.clean, hnil]
  rw [hclean] at hfind hmake hmade
  cases habs : Path.isAbs dir with
  | true =>
    rw [habs] at hfind hmake hmade
    have hparts : (Path.parts (Path.ofSegments true [])).filter (· ≠ "") = [] := by decide
    simp only [hparts, makeDirs] at hmake
    cases hmake
    rw [hfind] at hmade
    cases hmade
  | false =>
    rw [habs] at hfind hmake
    have hpoint : Path.ofSegments false [] = "." := by decide
    rw [hpoint] at hfind hmake
    have hparts : (Path.parts ".").filter (· ≠ "") = ["."] := by decide
    have habove : (if Path.isAbs "." then "/" else "") = "" := by decide
    simp only [hparts, habove] at hmake
    obtain ⟨last, place, hplace⟩ := exists_place_of_makeDirs hmake
    have hnext : (if "" = "" || "".endsWith "/" then "" ++ "." else "" ++ "/" ++ ".") = "." := by decide
    rw [hnext] at hplace
    obtain ⟨entries, hdir⟩ := find_point hplace
    rw [hdir] at hfind
    cases hfind

/-- **The directory is made from the top**, and at its end it is empty. -/
theorem made : ∃ d' left place, d.makeDirs (aboveText (Path.isAbs dir) []) (Path.segments dir) = .ok d' ∧
    (∀ n, d.find .follow (Path.clean dir) = .ok n → d' = d) ∧
    Trail d'.root maxLinks [] (d'.dirSteps dir) left place ∧ d'.root.at? place = some (.dir []) := by
  obtain ⟨d', hmake, hmade⟩ := id h
  obtain ⟨left, place, htrail, hempty⟩ := exists_trail_of_find hmade
  refine ⟨d', left, place, ?_, fun n hfind => (mkdirAll_of_find hfind hmake).1, htrail, hempty⟩
  cases hfind : d.find .follow (Path.clean dir) with
  | ok n =>
    obtain ⟨rfl, -⟩ := mkdirAll_of_find hfind hmake
    have hsegs : Path.Kept (Path.isAbs dir) ([] ++ Path.segments dir).reverse := Path.kept_segments dir
    exact makeDirs_of_trail hsegs htrail hempty
  | error e =>
    rw [← mkdirAll_missing (Path.kept_segments dir) (h.segments_ne_nil hfind) hfind]
    exact hmake

/-- **A directory is made in a fresh directory**, with those above it, where a layout has them. -/
theorem mkdirAll {l : Layout} {name : String} (hname : Path.Descends name)
    (hdirs : ∀ first, first <+: Path.parts name → first ∈ l.dirs) :
    ∃ d' left place, d.mkdirAll (Path.join dir name) = .ok d' ∧ HasRoom l d' dir left place := by
  obtain ⟨d₁, left, place, hmake, hsame, htrail, hempty⟩ := h.made
  have hallows : l.Allows d₁.root place := Layout.allows_of_empty (hdirs [] List.nil_prefix) hempty
  have hroom : HasRoom l d₁ dir left place := ⟨⟨htrail, hallows.linkless⟩, ⟨[], hempty⟩, hallows⟩
  obtain ⟨d', entries, hrest, hroom', -⟩ := hroom.makeDirs hname hdirs
  have hkept := Path.kept_append (Path.kept_segments dir) hname
  have hsegs : Path.Kept (Path.isAbs dir) ([] ++ Path.segments dir).reverse := Path.kept_segments dir
  -- nothing is found in the directory, since it is empty or missing
  have hfind : ∃ e, d.find .follow (Path.join dir name) = .error e := by
    cases hfound : d.find .follow (Path.join dir name) with
    | error e => exact ⟨e, rfl⟩
    | ok n =>
      obtain ⟨left', middle, target, htrail', hwalk, -⟩ := exists_walk_of_find hname hfound
      obtain ⟨entries, hdir⟩ := exists_dir_of_walk (Path.parts_ne_nil name) hwalk
      obtain rfl := hsame _ (find_of_trail htrail' hdir)
      obtain rfl := htrail'.eq htrail
      exact absurd hwalk (walk_empty hempty (proper_of_descends hname) (Path.parts_ne_nil name))
  obtain ⟨e, hfind⟩ := hfind
  refine ⟨d', left, place, ?_, hroom'⟩
  rw [hname.join] at hfind ⊢
  rw [mkdirAll_missing hkept (by simp [Path.parts_ne_nil]) hfind, makeDirs_append hsegs, hmake]
  exact hrest

theorem linklessDir : d.LinklessDir dir := by
  intro n hn
  obtain ⟨d', hmake, hmade⟩ := h
  obtain ⟨rfl, -⟩ := mkdirAll_of_find hn hmake
  rw [hn] at hmade
  cases hmade
  exact Node.linkless_dir_nil

end FreshDir

end Disk

end ScriptSplit
