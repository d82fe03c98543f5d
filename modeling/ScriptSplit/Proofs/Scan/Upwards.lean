import Mathlib
import ScriptSplit.Proofs.Disk.Through
import ScriptSplit.Proofs.Scan.Subdirectory

/-!
# The way up to a repository

The root of a repository is looked for from directory to directory upwards, and the next directory is made from the
text of the path: what stands before its last slash, cleaned. For an absolute path that is the directory above. A
relative path ends at the working directory, and where a path ends in a step upwards, what stands before that
leads down again.

* `Path.dir_eq`, `Path.upwards_cases`: the directory of any path, and the paths above it.
* `Climbs`: the loop, with no bound on its steps; **`climbs_findGitRoot`**: it ends for every path.
* `Climbs.find`: what it finds, as a search through the paths above.
* `Disk.find_upwards_relative`: the paths above a relative path end at the working directory.
* **`findGitRoot_nearest`**: what is found is the nearest repository, for a relative path only from the working
  directory on.
* `findGitRoot_astray`: paths from which another directory is found, or none.
-/

namespace ScriptSplit

/-! ## The directory of a path -/

namespace Path

/-- A path that starts at the root has nothing before its first slash. -/
theorem isAbs_iff {path : String} : isAbs path = true ↔ (parts path).dropLast.head? = some "" := by
  constructor
  · intro h
    obtain ⟨rest, hrest⟩ : ∃ rest, path.toList = '/' :: rest := by
      rw [isAbs, decide_eq_true_eq] at h
      exact ⟨_, List.eq_cons_of_mem_head? h⟩
    have hpath : path = "/" ++ String.ofList rest := by
      rw [← String.toList_inj, hrest]
      simp
    rw [hpath, parts_slash, List.dropLast_cons_of_ne_nil (parts_ne_nil _)]
    rfl
  · intro h
    cases hparts : parts path with
    | nil => exact absurd hparts (parts_ne_nil path)
    | cons first rest =>
      rw [hparts] at h
      cases rest with
      | nil => cases h
      | cons s rest =>
        rw [List.dropLast_cons_cons, List.head?_cons, Option.some.injEq] at h
        rw [← intercalate_parts path, hparts, h, String.intercalate_cons_cons, String.empty_append, isAbs,
          String.toList_append]
        rfl

theorem pushSegment_stay {rooted : Bool} {kept : List String} {segment : String} (h : segment = "" ∨ segment = ".") :
    pushSegment rooted kept segment = kept := by
  unfold pushSegment
  rw [if_pos (by simpa using h)]

/-- The segments that are kept of what stands before the last slash, in reverse. -/
def keptAbove (path : String) : List String := (parts path).dropLast.foldl (pushSegment (isAbs path)) []

theorem kept_keptAbove (path : String) : Kept (isAbs path) (keptAbove path) :=
  kept_foldl trivial fun _ hs => not_slash_of_mem_parts (List.mem_of_mem_dropLast hs)

theorem length_foldl_pushSegment_le (rooted : Bool) (kept segs : List String) :
    (segs.foldl (pushSegment rooted) kept).length ≤ kept.length + segs.length := by
  induction segs generalizing kept with
  | nil => simp
  | cons s segs ih =>
    have hone : (pushSegment rooted kept s).length ≤ kept.length + 1 := by
      by_cases hup : s = ".."
      · subst hup
        rw [pushSegment_up]
        cases kept with
        | nil => cases rooted <;> simp
        | cons last rest =>
          dsimp only
          split_ifs <;> simp [Nat.add_assoc]
      · unfold pushSegment
        rw [if_neg hup]
        split_ifs <;> simp
    rw [List.foldl_cons, List.length_cons]
    have hrest := ih (pushSegment rooted kept s)
    omega

theorem length_keptAbove_le (path : String) : (keptAbove path).length ≤ path.length := by
  have hfold := length_foldl_pushSegment_le (isAbs path) [] (parts path).dropLast
  have hparts : (parts path).length ≤ path.length + 1 := by
    rw [parts, List.length_map, ← String.length_toList]
    exact Scanner.length_splitOn_le _
  rw [List.length_dropLast, List.length_nil] at hfold
  unfold keptAbove
  omega

theorem getLast_parts (path : String) : (parts path).getLast (parts_ne_nil path) = afterLastSlash path := by
  rw [afterLastSlash, List.getLastD_eq_getLast?, List.getLast?_eq_some_getLast (parts_ne_nil path), Option.getD_some]

/-- The segments of a path are those above, and its last part. -/
theorem segments_eq (path : String) :
    segments path = (pushSegment (isAbs path) (keptAbove path) (afterLastSlash path)).reverse := by
  rw [segments, keptAbove, ← getLast_parts, ← List.foldl_concat (pushSegment _), List.dropLast_append_getLast]

/-- **The directory of a path** has the segments above. -/
theorem dir_eq (path : String) : dir path = ofSegments (isAbs path) (keptAbove path).reverse := by
  have habs : isAbs path = true ↔ (parts path).dropLast.head? = some "" := isAbs_iff
  unfold dir keptAbove
  split
  · rename_i hnil
    rw [hnil] at habs ⊢
    have hrelative : isAbs path = false := Bool.eq_false_iff.mpr fun h => by cases habs.mp h
    rw [hrelative]
    rfl
  · rename_i hroot
    rw [hroot] at habs ⊢
    rw [habs.mpr rfl]
    rfl
  · rename_i segs hnil hroot
    have hslash : ∀ s ∈ (parts path).dropLast, '/' ∉ s.toList := fun s hs =>
      not_slash_of_mem_parts (List.mem_of_mem_dropLast hs)
    have htext : parts ("/".intercalate (parts path).dropLast ++ "/") = (parts path).dropLast ++ [""] := by
      rw [parts_slash_end, parts_intercalate hnil hslash]
    have hsame : isAbs ("/".intercalate (parts path).dropLast ++ "/") = isAbs path := by
      rw [Bool.eq_iff_iff, isAbs_iff, habs, htext, List.dropLast_concat]
    rw [clean, segments, hsame, htext, List.foldl_concat]
    rfl

/-- The path and those above it, the nearest first: without the last segment each time. -/
def upwards (path : String) : List String :=
  (segments path).reverse.tails.map fun kept => ofSegments (isAbs path) kept.reverse

theorem upwards_ofSegments {rooted : Bool} {kept : List String} (h : Kept rooted kept) :
    upwards (ofSegments rooted kept.reverse) = kept.tails.map fun kept => ofSegments rooted kept.reverse := by
  have hkept : Kept rooted kept.reverse.reverse := by rwa [List.reverse_reverse]
  rw [upwards, segments_ofSegments hkept, isAbs_ofSegments hkept, List.reverse_reverse]

theorem upwards_clean (path : String) : upwards (clean path) = upwards path := by
  rw [upwards, segments_clean, isAbs_clean, upwards]

theorem kept_of_mem_tails {path : String} {kept : List String} (h : kept ∈ (segments path).reverse.tails) :
    Kept (isAbs path) kept.reverse.reverse := by
  obtain ⟨later, hlater⟩ := (List.mem_tails _ _).mp h
  rw [List.reverse_reverse]
  exact (hlater ▸ kept_segments path).of_append

theorem clean_of_mem_upwards {path p : String} (h : p ∈ upwards path) : clean p = p := by
  obtain ⟨kept, hkept, rfl⟩ := List.mem_map.mp h
  exact clean_ofSegments (kept_of_mem_tails hkept)

theorem isAbs_of_mem_upwards {path p : String} (h : p ∈ upwards path) : isAbs p = isAbs path := by
  obtain ⟨kept, hkept, rfl⟩ := List.mem_map.mp h
  exact isAbs_ofSegments (kept_of_mem_tails hkept)

theorem upwards_eq_cons (path : String) : ∃ above, upwards path = clean path :: above := by
  unfold upwards
  cases hkept : (segments path).reverse with
  | nil =>
    refine ⟨[], ?_⟩
    rw [clean, List.reverse_eq_nil_iff.mp hkept]
    rfl
  | cons s kept =>
    refine ⟨kept.tails.map fun kept => ofSegments (isAbs path) kept.reverse, ?_⟩
    rw [List.tails_cons, List.map_cons, ← hkept, List.reverse_reverse, clean]

/-- **Above a path** is its directory with what is above that, unless the last part leads upwards. -/
theorem upwards_cases {path : String} (h : afterLastSlash path ≠ "..") :
    upwards path = upwards (dir path) ∨ upwards path = clean path :: upwards (dir path) := by
  have hslash : '/' ∉ (afterLastSlash path).toList := by
    rw [← getLast_parts]
    exact not_slash_of_mem_parts (List.getLast_mem _)
  have habove := kept_keptAbove path
  have hdir : upwards (dir path) = (keptAbove path).tails.map fun kept => ofSegments (isAbs path) kept.reverse := by
    rw [dir_eq, upwards_ofSegments habove]
  have hsegments := segments_eq path
  by_cases hstay : afterLastSlash path = "" ∨ afterLastSlash path = "."
  · left
    have hsame : segments path = (keptAbove path).reverse := by
      rw [hsegments, pushSegment_stay hstay]
    rw [hdir, upwards, hsame, List.reverse_reverse]
  · right
    rw [pushSegment_name ⟨fun h => hstay (.inl h), fun h => hstay (.inr h), hslash⟩ h] at hsegments
    rw [clean, hdir, upwards, hsegments, List.reverse_reverse, List.tails_cons, List.map_cons]

/-- **What a path is made to** depends on its segments alone. -/
theorem abs_clean {cwd path : String} (hcwd : cwd ≠ "") (hpath : path ≠ "") : abs cwd (clean path) = abs cwd path := by
  unfold abs
  rw [isAbs_clean]
  split_ifs with habs
  · exact clean_clean path
  · have hrelative : isAbs path = false := Bool.eq_false_iff.mpr habs
    have hkept := kept_segments path
    rw [hrelative] at hkept
    have hparts : (parts (clean path)).foldl (pushSegment (isAbs cwd)) (segments cwd).reverse =
        (segments path).foldl (pushSegment (isAbs cwd)) (segments cwd).reverse := by
      rw [clean, hrelative]
      by_cases hnil : segments path = []
      · rw [hnil]
        rfl
      · rw [parts_ofSegments hkept hnil]
        rfl
    have hcleaned := foldl_cleaned (isAbs cwd) (segments cwd).reverse fun s (hs : s ∈ parts path) =>
      not_slash_of_mem_parts hs
    have hsegments : segments path = ((parts path).foldl (pushSegment false) []).reverse := by
      rw [segments, hrelative]
    rw [join_eq hcwd (Disk.clean_ne_empty path), join_eq hcwd hpath, hparts, hsegments, hcleaned]

theorem Names.kept_relative {names : List String} (h : Names names) : Kept false names.reverse := by
  have hnil : Kept false ([] : List String).reverse := trivial
  exact List.nil_append names ▸ kept_append hnil h

/-- Without steps upwards a relative path goes on from the working directory. -/
theorem abs_names {names rest : List String} (hnames : Names names) (hrest : Names rest) :
    abs (absolute names) (ofSegments false rest) = absolute (names ++ rest) := by
  have hkept : Kept false (List.replicate 0 ".." ++ rest).reverse := hrest.kept_relative
  have hmade := abs_ofSegments hnames hrest hkept
  rwa [List.replicate_zero, List.nil_append, Nat.sub_zero, List.take_length] at hmade

theorem Names.of_mem_tails {names kept : List String} (h : Names names) (hkept : kept ∈ names.reverse.tails) :
    Names kept.reverse := by
  have hsuffix := (List.mem_tails _ _).mp hkept
  exact fun s hs => h s (List.mem_reverse.mp (hsuffix.subset (List.mem_reverse.mp hs)))

/-- Upwards from a directory come first those that go on from another one, down to that one itself, and then
those above it. -/
theorem upwards_absolute_append {names rest : List String} (hnames : Names names) (hrest : Names rest) :
    upwards (absolute (names ++ rest)) =
      (rest.reverse.tails.map fun kept => absolute (names ++ kept.reverse)) ++
        names.reverse.tails.tail.map fun kept => absolute kept.reverse := by
  have hkept : Kept true (names ++ rest).reverse := (hnames.append hrest).kept
  rw [absolute, ← List.reverse_reverse (names ++ rest), upwards_ofSegments hkept, List.reverse_append,
    List.tails_append, List.map_append, List.map_map]
  congr 1
  refine List.map_congr_left fun kept _ => ?_
  simp [absolute]

/-- The directories above one do not lie in it. -/
theorem Names.not_prefix_above {names kept : List String} (h : Names names)
    (hkept : kept ∈ names.reverse.tails.tail) : ¬ names <+: segments (absolute kept.reverse) := by
  rw [segments_absolute (h.of_mem_tails (List.mem_of_mem_tail hkept))]
  intro hstarts
  have hshort : kept.length < names.length := by
    rw [← names.length_reverse]
    cases hnames : names.reverse with
    | nil =>
      rw [hnames] at hkept
      cases hkept
    | cons last front =>
      rw [hnames, List.tails_cons, List.tail_cons] at hkept
      have hle := ((List.mem_tails _ _).mp hkept).length_le
      rw [List.length_cons]
      omega
  have hle := hstarts.length_le
  rw [List.length_reverse] at hle
  omega

theorem dir_ofSegments_nil (rooted : Bool) : dir (ofSegments rooted []) = ofSegments rooted [] := by
  cases rooted <;> decide

theorem dir_ofSegments_cons {rooted : Bool} {kept : List String} {s : String} (h : Kept rooted (s :: kept)) :
    dir (ofSegments rooted (s :: kept).reverse) = ofSegments rooted kept.reverse ∧
    ofSegments rooted kept.reverse ≠ ofSegments rooted (s :: kept).reverse := by
  have hall : Kept rooted (kept.reverse ++ [s]).reverse := by simpa using h
  rw [List.reverse_cons]
  refine ⟨dir_ofSegments hall, fun heq => ?_⟩
  have hsegments := congrArg segments heq
  rw [segments_ofSegments hall.front, segments_ofSegments hall] at hsegments
  simp at hsegments

end Path

/-! ## The loop -/

/-- There is a directory named `.git` in the directory. -/
def Disk.holdsRepository (d : Disk) (dir : String) : Bool := d.isDir (Path.join dir ".git")

/-- The loop goes from directory to directory upwards until one holds a repository, or none is above. -/
inductive Climbs (d : Disk) : String → Option String → Prop where
  | found {dir : String} (h : d.holdsRepository dir = true) : Climbs d dir (some dir)
  | top {dir : String} (h : d.holdsRepository dir = false) (htop : Path.dir dir = dir) : Climbs d dir none
  | up {dir : String} {root : Option String} (h : d.holdsRepository dir = false) (hup : Path.dir dir ≠ dir)
      (hrest : Climbs d (Path.dir dir) root) : Climbs d dir root

section Loop

variable {d : Disk} {dir : String}

theorem findGitRootFrom_succ (fuel : Nat) : findGitRootFrom d (fuel + 1) dir =
    if d.holdsRepository dir then some dir
    else if Path.dir dir = dir then none else findGitRootFrom d fuel (Path.dir dir) := rfl

/-- One more step upwards before a climb. -/
theorem climbs_step {fuel : Nat} (hrest : Climbs d (Path.dir dir) (findGitRootFrom d fuel (Path.dir dir))) :
    Climbs d dir (findGitRootFrom d (fuel + 1) dir) := by
  rw [findGitRootFrom_succ]
  split_ifs with hholds htop
  · exact .found hholds
  · exact .top (Bool.eq_false_iff.mpr hholds) htop
  · exact .up (Bool.eq_false_iff.mpr hholds) htop hrest

/-- **From a clean path** the loop ends within as many steps as there are segments. -/
theorem climbs_ofSegments {rooted : Bool} {kept : List String} (h : Path.Kept rooted kept) {fuel : Nat}
    (hfuel : kept.length < fuel) : Climbs d (Path.ofSegments rooted kept.reverse)
      (findGitRootFrom d fuel (Path.ofSegments rooted kept.reverse)) := by
  obtain ⟨steps, rfl⟩ : ∃ steps, fuel = steps + 1 := ⟨fuel - 1, by omega⟩
  induction kept generalizing steps with
  | nil =>
    have htop := Path.dir_ofSegments_nil rooted
    rw [List.reverse_nil, findGitRootFrom_succ, if_pos htop]
    split_ifs with hholds
    · exact .found hholds
    · exact .top (Bool.eq_false_iff.mpr hholds) htop
  | cons s kept ih =>
    rw [List.length_cons] at hfuel
    obtain ⟨steps, rfl⟩ : ∃ more, steps = more + 1 := ⟨steps - 1, by omega⟩
    refine climbs_step ?_
    rw [(Path.dir_ofSegments_cons h).1]
    exact ih h.2.1 steps (by omega)

/-- **The loop ends** from every directory. -/
theorem climbs_findGitRoot (d : Disk) (dir : String) : Climbs d dir (findGitRoot d dir) := by
  refine climbs_step ?_
  rw [Path.dir_eq]
  have hlength := Path.length_keptAbove_le dir
  exact climbs_ofSegments (Path.kept_keptAbove dir) (by omega)

theorem Climbs.cases {root : Option String} (h : Climbs d dir root) :
    d.holdsRepository dir = true ∧ root = some dir ∨ d.holdsRepository dir = false ∧
      (Path.dir dir = dir ∧ root = none ∨ Path.dir dir ≠ dir ∧ Climbs d (Path.dir dir) root) := by
  cases h with
  | found h => exact .inl ⟨h, rfl⟩
  | top h htop => exact .inr ⟨h, .inl ⟨htop, rfl⟩⟩
  | up h hup hrest => exact .inr ⟨h, .inr ⟨hup, hrest⟩⟩

theorem Climbs.find_ofSegments {rooted : Bool} {kept : List String} (h : Path.Kept rooted kept) {root : Option String}
    (hclimbs : Climbs d (Path.ofSegments rooted kept.reverse) root) :
    root = (kept.tails.map fun kept => Path.ofSegments rooted kept.reverse).find? d.holdsRepository := by
  induction kept with
  | nil =>
    show root = [Path.ofSegments rooted [].reverse].find? d.holdsRepository
    obtain ⟨hholds, rfl⟩ | ⟨hholds, ⟨-, rfl⟩ | ⟨hup, -⟩⟩ := hclimbs.cases
    · rw [List.find?_cons_of_pos hholds]
    · rw [List.find?_cons_of_neg (Bool.eq_false_iff.mp hholds), List.find?_nil]
    · exact absurd (Path.dir_ofSegments_nil rooted) hup
  | cons s kept ih =>
    obtain ⟨hdir, hne⟩ := Path.dir_ofSegments_cons h
    rw [List.tails_cons, List.map_cons]
    obtain ⟨hholds, rfl⟩ | ⟨hholds, ⟨htop, -⟩ | ⟨-, hrest⟩⟩ := hclimbs.cases
    · rw [List.find?_cons_of_pos hholds]
    · exact absurd (hdir.symm.trans htop) hne
    · rw [hdir] at hrest
      rw [List.find?_cons_of_neg (Bool.eq_false_iff.mp hholds)]
      exact ih h.2.1 hrest

/-- **What the loop finds** is the first directory out of the one it starts from and those upwards from the
directory of its path. -/
theorem Climbs.find {root : Option String} (h : Climbs d dir root) :
    root = (dir :: Path.upwards (Path.dir dir)).find? d.holdsRepository := by
  have habove := Path.kept_keptAbove dir
  have hdir := Path.dir_eq dir
  have hfound : ∀ root, Climbs d (Path.dir dir) root → root = (Path.upwards (Path.dir dir)).find? d.holdsRepository := by
    intro root hclimbs
    rw [hdir] at hclimbs ⊢
    rw [Path.upwards_ofSegments habove]
    exact hclimbs.find_ofSegments habove
  obtain ⟨hholds, rfl⟩ | ⟨hholds, ⟨htop, rfl⟩ | ⟨-, hrest⟩⟩ := h.cases
  · rw [List.find?_cons_of_pos hholds]
  · rw [List.find?_cons_of_neg (Bool.eq_false_iff.mp hholds)]
    exact hfound none (by rwa [htop])
  · rw [List.find?_cons_of_neg (Bool.eq_false_iff.mp hholds)]
    exact hfound root hrest

end Loop

/-! ## The nearest repository -/

/-- The nearest directory that holds a repository, out of one and all above it, by absolute paths. -/
def Disk.nearestRepository (d : Disk) (dir : String) : Option String :=
  (Path.upwards (Path.abs d.cwd dir)).find? d.holdsRepository

namespace Disk

variable {d : Disk}

/-- The steps lead to a directory that holds a repository. -/
def leadToRepository (d : Disk) (steps : List String) : Bool :=
  match walk d.root .follow maxLinks [] (steps ++ [".git"]) with
  | .ok place => (d.root.at? place).any Node.isDir
  | .error _ => false

/-- The steps of the cleaned path decide. -/
theorem holdsRepository_eq (d : Disk) (dir : String) : d.holdsRepository dir = d.leadToRepository (d.dirSteps dir) := by
  have hgit : Path.Descends ".git" := by
    have hdescends := Scanner.names_git.descends (List.cons_ne_nil _ _)
    rwa [String.intercalate_singleton] at hdescends
  have hparts : Path.parts ".git" = [".git"] := by decide
  have hplace : d.place .follow (Path.join dir ".git") =
      walk d.root .follow maxLinks [] (d.dirSteps dir ++ [".git"]) := by
    rw [place_eq_walk (join_ne_empty hgit dir), steps_join d hgit, hparts]
  unfold holdsRepository isDir find leadToRepository
  rw [hplace]
  cases walk d.root .follow maxLinks [] (d.dirSteps dir ++ [".git"]) with
  | error e => rfl
  | ok place =>
    dsimp only
    cases d.root.at? place <;> rfl

theorem holdsRepository_clean (dir : String) : d.holdsRepository (Path.clean dir) = d.holdsRepository dir := by
  rw [holdsRepository_eq, holdsRepository_eq, dirSteps, Path.isAbs_clean, Path.segments_clean, dirSteps]

theorem dirSteps_absolute (d : Disk) {names : List String} (h : Path.Names names) :
    d.dirSteps (Path.absolute names) = "" :: names := by
  rw [dirSteps, Path.isAbs_absolute h, Path.segments_absolute h]
  rfl

/-- A relative path of names leads to where it leads from the working directory. -/
theorem holdsRepository_relative {names rest : List String} (hnames : Path.Names names) (hcwd : d.cwd = Path.absolute names)
    (hrest : Path.Names rest) :
    d.holdsRepository (Path.ofSegments false rest) = d.holdsRepository (Path.absolute (names ++ rest)) := by
  have hkept : Path.Kept false rest.reverse := hrest.kept_relative
  have hall := hnames.append hrest
  have hmoves : (Path.parts d.cwd).filter moves = ("" :: names).filter moves := by
    rw [hcwd]
    by_cases hnil : names = []
    · rw [hnil]
      decide
    · rw [Path.absolute, Path.parts_ofSegments hnames.kept hnil]
      rfl
  have hgit : rest ++ [".git"] ≠ [] := by simp
  have hsteps : d.dirSteps (Path.ofSegments false rest) = Path.parts d.cwd ++ rest := by
    rw [dirSteps, Path.isAbs_ofSegments hkept, Path.segments_ofSegments hkept]
    rfl
  have hsteps' : d.dirSteps (Path.absolute (names ++ rest)) = "" :: names ++ rest := d.dirSteps_absolute hall
  rw [holdsRepository_eq, holdsRepository_eq, hsteps, hsteps', leadToRepository, leadToRepository, List.append_assoc,
    List.append_assoc]
  have hfilter : ∀ todo, walk d.root .follow maxLinks [] (todo ++ (rest ++ [".git"])) =
      walk d.root .follow maxLinks [] (todo.filter moves ++ (rest ++ [".git"])) := fun todo => walk_filter hgit [] todo
  rw [hfilter, hfilter ("" :: names), hmoves]

/-- **The first directory upwards** is the same for a path and its cleaned path. -/
theorem find_upwards {dir : String} (h : Path.afterLastSlash dir ≠ "..") :
    ((dir :: Path.upwards (Path.dir dir)).find? d.holdsRepository).map Path.clean =
      (Path.upwards dir).find? d.holdsRepository := by
  by_cases hholds : d.holdsRepository dir = true
  · obtain ⟨above, hupwards⟩ := Path.upwards_eq_cons dir
    rw [List.find?_cons_of_pos hholds, hupwards, List.find?_cons_of_pos (by rwa [holdsRepository_clean])]
    rfl
  · have hclean : ((Path.upwards (Path.dir dir)).find? d.holdsRepository).map Path.clean =
        (Path.upwards (Path.dir dir)).find? d.holdsRepository := by
      cases hfound : (Path.upwards (Path.dir dir)).find? d.holdsRepository with
      | none => rfl
      | some p => exact congrArg some (Path.clean_of_mem_upwards (List.mem_of_find?_eq_some hfound))
    rw [List.find?_cons_of_neg hholds, hclean]
    obtain hupwards | hupwards := Path.upwards_cases h
    · rw [hupwards]
    · rw [hupwards, List.find?_cons_of_neg (by rwa [holdsRepository_clean])]

/-- The directories of a relative path are those upwards as far as the working directory. -/
theorem find_upwards_relative {names rest : List String} (hnames : Path.Names names)
    (hcwd : d.cwd = Path.absolute names) (hrest : Path.Names rest) :
    ((Path.upwards (Path.ofSegments false rest)).find? d.holdsRepository).map (Path.abs d.cwd) =
      ((Path.upwards (Path.absolute (names ++ rest))).find? d.holdsRepository).filter fun p =>
        names.isPrefixOf (Path.segments p) := by
  have hupwards : Path.upwards (Path.ofSegments false rest) =
      rest.reverse.tails.map fun kept => Path.ofSegments false kept.reverse := by
    rw [← Path.upwards_ofSegments hrest.kept_relative, List.reverse_reverse]
  have hsame : rest.reverse.tails.find? (d.holdsRepository ∘ fun kept => Path.ofSegments false kept.reverse) =
      rest.reverse.tails.find? (d.holdsRepository ∘ fun kept => Path.absolute (names ++ kept.reverse)) :=
    List.find?_congr fun kept hkept => holdsRepository_relative hnames hcwd (hrest.of_mem_tails hkept)
  rw [hupwards, Path.upwards_absolute_append hnames hrest, List.find?_append, List.find?_map, List.find?_map, hsame]
  cases hfound : rest.reverse.tails.find? (d.holdsRepository ∘ fun kept => Path.absolute (names ++ kept.reverse)) with
  | some kept =>
    have hkept := hrest.of_mem_tails (List.mem_of_find?_eq_some hfound)
    have hbelow : names.isPrefixOf (Path.segments (Path.absolute (names ++ kept.reverse))) = true := by
      rw [Path.segments_absolute (hnames.append hkept), List.isPrefixOf_iff_prefix]
      exact List.prefix_append _ _
    rw [Option.map_some, Option.map_some, Option.map_some, Option.some_or, Option.filter_some, if_pos hbelow,
      hcwd, Path.abs_names hnames hkept]
  | none =>
    -- what is found further up is above the working directory
    rw [Option.map_none, Option.map_none, Option.map_none, Option.none_or]
    cases habove : (names.reverse.tails.tail.map fun kept => Path.absolute kept.reverse).find? d.holdsRepository with
    | none => rfl
    | some p =>
      obtain ⟨kept, hkept, rfl⟩ := List.mem_map.mp (List.mem_of_find?_eq_some habove)
      have hnot : ¬ names.isPrefixOf (Path.segments (Path.absolute kept.reverse)) = true := by
        rw [List.isPrefixOf_iff_prefix]
        exact hnames.not_prefix_above hkept
      rw [Option.filter_some, if_neg hnot]

end Disk

theorem findGitRoot_ne_empty {d : Disk} {dir : String} (hdir : dir ≠ "") : findGitRoot d dir ≠ some "" := by
  intro hempty
  have hfound := (climbs_findGitRoot d dir).find
  rw [hempty] at hfound
  obtain heq | habove := List.mem_cons.mp (List.mem_of_find?_eq_some hfound.symm)
  · exact hdir heq.symm
  · exact Disk.clean_ne_empty "" (Path.clean_of_mem_upwards habove)

/-- **The loop ends** for every start, and finds the first directory that holds a repository, out of the start and
those upwards from the directory of its path. If no step upwards is left in the path and its last part is none, that
is the nearest one for an absolute path; for a relative path only if it is not above the working directory. -/
theorem findGitRoot_nearest {d : Disk} {names : List String} (hnames : Path.Names names)
    (hcwd : d.cwd = Path.absolute names) {dir : String} (hdir : dir ≠ "") :
    Climbs d dir (findGitRoot d dir) ∧ findGitRoot d dir ≠ some "" ∧
    findGitRoot d dir = (dir :: Path.upwards (Path.dir dir)).find? d.holdsRepository ∧
    (Path.afterLastSlash dir ≠ ".." → ".." ∉ Path.segments dir →
      (findGitRoot d dir).map (Path.abs d.cwd) =
        (d.nearestRepository dir).filter fun p => Path.isAbs dir || names.isPrefixOf (Path.segments p)) := by
  have hclimbs := climbs_findGitRoot d dir
  have hfound := hclimbs.find
  have hcwdNe : d.cwd ≠ "" := by
    rw [hcwd]
    exact Path.ne_empty_of_isAbs (Path.isAbs_absolute hnames)
  refine ⟨hclimbs, findGitRoot_ne_empty hdir, hfound, fun hlast hup => ?_⟩
  have hclean : (findGitRoot d dir).map (Path.abs d.cwd) =
      ((Path.upwards dir).find? d.holdsRepository).map (Path.abs d.cwd) := by
    rw [← Disk.find_upwards hlast, ← hfound, Option.map_map]
    cases hroot : findGitRoot d dir with
    | none => rfl
    | some root =>
      have hne : root ≠ "" := fun heq => findGitRoot_ne_empty hdir (heq ▸ hroot)
      exact congrArg some (Path.abs_clean hcwdNe hne).symm
  rw [hclean, Disk.nearestRepository]
  cases habs : Path.isAbs dir with
  | true =>
    rw [Path.abs, if_pos habs, Path.upwards_clean]
    cases hroot : (Path.upwards dir).find? d.holdsRepository with
    | none => rfl
    | some root =>
      have hmem := List.mem_of_find?_eq_some hroot
      rw [Option.map_some, Path.abs, if_pos ((Path.isAbs_of_mem_upwards hmem).trans habs),
        Path.clean_of_mem_upwards hmem, Option.filter_some]
      rfl
  | false =>
    have hrest : Path.Names (Path.segments dir) := fun s hs =>
      ⟨Path.isName_of_kept_reverse (Path.kept_segments dir) s hs, fun heq => hup (heq ▸ hs)⟩
    have hrelative := Disk.find_upwards_relative hnames hcwd hrest
    rw [← Path.abs_names hnames hrest, ← hcwd] at hrelative
    have hsame : Path.ofSegments false (Path.segments dir) = Path.clean dir := by rw [Path.clean, habs]
    rw [hsame, Path.abs_clean hcwdNe hdir, Path.upwards_clean] at hrelative
    exact hrelative

/-! ## Starts from which another directory is found -/

/-- A directory with one below it. -/
def workDisk (top sub : List (String × Node)) (cwd : String) : Disk :=
  ⟨.dir [("w", .dir (top ++ [("sub", .dir sub)]))], cwd⟩

theorem cwd_workDisk (top sub : List (String × Node)) (cwd : String) : (workDisk top sub cwd).cwd = cwd := rfl

/-- A directory that holds a repository, as entries. -/
def gitEntries : List (String × Node) := [(".git", .dir [])]

theorem findGitRoot_eq {d : Disk} {dir : String} {above : List String} (habove : Path.upwards (Path.dir dir) = above) :
    findGitRoot d dir = (dir :: above).find? d.holdsRepository := by
  rw [(climbs_findGitRoot d dir).find, habove]

theorem holdsRepository_of_steps {d : Disk} {dir : String} {steps : List String} {answer : Bool}
    (hsteps : d.dirSteps dir = steps) (h : d.leadToRepository steps = answer) : d.holdsRepository dir = answer := by
  rw [d.holdsRepository_eq, hsteps, h]

/-- From an absolute path the repository is found. -/
theorem findGitRoot_nearest_absolute : Path.Names ["w", "sub"] ∧
    (workDisk gitEntries [] "/w/sub").cwd = Path.absolute ["w", "sub"] ∧
    findGitRoot (workDisk gitEntries [] "/w/sub") "/w/sub" = some "/w" ∧
    (findGitRoot (workDisk gitEntries [] "/w/sub") "/w/sub").map (Path.abs "/w/sub") =
      ((workDisk gitEntries [] "/w/sub").nearestRepository "/w/sub").filter fun p =>
        Path.isAbs "/w/sub" || ["w", "sub"].isPrefixOf (Path.segments p) := by
  have hnames : Path.Names ["w", "sub"] := by simp [Path.Names, Path.IsName]
  have hcwd : (workDisk gitEntries [] "/w/sub").cwd = Path.absolute ["w", "sub"] := by decide
  have hdir : "/w/sub" ≠ "" := by decide
  obtain ⟨-, -, hfound, hnearest⟩ := findGitRoot_nearest hnames hcwd hdir
  have habove : Path.upwards (Path.dir "/w/sub") = ["/w", "/"] := by decide
  have hsub : (workDisk gitEntries [] "/w/sub").holdsRepository "/w/sub" = false :=
    holdsRepository_of_steps (by decide : _ = ["", "w", "sub"]) (by cbv)
  have htop : (workDisk gitEntries [] "/w/sub").holdsRepository "/w" = true :=
    holdsRepository_of_steps (by decide : _ = ["", "w"]) (by cbv)
  refine ⟨hnames, hcwd, ?_, hnearest (by decide) (by decide)⟩
  rw [hfound, habove]
  simp only [List.find?_cons, hsub, htop]

/-- From a relative path no repository above the working directory is found. -/
theorem findGitRoot_point : findGitRoot (workDisk gitEntries [] "/w/sub") "." = none ∧
    (workDisk gitEntries [] "/w/sub").nearestRepository "." = some "/w" := by
  have habove : Path.upwards (Path.dir ".") = ["."] := by decide
  have hnearest : Path.upwards (Path.abs "/w/sub" ".") = ["/w/sub", "/w", "/"] := by decide
  have hpoint : (workDisk gitEntries [] "/w/sub").holdsRepository "." = false :=
    holdsRepository_of_steps (by decide : _ = ["", "w", "sub"]) (by cbv)
  have hsub : (workDisk gitEntries [] "/w/sub").holdsRepository "/w/sub" = false :=
    holdsRepository_of_steps (by decide : _ = ["", "w", "sub"]) (by cbv)
  have htop : (workDisk gitEntries [] "/w/sub").holdsRepository "/w" = true :=
    holdsRepository_of_steps (by decide : _ = ["", "w"]) (by cbv)
  constructor
  · rw [findGitRoot_eq habove]
    simp only [List.find?_cons, hpoint, List.find?_nil]
  · rw [Disk.nearestRepository, cwd_workDisk, hnearest]
    simp only [List.find?_cons, hsub, htop]

section Below

variable {cwd : String}

/-- The directory below holds a repository, and none above it does. -/
theorem nearestRepository_top {dir : String}
    (h : Path.upwards (Path.abs cwd dir) = [Path.absolute ["w"], Path.absolute []]) :
    (workDisk [] gitEntries cwd).nearestRepository dir = none := by
  have hsteps : (workDisk [] gitEntries cwd).dirSteps (Path.absolute ["w"]) = ["", "w"] :=
    Disk.dirSteps_absolute _ (by simp [Path.Names, Path.IsName])
  have hsteps' : (workDisk [] gitEntries cwd).dirSteps (Path.absolute []) = [""] :=
    Disk.dirSteps_absolute _ (by simp [Path.Names])
  have htop : (workDisk [] gitEntries cwd).holdsRepository (Path.absolute ["w"]) = false :=
    holdsRepository_of_steps hsteps (by cbv)
  have hroot : (workDisk [] gitEntries cwd).holdsRepository (Path.absolute []) = false :=
    holdsRepository_of_steps hsteps' (by cbv)
  rw [Disk.nearestRepository, cwd_workDisk, h]
  simp only [List.find?_cons, htop, hroot, List.find?_nil]

/-- A path that only leads upwards has the working directory above it. -/
theorem findGitRoot_up : findGitRoot (workDisk [] gitEntries "/w/sub") ".." = some "." ∧
    (workDisk [] gitEntries "/w/sub").nearestRepository ".." = none := by
  have habove : Path.upwards (Path.dir "..") = ["."] := by decide
  have hup : (workDisk [] gitEntries "/w/sub").holdsRepository ".." = false :=
    holdsRepository_of_steps (by decide : _ = ["", "w", "sub", ".."]) (by cbv)
  have hpoint : (workDisk [] gitEntries "/w/sub").holdsRepository "." = true :=
    holdsRepository_of_steps (by decide : _ = ["", "w", "sub"]) (by cbv)
  refine ⟨?_, nearestRepository_top (by decide)⟩
  rw [findGitRoot_eq habove]
  simp only [List.find?_cons, hup, hpoint]

/-- A path that leads back at its end has the directory that it came from above it. -/
theorem findGitRoot_back : findGitRoot (workDisk [] gitEntries "/w") "sub/.." = some "sub" ∧
    (workDisk [] gitEntries "/w").nearestRepository "sub/.." = none := by
  have habove : Path.upwards (Path.dir "sub/..") = ["sub", "."] := by decide
  have hback : (workDisk [] gitEntries "/w").holdsRepository "sub/.." = false :=
    holdsRepository_of_steps (by decide : _ = ["", "w"]) (by cbv)
  have hsub : (workDisk [] gitEntries "/w").holdsRepository "sub" = true :=
    holdsRepository_of_steps (by decide : _ = ["", "w", "sub"]) (by cbv)
  refine ⟨?_, nearestRepository_top (by decide)⟩
  rw [findGitRoot_eq habove]
  simp only [List.find?_cons, hback, hsub]

end Below

/-- **Other directories are found**: from a relative path none above the working directory, and from a path that
leads upwards one that is not above. -/
theorem findGitRoot_astray :
    (findGitRoot (workDisk gitEntries [] "/w/sub") "." = none ∧
      (workDisk gitEntries [] "/w/sub").nearestRepository "." = some "/w") ∧
    (findGitRoot (workDisk [] gitEntries "/w/sub") ".." = some "." ∧
      (workDisk [] gitEntries "/w/sub").nearestRepository ".." = none) ∧
    (findGitRoot (workDisk [] gitEntries "/w") "sub/.." = some "sub" ∧
      (workDisk [] gitEntries "/w").nearestRepository "sub/.." = none) :=
  ⟨findGitRoot_point, findGitRoot_up, findGitRoot_back⟩

end ScriptSplit
