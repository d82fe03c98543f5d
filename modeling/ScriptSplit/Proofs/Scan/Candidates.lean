import Mathlib
import ScriptSplit.Scan.Scanner
import ScriptSplit.Proofs.Disk.Names
import ScriptSplit.Proofs.Disk.Within
import ScriptSplit.Proofs.Text.Sorted

/-!
# Candidate files

A scan visits the tree below its root and decides at every entry whether to go into it or to take it. What
it takes can be said without the visit: an entry is taken if no directory on the way to it is left out and
the entry itself passes.

* `Scanner.Rules.Candidate`: names lead to an entry that a scan takes.
* `Scanner.Rules.RootAt.linkStays_iff`, `Scanner.collect_link_top`: which links stay in the root.
* **`Scanner.Rules.exists_collect`**: a visit finds the candidates and each of them once.
* `Scanner.Finds`: paths are those of the candidates, each of them once.
-/

namespace ScriptSplit.Scanner

/-! ## What a scan asks of an entry -/

/-- The scan goes into the directory that names lead to. -/
structure Rules.Enters (s : Rules) (names : List String) : Prop where
  named : ∀ name, names.getLast? = some name → name ∉ s.config.exclude.dirs.items
  kept : isIgnored s.ignore names true = false

/-- The scan takes the file that names lead to. -/
structure Rules.Takes (s : Rules) (names : List String) : Prop where
  extension : ∃ name, names.getLast? = some name ∧
    ∃ e ∈ s.config.scan.extensions.items, lowerCase e = lowerCase (Path.ext name)
  kept : isIgnored s.ignore names false = false
  included : s.includes = [] ∨ ∃ g ∈ s.includes, g.accepts ("/".intercalate names) = .ok true

/-- The names `below` lead from the node `n`, which stands at `start` below the root, to an entry that the
scan takes. The root is at `place`. -/
structure Rules.Candidate (s : Rules) (place start : List String) (n : Node) (below : List String) (leaf : Node) :
    Prop where
  found : n.at? below = some leaf
  notDir : leaf.isDir = false
  /-- Every directory before the entry is entered; the root always is. -/
  entered : ∀ dir, dir <+: below → dir ≠ below → start ++ dir ≠ [] → s.Enters (start ++ dir)
  taken : s.Takes (start ++ below)
  /-- A link leads to something at or below the root. -/
  stays : leaf.isLink = true → ∃ target,
    s.disk.evalLinks (Path.along s.root (start ++ below)) = .ok target ∧ place <+: Path.segments target

/-- Every include glob answers on every path. -/
def Answer (includes : List Glob) : Prop := ∀ g ∈ includes, ∀ path, ∃ accepts, g.accepts path = .ok accepts

theorem anyAccepts_eq {includes : List Glob} (h : Answer includes) (path : String) :
    ∃ accepts, anyAccepts path includes = .ok accepts ∧
      (accepts = true ↔ ∃ g ∈ includes, g.accepts path = .ok true) := by
  induction includes with
  | nil => exact ⟨false, rfl, by simp⟩
  | cons g rest ih =>
    obtain ⟨accepts, haccepts⟩ := h g List.mem_cons_self path
    obtain ⟨more, hmore, hiff⟩ := ih fun g' hg' => h g' (List.mem_cons_of_mem g hg')
    cases accepts with
    | true =>
      refine ⟨true, by simp [anyAccepts, haccepts, bind, Except.bind, pure, Except.pure], ?_⟩
      simpa using Or.inl haccepts
    | false =>
      refine ⟨more, by simp [anyAccepts, haccepts, hmore, bind, Except.bind], ?_⟩
      rw [hiff, List.exists_mem_cons_iff, haccepts]
      simp

theorem isIncluded_eq {includes : List Glob} (h : Answer includes) (path : String) :
    ∃ included, isIncluded includes path = .ok included ∧
      (included = true ↔ includes = [] ∨ ∃ g ∈ includes, g.accepts path = .ok true) := by
  unfold isIncluded
  by_cases hnil : includes = []
  · exact ⟨true, by simp [hnil], by simp [hnil]⟩
  · rw [if_neg (by simpa using hnil)]
    obtain ⟨accepts, haccepts, hiff⟩ := anyAccepts_eq h path
    exact ⟨accepts, haccepts, by simp [hiff, hnil]⟩

section Paths

variable {s : Rules} {names : List String} (h : Path.Names names) (hne : names ≠ [])
include h hne

theorem isExcluded_along (isDir : Bool) :
    isExcluded s.ignore (s.relative (Path.along s.root names)) isDir = isIgnored s.ignore names isDir := by
  rw [Rules.relative, Path.rel?_along h hne, Option.getD_some, isExcluded, h.parts hne]

theorem entersDir_along {name : String} (hlast : names.getLast? = some name) :
    s.entersDir (Path.along s.root names) name = true ↔ s.Enters names := by
  have hrelative : s.relative (Path.along s.root names) ≠ "." := by
    rw [Rules.relative, Path.rel?_along h hne, Option.getD_some]
    exact Path.intercalate_ne_dot hne fun t ht => (h t ht).1
  unfold Rules.entersDir
  rw [isExcluded_along h hne]
  simp only [Path.along_ne h hne, hrelative, ne_eq, not_false_eq_true, decide_true, Bool.true_and,
    Bool.and_eq_true, Bool.not_eq_true', Config.isExcludedDir]
  constructor
  · rintro ⟨hdir, hkept⟩
    refine ⟨fun name' hname' => ?_, hkept⟩
    rw [hlast, Option.some_inj] at hname'
    simpa [hname'] using hdir
  · rintro ⟨hdir, hkept⟩
    exact ⟨by simpa using hdir name hlast, hkept⟩

theorem hasExtension_along : s.config.hasExtension (Path.along s.root names) = true ↔
    ∃ name, names.getLast? = some name ∧
      ∃ e ∈ s.config.scan.extensions.items, lowerCase e = lowerCase (Path.ext name) := by
  obtain ⟨above, name, rfl⟩ : ∃ above name, names = above ++ [name] :=
    ⟨_, _, (List.dropLast_append_getLast hne).symm⟩
  simp [Config.hasExtension, Path.ext_along h]

/-- What the scan takes at a path. -/
theorem taken_along (hanswer : Answer s.includes) : ∃ found, s.taken (Path.along s.root names) = .ok found ∧
    found.Nodup ∧ ∀ path, path ∈ found ↔ s.Takes names ∧ path = Path.along s.root names := by
  have hrelative : s.relative (Path.along s.root names) = "/".intercalate names := by
    rw [Rules.relative, Path.rel?_along h hne, Option.getD_some]
  obtain ⟨takes, htakes, hiff⟩ : ∃ takes, s.takesFile (Path.along s.root names) = .ok takes ∧
      (takes = true ↔ s.Takes names) := by
    unfold Rules.takesFile
    rw [isExcluded_along h hne, hrelative]
    split_ifs with hpasses
    · rw [Bool.and_eq_true, Bool.not_eq_true', hasExtension_along h hne] at hpasses
      obtain ⟨included, hincluded, hiff⟩ := isIncluded_eq hanswer ("/".intercalate names)
      exact ⟨included, hincluded, hiff.trans ⟨fun hin => ⟨hpasses.1, hpasses.2, hin⟩, fun ht => ht.included⟩⟩
    · refine ⟨false, rfl, ⟨fun hfalse => absurd hfalse Bool.false_ne_true, fun ht => absurd ?_ hpasses⟩⟩
      rw [Bool.and_eq_true, Bool.not_eq_true', hasExtension_along h hne]
      exact ⟨ht.extension, ht.kept⟩
  refine ⟨if takes then [Path.along s.root names] else [], by rw [Rules.taken, htakes]; rfl, ?_, fun path => ?_⟩
  · split_ifs <;> simp
  · rw [← hiff]
    cases takes <;> simp

end Paths

/-- The scan is of the directory at `place`, which is not the top of all, and its globs answer. -/
structure Rules.RootAt (s : Rules) (place : List String) : Prop where
  resolved : s.absoluteRoot = Path.ofSegments true place
  kept : Path.Kept true place.reverse
  ne_nil : place ≠ []
  answer : Answer s.includes

/-- A link stays in the root if it resolves to something at or below the place of the root. -/
theorem Rules.RootAt.linkStays_iff {s : Rules} {place : List String} (h : s.RootAt place) (path : String) :
    s.linkStays path = true ↔ ∃ target, s.disk.evalLinks path = .ok target ∧ place <+: Path.segments target := by
  unfold Rules.linkStays
  cases heval : s.disk.evalLinks path with
  | error e => simp
  | ok target =>
    obtain ⟨names, hnames, rfl⟩ := Disk.exists_resolved heval
    simp [h.resolved, isWithin_iff hnames h.kept, h.ne_nil, Path.segments_ofSegments hnames]

/-- **A scan of the top of all passes over links**, but for those that lead to the top itself. -/
theorem collect_link_top {s : Rules} (htop : s.absoluteRoot = "/") {path : String}
    (hpath : s.disk.evalLinks path ≠ .ok "/") (name target : String) : collect s path name (.link target) = .ok [] := by
  have hstays : s.linkStays path = false := by
    unfold Rules.linkStays
    cases heval : s.disk.evalLinks path with
    | error e => rfl
    | ok resolved =>
      obtain ⟨names, hnames, rfl⟩ := Disk.exists_resolved heval
      rw [heval] at hpath
      rw [htop, Bool.eq_false_iff, Ne, isWithin_top_iff (Path.isAbs_ofSegments hnames), Path.clean_ofSegments hnames]
      exact fun heq => hpath (congrArg Except.ok heq)
  rw [collect, if_neg (ne_true_of_eq_false hstays)]

/-! ## The visit of a tree -/

section Collect

variable {s : Rules} {place : List String}

theorem Rules.Candidate.nil_of_leaf {start below : List String} {n leaf : Node} (hn : n.isDir = false)
    (h : s.Candidate place start n below leaf) : below = [] ∧ leaf = n := by
  have hfound := h.found
  cases below with
  | nil => exact ⟨rfl, (Option.some.inj hfound).symm⟩
  | cons name rest =>
    cases n with
    | dir entries => cases hn
    | file t => cases hfound
    | link target => cases hfound

/-- A directory is no candidate itself. -/
theorem Rules.Candidate.ne_nil {start below : List String} {n leaf : Node} (hn : n.isDir = true)
    (h : s.Candidate place start n below leaf) : below ≠ [] := by
  rintro rfl
  have hfound := h.found
  cases hfound
  have hleaf := h.notDir
  rw [hn] at hleaf
  cases hleaf

/-- The candidates of a directory are those of its entries, if it is entered. -/
theorem candidate_dir_iff {entries : List (String × Node)} (hnodup : (entries.map Prod.fst).Nodup)
    {start below : List String} {leaf : Node} : s.Candidate place start (.dir entries) below leaf ↔
      (start ≠ [] → s.Enters start) ∧ ∃ name n rest, (name, n) ∈ entries ∧ below = name :: rest ∧
        s.Candidate place (start ++ [name]) n rest leaf := by
  constructor
  · intro h
    have hfound := h.found
    cases below with
    | nil =>
      cases hfound
      exact absurd h.notDir (by simp [Node.isDir])
    | cons name rest =>
      obtain ⟨n, hn, hrest⟩ := Option.bind_eq_some_iff.mp hfound
      have hsame : start ++ [name] ++ rest = start ++ name :: rest := by simp
      refine ⟨fun hstart => ?_, name, n, rest, (Dict.lookup_eq_some_iff_mem hnodup).mp hn, rfl, hrest, h.notDir,
        fun dir hdir hdir' _ => ?_, hsame ▸ h.taken, hsame ▸ h.stays⟩
      · have henters := h.entered [] List.nil_prefix (by simp) (by simpa using hstart)
        rwa [List.append_nil] at henters
      · have henters := h.entered (name :: dir) (List.cons_prefix_cons.mpr ⟨rfl, hdir⟩) (by simpa using hdir')
          (by simp)
        rwa [List.append_cons] at henters
  · rintro ⟨henters, name, n, rest, hmem, rfl, h⟩
    have hsame : start ++ [name] ++ rest = start ++ name :: rest := by simp
    refine ⟨?_, h.notDir, fun dir hdir hdir' hstart => ?_, hsame ▸ h.taken, hsame ▸ h.stays⟩
    · exact Option.bind_eq_some_iff.mpr ⟨n, (Dict.lookup_eq_some_iff_mem hnodup).mpr hmem, h.found⟩
    · cases dir with
      | nil =>
        rw [List.append_nil] at hstart ⊢
        exact henters hstart
      | cons name' dir =>
        obtain ⟨rfl, hbelow⟩ := List.cons_prefix_cons.mp hdir
        have hdeeper := h.entered dir hbelow (by simpa using hdir') (by simp)
        rwa [← List.append_cons] at hdeeper

/-- The paths are those of the candidates at and below a node, and each is there once. -/
structure Finds (s : Rules) (place start : List String) (n : Node) (found : List String) : Prop where
  nodup : found.Nodup
  mem_iff : ∀ path, path ∈ found ↔ ∃ below leaf, s.Candidate place start n below leaf ∧
    path = Path.along s.root (start ++ below)

/-- The paths are those of the candidates at and below the entries of a directory. -/
structure FindsBelow (s : Rules) (place start : List String) (entries : List (String × Node))
    (found : List String) : Prop where
  nodup : found.Nodup
  mem_iff : ∀ path, path ∈ found ↔ ∃ name n rest leaf, (name, n) ∈ entries ∧
    s.Candidate place (start ++ [name]) n rest leaf ∧ path = Path.along s.root (start ++ name :: rest)

theorem finds_nil_of_leaf {start : List String} {n : Node} (hn : n.isDir = false)
    (hnot : ¬ s.Candidate place start n [] n) : Finds s place start n [] := by
  refine ⟨List.nodup_nil, fun path => ⟨fun hmem => absurd hmem List.not_mem_nil, ?_⟩⟩
  rintro ⟨below, leaf, h, -⟩
  obtain ⟨rfl, rfl⟩ := h.nil_of_leaf hn
  exact absurd h hnot

/-- A file or link that the scan looks at is taken if it passes. -/
theorem exists_taken (hs : s.RootAt place) {start : List String} {n : Node} (hstart : Path.Names start)
    (hne : start ≠ []) (hn : n.isDir = false)
    (hstays : n.isLink = true → s.linkStays (Path.along s.root start) = true) :
    ∃ found, s.taken (Path.along s.root start) = .ok found ∧ Finds s place start n found := by
  obtain ⟨found, hfound, hnodup, hmem⟩ := taken_along (s := s) hstart hne hs.answer
  refine ⟨found, hfound, hnodup, fun path => ?_⟩
  rw [hmem]
  constructor
  · rintro ⟨htakes, rfl⟩
    refine ⟨[], n, ⟨rfl, hn, fun dir hdir hdir' _ => absurd (List.prefix_nil.mp hdir) hdir', ?_, fun hlink => ?_⟩, ?_⟩
    · rwa [List.append_nil]
    · rw [List.append_nil]
      exact (hs.linkStays_iff _).mp (hstays hlink)
    · rw [List.append_nil]
  · rintro ⟨below, leaf, h, rfl⟩
    obtain ⟨rfl, rfl⟩ := h.nil_of_leaf hn
    have htakes := h.taken
    rw [List.append_nil] at htakes ⊢
    exact ⟨htakes, rfl⟩

/-- The candidates at and below the first entry and those of the rest. -/
theorem FindsBelow.cons {start : List String} (hstart : Path.Names start) {name : String} {n : Node}
    {rest : List (String × Node)} (hnodup : (((name, n) :: rest).map Prod.fst).Nodup)
    (hnamed : WellNamedEntries ((name, n) :: rest)) {found more : List String}
    (hfound : Finds s place (start ++ [name]) n found) (hmore : FindsBelow s place start rest more) :
    FindsBelow s place start ((name, n) :: rest) (found ++ more) := by
  constructor
  · refine List.nodup_append.mpr ⟨hfound.nodup, hmore.nodup, ?_⟩
    rintro path hpath _ hpath' rfl
    obtain ⟨below, leaf, h, rfl⟩ := (hfound.mem_iff path).mp hpath
    obtain ⟨name', n', below', leaf', hmem, h', heq⟩ := (hmore.mem_iff _).mp hpath'
    -- two paths below different names of one directory differ
    have hnames : ∀ {key : String} {m : Node} {keys : List String} {leaf : Node}, (key, m) ∈ (name, n) :: rest →
        m.at? keys = some leaf → Path.Names (start ++ key :: keys) := fun hmem hat =>
      hstart.append (List.forall_mem_cons.mpr ⟨(hnamed.of_mem hmem).1, (hnamed.of_mem hmem).2.names hat⟩)
    have hsame := Path.along_inj (List.append_cons start name below ▸ hnames List.mem_cons_self h.found)
      (hnames (List.mem_cons_of_mem _ hmem) h'.found) heq
    rw [← List.append_cons] at hsame
    obtain ⟨rfl, -⟩ := List.cons.inj (List.append_cancel_left hsame)
    rw [List.map_cons, List.nodup_cons] at hnodup
    exact hnodup.1 (List.mem_map.mpr ⟨(name, n'), hmem, rfl⟩)
  · intro path
    rw [List.mem_append, hfound.mem_iff, hmore.mem_iff]
    constructor
    · rintro (⟨below, leaf, h, rfl⟩ | ⟨name', n', below, leaf, hmem, h, rfl⟩)
      · exact ⟨name, n, below, leaf, List.mem_cons_self, h, by rw [← List.append_cons]⟩
      · exact ⟨name', n', below, leaf, List.mem_cons_of_mem _ hmem, h, rfl⟩
    · rintro ⟨name', n', below, leaf, hmem, h, rfl⟩
      rcases List.mem_cons.mp hmem with heq | hmem
      · cases heq
        exact .inl ⟨below, leaf, h, by rw [← List.append_cons]⟩
      · exact .inr ⟨name', n', below, leaf, hmem, h, rfl⟩

/-- A directory that is entered has the candidates of its entries. -/
theorem FindsBelow.dir {start found : List String} {entries : List (String × Node)}
    (hnodup : (entries.map Prod.fst).Nodup) (henters : start ≠ [] → s.Enters start)
    (h : FindsBelow s place start entries found) : Finds s place start (.dir entries) found := by
  refine ⟨h.nodup, fun path => (h.mem_iff path).trans ?_⟩
  constructor
  · rintro ⟨name, n, rest, leaf, hmem, hcandidate, rfl⟩
    exact ⟨name :: rest, leaf, (candidate_dir_iff hnodup).mpr ⟨henters, name, n, rest, hmem, rfl, hcandidate⟩, rfl⟩
  · rintro ⟨below, leaf, hcandidate, rfl⟩
    obtain ⟨-, name, n, rest, hmem, rfl, hentry⟩ := (candidate_dir_iff hnodup).mp hcandidate
    exact ⟨name, n, rest, leaf, hmem, hentry, rfl⟩

theorem finds_nil_of_closed {start : List String} {entries : List (String × Node)}
    (hnodup : (entries.map Prod.fst).Nodup) (hstart : start ≠ []) (hnot : ¬ s.Enters start) :
    Finds s place start (.dir entries) [] := by
  refine ⟨List.nodup_nil, fun path => ⟨fun hmem => absurd hmem List.not_mem_nil, ?_⟩⟩
  rintro ⟨below, leaf, h, -⟩
  exact absurd (((candidate_dir_iff hnodup).mp h).1 hstart) hnot

end Collect

mutual

/-- **A visit finds the candidates** at and below a node, and each of them once. -/
theorem exists_collect {s : Rules} {place start : List String} (hs : s.RootAt place) (hstart : Path.Names start) {name : String}
    (hname : Path.IsName name ∧ name ≠ "..") : (n : Node) → n.WellNamed →
      ∃ found, collect s (Path.along s.root (start ++ [name])) name n = .ok found ∧
        Finds s place (start ++ [name]) n found
  | .file t, _ => by
    rw [collect]
    exact exists_taken hs (hstart.append (Path.names_singleton hname)) (by simp) rfl
      fun hlink => absurd hlink Bool.false_ne_true
  | .link target, _ => by
    rw [collect]
    split_ifs with hstays
    · exact exists_taken hs (hstart.append (Path.names_singleton hname)) (by simp) rfl fun _ => hstays
    · refine ⟨[], rfl, finds_nil_of_leaf rfl fun h => hstays ?_⟩
      have hresolved := h.stays rfl
      rw [List.append_nil] at hresolved
      exact (hs.linkStays_iff _).mpr hresolved
  | .dir entries, hn => by
    rw [Node.WellNamed] at hn
    have hfull : Path.Names (start ++ [name]) := hstart.append (Path.names_singleton hname)
    have hiff : s.entersDir (Path.along s.root (start ++ [name])) name = true ↔ s.Enters (start ++ [name]) :=
      entersDir_along hfull (by simp) (by simp)
    rw [collect]
    split_ifs with henters
    · obtain ⟨found, hfound, hbelow⟩ := exists_collectEntries hs hfull entries hn.1 hn.2
      exact ⟨found, hfound, hbelow.dir hn.1 fun _ => hiff.mp henters⟩
    · exact ⟨[], rfl, finds_nil_of_closed hn.1 (by simp) fun h => henters (hiff.mpr h)⟩

/-- A visit finds the candidates at and below the entries of a directory. -/
theorem exists_collectEntries {s : Rules} {place start : List String} (hs : s.RootAt place) (hstart : Path.Names start) :
    (entries : List (String × Node)) → (entries.map Prod.fst).Nodup → WellNamedEntries entries →
      ∃ found, collectEntries s (Path.along s.root start) entries = .ok found ∧
        FindsBelow s place start entries found
  | [], _, _ => ⟨[], rfl, List.nodup_nil, by simp⟩
  | (name, n) :: rest, hnodup, hnamed => by
    have hrest := hnamed
    rw [WellNamedEntries] at hrest
    obtain ⟨found, hfound, hfinds⟩ := exists_collect hs hstart hrest.1 n hrest.2.1
    obtain ⟨more, hmore, hbelow⟩ := exists_collectEntries hs hstart rest (List.nodup_cons.mp hnodup).2 hrest.2.2
    refine ⟨found ++ more, ?_, .cons hstart hnodup hnamed hfinds hbelow⟩
    rw [collectEntries, Path.join_along hstart hrest.1, hfound, hmore]
    rfl

end

end ScriptSplit.Scanner
