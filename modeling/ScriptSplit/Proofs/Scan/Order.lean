import Mathlib
import ScriptSplit.Scan.Collect
import ScriptSplit.Proofs.Scan.Subdirectory

/-!
# The order of paths

One scanner collects what a list of paths stands for, and it keeps the rules that it loaded last. A directory
loads rules of its own, but a file is judged by the rules that are there. So what a file stands for depends on
the paths before it, unless their rules say the same of the file.

* `rulesAt`, `judgedBy`: the rules of a path, and those that a file is judged by.
* `collectPath_dir`, `collectPath_file`: what one path does, whatever rules are there.
* `Agree`: the rules of all paths say the same of the files among them.
* **`filesFrom_of_agree`**: then each path stands for what it stands for alone.
* `exists_filesFrom`, `count_le`: what is collected of a file, by rules that are there.
* **`collectFiles_order`**: the order of paths does not matter exactly if their rules agree.
-/

namespace ScriptSplit

open Scanner (rulesFor isExcluded trackedOnly rulesIn)

/-! ## One path -/

/-- The rules of a path: those of the directory, or those of the directory of the file. -/
def rulesAt (cfg : Config) (d : Disk) (path : String) : List IgnoreRule :=
  match d.stat path with
  | .ok (.dir _) => rulesFor cfg d (Path.abs d.cwd path)
  | _ => rulesFor cfg d (Path.dir path)

/-- The rules that a file is judged by: those that are there, or its own if there are none. -/
def judgedBy (cfg : Config) (d : Disk) (rules : List IgnoreRule) (path : String) : List IgnoreRule :=
  if rules.isEmpty then rulesAt cfg d path else rules

/-- A file passes, if it is judged by the rules. -/
def passes (cfg : Config) (rules : List IgnoreRule) (path : String) : Bool :=
  !isExcluded rules (Path.base path) false && cfg.hasExtension path

theorem judgedBy_nil (cfg : Config) (d : Disk) (path : String) : judgedBy cfg d [] path = rulesAt cfg d path := rfl

theorem judgedBy_of_ne_nil {cfg : Config} {d : Disk} {rules : List IgnoreRule} (h : rules ≠ []) (path : String) :
    judgedBy cfg d rules path = rules := if_neg (by simpa using h)

section Path

variable {cfg : Config} {d : Disk} {path : String}

/-- **A directory** stands for the same files whatever rules are there, and leaves its own. -/
theorem collectPath_dir {entries : List (String × Node)} (hstat : d.stat path = .ok (.dir entries)) :
    (∃ e, ∀ rules, collectPath ⟨cfg, rules⟩ d path = .error e) ∨
    ∃ files, ∀ rules, collectPath ⟨cfg, rules⟩ d path =
      .ok (files, some (Path.abs d.cwd path), ⟨cfg, rulesAt cfg d path⟩) := by
  have hrules : rulesAt cfg d path = rulesFor cfg d (Path.abs d.cwd path) := by rw [rulesAt, hstat]
  have hsame : ∀ rules, Scanner.scanDir ⟨cfg, rules⟩ d (Path.abs d.cwd path) =
      (Scanner.new cfg).scanDir d (Path.abs d.cwd path) := fun rules => rfl
  cases hscan : (Scanner.new cfg).scanDir d (Path.abs d.cwd path) with
  | error e =>
    refine .inl ⟨.badDirectory path e, fun rules => ?_⟩
    unfold collectPath
    simp only [hstat, hsame, hscan]
  | ok found =>
    obtain ⟨files, later⟩ := found
    have hlater : later = ⟨cfg, rulesFor cfg d (Path.abs d.cwd path)⟩ := by
      unfold Scanner.scanDir at hscan
      split at hscan
      · cases hscan
      split at hscan
      · cases hscan
      dsimp only at hscan
      split at hscan <;> cases hscan
      rfl
    refine .inr ⟨files, fun rules => ?_⟩
    unfold collectPath
    simp only [hstat, hsame, hscan, hlater, hrules]

/-- **A file** stands for itself, if it passes. -/
theorem collectPath_file {n : Node} (hstat : d.stat path = .ok n) (hn : n.isDir = false) (rules : List IgnoreRule) :
    collectPath ⟨cfg, rules⟩ d path =
      .ok (if passes cfg (judgedBy cfg d rules path) path then [path] else [], none,
        ⟨cfg, judgedBy cfg d rules path⟩) := by
  have hrules : rulesAt cfg d path = rulesFor cfg d (Path.dir path) := by
    rw [rulesAt, hstat]
    cases n with
    | dir entries => cases hn
    | file t => rfl
    | link target => rfl
  have hscan : Scanner.scanFile ⟨cfg, rules⟩ d path =
      .ok (passes cfg (judgedBy cfg d rules path) path, ⟨cfg, judgedBy cfg d rules path⟩) := by
    unfold Scanner.scanFile
    simp only [hstat, hn, judgedBy, hrules]
    rfl
  unfold collectPath
  rw [hstat]
  cases n with
  | dir entries => cases hn
  | file t => simp only [hscan]
  | link target => simp only [hscan]

/-- **What a path does**: it fails, it is a directory, or it is a file, and which of them holds does not depend on
the rules that are there. -/
theorem collectPath_cases (cfg : Config) (d : Disk) (path : String) :
    (∃ e, ∀ rules, collectPath ⟨cfg, rules⟩ d path = .error e) ∨
    (∃ files dir, ∀ rules, collectPath ⟨cfg, rules⟩ d path = .ok (files, dir, ⟨cfg, rulesAt cfg d path⟩)) ∨
    ∃ n, d.stat path = .ok n ∧ n.isDir = false ∧ ∀ rules, collectPath ⟨cfg, rules⟩ d path =
      .ok (if passes cfg (judgedBy cfg d rules path) path then [path] else [], none,
        ⟨cfg, judgedBy cfg d rules path⟩) := by
  cases hstat : d.stat path with
  | error e =>
    refine .inl ⟨.badPath path e, fun rules => ?_⟩
    unfold collectPath
    rw [hstat]
  | ok n =>
    cases n with
    | dir entries =>
      exact (collectPath_dir hstat).imp_right fun ⟨files, hfiles⟩ => .inl ⟨files, _, hfiles⟩
    | file t => exact .inr (.inr ⟨_, rfl, rfl, collectPath_file hstat rfl⟩)
    | link target => exact .inr (.inr ⟨_, rfl, rfl, collectPath_file hstat rfl⟩)

end Path

/-! ## Paths one after the other -/

/-- The files that are collected, given the rules that are there. -/
def filesFrom (cfg : Config) (d : Disk) (rules : List IgnoreRule) (paths : List String) : Option (List String) :=
  (collectPaths ⟨cfg, rules⟩ d paths).toOption.map Prod.fst

section Run

variable {cfg : Config} {d : Disk} {path : String} {rules : List IgnoreRule}

theorem filesFrom_error {e : CollectError} (h : collectPath ⟨cfg, rules⟩ d path = .error e) (todo : List String) :
    filesFrom cfg d rules (path :: todo) = none := by
  rw [filesFrom, collectPaths, h]
  rfl

theorem filesFrom_cons {files : List String} {dir : Option String} {rules' : List IgnoreRule}
    (h : collectPath ⟨cfg, rules⟩ d path = .ok (files, dir, ⟨cfg, rules'⟩)) (todo : List String) :
    filesFrom cfg d rules (path :: todo) = (filesFrom cfg d rules' todo).map (files ++ ·) := by
  unfold filesFrom
  rw [collectPaths, h]
  change ((collectPaths ⟨cfg, rules'⟩ d todo).bind _).toOption.map Prod.fst = _
  cases collectPaths ⟨cfg, rules'⟩ d todo <;> rfl

end Run

/-! ## Paths alone -/

/-- What a path stands for alone, if anything. -/
def alone (cfg : Config) (d : Disk) (path : String) : Option (List String) :=
  (collectPath (.new cfg) d path).toOption.map Prod.fst

/-- What is collected, without an order. -/
def collected (cfg : Config) (d : Disk) (paths : List String) : Option (Multiset String) :=
  (collectFiles cfg d paths).toOption.map fun c => Multiset.ofList c.files

/-- Whether a path is collected does not depend on the rules that are there. -/
theorem alone_cases (cfg : Config) (d : Disk) (path : String) :
    (alone cfg d path = none ∧ ∀ rules, ∃ e, collectPath ⟨cfg, rules⟩ d path = .error e) ∨
    ((alone cfg d path).isSome = true ∧ ∀ rules, ∃ files dir rules',
      collectPath ⟨cfg, rules⟩ d path = .ok (files, dir, ⟨cfg, rules'⟩)) := by
  unfold alone Scanner.new
  obtain ⟨e, hfails⟩ | ⟨files, dir, hfiles⟩ | ⟨n, -, -, hfile⟩ := collectPath_cases cfg d path
  · exact .inl ⟨by rw [hfails]; rfl, fun rules => ⟨e, hfails rules⟩⟩
  · exact .inr ⟨by rw [hfiles]; rfl, fun rules => ⟨files, dir, _, hfiles rules⟩⟩
  · exact .inr ⟨by rw [hfile]; rfl, fun rules => ⟨_, none, _, hfile rules⟩⟩

/-- The rules of all paths say the same of the files among them. -/
def Agree (cfg : Config) (d : Disk) (paths : List String) : Prop :=
  ∀ path ∈ paths, ∀ n, d.stat path = .ok n → n.isDir = false → ∀ other ∈ paths, rulesAt cfg d other = [] ∨
    passes cfg (rulesAt cfg d other) path = passes cfg (rulesAt cfg d path) path

/-- The rules that are there are those of one of the paths, if any. -/
def Loaded (cfg : Config) (d : Disk) (paths : List String) (rules : List IgnoreRule) : Prop :=
  rules = [] ∨ ∃ path ∈ paths, rules = rulesAt cfg d path

section Alone

variable {cfg : Config} {d : Disk} {paths : List String}

/-- **One path**: by the rules of paths that agree it stands for what it stands for alone. -/
theorem collectPath_of_agree (h : Agree cfg d paths) {path : String} (hpath : path ∈ paths) {rules : List IgnoreRule}
    (hrules : Loaded cfg d paths rules) :
    (alone cfg d path = none ∧ ∃ e, collectPath ⟨cfg, rules⟩ d path = .error e) ∨
    ∃ files dir rules', alone cfg d path = some files ∧ Loaded cfg d paths rules' ∧
      collectPath ⟨cfg, rules⟩ d path = .ok (files, dir, ⟨cfg, rules'⟩) := by
  have hown : Loaded cfg d paths (rulesAt cfg d path) := .inr ⟨path, hpath, rfl⟩
  unfold alone Scanner.new
  obtain ⟨e, hfails⟩ | ⟨files, dir, hfiles⟩ | ⟨n, hstat, hn, hfile⟩ := collectPath_cases cfg d path
  · exact .inl ⟨by rw [hfails]; rfl, e, hfails rules⟩
  · exact .inr ⟨files, dir, _, by rw [hfiles]; rfl, hown, hfiles rules⟩
  · have hjudged : passes cfg (judgedBy cfg d rules path) path = passes cfg (rulesAt cfg d path) path ∧
        Loaded cfg d paths (judgedBy cfg d rules path) := by
      by_cases hnil : rules = []
      · rw [hnil, judgedBy_nil]
        exact ⟨rfl, hown⟩
      · rw [judgedBy_of_ne_nil hnil]
        refine ⟨?_, hrules⟩
        obtain ⟨other, hother, rfl⟩ := hrules.resolve_left hnil
        exact (h path hpath n hstat hn other hother).resolve_left hnil
    refine .inr ⟨_, none, _, ?_, hjudged.2, hfile rules⟩
    rw [hfile, judgedBy_nil, hjudged.1]
    rfl

/-- **A run over paths that agree** collects what each of them stands for alone. -/
theorem filesFrom_of_agree (h : Agree cfg d paths) {todo : List String} (htodo : ∀ path ∈ todo, path ∈ paths)
    {rules : List IgnoreRule} (hrules : Loaded cfg d paths rules) : filesFrom cfg d rules todo =
      if todo.all fun path => (alone cfg d path).isSome then some (todo.flatMap fun path => (alone cfg d path).getD [])
      else none := by
  induction todo generalizing rules with
  | nil => rfl
  | cons path todo ih =>
    have hrest : ∀ path ∈ todo, path ∈ paths := fun p hp => htodo p (List.mem_cons_of_mem path hp)
    rw [List.all_cons, List.flatMap_cons]
    obtain ⟨halone, e, hfails⟩ | ⟨files, dir, rules', halone, hrules', hfiles⟩ :=
      collectPath_of_agree h (htodo path List.mem_cons_self) hrules
    · rw [halone, filesFrom_error hfails]
      rfl
    · rw [halone, filesFrom_cons hfiles, ih hrest hrules', Option.isSome_some, Bool.true_and, Option.getD_some]
      split_ifs <;> rfl

theorem collected_eq (cfg : Config) (d : Disk) (paths : List String) :
    collected cfg d paths = (filesFrom cfg d [] paths).map Multiset.ofList := by
  unfold collected collectFiles filesFrom Scanner.new
  cases collectPaths ⟨cfg, []⟩ d paths with
  | error e => rfl
  | ok found =>
    dsimp only [bind, Except.bind]
    split <;> rfl

/-- **Paths that agree** may come in any order. -/
theorem collected_of_agree (h : Agree cfg d paths) {paths' : List String} (hperm : paths.Perm paths') :
    collected cfg d paths = collected cfg d paths' := by
  have hnew : Loaded cfg d paths [] := .inl rfl
  rw [collected_eq, collected_eq, filesFrom_of_agree h (fun _ hmem => hmem) hnew,
    filesFrom_of_agree h (fun _ hmem => hperm.mem_iff.mpr hmem) hnew, hperm.all_eq]
  split_ifs
  · exact congrArg some (Multiset.coe_eq_coe.mpr (hperm.flatMap_right _))
  · rfl

end Alone

/-! ## Paths that do not agree -/

section Disagree

variable {cfg : Config} {d : Disk} {paths : List String}

/-- A path that fails alone fails among others. -/
theorem filesFrom_none {path : String} (h : alone cfg d path = none) {todo : List String} (hmem : path ∈ todo)
    (rules : List IgnoreRule) : filesFrom cfg d rules todo = none := by
  induction todo generalizing rules with
  | nil => exact absurd hmem List.not_mem_nil
  | cons first todo ih =>
    obtain ⟨-, hfails⟩ | ⟨hsome, hcollects⟩ := alone_cases cfg d first
    · obtain ⟨e, he⟩ := hfails rules
      exact filesFrom_error he todo
    · obtain ⟨files, dir, rules', hfiles⟩ := hcollects rules
      rcases List.mem_cons.mp hmem with rfl | hmem
      · rw [h] at hsome
        cases hsome
      · rw [filesFrom_cons hfiles, ih hmem]
        rfl

/-- Paths that are collected alone are collected one after the other. -/
theorem exists_filesFrom {todo : List String} (h : ∀ path ∈ todo, (alone cfg d path).isSome = true)
    (rules : List IgnoreRule) : ∃ files, filesFrom cfg d rules todo = some files := by
  induction todo generalizing rules with
  | nil => exact ⟨[], rfl⟩
  | cons path todo ih =>
    obtain ⟨hnone, -⟩ | ⟨-, hcollects⟩ := alone_cases cfg d path
    · have hpath := h path List.mem_cons_self
      rw [hnone] at hpath
      cases hpath
    · obtain ⟨files, dir, rules', hfiles⟩ := hcollects rules
      obtain ⟨more, hmore⟩ := ih (fun p hp => h p (List.mem_cons_of_mem path hp)) rules'
      exact ⟨files ++ more, by rw [filesFrom_cons hfiles, hmore]; rfl⟩

/-- Rules that let a file pass more often do not collect it less often. -/
theorem count_le {path : String} {todo : List String} {rules rules' : List IgnoreRule} (hne : rules ≠ [])
    (hne' : rules' ≠ []) (h : passes cfg rules path = true → passes cfg rules' path = true) {files files' : List String}
    (hfiles : filesFrom cfg d rules todo = some files) (hfiles' : filesFrom cfg d rules' todo = some files') :
    files.count path ≤ files'.count path := by
  induction todo generalizing files files' with
  | nil =>
    cases hfiles
    cases hfiles'
    exact le_rfl
  | cons first todo ih =>
    obtain ⟨e, hfails⟩ | ⟨own, dir, hown⟩ | ⟨n, -, -, hfile⟩ := collectPath_cases cfg d first
    · rw [filesFrom_error (hfails rules)] at hfiles
      cases hfiles
    · -- a directory leaves its own rules, so the rest is the same
      rw [filesFrom_cons (hown rules)] at hfiles
      rw [filesFrom_cons (hown rules'), hfiles] at hfiles'
      exact (congrArg (List.count path) (Option.some.inj hfiles')).le
    · rw [filesFrom_cons (hfile rules), judgedBy_of_ne_nil hne] at hfiles
      rw [filesFrom_cons (hfile rules'), judgedBy_of_ne_nil hne'] at hfiles'
      obtain ⟨more, hmore, rfl⟩ := Option.map_eq_some_iff.mp hfiles
      obtain ⟨more', hmore', rfl⟩ := Option.map_eq_some_iff.mp hfiles'
      rw [List.count_append, List.count_append]
      refine Nat.add_le_add ?_ (ih hmore hmore')
      by_cases hsame : first = path
      · subst hsame
        by_cases hpasses : passes cfg rules first = true
        · rw [if_pos hpasses, if_pos (h hpasses)]
        · rw [if_neg hpasses]
          exact Nat.zero_le _
      · split_ifs <;> simp [hsame]

/-- Another path stands for a file as often as it does, and leaves its own rules or those that are there. -/
theorem exists_count {path other : String} (hother : other ≠ path) (h : (alone cfg d other).isSome = true) :
    ∃ count, ∀ rules, ∃ files dir rules', collectPath ⟨cfg, rules⟩ d other = .ok (files, dir, ⟨cfg, rules'⟩) ∧
      files.count path = count ∧ (rules' = rulesAt cfg d other ∨ rules ≠ [] ∧ rules' = rules) := by
  obtain ⟨e, hfails⟩ | ⟨files, dir, hfiles⟩ | ⟨n, -, -, hfile⟩ := collectPath_cases cfg d other
  · rw [alone, Scanner.new, hfails] at h
    cases h
  · exact ⟨files.count path, fun rules => ⟨files, dir, _, hfiles rules, rfl, .inl rfl⟩⟩
  · refine ⟨0, fun rules => ⟨_, none, _, hfile rules, ?_, ?_⟩⟩
    · split_ifs <;> simp [hother]
    · by_cases hnil : rules = []
      · rw [hnil, judgedBy_nil]
        exact .inl rfl
      · exact .inr ⟨hnil, judgedBy_of_ne_nil hnil other⟩

/-- **Two orders of a file and another path**: what is collected of the file by the rules of the other path, and
by its own. -/
theorem counts_of_swap {path other : String} {n : Node} (hstat : d.stat path = .ok n) (hn : n.isDir = false)
    (hother : other ≠ path) (hne : rulesAt cfg d other ≠ []) {rest : List String}
    (hcollects : ∀ p ∈ other :: rest, (alone cfg d p).isSome = true) :
    ∃ first second, filesFrom cfg d [] (other :: path :: rest) = some first ∧
      filesFrom cfg d [] (path :: other :: rest) = some second ∧
      (passes cfg (rulesAt cfg d other) path ≠ passes cfg (rulesAt cfg d path) path →
        first.count path ≠ second.count path) := by
  obtain ⟨count, hcount⟩ := exists_count hother (hcollects other List.mem_cons_self)
  have hrest : ∀ p ∈ rest, (alone cfg d p).isSome = true := fun p hp => hcollects p (List.mem_cons_of_mem other hp)
  have hfile := @collectPath_file cfg _ _ _ hstat hn
  -- the other path comes first, and the file is judged by its rules
  obtain ⟨own, dir, rules, hown, hownCount, hrules⟩ := hcount []
  obtain rfl := hrules.resolve_right fun h => h.1 rfl
  obtain ⟨more, hmore⟩ := exists_filesFrom hrest (rulesAt cfg d other)
  have hfirst : filesFrom cfg d [] (other :: path :: rest) =
      some (own ++ ((if passes cfg (rulesAt cfg d other) path then [path] else []) ++ more)) := by
    have hjudged := hfile (rulesAt cfg d other)
    rw [judgedBy_of_ne_nil hne] at hjudged
    rw [filesFrom_cons hown, filesFrom_cons hjudged, hmore]
    rfl
  -- the file comes first, and is judged by its own rules
  obtain ⟨own', dir', rules', hown', hownCount', hrules'⟩ := hcount (rulesAt cfg d path)
  obtain ⟨more', hmore'⟩ := exists_filesFrom hrest rules'
  have hsecond : filesFrom cfg d [] (path :: other :: rest) =
      some ((if passes cfg (rulesAt cfg d path) path then [path] else []) ++ (own' ++ more')) := by
    rw [filesFrom_cons (hfile []), judgedBy_nil, filesFrom_cons hown', hmore']
    rfl
  have hne' : rules' ≠ [] := by
    rcases hrules' with rfl | ⟨hpath, rfl⟩
    · exact hne
    · exact hpath
  refine ⟨_, _, hfirst, hsecond, fun hdiffer => ?_⟩
  rw [List.count_append, List.count_append, List.count_append, List.count_append, hownCount, hownCount']
  cases hpasses : passes cfg (rulesAt cfg d other) path with
  | true =>
    have hpath : passes cfg (rulesAt cfg d path) path = false := by simpa [hpasses] using hdiffer.symm
    have hle : more'.count path ≤ more.count path := count_le hne' hne (fun _ => hpasses) hmore' hmore
    simp only [hpath, if_true, Bool.false_eq_true, if_false, List.count_singleton_self, List.count_nil]
    omega
  | false =>
    have hpath : passes cfg (rulesAt cfg d path) path = true := by simpa [hpasses] using hdiffer.symm
    have hle : more.count path ≤ more'.count path :=
      count_le hne hne' (fun hcontra => absurd (hpasses.symm.trans hcontra) Bool.false_ne_true) hmore hmore'
    simp only [hpath, if_true, Bool.false_eq_true, if_false, List.count_singleton_self, List.count_nil]
    omega

/-- **Where the order does not matter**, the paths agree. -/
theorem agree_of_collected (hcollects : ∀ path ∈ paths, (alone cfg d path).isSome = true)
    (h : ∀ paths', paths.Perm paths' → collected cfg d paths = collected cfg d paths') : Agree cfg d paths := by
  intro path hpath n hstat hn other hother
  by_contra hdiffer
  rw [not_or] at hdiffer
  have hne : other ≠ path := by
    rintro rfl
    exact hdiffer.2 rfl
  obtain ⟨rest, hrest⟩ : ∃ rest, paths.Perm (other :: path :: rest) :=
    ⟨(paths.erase other).erase path, (List.perm_cons_erase hother).trans
      ((List.perm_cons_erase ((List.mem_erase_of_ne hne.symm).mpr hpath)).cons other)⟩
  have hmem : ∀ p ∈ other :: rest, p ∈ paths := by
    intro p hp
    refine hrest.mem_iff.mpr ?_
    rcases List.mem_cons.mp hp with rfl | hp
    · exact List.mem_cons_self
    · exact List.mem_cons_of_mem _ (List.mem_cons_of_mem _ hp)
  obtain ⟨first, second, hfirst, hsecond, hcounts⟩ :=
    counts_of_swap hstat hn hne hdiffer.1 fun p hp => hcollects p (hmem p hp)
  have hsame := (h _ hrest).symm.trans (h _ (hrest.trans (List.Perm.swap path other rest)))
  rw [collected_eq, collected_eq, hfirst, hsecond, Option.map_some, Option.map_some, Option.some_inj,
    Multiset.coe_eq_coe] at hsame
  exact hcounts hdiffer.2 (hsame.count_eq path)

end Disagree

theorem rulesAt_of_off {cfg : Config} (h : cfg.exclude.gitignore = false) (d : Disk) (path : String) :
    rulesAt cfg d path = cfg.exclude.patterns.items.map (IgnoreRule.parse []) := by
  have hrules : ∀ root, rulesFor cfg d root = cfg.exclude.patterns.items.map (IgnoreRule.parse []) := by
    intro root
    rw [rulesFor, h, if_neg Bool.false_ne_true, List.append_nil]
  unfold rulesAt
  split <;> exact hrules _

/-- **The order of paths does not matter** exactly if their rules agree or one of them cannot be collected. They
agree if no ignore files are read, and also if there are only directories. -/
theorem collectFiles_order (cfg : Config) (d : Disk) (paths : List String) :
    ((∀ paths', paths.Perm paths' → collected cfg d paths = collected cfg d paths') ↔
      ((∀ path ∈ paths, (alone cfg d path).isSome = true) → Agree cfg d paths)) ∧
    (cfg.exclude.gitignore = false ∨ (∀ path ∈ paths, d.isDir path = true) → Agree cfg d paths) := by
  refine ⟨⟨fun h hcollects => agree_of_collected hcollects h, fun h paths' hperm => ?_⟩, fun h => ?_⟩
  · by_cases hcollects : ∀ path ∈ paths, (alone cfg d path).isSome = true
    · exact collected_of_agree (h hcollects) hperm
    · push Not at hcollects
      obtain ⟨path, hpath, hnone⟩ := hcollects
      have halone : alone cfg d path = none := by simpa using hnone
      rw [collected_eq, collected_eq, filesFrom_none halone hpath, filesFrom_none halone (hperm.mem_iff.mp hpath)]
  · intro path hpath n hstat hn other hother
    rcases h with hoff | hdirs
    · rw [rulesAt_of_off hoff, rulesAt_of_off hoff]
      exact .inr rfl
    · have hdir := hdirs path hpath
      unfold Disk.stat at hstat
      unfold Disk.isDir at hdir
      cases hfind : d.find .follow path with
      | error e =>
        rw [hfind] at hstat
        cases hstat
      | ok m =>
        rw [hfind] at hstat hdir
        cases hstat
        exact absurd (hn.symm.trans hdir) Bool.false_ne_true

/-! ## A file that only one order collects -/

section Projects

/-- A project that leaves out a file which it does not have. -/
def cleanProject : List (String × Node) :=
  [(".git", .dir []), (".gitignore", .file (Bytes.ofString "y.js\n")), ("x.js", .file [])]

/-- A project that leaves out nothing. -/
def openProject : List (String × Node) := [(".git", .dir []), ("y.js", .file [])]

def twoProjects : Disk := ⟨.dir [("a", .dir cleanProject), ("b", .dir openProject)], "/"⟩

theorem linkless_twoProjects : twoProjects.root.Linkless := by
  have hclean : (Node.dir cleanProject).Linkless :=
    Node.linkless_dir (by simp [cleanProject, Node.linkless_file, Node.linkless_dir_nil])
  have hopen : (Node.dir openProject).Linkless :=
    Node.linkless_dir (by simp [openProject, Node.linkless_file, Node.linkless_dir_nil])
  exact Node.linkless_dir (by simpa using ⟨hclean, hopen⟩)

/-- The rules of a project of the two are those that it holds. -/
theorem rulesFor_twoProjects {name : String} {project : List (String × Node)}
    (hdir : twoProjects.root.at? [name] = some (.dir project)) (hgit : project.lookup ".git" = some (.dir [])) :
    rulesFor trackedOnly twoProjects (Path.absolute [name]) = rulesIn (.dir project) := by
  have hnamed : twoProjects.root.WellNamed := by
    simp [twoProjects, cleanProject, openProject, Node.WellNamed, WellNamedEntries, Path.IsName]
  have hrepository : Scanner.Repository twoProjects [name] project :=
    ⟨by decide, linkless_twoProjects, hnamed, List.cons_ne_nil _ _, hdir, [], hgit⟩
  have hwhole : Scanner.Subdirectory project [] project :=
    ⟨rfl, fun dir hne hstarts => absurd (List.prefix_nil.mp hstarts) hne⟩
  exact Scanner.rulesFor_absolute hrepository rfl rfl hwhole

theorem rulesFor_clean : rulesFor trackedOnly twoProjects "/a" = [⟨[], ["y.js"], false, false⟩] := by
  have hpath : Path.absolute ["a"] = "/a" := by decide
  rw [← hpath, rulesFor_twoProjects rfl rfl]
  decide +kernel

theorem rulesFor_open : rulesFor trackedOnly twoProjects "/b" = [] := by
  have hpath : Path.absolute ["b"] = "/b" := by decide
  rw [← hpath, rulesFor_twoProjects rfl rfl]
  decide

/-- A file of the second project is left out, if a file of the first one comes before it. -/
theorem collectFiles_order_matters : ["/b/y.js", "/a/x.js"].Perm ["/a/x.js", "/b/y.js"] ∧
    twoProjects.stat "/a/x.js" = .ok (.file []) ∧ twoProjects.stat "/b/y.js" = .ok (.file []) ∧
    collected trackedOnly twoProjects ["/b/y.js", "/a/x.js"] = some {"/b/y.js", "/a/x.js"} ∧
    collected trackedOnly twoProjects ["/a/x.js", "/b/y.js"] = some {"/a/x.js"} := by
  have hstat : twoProjects.stat "/a/x.js" = .ok (.file []) := by cbv
  have hstat' : twoProjects.stat "/b/y.js" = .ok (.file []) := by cbv
  have hrules : rulesAt trackedOnly twoProjects "/a/x.js" = [⟨[], ["y.js"], false, false⟩] := by
    have hparent : Path.dir "/a/x.js" = "/a" := by decide
    rw [rulesAt, hstat, hparent, rulesFor_clean]
  have hrules' : rulesAt trackedOnly twoProjects "/b/y.js" = [] := by
    have hparent : Path.dir "/b/y.js" = "/b" := by decide
    rw [rulesAt, hstat', hparent, rulesFor_open]
  have hfile := @collectPath_file trackedOnly _ _ _ hstat rfl
  have hfile' := @collectPath_file trackedOnly _ _ _ hstat' rfl
  refine ⟨List.Perm.swap _ _ _, hstat, hstat', ?_, ?_⟩
  · rw [collected_eq, filesFrom_cons (hfile' []), judgedBy_nil, hrules', filesFrom_cons (hfile []), judgedBy_nil, hrules]
    decide +kernel
  · rw [collected_eq, filesFrom_cons (hfile []), judgedBy_nil, hrules, filesFrom_cons (hfile' _),
      judgedBy_of_ne_nil (List.cons_ne_nil _ _)]
    decide

end Projects

end ScriptSplit
