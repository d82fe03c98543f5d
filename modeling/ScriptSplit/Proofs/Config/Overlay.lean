import Mathlib
import ScriptSplit.Config.Overlay
import ScriptSplit.Proofs.Config.Shape

/-!
# Settings that follow a file

* `Setting`: one setting with its place in a settings file, and the tables of all of them.
* `Config.Follows`: each setting has the value that the file sets, and the former one where it sets none.
* **`Config.overlay?_eq_some_iff`**: laying a file over settings gives those that follow it.
* `Config.Follows.unique`, `Config.exists_follows`: there is exactly one such `Config` for a file of the right shape.
* **`Config.Follows.exact`**: no number wrapped around if all settings pass their check.
-/

namespace ScriptSplit

theorem mapM_eq_some_iff {α β : Type} {f : α → Option β} {xs : List α} {ys : List β} :
    xs.mapM f = some ys ↔ List.Forall₂ (fun x y => f x = some y) xs ys := by
  induction xs generalizing ys with
  | nil => simp [eq_comm]
  | cons x xs ih =>
    simp only [List.mapM_cons, Option.pure_def, Option.bind_eq_bind, Option.bind_eq_some_iff, Option.some.injEq,
      ih, List.forall₂_cons_left_iff]
    constructor
    · rintro ⟨y, hy, zs, hzs, rfl⟩
      exact ⟨y, zs, hy, hzs, rfl⟩
    · rintro ⟨y, zs, hy, hzs, rfl⟩
      exact ⟨y, hy, zs, hzs, rfl⟩

theorem exists_forall₂_iff {α β : Type} {R : α → β → Prop} {xs : List α} :
    (∃ ys, List.Forall₂ R xs ys) ↔ ∀ x ∈ xs, ∃ y, R x y := by
  induction xs with
  | nil => simp
  | cons x xs ih =>
    rw [List.forall_mem_cons, ← ih]
    constructor
    · rintro ⟨_, h⟩
      obtain ⟨y, ys, hy, hys, -⟩ := List.forall₂_cons_left_iff.mp h
      exact ⟨⟨y, hy⟩, ys, hys⟩
    · rintro ⟨⟨y, hy⟩, ys, hys⟩
      exact ⟨y :: ys, .cons hy hys⟩

/-- The shape of a rule of the module table. -/
def ruleShape : Shape := .table [("tag", .text true), ("keywords", namesShape)] ["tag", "keywords"]

/-! ## What values say -/

namespace Datum

/-- The value is the list of these names. -/
def SaysNames (d : Datum) (v : Listing String) : Prop := ∃ names : List String, d = .list (names.map .text) ∧ v = some names

/-- The value is a table with this tag and these keywords. -/
def SaysRule (d : Datum) (m : ModuleRule) : Prop :=
  d.field? "tag" = some (.text m.tag) ∧ ∃ x, d.field? "keywords" = some x ∧ x.SaysNames m.keywords

/-- The value is the list of these rules. -/
def SaysRules (d : Datum) (v : Listing ModuleRule) : Prop :=
  ∃ items rules, d = .list items ∧ v = some rules ∧ List.Forall₂ SaysRule items rules

theorem text?_eq_some_iff {d : Datum} {s : String} : d.text? = some s ↔ d = .text s := by
  cases d <;> simp [text?]

theorem bool?_eq_some_iff {d : Datum} {b : Bool} : d.bool? = some b ↔ d = .bool b := by
  cases d <;> simp [bool?]

theorem names?_eq_some_iff {d : Datum} {v : Listing String} : d.names? = some v ↔ d.SaysNames v := by
  have hitems : ∀ items : List Datum, ∀ names : List String,
      items.mapM text? = some names ↔ items = names.map .text := by
    intro items names
    simp only [mapM_eq_some_iff, text?_eq_some_iff]
    rw [← List.forall₂_map_right_iff, List.forall₂_eq_eq_eq]
  cases d with
  | list items =>
    simp only [names?, SaysNames, Option.map_eq_some_iff, hitems, list.injEq]
    exact exists_congr fun names => and_congr_right fun _ => eq_comm
  | _ => simp [names?, SaysNames]

theorem SaysNames.dateless {d : Datum} {v : Listing String} (h : d.SaysNames v) : namesShape.Dateless d := by
  obtain ⟨names, rfl, rfl⟩ := h
  refine Shape.dateless_list fun x hx => ?_
  obtain ⟨s, -, rfl⟩ := List.mem_map.mp hx
  exact Shape.dateless_text

theorem SaysNames.unique {d : Datum} {v w : Listing String} (hv : d.SaysNames v) (hw : d.SaysNames w) : v = w :=
  Option.some.inj ((names?_eq_some_iff.mpr hv).symm.trans (names?_eq_some_iff.mpr hw))

theorem ofDatum?_eq_some_iff {d : Datum} {m : ModuleRule} : ModuleRule.ofDatum? d = some m ↔ d.SaysRule m := by
  simp only [ModuleRule.ofDatum?, Option.bind_eq_bind, Option.bind_eq_some_iff, text?_eq_some_iff,
    names?_eq_some_iff, Option.some.injEq, SaysRule]
  constructor
  · rintro ⟨tag, ⟨_, htag, rfl⟩, keywords, hkeywords, rfl⟩
    exact ⟨htag, hkeywords⟩
  · rintro ⟨htag, hkeywords⟩
    exact ⟨m.tag, ⟨_, htag, rfl⟩, m.keywords, hkeywords, rfl⟩

theorem modules?_eq_some_iff {d : Datum} {v : Listing ModuleRule} : d.modules? = some v ↔ d.SaysRules v := by
  cases d with
  | list items =>
    simp only [modules?, SaysRules, Option.map_eq_some_iff, mapM_eq_some_iff, ofDatum?_eq_some_iff, list.injEq]
    constructor
    · rintro ⟨rules, hrules, rfl⟩
      exact ⟨items, rules, rfl, rfl, hrules⟩
    · rintro ⟨_, rules, rfl, rfl, hrules⟩
      exact ⟨rules, hrules, rfl⟩
  | _ => simp [modules?, SaysRules]

theorem SaysRules.dateless {d : Datum} {v : Listing ModuleRule} (h : d.SaysRules v) :
    (Shape.list ruleShape).Dateless d := by
  obtain ⟨items, rules, rfl, -, hrules⟩ := h
  refine Shape.dateless_list fun x hx => Shape.dateless_table ?_
  obtain ⟨m, htag, keywords, hkeywords, hnames⟩ := exists_forall₂_iff.mp ⟨rules, hrules⟩ x hx
  simp only [List.forall_mem_cons]
  refine ⟨fun y hy => ?_, fun y hy => ?_, by simp⟩
  · rw [htag, Option.some.injEq] at hy
    exact hy ▸ Shape.dateless_text
  · rw [hkeywords, Option.some.injEq] at hy
    exact hy ▸ hnames.dateless

theorem SaysRules.unique {d : Datum} {v w : Listing ModuleRule} (hv : d.SaysRules v) (hw : d.SaysRules w) : v = w :=
  Option.some.inj ((modules?_eq_some_iff.mpr hv).symm.trans (modules?_eq_some_iff.mpr hw))

/-- A number in range that does not end below zero is the number of the file. -/
theorem integer?_of_word? {dates : Bool} {d : Datum} {n : Int} (hrange : d.InRange) (hshape : Shape.count.Accepts dates d)
    (hword : d.word? = some n) (hn : 0 ≤ n) : d.integer? = some n := by
  cases hshape with
  | @count _ m hd hm =>
    rw [hd]
    cases d with
    | int k =>
      cases hd
      cases hword
      simp only [InRange, Word64.fits, Word64.fitsUnsigned, Bool.and_eq_true, decide_eq_true_eq] at hrange
      simp only [Word64.least, Word64.greatest, Word64.count] at hrange
      -- beyond the signed numbers the word wraps around to one below zero
      simp only [Word64.wrap, Word64.count, Int.bmod_def, Option.some.injEq] at hn ⊢
      split_ifs at hn ⊢ <;> omega
    | real r =>
      rw [integer?] at hd
      simp only [word?, hd, Option.map_some, Option.some.injEq] at hword
      split_ifs at hword
      · rw [hword]
      · simp only [Word64.least] at hword
        omega
    | _ => cases hword

end Datum

/-! ## Settings -/

/-- One setting: its place in a settings file, and its value. -/
structure Setting (α : Type) where
  place : List String
  value : Config → α

namespace Setting

variable {α : Type}

/-- The value is the one that the file sets, and that of `base` where it sets none. -/
def Given (s : Setting α) (reads : Datum → α → Prop) (base : Config) (d : Datum) (v : α) : Prop :=
  (∀ x, d.at? s.place = some x → reads x v) ∧ (d.at? s.place = none → v = s.value base)

variable {s : Setting α} {reads : Datum → α → Prop} {base : Config} {d : Datum}

theorem given_iff {read : Datum → Option α} {group : Option Datum} {key : String}
    (hplace : d.at? s.place = group.bind (Datum.field? key)) (hreads : ∀ x v, read x = some v ↔ reads x v) {v : α} :
    s.Given reads base d v ↔ setting? read group key (s.value base) = some v := by
  rw [Given, hplace, setting?]
  cases group.bind (Datum.field? key) with
  | none => simp [eq_comm]
  | some x => simp [hreads]

theorem given_pair {read : Datum → Option α} {group key : String} {value : Config → α}
    (hreads : ∀ x v, read x = some v ↔ reads x v) {v : α} :
    (⟨[group, key], value⟩ : Setting α).Given reads base d v ↔
      setting? read (d.field? group) key (value base) = some v := by
  refine given_iff ?_ hreads
  show (d.field? group).bind (Datum.at? [key]) = _
  congr 1
  funext x
  show (x.field? key).bind some = _
  simp

theorem Given.unique {v w : α} (hv : s.Given reads base d v) (hw : s.Given reads base d w)
    (hreads : ∀ x, reads x v → reads x w → v = w) : v = w := by
  cases hx : d.at? s.place with
  | none => rw [hv.2 hx, hw.2 hx]
  | some x => exact hreads x (hv.1 x hx) (hw.1 x hx)

theorem exists_given {leaf : Shape} (hd : settingsShape.Accepts false d) (hplace : settingsShape.at? s.place = some leaf)
    (hleaf : ∀ x, leaf.Accepts false x → ∃ v, reads x v) : ∃ v, s.Given reads base d v := by
  cases hx : d.at? s.place with
  | none => exact ⟨s.value base, fun x h => by simp [hx] at h, fun _ => rfl⟩
  | some x =>
    obtain ⟨v, hv⟩ := hleaf x (hd.at? hplace hx)
    refine ⟨v, fun y hy => ?_, fun h => by simp [hx] at h⟩
    rw [hx, Option.some.injEq] at hy
    exact hy ▸ hv

end Setting

/-- The settings that are numbers. -/
def countSettings : List (Setting Int) :=
  [⟨["thresholds", "dependency_count"], (·.thresholds.dependencyCount)⟩,
   ⟨["thresholds", "dependent_count"], (·.thresholds.dependentCount)⟩,
   ⟨["thresholds", "complexity"], (·.thresholds.complexity)⟩,
   ⟨["scan", "max_file_size"], (·.scan.maxFileSize)⟩,
   ⟨["scan", "workers"], (·.scan.workers)⟩,
   ⟨["cache", "ttl"], (·.cache.ttl)⟩]

/-- The settings that are texts. -/
def textSettings : List (Setting String) :=
  [⟨["classification", "default_module"], (·.classification.defaultModule)⟩,
   ⟨["classification", "fallback_policy"], (·.classification.fallbackPolicy)⟩,
   ⟨["cache", "dir"], (·.cache.dir)⟩,
   ⟨["output", "format"], (·.output.format)⟩]

/-- The settings that are switched on or off. -/
def flagSettings : List (Setting Bool) :=
  [⟨["exclude", "gitignore"], (·.exclude.gitignore)⟩,
   ⟨["cache", "enabled"], (·.cache.enabled)⟩,
   ⟨["output", "color"], (·.output.color)⟩]

/-- The settings that are lists of names. -/
def nameSettings : List (Setting (Listing String)) :=
  [⟨["symbols", "globals"], (·.symbols.globals)⟩,
   ⟨["symbols", "platform_api"], (·.symbols.platformAPI)⟩,
   ⟨["scan", "extensions"], (·.scan.extensions)⟩,
   ⟨["scan", "include"], (·.scan.includeGlobs)⟩,
   ⟨["exclude", "dirs"], (·.exclude.dirs)⟩,
   ⟨["exclude", "patterns"], (·.exclude.patterns)⟩]

/-- The module table. -/
def moduleSetting : Setting (Listing ModuleRule) := ⟨["modules"], (·.modules)⟩

namespace Setting

variable {base : Config} {d : Datum} {group key : String}

theorem given_count {value : Config → Int} {v : Int} :
    (⟨[group, key], value⟩ : Setting Int).Given (fun x n => x.word? = some n) base d v ↔
      setting? Datum.word? (d.field? group) key (value base) = some v :=
  given_pair fun _ _ => Iff.rfl

theorem given_text {value : Config → String} {v : String} :
    (⟨[group, key], value⟩ : Setting String).Given (fun x t => x = .text t) base d v ↔
      setting? Datum.text? (d.field? group) key (value base) = some v :=
  given_pair fun _ _ => Datum.text?_eq_some_iff

theorem given_flag {value : Config → Bool} {v : Bool} :
    (⟨[group, key], value⟩ : Setting Bool).Given (fun x b => x = .bool b) base d v ↔
      setting? Datum.bool? (d.field? group) key (value base) = some v :=
  given_pair fun _ _ => Datum.bool?_eq_some_iff

theorem given_names {value : Config → Listing String} {v : Listing String} :
    (⟨[group, key], value⟩ : Setting (Listing String)).Given Datum.SaysNames base d v ↔
      setting? Datum.names? (d.field? group) key (value base) = some v :=
  given_pair fun _ _ => Datum.names?_eq_some_iff

theorem given_modules {v : Listing ModuleRule} :
    moduleSetting.Given Datum.SaysRules base d v ↔ setting? Datum.modules? (some d) "modules" base.modules = some v := by
  refine given_iff ?_ fun _ _ => Datum.modules?_eq_some_iff
  show (d.field? "modules").bind some = d.field? "modules"
  simp

end Setting

namespace Config

variable {number : Datum → Option Int} {base cfg cfg' : Config} {d : Datum}

/-- Each setting has the value that the file sets, where `number` reads the numbers, and that of `base` where
the file sets none. A list of the file stands for the whole list. -/
structure Follows (number : Datum → Option Int) (base : Config) (d : Datum) (cfg : Config) : Prop where
  counts : ∀ s ∈ countSettings, s.Given (fun x n => number x = some n) base d (s.value cfg)
  texts : ∀ s ∈ textSettings, s.Given (fun x t => x = .text t) base d (s.value cfg)
  flags : ∀ s ∈ flagSettings, s.Given (fun x b => x = .bool b) base d (s.value cfg)
  names : ∀ s ∈ nameSettings, s.Given Datum.SaysNames base d (s.value cfg)
  modules : moduleSetting.Given Datum.SaysRules base d cfg.modules

/-- **The settings that a file gives** are those that follow it. -/
theorem overlay?_eq_some_iff : base.overlay? d = some cfg ↔ Follows Datum.word? base d cfg := by
  constructor
  · intro h
    rw [overlay?] at h
    -- one setting after the other, as `overlay?` reads them
    obtain ⟨_, hdependency, h⟩ := Option.bind_eq_some_iff.mp h
    obtain ⟨_, hdependent, h⟩ := Option.bind_eq_some_iff.mp h
    obtain ⟨_, hcomplexity, h⟩ := Option.bind_eq_some_iff.mp h
    obtain ⟨_, hglobals, h⟩ := Option.bind_eq_some_iff.mp h
    obtain ⟨_, hplatform, h⟩ := Option.bind_eq_some_iff.mp h
    obtain ⟨_, hmodules, h⟩ := Option.bind_eq_some_iff.mp h
    obtain ⟨_, hdefault, h⟩ := Option.bind_eq_some_iff.mp h
    obtain ⟨_, hfallback, h⟩ := Option.bind_eq_some_iff.mp h
    obtain ⟨_, hextensions, h⟩ := Option.bind_eq_some_iff.mp h
    obtain ⟨_, hinclude, h⟩ := Option.bind_eq_some_iff.mp h
    obtain ⟨_, hsize, h⟩ := Option.bind_eq_some_iff.mp h
    obtain ⟨_, hworkers, h⟩ := Option.bind_eq_some_iff.mp h
    obtain ⟨_, hdirs, h⟩ := Option.bind_eq_some_iff.mp h
    obtain ⟨_, hpatterns, h⟩ := Option.bind_eq_some_iff.mp h
    obtain ⟨_, hgitignore, h⟩ := Option.bind_eq_some_iff.mp h
    obtain ⟨_, henabled, h⟩ := Option.bind_eq_some_iff.mp h
    obtain ⟨_, hdir, h⟩ := Option.bind_eq_some_iff.mp h
    obtain ⟨_, httl, h⟩ := Option.bind_eq_some_iff.mp h
    obtain ⟨_, hformat, h⟩ := Option.bind_eq_some_iff.mp h
    obtain ⟨_, hcolor, h⟩ := Option.bind_eq_some_iff.mp h
    cases h
    refine ⟨?_, ?_, ?_, ?_, Setting.given_modules.mpr hmodules⟩
    · simp only [countSettings, List.forall_mem_cons, Setting.given_count]
      exact ⟨hdependency, hdependent, hcomplexity, hsize, hworkers, httl, by simp⟩
    · simp only [textSettings, List.forall_mem_cons, Setting.given_text]
      exact ⟨hdefault, hfallback, hdir, hformat, by simp⟩
    · simp only [flagSettings, List.forall_mem_cons, Setting.given_flag]
      exact ⟨hgitignore, henabled, hcolor, by simp⟩
    · simp only [nameSettings, List.forall_mem_cons, Setting.given_names]
      exact ⟨hglobals, hplatform, hextensions, hinclude, hdirs, hpatterns, by simp⟩
  · rintro ⟨hcounts, htexts, hflags, hnames, hmodules⟩
    simp only [countSettings, List.forall_mem_cons, Setting.given_count] at hcounts
    simp only [textSettings, List.forall_mem_cons, Setting.given_text] at htexts
    simp only [flagSettings, List.forall_mem_cons, Setting.given_flag] at hflags
    simp only [nameSettings, List.forall_mem_cons, Setting.given_names] at hnames
    rw [overlay?]
    simp only [hcounts, htexts, hflags, hnames, Setting.given_modules.mp hmodules, Option.bind_eq_bind, Option.bind_some]

/-- There are no two settings that follow a file. -/
theorem Follows.unique (h : Follows number base d cfg) (h' : Follows number base d cfg') : cfg = cfg' := by
  have hcounts : ∀ s ∈ countSettings, s.value cfg = s.value cfg' := fun s hs =>
    (h.counts s hs).unique (h'.counts s hs) fun _ hv hw => Option.some.inj (hv.symm.trans hw)
  have htexts : ∀ s ∈ textSettings, s.value cfg = s.value cfg' := fun s hs =>
    (h.texts s hs).unique (h'.texts s hs) fun _ hv hw => Datum.text.inj (hv.symm.trans hw)
  have hflags : ∀ s ∈ flagSettings, s.value cfg = s.value cfg' := fun s hs =>
    (h.flags s hs).unique (h'.flags s hs) fun _ hv hw => Datum.bool.inj (hv.symm.trans hw)
  have hnames : ∀ s ∈ nameSettings, s.value cfg = s.value cfg' := fun s hs =>
    (h.names s hs).unique (h'.names s hs) fun _ => Datum.SaysNames.unique
  have hmodules : cfg.modules = cfg'.modules := h.modules.unique h'.modules fun _ => Datum.SaysRules.unique
  simp only [countSettings, textSettings, flagSettings, nameSettings, List.forall_mem_cons] at hcounts htexts hflags hnames
  obtain ⟨⟨_, _, _⟩, ⟨_, _⟩, _, ⟨_, _⟩, ⟨_, _, _, _⟩, ⟨_, _, _⟩, ⟨_, _, _⟩, ⟨_, _⟩⟩ := cfg
  obtain ⟨⟨_, _, _⟩, ⟨_, _⟩, _, ⟨_, _⟩, ⟨_, _, _, _⟩, ⟨_, _, _⟩, ⟨_, _, _⟩, ⟨_, _⟩⟩ := cfg'
  simp_all only

/-! ## Files of the right shape -/

theorem exists_word? {x : Datum} (h : Shape.count.Accepts false x) : ∃ n, x.word? = some n := by
  cases h with
  | @count _ n hd hn =>
    cases x with
    | int m => exact ⟨_, rfl⟩
    | real r =>
      rw [Datum.integer?] at hd
      simp [Datum.word?, hd]
    | _ => cases hd

theorem exists_names {x : Datum} (h : namesShape.Accepts false x) : ∃ v, x.SaysNames v := by
  cases h with
  | @list _ items hitems =>
    have htexts : ∀ y ∈ items, ∃ s, y = .text s := by
      intro y hy
      cases hitems y hy with
      | @text _ s hs => exact ⟨s, rfl⟩
      | date hdates => cases hdates
    obtain ⟨names, hnames⟩ := exists_forall₂_iff.mpr htexts
    rw [← List.forall₂_map_right_iff, List.forall₂_eq_eq_eq] at hnames
    exact ⟨some names, names, by rw [hnames], rfl⟩

theorem exists_rule {x : Datum} (h : ruleShape.Accepts false x) : ∃ m, x.SaysRule m := by
  cases h with
  | @table _ _ fields hrequired hknown hfields =>
    obtain ⟨y, hy⟩ := Option.isSome_iff_exists.mp (hrequired "tag" (by simp))
    obtain ⟨z, hz⟩ := Option.isSome_iff_exists.mp (hrequired "keywords" (by simp))
    obtain ⟨keywords, hkeywords⟩ := exists_names (hfields "keywords" namesShape z (by simp) hz)
    have htag : (Shape.text true).Accepts false y := hfields "tag" (.text true) y (by simp) hy
    cases htag with
    | @text _ tag hs => exact ⟨⟨tag, keywords⟩, hy, z, hz, hkeywords⟩
    | date hdates => cases hdates

theorem exists_rules {x : Datum} (h : (Shape.list ruleShape).Accepts false x) : ∃ v, x.SaysRules v := by
  cases h with
  | @list _ items hitems =>
    obtain ⟨rules, hrules⟩ := exists_forall₂_iff.mpr fun y hy => exists_rule (hitems y hy)
    exact ⟨some rules, items, rules, rfl, rfl, hrules⟩

theorem countSettings_shape : ∀ s ∈ countSettings, settingsShape.at? s.place = some .count := by
  simp only [countSettings, List.forall_mem_cons]
  exact ⟨rfl, rfl, rfl, rfl, rfl, rfl, by simp⟩

theorem exists_texts (hd : settingsShape.Accepts false d) :
    ∀ s ∈ textSettings, ∃ v, s.Given (fun x t => x = .text t) base d v := by
  have hplace : ∀ s ∈ textSettings, (∃ nonEmpty, settingsShape.at? s.place = some (.text nonEmpty)) ∨
      ∃ words, settingsShape.at? s.place = some (.oneOf words) := by
    simp only [textSettings, List.forall_mem_cons]
    exact ⟨.inl ⟨_, rfl⟩, .inr ⟨_, rfl⟩, .inl ⟨_, rfl⟩, .inr ⟨_, rfl⟩, by simp⟩
  intro s hs
  rcases hplace s hs with ⟨nonEmpty, hplace⟩ | ⟨words, hplace⟩
  · refine Setting.exists_given hd hplace fun x hx => ?_
    cases hx with
    | @text _ t _ => exact ⟨t, rfl⟩
    | date hdates => cases hdates
  · refine Setting.exists_given hd hplace fun x hx => ?_
    cases hx with
    | @oneOf _ t _ => exact ⟨t, rfl⟩

theorem exists_flags (hd : settingsShape.Accepts false d) :
    ∀ s ∈ flagSettings, ∃ v, s.Given (fun x b => x = .bool b) base d v := by
  have hplace : ∀ s ∈ flagSettings, settingsShape.at? s.place = some .bool := by
    simp only [flagSettings, List.forall_mem_cons]
    exact ⟨rfl, rfl, rfl, by simp⟩
  refine fun s hs => Setting.exists_given hd (hplace s hs) fun x hx => ?_
  cases hx with
  | bool b => exact ⟨b, rfl⟩

/-- A file of the right shape gives settings. -/
theorem exists_follows (hd : settingsShape.Accepts false d) : ∃ cfg, Follows Datum.word? base d cfg := by
  have hcounts : ∀ s ∈ countSettings, ∃ v, s.Given (fun x n => x.word? = some n) base d v :=
    fun s hs => Setting.exists_given hd (countSettings_shape s hs) fun x => exists_word?
  have htexts := @exists_texts base d hd
  have hflags := @exists_flags base d hd
  have hnames : ∀ s ∈ nameSettings, ∃ v, s.Given Datum.SaysNames base d v := by
    have hplace : ∀ s ∈ nameSettings, settingsShape.at? s.place = some namesShape := by
      simp only [nameSettings, List.forall_mem_cons]
      exact ⟨rfl, rfl, rfl, rfl, rfl, rfl, by simp⟩
    exact fun s hs => Setting.exists_given hd (hplace s hs) fun x => exists_names
  have hplace : settingsShape.at? moduleSetting.place = some (.list ruleShape) := rfl
  obtain ⟨modules, hmodules⟩ : ∃ v, moduleSetting.Given Datum.SaysRules base d v :=
    Setting.exists_given hd hplace fun x => exists_rules
  simp only [countSettings, List.forall_mem_cons] at hcounts
  simp only [textSettings, List.forall_mem_cons] at htexts
  simp only [flagSettings, List.forall_mem_cons] at hflags
  simp only [nameSettings, List.forall_mem_cons] at hnames
  obtain ⟨⟨dependency, hdependency⟩, ⟨dependent, hdependent⟩, ⟨complexity, hcomplexity⟩, ⟨size, hsize⟩,
    ⟨workers, hworkers⟩, ⟨ttl, httl⟩, -⟩ := hcounts
  obtain ⟨⟨tag, htag⟩, ⟨policy, hpolicy⟩, ⟨dir, hdir⟩, ⟨format, hformat⟩, -⟩ := htexts
  obtain ⟨⟨gitignore, hgitignore⟩, ⟨enabled, henabled⟩, ⟨color, hcolor⟩, -⟩ := hflags
  obtain ⟨⟨globals, hglobals⟩, ⟨platform, hplatform⟩, ⟨extensions, hextensions⟩, ⟨globs, hglobs⟩,
    ⟨dirs, hdirs⟩, ⟨patterns, hpatterns⟩, -⟩ := hnames
  refine ⟨⟨⟨dependency, dependent, complexity⟩, ⟨globals, platform⟩, modules, ⟨tag, policy⟩,
    ⟨extensions, globs, size, workers⟩, ⟨dirs, patterns, gitignore⟩, ⟨enabled, dir, ttl⟩, ⟨format, color⟩⟩,
    ?_, ?_, ?_, ?_, hmodules⟩
  · simp only [countSettings, List.forall_mem_cons]
    exact ⟨hdependency, hdependent, hcomplexity, hsize, hworkers, httl, by simp⟩
  · simp only [textSettings, List.forall_mem_cons]
    exact ⟨htag, hpolicy, hdir, hformat, by simp⟩
  · simp only [flagSettings, List.forall_mem_cons]
    exact ⟨hgitignore, henabled, hcolor, by simp⟩
  · simp only [nameSettings, List.forall_mem_cons]
    exact ⟨hglobals, hplatform, hextensions, hglobs, hdirs, hpatterns, by simp⟩

/-- The check of shapes lets dates pass as texts, yet no settings follow a file with such a date. -/
theorem Follows.dateless (h : Follows number base d cfg) : settingsShape.Dateless d := by
  have htext : ∀ s ∈ textSettings, ∀ x shape, d.at? s.place = some x → Shape.Dateless shape x := by
    intro s hs x shape hx
    rw [(h.texts s hs).1 x hx]
    exact Shape.dateless_text
  have hnames : ∀ s ∈ nameSettings, ∀ x, d.at? s.place = some x → namesShape.Dateless x := by
    intro s hs x hx
    exact ((h.names s hs).1 x hx).dateless
  have hmodules : ∀ x, d.field? "modules" = some x → (Shape.list ruleShape).Dateless x := by
    intro x hx
    exact (h.modules.1 x (by simp [moduleSetting, Datum.at?, hx])).dateless
  simp only [textSettings, nameSettings, List.forall_mem_cons] at htext hnames
  obtain ⟨hdefault, hfallback, hdir, hformat, -⟩ := htext
  obtain ⟨hglobals, hplatform, hextensions, hinclude, hdirs, hpatterns, -⟩ := hnames
  have hat : ∀ {group key x y}, d.field? group = some x → x.field? key = some y → d.at? [group, key] = some y := by
    intro group key x y hx hy
    simp [Datum.at?, hx, hy]
  refine Shape.dateless_table ?_
  simp only [List.forall_mem_cons]
  refine ⟨fun x hx => Shape.dateless_table ?_, fun x hx => Shape.dateless_table ?_, hmodules,
    fun x hx => Shape.dateless_table ?_, fun x hx => Shape.dateless_table ?_, fun x hx => Shape.dateless_table ?_,
    fun x hx => Shape.dateless_table ?_, fun x hx => Shape.dateless_table ?_, by simp⟩
  all_goals simp only [List.forall_mem_cons]
  · exact ⟨fun _ _ => Shape.dateless_count, fun _ _ => Shape.dateless_count, fun _ _ => Shape.dateless_count, by simp⟩
  · exact ⟨fun y hy => hglobals y (hat hx hy), fun y hy => hplatform y (hat hx hy), by simp⟩
  · exact ⟨fun y hy => hdefault y _ (hat hx hy), fun y hy => hfallback y _ (hat hx hy), by simp⟩
  · exact ⟨fun y hy => hextensions y (hat hx hy), fun y hy => hinclude y (hat hx hy),
      fun _ _ => Shape.dateless_count, fun _ _ => Shape.dateless_count, by simp⟩
  · exact ⟨fun y hy => hdirs y (hat hx hy), fun y hy => hpatterns y (hat hx hy), fun _ _ => Shape.dateless_bool, by simp⟩
  · exact ⟨fun _ _ => Shape.dateless_bool, fun y hy => hdir y _ (hat hx hy), fun _ _ => Shape.dateless_count, by simp⟩
  · exact ⟨fun y hy => hformat y _ (hat hx hy), fun _ _ => Shape.dateless_bool, by simp⟩

/-! ## Numbers -/

theorem nonneg_of_negativeFault {key : String} {n : Int} (h : negativeFault key n = []) : 0 ≤ n := by
  rw [negativeFault] at h
  split_ifs at h with hn
  exact not_lt.mp hn

theorem nonneg_of_faults (h : cfg.faults = []) : ∀ s ∈ countSettings, 0 ≤ s.value cfg := by
  simp only [faults, List.append_eq_nil_iff, and_assoc] at h
  obtain ⟨hdependency, hdependent, hcomplexity, -, -, -, -, -, -, -, -, -, hsize, hworkers, -, httl, -⟩ := h
  simp only [countSettings, List.forall_mem_cons]
  exact ⟨nonneg_of_negativeFault hdependency, nonneg_of_negativeFault hdependent, nonneg_of_negativeFault hcomplexity,
    nonneg_of_negativeFault hsize, nonneg_of_negativeFault hworkers, nonneg_of_negativeFault httl, by simp⟩

/-- **The numbers are those of the file** if the settings pass their check: one that wraps around, or that
becomes the least, ends below zero. -/
theorem Follows.exact (h : Follows Datum.word? base d cfg) (hrange : d.InRange) (hd : settingsShape.Accepts false d)
    (hfaults : cfg.faults = []) : Follows Datum.integer? base d cfg where
  counts s hs := by
    refine ⟨fun x hx => ?_, (h.counts s hs).2⟩
    exact Datum.integer?_of_word? (hrange.at? hx) (hd.at? (countSettings_shape s hs) hx) ((h.counts s hs).1 x hx)
      (nonneg_of_faults hfaults s hs)
  texts := h.texts
  flags := h.flags
  names := h.names
  modules := h.modules

end Config

end ScriptSplit
