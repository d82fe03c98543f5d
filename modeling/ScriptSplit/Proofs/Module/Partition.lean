import Mathlib
import ScriptSplit.Config.Validation
import ScriptSplit.Module.Classifier
import ScriptSplit.Proofs.Text.Sorted
import ScriptSplit.Report.Types

/-!
# Modules partition the functions

A name is put under one tag, and the tags are those of the rules with the default one. The empty
text stands for a missing tag while tags are found, so no step may lose a function for it or give it
a tag that the table does not have.

* `inheritAt_cases`: what one step of inheritance does; `isTag_of_mem_assignments`: what all do.
* `names_of_mem_modules`: the names under a tag are those of its functions, in registry order.
* `perm_flatMap_filter`: lists by key, taken together, are the whole list.
* **`modules_partitioned`**: the modules of every classifier are a partition.
-/

namespace ScriptSplit

namespace Classifier

/-! ## Tags -/

section Tags

variable (c : Classifier) (functions : List Function)

/-- The tag of a rule, or the text that stands for none. -/
def IsTag (tag : String) : Prop := tag = "" ∨ tag ∈ c.rules.map (·.tag)

theorem isTag_tagOf (name : String) : c.IsTag (c.tagOf name) := by
  unfold tagOf
  split
  · next r hr => exact .inr (List.mem_map_of_mem (List.mem_of_find?_eq_some hr))
  · exact .inl rfl

theorem mem_of_inheritedTag {tags : List String} {f : Function} {tag : String}
    (h : inheritedTag functions tags f = some tag) : tag ∈ tags := by
  obtain ⟨dep, -, h⟩ := List.exists_of_findSome?_eq_some h
  obtain ⟨j, -, h⟩ := Option.bind_eq_some_iff.mp h
  obtain ⟨found, hfound, h⟩ := Option.bind_eq_some_iff.mp h
  split_ifs at h
  cases h
  exact List.mem_of_getElem? hfound

/-- A step of inheritance changes nothing, or it repeats a tag that is there. -/
theorem inheritAt_cases (tags : List String) (p : Function × Nat) :
    inheritAt functions tags p = tags ∨ ∃ tag ∈ tags, inheritAt functions tags p = tags.set p.2 tag := by
  unfold inheritAt
  split
  · split
    · next tag htag => exact .inr ⟨tag, mem_of_inheritedTag functions htag, rfl⟩
    · exact .inl rfl
  · exact .inl rfl

theorem length_inheritAt (tags : List String) (p : Function × Nat) :
    (inheritAt functions tags p).length = tags.length := by
  obtain h | ⟨tag, -, h⟩ := inheritAt_cases functions tags p
  · rw [h]
  · rw [h, List.length_set]

theorem mem_of_mem_inheritAt {tags : List String} {p : Function × Nat} {tag : String}
    (h : tag ∈ inheritAt functions tags p) : tag ∈ tags := by
  obtain heq | ⟨found, hfound, heq⟩ := inheritAt_cases functions tags p
  · rwa [heq] at h
  · rw [heq] at h
    obtain h | rfl := List.mem_or_eq_of_mem_set h
    · exact h
    · exact hfound

theorem length_assignments : (c.assignments functions).length = functions.length := by
  have hdirect : (functions.map fun f => c.tagOf f.name).length = functions.length := List.length_map _
  unfold assignments
  split_ifs
  · refine List.foldlRecOn _ _ (motive := fun tags : List String => tags.length = functions.length) hdirect ?_
    intro tags htags p _
    rw [length_inheritAt, htags]
  · exact hdirect

theorem isTag_of_mem_assignments : ∀ tag ∈ c.assignments functions, c.IsTag tag := by
  have hdirect : ∀ tag ∈ functions.map fun f => c.tagOf f.name, c.IsTag tag := by
    intro tag htag
    obtain ⟨f, -, rfl⟩ := List.mem_map.mp htag
    exact c.isTag_tagOf f.name
  unfold assignments
  split_ifs
  · refine List.foldlRecOn _ _ (motive := fun tags : List String => ∀ tag ∈ tags, c.IsTag tag) hdirect ?_
    intro tags htags p _ tag htag
    exact htags tag (mem_of_mem_inheritAt functions htag)
  · exact hdirect

/-- The functions beside the tags that were found for them. -/
def tagged : List (String × Function) := (c.assignments functions).zip functions

theorem map_snd_tagged : (c.tagged functions).map Prod.snd = functions :=
  List.map_snd_zip (c.length_assignments functions).ge

theorem finalTag_of_mem_tagged {p : String × Function} (h : p ∈ c.tagged functions) :
    c.finalTag p.1 ∈ c.rules.map (·.tag) ∨ c.finalTag p.1 = c.defaultModule := by
  have htag := c.isTag_of_mem_assignments functions p.1 (List.of_mem_zip h).1
  unfold finalTag
  split_ifs with hempty
  · exact .inr rfl
  · exact .inl (htag.resolve_left hempty)

end Tags

/-! ## The table of modules -/

section Table

variable (c : Classifier)

/-- The table before any name is listed. -/
def emptyTable : Dict (List String) :=
  Dict.ofList ((c.rules.map fun r => (r.tag, [])) ++ [(c.defaultModule, [])])

/-- Lists one function under its tag. -/
def listUnder (d : Dict (List String)) (p : String × Function) : Dict (List String) :=
  Dict.put (c.finalTag p.1) ((d.get? (c.finalTag p.1)).getD [] ++ [p.2.name]) d

theorem modules_eq_foldl (functions : List Function) :
    c.modules functions = (c.tagged functions).foldl c.listUnder c.emptyTable := rfl

/-- The names of the functions that go under a tag, in order. -/
def namesUnder (tag : String) (l : List (String × Function)) : List String :=
  (l.filter fun p => c.finalTag p.1 = tag).map (·.2.name)

theorem getD_listUnder (d : Dict (List String)) (p : String × Function) (tag : String) :
    ((c.listUnder d p).get? tag).getD [] = (d.get? tag).getD [] ++ c.namesUnder tag [p] := by
  unfold listUnder namesUnder Dict.get?
  rw [Dict.lookup_put]
  by_cases h : tag = c.finalTag p.1
  · simp [h]
  · simp [h, Ne.symm h]

theorem getD_foldl_listUnder (l : List (String × Function)) (d : Dict (List String)) (tag : String) :
    ((l.foldl c.listUnder d).get? tag).getD [] = (d.get? tag).getD [] ++ c.namesUnder tag l := by
  induction l generalizing d with
  | nil => simp [namesUnder]
  | cons p l ih =>
    have hcons : c.namesUnder tag (p :: l) = c.namesUnder tag [p] ++ c.namesUnder tag l := by
      unfold namesUnder
      rw [← List.map_append, ← List.filter_append]
      rfl
    rw [List.foldl_cons, ih, getD_listUnder, hcons, List.append_assoc]

theorem mem_keys_foldl_listUnder (l : List (String × Function)) (d : Dict (List String)) (tag : String) :
    tag ∈ (l.foldl c.listUnder d).keys ↔ tag ∈ d.keys ∨ ∃ p ∈ l, c.finalTag p.1 = tag := by
  induction l generalizing d with
  | nil => simp
  | cons p l ih =>
    have hstep : tag ∈ (c.listUnder d p).keys ↔ tag = c.finalTag p.1 ∨ tag ∈ d.keys := Dict.mem_keys_put
    rw [List.foldl_cons, ih, hstep, List.exists_mem_cons_iff, eq_comm (a := tag)]
    tauto

theorem getD_emptyTable (tag : String) : (c.emptyTable.get? tag).getD [] = [] := by
  have hvalues : ∀ p ∈ (c.rules.map fun r => (r.tag, ([] : List String))) ++ [(c.defaultModule, [])],
      p.2 = [] := by
    intro p hp
    rcases List.mem_append.mp hp with hp | hp
    · obtain ⟨r, -, rfl⟩ := List.mem_map.mp hp
      rfl
    · rw [List.mem_singleton.mp hp]
  refine List.foldlRecOn (motive := fun d : Dict (List String) => (d.get? tag).getD [] = []) _ _ rfl ?_
  intro d hd p hp
  unfold Dict.get? at hd ⊢
  rw [Dict.lookup_put, hvalues p hp]
  split_ifs
  · rfl
  · exact hd

theorem mem_keys_emptyTable {tag : String} :
    tag ∈ c.emptyTable.keys ↔ tag ∈ c.rules.map (·.tag) ∨ tag = c.defaultModule := by
  unfold emptyTable
  rw [Dict.mem_keys_ofList, List.map_append, List.mem_append, List.map_map]
  simp [Function.comp_def]

variable (functions : List Function)

/-- **The tags of the table** are those of the rules and the default one. -/
theorem mem_keys_modules {tag : String} :
    tag ∈ (c.modules functions).keys ↔ tag ∈ c.rules.map (·.tag) ∨ tag = c.defaultModule := by
  rw [modules_eq_foldl, mem_keys_foldl_listUnder, mem_keys_emptyTable]
  constructor
  · rintro (h | ⟨p, hp, rfl⟩)
    · exact h
    · exact c.finalTag_of_mem_tagged functions hp
  · exact .inl

theorem ordered_modules : (c.modules functions).Ordered := by
  rw [modules_eq_foldl]
  refine List.foldlRecOn _ _ (motive := Dict.Ordered) (Dict.ofList_ordered _) ?_
  intro d hd p _
  exact hd.put _ _

/-- **The names under a tag** are those of its functions, in registry order. -/
theorem names_of_mem_modules {p : String × List String} (h : p ∈ c.modules functions) :
    p.2 = c.namesUnder p.1 (c.tagged functions) := by
  have hget : (c.modules functions).get? p.1 = some p.2 :=
    (c.ordered_modules functions).get?_eq_some_iff.mpr h
  have hnames := c.getD_foldl_listUnder (c.tagged functions) c.emptyTable p.1
  rw [← modules_eq_foldl, hget, getD_emptyTable, List.nil_append] at hnames
  exact hnames

end Table

/-! ## The partition -/

/-- Lists by key, taken together, are the whole list. -/
theorem perm_flatMap_filter {α : Type} (key : α → String) {keys : List String} (hkeys : keys.Nodup)
    {l : List α} (h : ∀ a ∈ l, key a ∈ keys) :
    (keys.flatMap fun k => l.filter fun a => key a = k).Perm l := by
  induction l with
  | nil => simp
  | cons a l ih =>
    obtain ⟨before, after, rfl⟩ := List.append_of_mem (h a List.mem_cons_self)
    have hl := ih fun b hb => h b (List.mem_cons_of_mem a hb)
    have hother : ∀ ks : List String, key a ∉ ks →
        (ks.flatMap fun k => (a :: l).filter fun b => key b = k) =
          ks.flatMap fun k => l.filter fun b => key b = k := by
      intro ks hks
      refine List.flatMap_congr fun k hk => List.filter_cons_of_neg ?_
      simp only [decide_eq_true_eq]
      rintro rfl
      exact hks hk
    have hbefore : key a ∉ before := fun hmem =>
      (List.nodup_append.mp hkeys).2.2 _ hmem _ List.mem_cons_self rfl
    have hafter : key a ∉ after := (List.nodup_cons.mp (List.nodup_append.mp hkeys).2.1).1
    have hself : ((a :: l).filter fun b => key b = key a) = a :: l.filter fun b => key b = key a :=
      List.filter_cons_of_pos (by simp)
    rw [List.flatMap_append, List.flatMap_cons] at hl ⊢
    rw [hother before hbefore, hother after hafter, hself, List.cons_append]
    exact List.perm_middle.trans (hl.cons a)

section Partition

variable (c : Classifier) (functions : List Function)

theorem perm_names_modules :
    ((c.modules functions).flatMap Prod.snd).Perm (functions.map (·.name)) := by
  have hlists : (c.modules functions).flatMap Prod.snd =
      ((c.modules functions).keys.flatMap fun k =>
        (c.tagged functions).filter fun p => c.finalTag p.1 = k).map (·.2.name) := by
    unfold Dict.keys
    rw [List.flatMap_map, List.map_flatMap]
    exact List.flatMap_congr fun p hp => c.names_of_mem_modules functions hp
  have hcover : ∀ p ∈ c.tagged functions, c.finalTag p.1 ∈ (c.modules functions).keys := fun p hp =>
    (c.mem_keys_modules functions).mpr (c.finalTag_of_mem_tagged functions hp)
  have hall := perm_flatMap_filter (fun p : String × Function => c.finalTag p.1)
    (c.ordered_modules functions).nodup hcover
  have hnames : (c.tagged functions).map (·.2.name) = functions.map (·.name) := by
    conv_rhs => rw [← c.map_snd_tagged functions, List.map_map]
    rfl
  rw [hlists, ← hnames]
  exact hall.map _

/-- A name is listed under one tag, if the functions have distinct names. -/
theorem eq_of_mem_modules (hnodup : (functions.map (·.name)).Nodup) {p q : String × List String}
    (hp : p ∈ c.modules functions) (hq : q ∈ c.modules functions) {name : String} (hnp : name ∈ p.2)
    (hnq : name ∈ q.2) : p = q := by
  have hinj : ∀ a ∈ c.tagged functions, ∀ b ∈ c.tagged functions, a.2.name = b.2.name → a = b := by
    have hnames : ((c.tagged functions).map (·.2.name)).Nodup := by
      rw [← c.map_snd_tagged functions, List.map_map] at hnodup
      exact hnodup
    intro a ha b hb hab
    exact List.inj_on_of_nodup_map hnames ha hb hab
  rw [c.names_of_mem_modules functions hp] at hnp
  rw [c.names_of_mem_modules functions hq] at hnq
  obtain ⟨a, ha, rfl⟩ := List.mem_map.mp hnp
  obtain ⟨b, hb, hab⟩ := List.mem_map.mp hnq
  obtain ⟨ha, hta⟩ := List.mem_filter.mp ha
  obtain ⟨hb, htb⟩ := List.mem_filter.mp hb
  rw [hinj b hb a ha hab] at htb
  have hkey : p.1 = q.1 := (of_decide_eq_true hta).symm.trans (of_decide_eq_true htb)
  exact List.inj_on_of_nodup_map (c.ordered_modules functions).nodup hp hq hkey

/-- **Looking a name up** finds its tag, whatever the order of the table. -/
theorem moduleOf?_eq_some_iff (hnodup : (functions.map (·.name)).Nodup) {r : FileReport}
    {table : Dict (Listing String)} (hr : r.modules = some table)
    (htable : table.Perm ((c.modules functions).map fun p => (p.1, some p.2))) {name tag : String} :
    r.moduleOf? name = some tag ↔ ∃ names, (tag, names) ∈ c.modules functions ∧ name ∈ names := by
  have hmem : ∀ p, p ∈ table ↔ ∃ q ∈ c.modules functions, (q.1, some q.2) = p := by
    intro p
    rw [htable.mem_iff, List.mem_map]
  unfold FileReport.moduleOf?
  rw [hr, Option.map_eq_some_iff]
  constructor
  · rintro ⟨p, hp, rfl⟩
    obtain ⟨q, hq, rfl⟩ := (hmem p).mp (List.mem_of_find?_eq_some hp)
    exact ⟨q.2, hq, by simpa [Listing.items] using List.find?_some hp⟩
  · rintro ⟨names, hq, hname⟩
    have hlisted : (tag, some names) ∈ table := (hmem _).mpr ⟨(tag, names), hq, rfl⟩
    cases hfind : ((some table).getD []).find? fun p => p.2.items.contains name with
    | none =>
      have hnone := List.find?_eq_none.mp hfind _ hlisted
      simp [Listing.items, hname] at hnone
    | some p =>
      obtain ⟨q, hq', rfl⟩ := (hmem p).mp (List.mem_of_find?_eq_some hfind)
      have hname' : name ∈ q.2 := by simpa [Listing.items] using List.find?_some hfind
      rw [c.eq_of_mem_modules functions hnodup hq' hq hname' hname]
      exact ⟨_, rfl, rfl⟩

/-- The tags of settings without faults hold the default one. -/
theorem defaultModule_mem_of_valid {cfg : Config} (h : cfg.faults = []) :
    cfg.classification.defaultModule ∈ cfg.modules.items.map (·.tag) := by
  simp only [Config.faults, List.append_eq_nil_iff] at h
  have hmodules : cfg.modules.items.isEmpty = false := by
    by_contra hempty
    rw [Bool.not_eq_false] at hempty
    simp [hempty] at h
  have hfaults : cfg.defaultModuleFaults = [] := by tauto
  unfold Config.defaultModuleFaults at hfaults
  rw [hmodules] at hfaults
  by_contra hout
  simp [hout] at hfaults
  split_ifs at hfaults

/-- What the modules of a classifier say about a list of functions. -/
structure Partitioned (d : Dict (List String)) : Prop where
  /-- The tags are those of the rules with the default one, each once. -/
  tags : d.keys.Nodup ∧ ∀ tag, tag ∈ d.keys ↔ tag ∈ c.rules.map (·.tag) ∨ tag = c.defaultModule
  /-- All lists together hold every name as often as the registry does. -/
  names : (d.flatMap Prod.snd).Perm (functions.map (·.name))
  /-- Every function has one tag, under which the names stand in registry order. -/
  inOrder : ∃ tags : List String, tags.length = functions.length ∧
    ∀ p ∈ d, p.2 = ((tags.zip functions).filter fun q => q.1 = p.1).map (·.2.name)
  /-- Settings without faults have no other tags than the configured ones. -/
  configured : ∀ cfg : Config, c = ofConfig cfg → cfg.faults = [] →
    ∀ tag, tag ∈ d.keys ↔ tag ∈ cfg.modules.items.map (·.tag)
  /-- Where names are distinct, the tag that is found for a name depends on the lists alone and not on
  the order in which the table is gone through; every function is found. -/
  found : (functions.map (·.name)).Nodup → ∀ (r : FileReport) (table : Dict (Listing String)),
    r.modules = some table → table.Perm (d.map fun p => (p.1, some p.2)) → ∀ name,
      (∀ tag, r.moduleOf? name = some tag ↔ ∃ names, (tag, names) ∈ d ∧ name ∈ names) ∧
        ((r.moduleOf? name).isSome ↔ name ∈ functions.map (·.name))

/-- **Modules are a partition** of the functions, for every classifier. -/
theorem modules_partitioned : c.Partitioned functions (c.modules functions) where
  tags := ⟨(c.ordered_modules functions).nodup, fun tag => c.mem_keys_modules functions⟩
  names := c.perm_names_modules functions
  inOrder := by
    refine ⟨(c.assignments functions).map c.finalTag, ?_, fun p hp => ?_⟩
    · rw [List.length_map, length_assignments]
    · rw [c.names_of_mem_modules functions hp, List.zip_map_left, List.filter_map, List.map_map]
      rfl
  configured := by
    intro cfg hc hvalid tag
    have hdefault := defaultModule_mem_of_valid hvalid
    subst hc
    rw [mem_keys_modules]
    constructor
    · rintro (h | rfl)
      · exact h
      · exact hdefault
    · exact .inl
  found := by
    intro hnodup r table hr htable name
    have hfound : ∀ tag, r.moduleOf? name = some tag ↔
        ∃ names, (tag, names) ∈ c.modules functions ∧ name ∈ names := fun tag =>
      c.moduleOf?_eq_some_iff functions hnodup hr htable
    refine ⟨hfound, ?_⟩
    rw [Option.isSome_iff_exists, ← (c.perm_names_modules functions).mem_iff, List.mem_flatMap]
    constructor
    · rintro ⟨tag, htag⟩
      obtain ⟨names, hp, hname⟩ := (hfound tag).mp htag
      exact ⟨(tag, names), hp, hname⟩
    · rintro ⟨p, hp, hname⟩
      exact ⟨p.1, (hfound p.1).mpr ⟨p.2, hp, hname⟩⟩

end Partition

/-- Two modules, and functions without a keyword that go where the ones they call went. -/
def twoModules : Config :=
  { Config.default with
    modules := some [⟨"core", some ["load"]⟩, ⟨"ui", some ["show"]⟩]
    classification := ⟨"core", inheritPolicy⟩ }

/-- Functions that call each other, of which one has a keyword. -/
def callingChain : List Function :=
  [{ Function.bare "open" with dependencies := some ["close", "showAll"] },
   { Function.bare "close" with dependencies := some ["open"] },
   Function.bare "showAll", Function.bare "idle"]

theorem modules_partitioned_callingChain : twoModules.faults = [] ∧
    (callingChain.map (·.name)).Nodup ∧
    (ofConfig twoModules).Partitioned callingChain
      [("core", ["idle"]), ("ui", ["open", "close", "showAll"])] := by
  have hmodules : (ofConfig twoModules).modules callingChain =
      [("core", ["idle"]), ("ui", ["open", "close", "showAll"])] := by decide
  refine ⟨by decide +kernel, by decide, ?_⟩
  rw [← hmodules]
  exact modules_partitioned (ofConfig twoModules) callingChain

end Classifier

end ScriptSplit
