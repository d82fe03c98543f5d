import Mathlib
import ScriptSplit.Proofs.Module.Partition

/-!
# Inherited tags are justified

Inheritance goes through the functions once and reads tags that it has written itself, so what a function
inherits depends on the order of the registry, also where functions call each other in a circle. A tag is
written at one place in one step and never changed: the tags at the moment of a step are the final ones of
the places before and the own ones of the places from there on.

* `tagsAfter`: the tags after some steps; `tagsAfter_before`, `tagsAfter_from`: what they are at a place.
* `inheritedTag_eq_some_iff`, `inheritedTag_eq_none_iff`: the first dependency that has a tag.
* `Link`, `Chain`: where a tag comes from, function by function.
* `exists_chain`: every tag that is found has a chain; `exists_tag`: where one has to be found.
* `placed_iff`: a function is listed under the tag that was found for it.
* **`inheritance_justified`**: all this for the modules of a list of functions.
-/

namespace ScriptSplit

namespace Classifier

section Inheritance

variable (c : Classifier) (functions : List Function)

/-- The tags of the rules, by place. -/
def ownTags : List String := functions.map fun f => c.tagOf f.name

/-- The tags after inheritance has gone through the first `n` functions. -/
def tagsAfter (n : Nat) : List String :=
  (functions.zipIdx.take n).foldl (inheritAt functions) (c.ownTags functions)

/-- The name is that of a function which has a tag when inheritance comes to place `n`. -/
def ClassifiedAt (n : Nat) (name : String) : Prop :=
  ∃ (j : Nat) (g : Function), functions[j]? = some g ∧ g.name = name ∧
    ∃ tag, (c.tagsAfter functions n)[j]? = some tag ∧ tag ≠ ""

/-- The function at place `i` matches no rule, and of its dependencies, in the order of their list, the one at
place `j` is the first that has a tag when inheritance comes to place `i`. -/
def Link (i j : Nat) : Prop :=
  ∃ f g : Function, functions[i]? = some f ∧ functions[j]? = some g ∧ c.tagOf f.name = "" ∧
    ∃ before after, f.dependencies.items = before ++ g.name :: after ∧
      (∀ name ∈ before, ¬ c.ClassifiedAt functions i name) ∧ c.ClassifiedAt functions i g.name

/-- Places that pass a tag on, each to the one before it. It comes from a rule at the last of them, and the
others are further and further to the front of the registry. -/
structure Chain (path : List Nat) (tag : String) : Prop where
  linked : path.IsChain (c.Link functions)
  descending : path.dropLast.Pairwise (· > ·)
  ends : ∃ (k : Nat) (g : Function), path.getLast? = some k ∧ functions[k]? = some g ∧ c.tagOf g.name = tag

variable {c functions} {i j n : Nat} {f g : Function} {tag : String}

/-! ## The tags after some steps -/

theorem getElem?_ownTags : (c.ownTags functions)[i]? = functions[i]?.map fun f => c.tagOf f.name :=
  List.getElem?_map

theorem tagsAfter_succ (hf : functions[n]? = some f) :
    c.tagsAfter functions (n + 1) = inheritAt functions (c.tagsAfter functions n) (f, n) := by
  have hstep : functions.zipIdx[n]? = some (f, n) := by
    rw [List.getElem?_zipIdx, hf, Nat.zero_add]
    rfl
  rw [tagsAfter, List.take_add_one, hstep, Option.toList_some, List.foldl_append]
  rfl

theorem tagsAfter_of_length_le (h : functions.length ≤ n) (k : Nat) :
    c.tagsAfter functions (n + k) = c.tagsAfter functions n := by
  have hlength : functions.zipIdx.length ≤ n := by rwa [List.length_zipIdx]
  rw [tagsAfter, tagsAfter, List.take_of_length_le hlength,
    List.take_of_length_le (hlength.trans (Nat.le_add_right n k))]

theorem assignments_eq_tagsAfter (h : c.inherits = true) :
    c.assignments functions = c.tagsAfter functions functions.length := by
  rw [assignments, if_pos h, tagsAfter, List.take_of_length_le (by rw [List.length_zipIdx])]
  rfl

/-- A step writes at its own place only. -/
theorem getElem?_inheritAt_of_ne (tags : List String) (hne : n ≠ j) :
    (inheritAt functions tags (f, n))[j]? = tags[j]? := by
  obtain h | ⟨tag, -, h⟩ := inheritAt_cases functions tags (f, n)
  · rw [h]
  · rw [h, List.getElem?_set_ne hne]

theorem getElem?_tagsAfter_succ_of_ne (hne : n ≠ j) :
    (c.tagsAfter functions (n + 1))[j]? = (c.tagsAfter functions n)[j]? := by
  cases hf : functions[n]? with
  | none => rw [tagsAfter_of_length_le (List.getElem?_eq_none_iff.mp hf)]
  | some f => rw [tagsAfter_succ hf, getElem?_inheritAt_of_ne _ hne]

/-- **Before its step** a place has its own tag. -/
theorem tagsAfter_from (h : n ≤ j) : (c.tagsAfter functions n)[j]? = (c.ownTags functions)[j]? := by
  induction n with
  | zero => rfl
  | succ n ih => rw [getElem?_tagsAfter_succ_of_ne (by omega), ih (by omega)]

/-- **After its step** the tag of a place stays. -/
theorem tagsAfter_before (h : j < n) :
    (c.tagsAfter functions n)[j]? = (c.tagsAfter functions (j + 1))[j]? := by
  induction n with
  | zero => exact absurd h (Nat.not_lt_zero j)
  | succ n ih =>
    obtain rfl | hlt := (Nat.lt_succ_iff.mp h).eq_or_lt
    · rfl
    · rw [getElem?_tagsAfter_succ_of_ne hlt.ne', ih hlt]

/-- The tag of a rule is never lost. -/
theorem getElem?_tagsAfter_of_own (hf : functions[j]? = some f) (hown : c.tagOf f.name ≠ "") (n : Nat) :
    (c.tagsAfter functions n)[j]? = some (c.tagOf f.name) := by
  have hfrom : (c.tagsAfter functions j)[j]? = some (c.tagOf f.name) := by
    rw [tagsAfter_from le_rfl, getElem?_ownTags, hf]
    rfl
  rcases Nat.lt_or_ge j n with hlt | hge
  · rw [tagsAfter_before hlt, tagsAfter_succ hf, inheritAt, hfrom, if_neg (by simpa using hown), hfrom]
  · rw [tagsAfter_from hge, ← tagsAfter_from le_rfl, hfrom]

/-- The step of a function without a tag gives it the one that it inherits. -/
theorem getElem?_tagsAfter_of_inherited (hf : functions[i]? = some f) (hown : c.tagOf f.name = "") :
    (c.tagsAfter functions (i + 1))[i]? =
      some ((inheritedTag functions (c.tagsAfter functions i) f).getD "") := by
  have hfrom : (c.tagsAfter functions i)[i]? = some "" := by
    rw [tagsAfter_from le_rfl, getElem?_ownTags, hf, Option.map_some, hown]
  rw [tagsAfter_succ hf, inheritAt, if_pos hfrom]
  cases inheritedTag functions (c.tagsAfter functions i) f with
  | none => exact hfrom
  | some tag => exact List.getElem?_set_self (List.getElem?_eq_some_iff.mp hfrom).1

/-! ## The first dependency that has a tag -/

theorem eq_of_getElem?_name (hnames : (functions.map (·.name)).Nodup) (hf : functions[i]? = some f)
    (hg : functions[j]? = some g) (h : f.name = g.name) : i = j := by
  have hi : i < (functions.map (·.name)).length := by
    rw [List.length_map]
    exact (List.getElem?_eq_some_iff.mp hf).1
  refine (List.getElem?_inj hi hnames).mp ?_
  rw [List.getElem?_map, List.getElem?_map, hf, hg, Option.map_some, Option.map_some, h]

theorem lastIndexOf_eq_some_iff (hnames : (functions.map (·.name)).Nodup) {name : String} :
    lastIndexOf functions name = some j ↔ ∃ g : Function, functions[j]? = some g ∧ g.name = name := by
  have hmem : ∀ p : Function × Nat, p ∈ functions.zipIdx.reverse ↔ functions[p.2]? = some p.1 := by
    intro p
    rw [List.mem_reverse, List.mem_zipIdx_iff_getElem?]
  unfold lastIndexOf
  rw [Option.map_eq_some_iff]
  constructor
  · rintro ⟨⟨g, k⟩, hfind, rfl⟩
    exact ⟨g, (hmem _).mp (List.mem_of_find?_eq_some hfind), by simpa using List.find?_some hfind⟩
  · rintro ⟨g, hg, rfl⟩
    cases hfind : functions.zipIdx.reverse.find? fun p => p.1.name == g.name with
    | none => simpa using List.find?_eq_none.mp hfind (g, j) ((hmem _).mpr hg)
    | some p =>
      have hp := (hmem p).mp (List.mem_of_find?_eq_some hfind)
      exact ⟨p, rfl, eq_of_getElem?_name hnames hp hg (by simpa using List.find?_some hfind)⟩

variable (hnames : (functions.map (·.name)).Nodup)
include hnames

/-- What a single dependency gives: the tag of its function, if it has one. -/
theorem dependencyTag_eq_some_iff {tags : List String} {dep : String} :
    (do
      let j ← lastIndexOf functions dep
      let tag ← tags[j]?
      if tag = "" then none else some tag) = some tag ↔
      ∃ (j : Nat) (g : Function), functions[j]? = some g ∧ g.name = dep ∧ tags[j]? = some tag ∧ tag ≠ "" := by
  simp only [Option.bind_eq_bind, Option.bind_eq_some_iff, lastIndexOf_eq_some_iff hnames, Option.ite_none_left_eq_some,
    Option.some.injEq]
  constructor
  · rintro ⟨j, ⟨g, hg, hname⟩, tag', htag, hne, rfl⟩
    exact ⟨j, g, hg, hname, htag, hne⟩
  · rintro ⟨j, g, hg, hname, htag, hne⟩
    exact ⟨j, ⟨g, hg, hname⟩, tag, htag, hne, rfl⟩

theorem inheritedTag_eq_some_iff : inheritedTag functions (c.tagsAfter functions n) f = some tag ↔
    ∃ (before after : List String) (j : Nat) (g : Function), f.dependencies.items = before ++ g.name :: after ∧
      (∀ name ∈ before, ¬ c.ClassifiedAt functions n name) ∧
      functions[j]? = some g ∧ (c.tagsAfter functions n)[j]? = some tag ∧ tag ≠ "" := by
  unfold inheritedTag
  rw [List.findSome?_eq_some_iff]
  simp only [Option.eq_none_iff_forall_ne_some, ne_eq, dependencyTag_eq_some_iff hnames]
  constructor
  · rintro ⟨before, dep, after, hsplit, ⟨j, g, hg, rfl, htag, hne⟩, hbefore⟩
    refine ⟨before, after, j, g, hsplit, fun name hname hclassified => ?_, hg, htag, hne⟩
    obtain ⟨k, h, hh, hk, tag', htag', hne'⟩ := hclassified
    exact hbefore name hname tag' ⟨k, h, hh, hk, htag', hne'⟩
  · rintro ⟨before, after, j, g, hsplit, hbefore, hg, htag, hne⟩
    refine ⟨before, g.name, after, hsplit, ⟨j, g, hg, rfl, htag, hne⟩, fun name hname tag' hclassified => ?_⟩
    obtain ⟨k, h, hh, hk, htag', hne'⟩ := hclassified
    exact hbefore name hname ⟨k, h, hh, hk, tag', htag', hne'⟩

theorem inheritedTag_eq_none_iff : inheritedTag functions (c.tagsAfter functions n) f = none ↔
    ∀ name ∈ f.dependencies.items, ¬ c.ClassifiedAt functions n name := by
  unfold inheritedTag
  rw [List.findSome?_eq_none_iff]
  simp only [Option.eq_none_iff_forall_ne_some, ne_eq, dependencyTag_eq_some_iff hnames]
  constructor
  · rintro h name hname ⟨j, g, hg, hj, tag, htag, hne⟩
    exact h name hname tag ⟨j, g, hg, hj, htag, hne⟩
  · rintro h name hname tag ⟨j, g, hg, hj, htag, hne⟩
    exact h name hname ⟨j, g, hg, hj, tag, htag, hne⟩

/-! ## Where a tag comes from -/

omit hnames in
theorem chain_singleton (hf : functions[i]? = some f) : c.Chain functions [i] (c.tagOf f.name) :=
  ⟨List.isChain_singleton i, List.Pairwise.nil, i, f, rfl, hf, rfl⟩

omit hnames in
/-- A chain goes on from a place to one before it, or to one where a rule gives the tag. -/
theorem Chain.cons {rest : List Nat} (hlink : c.Link functions i j) (hchain : c.Chain functions (j :: rest) tag)
    (hlt : rest = [] ∨ j < i) : c.Chain functions (i :: j :: rest) tag where
  linked := List.isChain_cons_cons.mpr ⟨hlink, hchain.linked⟩
  descending := by
    have hdescending := List.isChain_iff_pairwise.mpr hchain.descending
    refine List.isChain_iff_pairwise.mp ?_
    cases rest with
    | nil => exact List.isChain_singleton i
    | cons k rest => exact List.isChain_cons_cons.mpr ⟨hlt.resolve_left (List.cons_ne_nil k rest), hdescending⟩
  ends := by
    rw [List.getLast?_cons_cons]
    exact hchain.ends

/-- **Every tag has a chain**: by induction on the place, since a tag that is inherited comes from a rule or
was inherited further to the front. -/
theorem exists_chain (hf : functions[i]? = some f) (htag : (c.tagsAfter functions (i + 1))[i]? = some tag)
    (hne : tag ≠ "") : ∃ rest, c.Chain functions (i :: rest) tag := by
  induction i using Nat.strong_induction_on generalizing f with
  | _ i ih =>
    by_cases hown : c.tagOf f.name = ""
    · rw [getElem?_tagsAfter_of_inherited hf hown, Option.some_inj] at htag
      have hinherited : inheritedTag functions (c.tagsAfter functions i) f = some tag := by
        cases hsome : inheritedTag functions (c.tagsAfter functions i) f with
        | none =>
          rw [hsome] at htag
          exact absurd htag.symm hne
        | some tag' =>
          rw [hsome] at htag
          exact congrArg some htag
      obtain ⟨before, after, j, g, hsplit, hbefore, hg, hj, -⟩ := (inheritedTag_eq_some_iff hnames).mp hinherited
      have hlink : c.Link functions i j :=
        ⟨f, g, hf, hg, hown, before, after, hsplit, hbefore, j, g, hg, rfl, tag, hj, hne⟩
      rcases Nat.lt_or_ge j i with hlt | hge
      · rw [tagsAfter_before hlt] at hj
        obtain ⟨rest, hchain⟩ := ih j hlt hg hj
        exact ⟨j :: rest, hchain.cons hlink (.inr hlt)⟩
      · rw [tagsAfter_from hge, getElem?_ownTags, hg, Option.map_some, Option.some_inj] at hj
        exact ⟨[j], (hj ▸ chain_singleton hg : c.Chain functions [j] tag).cons hlink (.inl rfl)⟩
    · rw [getElem?_tagsAfter_of_own hf hown, Option.some_inj] at htag
      exact ⟨[], htag ▸ chain_singleton hf⟩

/-- A function that calls one with a tag of its own inherits some tag. -/
theorem exists_tag (hf : functions[i]? = some f) (hown : c.tagOf f.name = "") (hg : g ∈ functions)
    (hcalls : g.name ∈ f.dependencies.items) (hrule : c.tagOf g.name ≠ "") :
    ∃ tag, (c.tagsAfter functions (i + 1))[i]? = some tag ∧ tag ≠ "" := by
  obtain ⟨j, hj⟩ := List.mem_iff_getElem?.mp hg
  refine ⟨_, getElem?_tagsAfter_of_inherited hf hown, ?_⟩
  cases hsome : inheritedTag functions (c.tagsAfter functions i) f with
  | none =>
    exact absurd ⟨j, g, hj, rfl, _, getElem?_tagsAfter_of_own hj hrule i, hrule⟩
      ((inheritedTag_eq_none_iff hnames).mp hsome g.name hcalls)
  | some tag =>
    obtain ⟨-, -, -, -, -, -, -, -, hne⟩ := (inheritedTag_eq_some_iff hnames).mp hsome
    exact hne

omit hnames in
theorem mem_tagged_iff : (tag, f) ∈ c.tagged functions ↔
    ∃ i : Nat, (c.assignments functions)[i]? = some tag ∧ functions[i]? = some f := by
  rw [tagged, List.mem_iff_getElem?]
  exact exists_congr fun i => List.getElem?_zip_eq_some

theorem mem_namesUnder_iff (hf : functions[i]? = some f) :
    f.name ∈ c.namesUnder tag (c.tagged functions) ↔
      ∃ found, (c.assignments functions)[i]? = some found ∧ tag = c.finalTag found := by
  rw [namesUnder, List.mem_map]
  constructor
  · rintro ⟨⟨found, g⟩, hmem, hname⟩
    obtain ⟨hmem, hfinal⟩ := List.mem_filter.mp hmem
    obtain ⟨j, hfound, hg⟩ := mem_tagged_iff.mp hmem
    obtain rfl := eq_of_getElem?_name hnames hg hf hname
    exact ⟨found, hfound, (of_decide_eq_true hfinal).symm⟩
  · rintro ⟨found, hfound, rfl⟩
    exact ⟨(found, f), List.mem_filter.mpr ⟨mem_tagged_iff.mpr ⟨i, hfound, hf⟩, decide_eq_true rfl⟩, rfl⟩

/-- A function is listed under the tag that was found for it. -/
theorem placed_iff (hf : functions[i]? = some f) :
    (∃ names, (tag, names) ∈ c.modules functions ∧ f.name ∈ names) ↔
      ∃ found, (c.assignments functions)[i]? = some found ∧ tag = c.finalTag found := by
  have hnames_eq : ∀ names, (tag, names) ∈ c.modules functions → names = c.namesUnder tag (c.tagged functions) :=
    fun names h => c.names_of_mem_modules functions h
  rw [← mem_namesUnder_iff hnames hf]
  constructor
  · rintro ⟨names, hmem, hname⟩
    rwa [hnames_eq names hmem] at hname
  · intro hname
    have hkey : tag ∈ (c.modules functions).keys := by
      obtain ⟨p, hp, -⟩ := List.mem_map.mp hname
      obtain ⟨hp, hfinal⟩ := List.mem_filter.mp hp
      rw [mem_keys_modules, ← of_decide_eq_true hfinal]
      exact c.finalTag_of_mem_tagged functions hp
    obtain ⟨⟨_, names⟩, hp, rfl⟩ := List.mem_map.mp hkey
    exact ⟨names, hp, by rwa [hnames_eq names hp]⟩

/-- **Inherited tags are justified.** With inheritance, a function is listed under the tag that was found for
it, and a tag that is not empty was found by a chain of functions, each of which is the first dependency of
the one before it that had a tag at that moment, up to a function whose rule gives the tag. A function without
a rule that calls one with a rule gets a tag. None of this needs the calls to be free of circles. -/
theorem inheritance_justified (hinherits : c.inherits = true) :
    (∀ (i : Nat) (f : Function) (tag : String), functions[i]? = some f →
      ((∃ names, (tag, names) ∈ c.modules functions ∧ f.name ∈ names) ↔
        ∃ found, (c.assignments functions)[i]? = some found ∧ tag = c.finalTag found)) ∧
    (∀ (i : Nat) (tag : String), (c.assignments functions)[i]? = some tag → tag ≠ "" →
      ∃ rest, c.Chain functions (i :: rest) tag) ∧
    (∀ (i : Nat) (f : Function), functions[i]? = some f → c.tagOf f.name = "" →
      (∃ g ∈ functions, g.name ∈ f.dependencies.items ∧ c.tagOf g.name ≠ "") →
      ∃ tag, (c.assignments functions)[i]? = some tag ∧ tag ≠ "") := by
  have hfinal : ∀ i f, functions[i]? = some f →
      (c.assignments functions)[i]? = (c.tagsAfter functions (i + 1))[i]? := by
    intro i f hf
    rw [assignments_eq_tagsAfter hinherits, tagsAfter_before (List.getElem?_eq_some_iff.mp hf).1]
  refine ⟨fun i f tag hf => placed_iff hnames hf, fun i tag htag hne => ?_, fun i f hf hown hcalls => ?_⟩
  · have hi : i < functions.length := by
      rw [← c.length_assignments functions]
      exact (List.getElem?_eq_some_iff.mp htag).1
    have hf := List.getElem?_eq_getElem hi
    rw [hfinal i _ hf] at htag
    exact exists_chain hnames hf htag hne
  · obtain ⟨g, hg, hcall, hrule⟩ := hcalls
    rw [hfinal i f hf]
    exact exists_tag hnames hf hown hg hcall hrule

end Inheritance

theorem inheritance_justified_callingChain : (callingChain.map (·.name)).Nodup ∧
    (ofConfig twoModules).inherits = true ∧
    (∃ names, ("ui", names) ∈ (ofConfig twoModules).modules callingChain ∧ "close" ∈ names) ∧
    ∃ rest, (ofConfig twoModules).Chain callingChain (1 :: rest) "ui" := by
  have hnames : (callingChain.map (·.name)).Nodup := by decide
  have hinherits : (ofConfig twoModules).inherits = true := by decide
  have htag : ((ofConfig twoModules).assignments callingChain)[1]? = some "ui" := by decide
  obtain ⟨placed, chained, -⟩ := inheritance_justified hnames hinherits
  refine ⟨hnames, hinherits, (placed 1 _ "ui" rfl).mpr ⟨"ui", htag, by decide⟩, ?_⟩
  exact chained 1 "ui" htag (by decide)

end Classifier

end ScriptSplit
