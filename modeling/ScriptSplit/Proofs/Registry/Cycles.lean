import Mathlib
import ScriptSplit.Proofs.Registry.Edges

/-!
# Cycles are strongly connected components

The groups of functions that reach each other are found by a search from every name. The search keeps
a list of names that were seen; whatever a seen name leads to is seen or waits, so at its end the
list is closed and holds all that can be reached.

* `Leads`: one step of the search; **`mem_reachable`**: the search finds all that can be reached.
* `Mutual`: two names that reach each other; `mem_groupOf`: the group of a name.
* `groupOf_eq_of_mutual`: names that reach each other have the same group, so groups do not overlap.
* **`cycles_components`**: the cycles of a text are its components of two functions or more.
-/

namespace ScriptSplit

/-! ## The search -/

section Search

variable {nodes : List String} {next : String → List String}

/-- One name leads to another name among the nodes. -/
def Leads (nodes : List String) (next : String → List String) (x y : String) : Prop :=
  y ∈ next x ∧ y ∈ nodes

/-- Whatever the search collects was seen before or is reached from a name that waits. -/
theorem reachableFrom_sound {seen pending : List String} {y : String}
    (h : y ∈ reachableFrom nodes next seen pending) :
    y ∈ seen ∨ ∃ p ∈ pending, p ∈ nodes ∧ Relation.ReflTransGen (Leads nodes next) p y := by
  fun_induction reachableFrom nodes next seen pending with
  | case1 seen => exact .inl h
  | case2 seen x rest hx ih =>
    rcases ih h with hseen | ⟨p, hp, hnode, hreach⟩
    · rcases List.mem_cons.mp hseen with rfl | hseen
      · exact .inr ⟨y, List.mem_cons_self, hx.1, .refl⟩
      · exact .inl hseen
    · rcases List.mem_append.mp hp with hp | hp
      · exact .inr ⟨x, List.mem_cons_self, hx.1, .head ⟨hp, hnode⟩ hreach⟩
      · exact .inr ⟨p, List.mem_cons_of_mem x hp, hnode, hreach⟩
  | case3 seen x rest hx ih =>
    rcases ih h with hseen | ⟨p, hp, hnode, hreach⟩
    · exact .inl hseen
    · exact .inr ⟨p, List.mem_cons_of_mem x hp, hnode, hreach⟩

/-- The search forgets nothing, and visits every node that waits. -/
theorem mem_reachableFrom {seen pending : List String} {y : String}
    (h : y ∈ seen ∨ y ∈ pending ∧ y ∈ nodes) : y ∈ reachableFrom nodes next seen pending := by
  fun_induction reachableFrom nodes next seen pending with
  | case1 seen =>
    rcases h with h | ⟨h, -⟩
    · exact h
    · exact absurd h List.not_mem_nil
  | case2 seen x rest hx ih =>
    apply ih
    rcases h with h | ⟨h, hnode⟩
    · exact .inl (List.mem_cons_of_mem x h)
    · rcases List.mem_cons.mp h with rfl | h
      · exact .inl List.mem_cons_self
      · exact .inr ⟨List.mem_append_right _ h, hnode⟩
  | case3 seen x rest hx ih =>
    apply ih
    rcases h with h | ⟨h, hnode⟩
    · exact .inl h
    · rcases List.mem_cons.mp h with rfl | h
      · exact .inl (by_contra fun hseen => hx ⟨hnode, hseen⟩)
      · exact .inr ⟨h, hnode⟩

/-- What a seen name leads to is seen or waits; the search keeps this up until nothing waits. -/
theorem reachableFrom_closed {seen pending : List String}
    (h : ∀ x ∈ seen, ∀ y, Leads nodes next x y → y ∈ seen ∨ y ∈ pending) {x y : String}
    (hx : x ∈ reachableFrom nodes next seen pending) (hxy : Leads nodes next x y) :
    y ∈ reachableFrom nodes next seen pending := by
  fun_induction reachableFrom nodes next seen pending with
  | case1 seen =>
    rcases h x hx y hxy with hy | hy
    · exact hy
    · exact absurd hy List.not_mem_nil
  | case2 seen z rest hz ih =>
    refine ih (fun x' hx' y' hxy' => ?_) hx
    rcases List.mem_cons.mp hx' with rfl | hx'
    · exact .inr (List.mem_append_left _ hxy'.1)
    · rcases h x' hx' y' hxy' with hy | hy
      · exact .inl (List.mem_cons_of_mem z hy)
      · rcases List.mem_cons.mp hy with rfl | hy
        · exact .inl List.mem_cons_self
        · exact .inr (List.mem_append_right _ hy)
  | case3 seen z rest hz ih =>
    refine ih (fun x' hx' y' hxy' => ?_) hx
    rcases h x' hx' y' hxy' with hy | hy
    · exact .inl hy
    · rcases List.mem_cons.mp hy with rfl | hy
      · exact .inl (by_contra fun hseen => hz ⟨hxy'.2, hseen⟩)
      · exact .inr hy

/-- **The search finds all that can be reached**, and nothing else. -/
theorem mem_reachable {x y : String} :
    y ∈ reachable nodes next x ↔ Relation.TransGen (Leads nodes next) x y := by
  unfold reachable
  constructor
  · intro h
    rcases reachableFrom_sound h with h | ⟨p, hp, hnode, hreach⟩
    · exact absurd h List.not_mem_nil
    · exact .head' ⟨hp, hnode⟩ hreach
  · intro h
    induction h with
    | single hxy => exact mem_reachableFrom (.inr hxy)
    | tail _ hyz ih =>
      exact reachableFrom_closed (fun x hx => absurd hx List.not_mem_nil) ih hyz

end Search

/-! ## Groups -/

section Groups

variable (nodes : List String) (next : String → List String)

/-- Each of two names reaches the other. -/
def Mutual (x y : String) : Prop :=
  Relation.ReflTransGen (Leads nodes next) x y ∧ Relation.ReflTransGen (Leads nodes next) y x

variable {nodes next}

theorem Mutual.symm {x y : String} (h : Mutual nodes next x y) : Mutual nodes next y x := ⟨h.2, h.1⟩

theorem Mutual.trans {x y z : String} (hxy : Mutual nodes next x y) (hyz : Mutual nodes next y z) :
    Mutual nodes next x z := ⟨hxy.1.trans hyz.1, hyz.2.trans hxy.2⟩

variable (nodes next)

/-- What each node reaches, by node. -/
def reachTable : List (String × List String) :=
  (sortStrings nodes).map fun x => (x, reachable nodes next x)

/-- The table says that one name reaches another. -/
def tableLeads (x y : String) : Bool := (((reachTable nodes next).lookup x).getD []).contains y

/-- The nodes that reach a name and are reached from it, in order. -/
def groupOf (x : String) : List String :=
  (sortStrings nodes).filter fun y => y == x || (tableLeads nodes next x y && tableLeads nodes next y x)

theorem cycleGroups_eq : cycleGroups nodes next = (sortStrings nodes).filterMap fun x =>
    if (groupOf nodes next x).head? == some x && 2 ≤ (groupOf nodes next x).length then
      some (groupOf nodes next x) else none := rfl

variable {nodes next}

theorem tableLeads_iff {x y : String} (hx : x ∈ nodes) :
    tableLeads nodes next x y = true ↔ Relation.TransGen (Leads nodes next) x y := by
  unfold tableLeads reachTable
  rw [List.lookup_graph _ (mem_sortStrings.mpr hx), Option.getD_some, List.contains_iff_mem, mem_reachable]

theorem mem_groupOf {x y : String} (hx : x ∈ nodes) :
    y ∈ groupOf nodes next x ↔ y ∈ nodes ∧ Mutual nodes next x y := by
  unfold groupOf Mutual
  rw [List.mem_filter, mem_sortStrings]
  refine and_congr_right fun hy => ?_
  rw [Bool.or_eq_true, Bool.and_eq_true, tableLeads_iff hx, tableLeads_iff hy, beq_iff_eq,
    Relation.reflTransGen_iff_eq_or_transGen, Relation.reflTransGen_iff_eq_or_transGen]
  constructor
  · rintro (rfl | ⟨hxy, hyx⟩)
    · exact ⟨.inl rfl, .inl rfl⟩
    · exact ⟨.inr hxy, .inr hyx⟩
  · rintro ⟨hxy | hxy, hyx⟩
    · exact .inl hxy
    · rcases hyx with hyx | hyx
      · exact .inl hyx.symm
      · exact .inr ⟨hxy, hyx⟩

theorem self_mem_groupOf {x : String} (hx : x ∈ nodes) : x ∈ groupOf nodes next x :=
  (mem_groupOf hx).mpr ⟨hx, .refl, .refl⟩

theorem groupOf_strict (hnodes : nodes.Nodup) (x : String) :
    (groupOf nodes next x).Pairwise (· < ·) := (sortStrings_strict hnodes).filter _

/-- Names that reach each other have the same group. -/
theorem groupOf_eq_of_mutual (hnodes : nodes.Nodup) {x y : String} (hx : x ∈ nodes) (hy : y ∈ nodes)
    (h : Mutual nodes next x y) : groupOf nodes next x = groupOf nodes next y := by
  refine (groupOf_strict hnodes x).eq_of_mem_iff (groupOf_strict hnodes y) fun z => ?_
  rw [mem_groupOf hx, mem_groupOf hy]
  exact and_congr_right fun _ => ⟨h.symm.trans, h.trans⟩

/-- A group of the list is the group of its first name. -/
theorem mem_cycleGroups {g : List String} : g ∈ cycleGroups nodes next ↔
    ∃ x ∈ nodes, g = groupOf nodes next x ∧ g.head? = some x ∧ 2 ≤ g.length := by
  rw [cycleGroups_eq, List.mem_filterMap]
  constructor
  · rintro ⟨x, hx, hg⟩
    split_ifs at hg with hkept
    cases hg
    simp only [Bool.and_eq_true, beq_iff_eq, decide_eq_true_eq] at hkept
    exact ⟨x, mem_sortStrings.mp hx, rfl, hkept⟩
  · rintro ⟨x, hx, rfl, hhead, hlength⟩
    refine ⟨x, mem_sortStrings.mpr hx, if_pos ?_⟩
    simp [hhead, hlength]

/-- **The groups stand in the order of their first names.** -/
theorem cycleGroups_ordered (hnodes : nodes.Nodup) : (cycleGroups nodes next).Pairwise fun g h =>
    ∃ x y, g.head? = some x ∧ h.head? = some y ∧ x < y := by
  rw [cycleGroups_eq, List.pairwise_filterMap]
  refine (sortStrings_strict hnodes).imp fun {x y} hxy g hg h hh => ?_
  split_ifs at hg hh with hx hy
  cases hg
  cases hh
  simp only [Bool.and_eq_true, beq_iff_eq] at hx hy
  exact ⟨x, y, hx.1, hy.1, hxy⟩

/-- **Groups do not overlap.** -/
theorem cycleGroups_disjoint (hnodes : nodes.Nodup) :
    (cycleGroups nodes next).Pairwise List.Disjoint := by
  have hordered : (cycleGroups nodes next).Pairwise _ := cycleGroups_ordered hnodes
  refine (List.Pairwise.and_mem.mp hordered).imp ?_
  rintro g h ⟨hg, hh, x, y, hgx, hhy, hxy⟩ z hzg hzh
  obtain ⟨x', hx', rfl, hhead, -⟩ := mem_cycleGroups.mp hg
  obtain ⟨y', hy', rfl, hhead', -⟩ := mem_cycleGroups.mp hh
  have hxy' : Mutual nodes next x' y' :=
    ((mem_groupOf hx').mp hzg).2.trans ((mem_groupOf hy').mp hzh).2.symm
  rw [groupOf_eq_of_mutual hnodes hx' hy' hxy', hhy] at hgx
  cases hgx
  exact String.lt_irrefl _ hxy

/-- **Two nodes are in one group exactly if each reaches the other.** -/
theorem exists_cycleGroup_iff (hnodes : nodes.Nodup) {a b : String} (ha : a ∈ nodes) (hb : b ∈ nodes)
    (hab : a ≠ b) : (∃ g ∈ cycleGroups nodes next, a ∈ g ∧ b ∈ g) ↔ Mutual nodes next a b := by
  constructor
  · rintro ⟨g, hg, hag, hbg⟩
    obtain ⟨x, hx, rfl, -, -⟩ := mem_cycleGroups.mp hg
    exact ((mem_groupOf hx).mp hag).2.symm.trans ((mem_groupOf hx).mp hbg).2
  · intro h
    have haa : a ∈ groupOf nodes next a := self_mem_groupOf ha
    have hba : b ∈ groupOf nodes next a := (mem_groupOf ha).mpr ⟨hb, h⟩
    obtain ⟨x, hhead⟩ : ∃ x, (groupOf nodes next a).head? = some x :=
      Option.isSome_iff_exists.mp (List.isSome_head?.mpr (List.ne_nil_of_mem haa))
    -- the group is listed under its first name
    obtain ⟨hx, hax⟩ := (mem_groupOf ha).mp (List.mem_of_mem_head? hhead)
    have hgroup := groupOf_eq_of_mutual hnodes ha hx hax
    have hlength : 2 ≤ (groupOf nodes next a).length := by
      have hpair : [a, b] ⊆ groupOf nodes next a := by simp [haa, hba]
      exact (List.subperm_of_subset (by simp [hab]) hpair).length_le
    exact ⟨groupOf nodes next a, mem_cycleGroups.mpr ⟨x, hx, hgroup, hhead, hlength⟩, haa, hba⟩

end Groups

/-! ## The cycles of a text -/

namespace Dependencies

open Script

/-- One function depends on another. -/
def DependsOn (d : Dependencies) (x y : String) : Prop :=
  ∃ f ∈ d.functions, f.name = x ∧ y ∈ f.dependencies.items

/-- The cycles of a registry are its strongly connected components of two functions or more. -/
structure Components (d : Dependencies) : Prop where
  members : ∀ g ∈ d.cycles, ∀ x ∈ g, x ∈ d.functions.map (·.name)
  /-- A group has at least two names, in increasing order of bytes. -/
  groups : ∀ g ∈ d.cycles,
    2 ≤ g.length ∧ g.Pairwise (fun x y => Bytes.ofString x < Bytes.ofString y)
  disjoint : d.cycles.Pairwise List.Disjoint
  /-- The groups are ordered by their first names. -/
  ordered : d.cycles.Pairwise fun g h =>
    ∃ x y, g.head? = some x ∧ h.head? = some y ∧ Bytes.ofString x < Bytes.ofString y
  /-- Two functions are in one group exactly if each reaches the other along dependencies. -/
  together : ∀ (i j : Nat) (a b : Function), d.functions[i]? = some a → d.functions[j]? = some b →
    i ≠ j → ((∃ g ∈ d.cycles, a.name ∈ g ∧ b.name ∈ g) ↔
      Relation.ReflTransGen d.DependsOn a.name b.name ∧ Relation.ReflTransGen d.DependsOn b.name a.name)

/-- The names that a name depends on. -/
def nextNames (all : List Scored) (x : String) : List String :=
  match (ofScored all).functions.find? (·.name == x) with
  | some f => f.dependencies.items
  | none => []

theorem cycles_ofScored (all : List Scored) : (ofScored all).cycles =
    cycleGroups (all.map (·.function.name)) (nextNames all) := rfl

section Registry

variable {all : List Scored} (hall : (all.map (·.function.name)).Nodup)
include hall

theorem find?_functions {f : Function} (hf : f ∈ (ofScored all).functions) :
    (ofScored all).functions.find? (·.name == f.name) = some f := by
  cases hfind : (ofScored all).functions.find? (·.name == f.name) with
  | none =>
    have hnone := List.find?_eq_none.mp hfind f hf
    simp at hnone
  | some g =>
    have hname : g.name = f.name := by simpa using List.find?_some hfind
    rw [List.inj_on_of_nodup_map (functions_nodup hall) (List.mem_of_find?_eq_some hfind) hf hname]

/-- A step of the search is a dependency. -/
theorem leads_eq_dependsOn :
    Leads (all.map (·.function.name)) (nextNames all) = (ofScored all).DependsOn := by
  ext x y
  constructor
  · rintro ⟨hy, -⟩
    unfold nextNames at hy
    split at hy
    · next f hf =>
      exact ⟨f, List.mem_of_find?_eq_some hf, by simpa using List.find?_some hf, hy⟩
    · exact absurd hy List.not_mem_nil
  · rintro ⟨f, hf, rfl, hy⟩
    constructor
    · unfold nextNames
      rw [find?_functions hall hf]
      exact hy
    · obtain ⟨names, hnames, -, hregistry, -⟩ := (listsOthers_ofScored hall hf).1
      rw [hnames] at hy
      rw [← names_ofScored]
      exact hregistry y hy

theorem components_ofScored : Components (ofScored all) where
  members := by
    intro g hg x hx
    rw [cycles_ofScored] at hg
    obtain ⟨y, hy, rfl, -, -⟩ := mem_cycleGroups.mp hg
    rw [names_ofScored]
    exact ((mem_groupOf hy).mp hx).1
  groups := by
    intro g hg
    rw [cycles_ofScored] at hg
    obtain ⟨y, hy, rfl, -, hlength⟩ := mem_cycleGroups.mp hg
    exact ⟨hlength, (groupOf_strict hall y).imp Bytes.ofString_lt_iff.mpr⟩
  disjoint := cycleGroups_disjoint hall
  ordered := by
    refine (cycleGroups_ordered hall).imp ?_
    rintro g h ⟨x, y, hx, hy, hxy⟩
    exact ⟨x, y, hx, hy, Bytes.ofString_lt_iff.mpr hxy⟩
  together := by
    intro i j a b ha hb hij
    have hmem : ∀ {k : Nat} {f : Function}, (ofScored all).functions[k]? = some f →
        f.name ∈ all.map (·.function.name) := by
      intro k f hf
      rw [← names_ofScored]
      exact List.mem_map_of_mem (List.mem_of_getElem? hf)
    have hne : a.name ≠ b.name := fun h => hij ((name_eq_iff hall ha hb).mp h)
    rw [cycles_ofScored, exists_cycleGroup_iff hall (hmem ha) (hmem hb) hne, Mutual,
      leads_eq_dependsOn hall]

end Registry

/-- **The cycles of a text** are the strongly connected components of its dependencies. -/
theorem cycles_components (t : Bytes) (globals patterns : List String) :
    Components (ofOutline t (Outline.ofText t) globals patterns) := by
  have hall : (((Outline.ofText t).entries.map (score t globals patterns)).map
      (·.function.name)).Nodup := by
    rw [names_scored]
    exact entries_nodup t
  exact components_ofScored hall

end Dependencies

end ScriptSplit
