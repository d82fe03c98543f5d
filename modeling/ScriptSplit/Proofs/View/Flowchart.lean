import Mathlib
import ScriptSplit.Proofs.Analysis.Consistency
import ScriptSplit.Proofs.Module.Inheritance
import ScriptSplit.Proofs.Text.Replace
import ScriptSplit.View.Mermaid

/-!
# The flowchart of a report

Nodes are taken from the table of modules, their ids from the places of the functions, and edges from the
names of dependencies. A name without an id is passed over or leaves a blank end, so a chart is whole only
because the modules are a partition of the registry and every dependency is in it.

* `Flowchart`: blocks of nodes, and edges; `Flowchart.text`: its lines.
* `nodeOf?_eq_some_iff`: the id of a function is its place.
* `Charted`: what a list of functions and a table of modules need for a chart.
* `Flowchart.Draws`: a chart shows the functions of a report, each once, with all of their dependencies.
* **`mermaid_draws`**: the text of every report of the analysis is that of such a chart.
-/

namespace ScriptSplit

/-! ## Charts -/

/-- The subgraph of a module: its tag, and its nodes, each an id with a name. -/
structure Block where
  tag : String
  nodes : List (String × String)
  deriving DecidableEq

/-- A flowchart: its blocks, and its edges between ids. -/
structure Flowchart where
  blocks : List Block
  edges : List (String × String)
  deriving DecidableEq

/-- The line that opens a block. -/
def Block.heading (b : Block) : String :=
  "  subgraph m_" ++ chartId b.tag ++ "[\x22" ++ chartLabel b.tag ++ "\x22]"

theorem Block.heading_eq (b : Block) :
    b.heading = "  subgraph m_" ++ chartId b.tag ++ "[\x22" ++ chartLabel b.tag ++ "\x22]" := rfl

/-- The line that declares a node. -/
def nodeLine (node : String × String) : String := "    " ++ node.1 ++ "[\x22" ++ node.2 ++ "\x22]"

/-- The line of an edge. -/
def edgeLine (edge : String × String) : String := "  " ++ edge.1 ++ " --> " ++ edge.2

/-- The lines of a block. -/
def Block.lines (b : Block) : List String := b.heading :: (b.nodes.map nodeLine ++ ["  end"])

theorem join_blocks (blocks : List Block) : String.join ((blocks.flatMap Block.lines).map (· ++ "\n")) =
    String.join (blocks.map fun b => String.join (b.lines.map (· ++ "\n"))) := by
  induction blocks with
  | nil => rfl
  | cons b blocks ih =>
    rw [List.flatMap_cons, List.map_append, String.join_append, ih, List.map_cons, String.join_cons]

namespace Flowchart

/-- The lines of a chart. -/
def lines (c : Flowchart) : List String :=
  "graph LR" :: (c.blocks.flatMap Block.lines ++ c.edges.map edgeLine)

/-- The text of a chart: each of its lines with a newline. -/
def text (c : Flowchart) : String := String.join (c.lines.map (· ++ "\n"))

/-- The nodes of all blocks. -/
def nodes (c : Flowchart) : List (String × String) := c.blocks.flatMap (·.nodes)

end Flowchart

/-! ## Ids and labels -/

/-- The id of the function at a place. -/
def nodeId (i : Nat) : String := "f" ++ toString i

theorem nodeId_injective : Function.Injective nodeId := fun _ _ h =>
  Nat.repr_inj.mp ((String.append_right_inj _).mp h)

theorem newline_not_mem_nodeId (i : Nat) : '\n' ∉ (nodeId i).toList := by
  intro h
  rw [nodeId, String.toList_append, List.mem_append] at h
  obtain h | h := h
  · exact absurd h (by decide)
  · rw [Nat.toString_eq_repr, Nat.repr, String.toList_ofList] at h
    exact absurd (Nat.isDigit_of_mem_toDigits (by decide) (by decide) h) (by decide)

theorem newline_not_mem_chartId (s : String) : '\n' ∉ (chartId s).toList := by
  intro h
  rw [chartId, String.toList_ofList] at h
  obtain ⟨c, -, hc⟩ := List.mem_map.mp h
  split_ifs at hc with hkept
  · subst hc
    exact absurd hkept (by decide)
  · exact absurd hc (by decide)

theorem toList_chartLabel (s : String) :
    (chartLabel s).toList = s.toList.flatMap fun c => if c = '"' then "#quot;".toList else [c] := by
  unfold chartLabel replaceAll
  rw [String.toList_ofList]
  exact replaceChars_singleton '"' _ _

/-- **No label closes its quotes**, and newlines are those of the name. -/
theorem mem_chartLabel {s : String} {c : Char} (h : c ∈ (chartLabel s).toList) :
    c ≠ '"' ∧ (c = '\n' → c ∈ s.toList) := by
  rw [toList_chartLabel] at h
  obtain ⟨x, hx, hc⟩ := List.mem_flatMap.mp h
  split_ifs at hc with hquote
  · constructor
    · rintro rfl
      exact absurd hc (by decide)
    · rintro rfl
      exact absurd hc (by decide)
  · cases List.mem_singleton.mp hc
    exact ⟨hquote, fun _ => hx⟩

/-- A name without quotes is its own label. -/
theorem chartLabel_eq_self {s : String} (h : '"' ∉ s.toList) : chartLabel s = s := by
  have hlist : (chartLabel s).toList = s.toList := by
    rw [toList_chartLabel]
    have hsame : ∀ c ∈ s.toList, (if c = '"' then "#quot;".toList else [c]) = [c] := by
      intro c hc
      rw [if_neg]
      rintro rfl
      exact h hc
    rw [List.flatMap_congr hsame, List.flatMap_singleton']
  exact String.toList_injective hlist

/-! ## Registries -/

/-- The id of a name, blank if no function has it. -/
def idOf (functions : List Function) (name : String) : String := (nodeOf? functions name).getD ""

section Ids

variable {functions : List Function} (hnames : (functions.map (·.name)).Nodup)
include hnames

/-- **The id of a function** is that of its place. -/
theorem nodeOf?_eq_some_iff {name id : String} :
    nodeOf? functions name = some id ↔ ∃ i f, functions[i]? = some f ∧ f.name = name ∧ nodeId i = id := by
  have hplace : nodeOf? functions name = (Classifier.lastIndexOf functions name).map nodeId := by
    unfold nodeOf? Classifier.lastIndexOf
    rw [Option.map_map]
    rfl
  rw [hplace, Option.map_eq_some_iff]
  simp only [Classifier.lastIndexOf_eq_some_iff hnames]
  constructor
  · rintro ⟨i, ⟨f, hf, hname⟩, hid⟩
    exact ⟨i, f, hf, hname, hid⟩
  · rintro ⟨i, f, hf, hname, hid⟩
    exact ⟨i, ⟨f, hf, hname⟩, hid⟩

theorem nodeOf?_of_getElem? {i : Nat} {f : Function} (hf : functions[i]? = some f) :
    nodeOf? functions f.name = some (nodeId i) :=
  (nodeOf?_eq_some_iff hnames).mpr ⟨i, f, hf, rfl, rfl⟩

theorem idOf_of_getElem? {i : Nat} {f : Function} (hf : functions[i]? = some f) :
    idOf functions f.name = nodeId i := by
  rw [idOf, nodeOf?_of_getElem? hnames hf, Option.getD_some]

/-- A name of the registry has an id. -/
theorem nodeOf?_of_mem {name : String} (h : name ∈ functions.map (·.name)) :
    nodeOf? functions name = some (idOf functions name) := by
  obtain ⟨f, hf, rfl⟩ := List.mem_map.mp h
  obtain ⟨i, hi⟩ := List.mem_iff_getElem?.mp hf
  rw [nodeOf?_of_getElem? hnames hi, idOf_of_getElem? hnames hi]

/-- The names with their ids, in registry order. -/
theorem map_idOf_names : (functions.map (·.name)).map (fun name => (idOf functions name, name)) =
    functions.zipIdx.map fun p => (nodeId p.2, p.1.name) := by
  refine List.ext_getElem? fun i => ?_
  rw [List.map_map, List.getElem?_map, List.getElem?_map, List.getElem?_zipIdx]
  cases hf : functions[i]? with
  | none => rfl
  | some f => simp [idOf_of_getElem? hnames hf]

theorem idOf_injOn {x y : String} (hx : x ∈ functions.map (·.name)) (hy : y ∈ functions.map (·.name))
    (h : idOf functions x = idOf functions y) : x = y := by
  obtain ⟨f, hf, rfl⟩ := List.mem_map.mp hx
  obtain ⟨g, hg, rfl⟩ := List.mem_map.mp hy
  obtain ⟨i, hi⟩ := List.mem_iff_getElem?.mp hf
  obtain ⟨j, hj⟩ := List.mem_iff_getElem?.mp hg
  rw [idOf_of_getElem? hnames hi, idOf_of_getElem? hnames hj] at h
  obtain rfl := nodeId_injective h
  rw [Option.some.inj (hi.symm.trans hj)]

end Ids

/-- What a chart needs of a report: its functions have names of their own, which can stand in a line between
quotes, the table of modules is that of a classifier, and dependencies are functions. -/
structure Charted (c : Classifier) (r : FileReport) : Prop where
  names : (r.functions.items.map (·.name)).Nodup
  plain : ∀ f ∈ r.functions.items, '\n' ∉ f.name.toList ∧ '"' ∉ f.name.toList
  modules : r.modules = some ((c.modules r.functions.items).map fun p => (p.1, some p.2))
  dependencies : ∀ f ∈ r.functions.items, f.dependencies.items.Nodup ∧
    ∀ name ∈ f.dependencies.items, name ∈ r.functions.items.map (·.name)
  edges : r.summary.totalEdges = (r.functions.items.map fun f => f.dependencies.items.length).sum

namespace Script

/-- A character of one byte in the name of a declaration is that of a word. -/
theorem isWordByte_of_mem_name {t : Bytes} {d : Declaration} (hd : d ∈ extract t) {c : Char} {b : UInt8}
    (hc : c ∈ d.name.toList) (hb : String.utf8EncodeChar c = [b]) : isWordByte b = true := by
  obtain ⟨i, -, hrun⟩ := (declared_extract hd).run
  refine hrun.word.2 b ?_
  rw [Bytes.ofString_eq]
  exact List.mem_flatMap.mpr ⟨c, hc, by rw [hb]; exact List.mem_singleton_self b⟩

end Script

open Dependencies in
theorem charted_resultOf (cfg : Config) (path : String) (t : Bytes) :
    Charted (Classifier.ofConfig cfg) (resultOf cfg path t).report where
  names := (consistent_resultOf cfg path t).names
  plain := by
    intro f hf
    obtain ⟨e, he, hname, -⟩ := exists_entry cfg path t hf
    obtain ⟨d, hd, rfl⟩ := List.mem_map.mp he
    rw [hname]
    constructor
    · intro hc
      exact absurd (Script.isWordByte_of_mem_name hd hc rfl) (by decide)
    · intro hc
      exact absurd (Script.isWordByte_of_mem_name hd hc rfl) (by decide)
  modules := rfl
  dependencies := by
    intro f hf
    obtain ⟨names, hnames, hsorted, hmem, -⟩ := (listsOthers_ofScored (scoredOf_nodup cfg t) hf).1
    rw [hnames]
    refine ⟨hsorted.imp fun hlt heq => ?_, hmem⟩
    rw [heq] at hlt
    exact absurd (Bytes.ofString_lt_iff.mp hlt) (String.lt_irrefl _)
  edges := (consistent_resultOf cfg path t).edges

/-! ## The chart of a report -/

/-- The module has a function. -/
def isFilled (p : String × Listing String) : Bool := !p.2.items.isEmpty

/-- The modules with a function hold all names. -/
theorem flatMap_filled (modules : Dict (Listing String)) :
    ((modules.filter isFilled).flatMap fun p => p.2.items) = modules.flatMap fun p => p.2.items := by
  induction modules with
  | nil => rfl
  | cons p modules ih =>
    rw [List.flatMap_cons]
    cases hempty : isFilled p with
    | true => rw [List.filter_cons_of_pos hempty, List.flatMap_cons, ih]
    | false =>
      have hnone : p.2.items = [] := by simpa [isFilled] using hempty
      rw [List.filter_cons_of_neg (by simp [hempty]), ih, hnone, List.nil_append]

/-- The block of a module. -/
def Block.ofModule (functions : List Function) (p : String × Listing String) : Block :=
  ⟨p.1, p.2.items.map fun name => (idOf functions name, name)⟩

/-- The chart of a report. -/
def Flowchart.ofReport (r : FileReport) : Flowchart where
  blocks := ((r.modules.getD []).filter isFilled).map (Block.ofModule r.functions.items)
  edges := r.functions.items.flatMap fun f => f.dependencies.items.map fun dep =>
    (idOf r.functions.items f.name, idOf r.functions.items dep)

section Chart

variable {c : Classifier} {r : FileReport} (h : Charted c r)
include h

namespace Charted

theorem getD_modules : r.modules.getD [] = (c.modules r.functions.items).map fun p => (p.1, some p.2) := by
  rw [h.modules, Option.getD_some]

theorem names_perm : ((r.modules.getD []).flatMap fun p => p.2.items).Perm (r.functions.items.map (·.name)) := by
  rw [h.getD_modules, List.flatMap_map]
  exact c.perm_names_modules r.functions.items

/-- The names of a module are those of functions. -/
theorem mem_names {p : String × Listing String} (hp : p ∈ r.modules.getD []) {name : String}
    (hname : name ∈ p.2.items) : name ∈ r.functions.items.map (·.name) :=
  h.names_perm.mem_iff.mp (List.mem_flatMap.mpr ⟨p, hp, hname⟩)

theorem plain_of_mem {name : String} (hname : name ∈ r.functions.items.map (·.name)) :
    '\n' ∉ name.toList ∧ '"' ∉ name.toList := by
  obtain ⟨f, hf, rfl⟩ := List.mem_map.mp hname
  exact h.plain f hf

theorem newline_not_mem_idOf {name : String} (hname : name ∈ r.functions.items.map (·.name)) :
    '\n' ∉ (idOf r.functions.items name).toList := by
  obtain ⟨f, hf, rfl⟩ := List.mem_map.mp hname
  obtain ⟨i, hi⟩ := List.mem_iff_getElem?.mp hf
  rw [idOf_of_getElem? h.names hi]
  exact newline_not_mem_nodeId i

end Charted

/-! ## Its text -/

/-- **The text of a module** is that of its block. -/
theorem chartModule_eq {p : String × Listing String} (hp : p ∈ r.modules.getD []) :
    chartModule r.functions.items p.1 p.2.items =
      String.join ((Block.ofModule r.functions.items p).lines.map (· ++ "\n")) := by
  have hnodes : (p.2.items.filterMap fun name =>
      (nodeOf? r.functions.items name).map fun id => "    " ++ chartNode id name) =
      (Block.ofModule r.functions.items p).nodes.map fun node => nodeLine node ++ "\n" := by
    rw [Block.ofModule, List.map_map, ← List.filterMap_eq_map]
    refine List.filterMap_congr fun name hname => ?_
    have hmem := h.mem_names hp hname
    rw [nodeOf?_of_mem h.names hmem, Option.map_some, chartNode, chartLabel_eq_self (h.plain_of_mem hmem).2]
    simp [nodeLine, String.append_assoc]
  unfold chartModule
  rw [hnodes]
  simp only [Block.lines, Block.heading_eq, Block.ofModule, chartNode, List.map_cons, List.map_append, List.map_map,
    List.map_nil, String.join_cons, String.join_append, String.join_nil, String.append_assoc, String.append_empty]
  rfl

/-- **The text of a report** is that of its chart. -/
theorem mermaid_eq_text : mermaid r = (Flowchart.ofReport r).text := by
  have hblocks : (((r.modules.getD []).filter isFilled).map fun p => chartModule r.functions.items p.1 p.2.items) =
      ((r.modules.getD []).filter isFilled).map fun p =>
        String.join ((Block.ofModule r.functions.items p).lines.map (· ++ "\n")) :=
    List.map_congr_left fun p hp => chartModule_eq h (List.mem_of_mem_filter hp)
  have hedges : (r.functions.items.flatMap fun f => f.dependencies.items.map fun dep =>
      "  " ++ (nodeOf? r.functions.items f.name).getD "" ++ " --> " ++
        (nodeOf? r.functions.items dep).getD "" ++ "\n") =
      (Flowchart.ofReport r).edges.map fun edge => edgeLine edge ++ "\n" := by
    rw [Flowchart.ofReport, List.map_flatMap]
    refine List.flatMap_congr fun f _ => ?_
    rw [List.map_map]
    rfl
  change "graph LR\n" ++ String.join (((r.modules.getD []).filter isFilled).map fun p =>
    chartModule r.functions.items p.1 p.2.items) ++ String.join _ = _
  rw [hblocks, hedges, Flowchart.text, Flowchart.lines, List.map_cons, String.join_cons, List.map_append,
    String.join_append, join_blocks, List.map_map, Flowchart.ofReport, List.map_map, String.append_assoc]
  rfl

/-! ## Its nodes and edges -/

/-- **Every function is declared once**, with the id of its place. -/
theorem nodes_perm : (Flowchart.ofReport r).nodes.Perm
    (r.functions.items.zipIdx.map fun p => (nodeId p.2, p.1.name)) := by
  have hnodes : (Flowchart.ofReport r).nodes =
      ((r.modules.getD []).flatMap fun p => p.2.items).map fun name => (idOf r.functions.items name, name) := by
    rw [← flatMap_filled, Flowchart.nodes, Flowchart.ofReport, List.flatMap_map, List.map_flatMap]
    rfl
  rw [hnodes, ← map_idOf_names h.names]
  exact h.names_perm.map _

theorem ids_nodup : ((Flowchart.ofReport r).nodes.map Prod.fst).Nodup := by
  rw [((nodes_perm h).map Prod.fst).nodup_iff, List.map_map]
  have hplaces : r.functions.items.zipIdx.map (Prod.fst ∘ fun p : Function × Nat => (nodeId p.2, p.1.name)) =
      (List.range r.functions.items.length).map nodeId := by
    rw [List.range_eq_range', ← List.zipIdx_map_snd 0 r.functions.items, List.map_map]
    rfl
  rw [hplaces]
  exact List.nodup_range.map nodeId_injective

/-- The id of a function is declared. -/
theorem idOf_mem_ids {name : String} (hname : name ∈ r.functions.items.map (·.name)) :
    idOf r.functions.items name ∈ (Flowchart.ofReport r).nodes.map Prod.fst := by
  have hnode : (idOf r.functions.items name, name) ∈ (Flowchart.ofReport r).nodes := by
    rw [(nodes_perm h).mem_iff, ← map_idOf_names h.names]
    exact List.mem_map_of_mem hname
  exact List.mem_map_of_mem hnode

/-- An edge goes from a function to one of its dependencies. -/
theorem exists_of_mem_edges {edge : String × String} (hedge : edge ∈ (Flowchart.ofReport r).edges) :
    ∃ f ∈ r.functions.items, ∃ dep ∈ f.dependencies.items, dep ∈ r.functions.items.map (·.name) ∧
      edge = (idOf r.functions.items f.name, idOf r.functions.items dep) := by
  obtain ⟨f, hf, hedge⟩ := List.mem_flatMap.mp hedge
  obtain ⟨dep, hdep, rfl⟩ := List.mem_map.mp hedge
  exact ⟨f, hf, dep, hdep, (h.dependencies f hf).2 dep hdep, rfl⟩

/-- No two edges are the same. -/
theorem edges_nodup : (Flowchart.ofReport r).edges.Nodup := by
  refine List.nodup_flatMap.mpr ⟨fun f hf => ?_, ?_⟩
  · obtain ⟨hnodup, hmem⟩ := h.dependencies f hf
    refine List.Nodup.map_on (fun x hx y hy hxy => ?_) hnodup
    exact idOf_injOn h.names (hmem x hx) (hmem y hy) (Prod.mk.inj hxy).2
  · have hdistinct : r.functions.items.Pairwise fun f g => f.name ≠ g.name := List.pairwise_map.mp h.names
    refine hdistinct.imp_of_mem fun {f g} hf hg hne edge hef heg => ?_
    obtain ⟨x, -, rfl⟩ := List.mem_map.mp hef
    obtain ⟨y, -, hxy⟩ := List.mem_map.mp heg
    exact hne (idOf_injOn h.names (List.mem_map_of_mem hf) (List.mem_map_of_mem hg) (Prod.mk.inj hxy).1.symm)

theorem length_edges : ((Flowchart.ofReport r).edges.length : Int) = r.summary.totalEdges := by
  rw [h.edges, Flowchart.ofReport, List.length_flatMap]
  simp only [List.length_map]

theorem tags_sorted : ((Flowchart.ofReport r).blocks.map (·.tag)).Pairwise (· < ·) := by
  have hordered : ((r.modules.getD []).map Prod.fst).Pairwise (· < ·) := by
    rw [h.getD_modules]
    exact (c.ordered_modules r.functions.items).map some
  have hsub := (List.filter_sublist (p := isFilled) (l := r.modules.getD [])).map Prod.fst
  have htags : (Flowchart.ofReport r).blocks.map (·.tag) = ((r.modules.getD []).filter isFilled).map Prod.fst := by
    rw [Flowchart.ofReport, List.map_map]
    rfl
  rw [htags]
  exact hordered.sublist hsub

/-- **A function is in the block of its module.** -/
theorem exists_block {i : Nat} {f : Function} (hf : r.functions.items[i]? = some f) :
    ∃ tag, (c.assignments r.functions.items)[i]? = some tag ∧ r.moduleOf? f.name = some (c.finalTag tag) ∧
      ∃ b ∈ (Flowchart.ofReport r).blocks, b.tag = c.finalTag tag ∧ (nodeId i, f.name) ∈ b.nodes := by
  obtain ⟨tag, htag⟩ : ∃ tag, (c.assignments r.functions.items)[i]? = some tag := by
    refine ⟨_, List.getElem?_eq_getElem ?_⟩
    rw [c.length_assignments]
    exact (List.getElem?_eq_some_iff.mp hf).1
  have htagged : (tag, f) ∈ c.tagged r.functions.items := by
    refine List.mem_of_getElem? (i := i) ?_
    rw [Classifier.tagged, List.getElem?_zip_eq_some]
    exact ⟨htag, hf⟩
  have hkey : c.finalTag tag ∈ (c.modules r.functions.items).keys :=
    (c.mem_keys_modules _).mpr (c.finalTag_of_mem_tagged _ htagged)
  obtain ⟨⟨key, names⟩, hp, hkey⟩ := List.mem_map.mp hkey
  dsimp only at hkey
  subst hkey
  have hname : f.name ∈ names := by
    have hnames := c.names_of_mem_modules _ hp
    dsimp only at hnames
    rw [hnames]
    exact List.mem_map.mpr ⟨(tag, f), List.mem_filter.mpr ⟨htagged, by simp⟩, rfl⟩
  have hlisted : (c.finalTag tag, some names) ∈ r.modules.getD [] := by
    rw [h.getD_modules]
    exact List.mem_map_of_mem (f := fun p : String × List String => (p.1, some p.2)) hp
  have hfilled : isFilled (c.finalTag tag, some names) = true := by
    simp only [isFilled, Listing.items, Option.getD_some, Bool.not_eq_true', List.isEmpty_eq_false_iff]
    exact List.ne_nil_of_mem hname
  refine ⟨tag, htag, (c.moduleOf?_eq_some_iff _ h.names h.modules (List.Perm.refl _)).mpr ⟨names, hp, hname⟩,
    Block.ofModule r.functions.items (c.finalTag tag, some names), ?_, rfl, ?_⟩
  · exact List.mem_map_of_mem (List.mem_filter.mpr ⟨hlisted, hfilled⟩)
  · rw [← idOf_of_getElem? h.names hf]
    exact List.mem_map_of_mem (f := fun name => (idOf r.functions.items name, name)) hname

/-! ## Its lines -/

/-- The parts of a node are those of a function. -/
theorem newline_not_mem_node {node : String × String} (hnode : node ∈ (Flowchart.ofReport r).nodes) :
    '\n' ∉ node.1.toList ∧ '\n' ∉ node.2.toList := by
  obtain ⟨p, hp, rfl⟩ := List.mem_map.mp ((nodes_perm h).mem_iff.mp hnode)
  exact ⟨newline_not_mem_nodeId p.2, (h.plain p.1 (List.fst_mem_of_mem_zipIdx hp)).1⟩

/-- **Newlines stand between lines**: none has one inside, except for the heading of a tag with a newline. -/
theorem newline_in_line {line : String} (hline : line ∈ (Flowchart.ofReport r).lines) (hnewline : '\n' ∈ line.toList) :
    ∃ b ∈ (Flowchart.ofReport r).blocks, line = b.heading ∧ '\n' ∈ b.tag.toList := by
  rw [Flowchart.lines, List.mem_cons, List.mem_append] at hline
  obtain rfl | hline | hline := hline
  · exact absurd hnewline (by decide)
  · obtain ⟨b, hb, hline⟩ := List.mem_flatMap.mp hline
    rw [Block.lines, List.mem_cons, List.mem_append, List.mem_singleton] at hline
    obtain rfl | hline | rfl := hline
    · refine ⟨b, hb, rfl, ?_⟩
      simp [Block.heading_eq, newline_not_mem_chartId] at hnewline
      exact (mem_chartLabel hnewline).2 rfl
    · obtain ⟨node, hnode, rfl⟩ := List.mem_map.mp hline
      have hplain := newline_not_mem_node h (List.mem_flatMap.mpr ⟨b, hb, hnode⟩)
      simp [nodeLine, hplain] at hnewline
    · exact absurd hnewline (by decide)
  · obtain ⟨edge, hedge, rfl⟩ := List.mem_map.mp hline
    obtain ⟨f, hf, dep, -, hdep, rfl⟩ := exists_of_mem_edges h hedge
    simp [edgeLine, h.newline_not_mem_idOf hdep, h.newline_not_mem_idOf (List.mem_map_of_mem hf)] at hnewline

end Chart

/-- What a chart shows of a report, whose functions a classifier has given to modules. -/
structure Flowchart.Draws (chart : Flowchart) (c : Classifier) (r : FileReport) : Prop where
  text : mermaid r = chart.text
  /-- Lines are ended by newlines; a tag with a newline is the only text with one in a line. -/
  lines : ∀ line ∈ chart.lines, '\n' ∈ line.toList → ∃ b ∈ chart.blocks, line = b.heading ∧ '\n' ∈ b.tag.toList
  /-- Labels end where their quotes do. -/
  labels : (∀ b ∈ chart.blocks, '"' ∉ (chartLabel b.tag).toList) ∧ ∀ node ∈ chart.nodes, '"' ∉ node.2.toList
  sorted : (chart.blocks.map (·.tag)).Pairwise (· < ·)
  /-- There is one block for each module that has a function, with the names of the module. -/
  filled : chart.blocks.map (fun b => (b.tag, b.nodes.map Prod.snd)) =
    ((r.modules.getD []).filter isFilled).map fun p => (p.1, p.2.items)
  /-- Every function is declared once, with the id of its place. -/
  declared : chart.nodes.Perm (r.functions.items.zipIdx.map fun p => (nodeId p.2, p.1.name))
  ids : (chart.nodes.map Prod.fst).Nodup
  /-- A function is declared in the block of its module. -/
  placed : ∀ (i : Nat) (f : Function), r.functions.items[i]? = some f →
    ∃ tag, (c.assignments r.functions.items)[i]? = some tag ∧ r.moduleOf? f.name = some (c.finalTag tag) ∧
      ∃ b ∈ chart.blocks, b.tag = c.finalTag tag ∧ (nodeId i, f.name) ∈ b.nodes
  /-- The edges are the dependencies of the functions, in registry order. -/
  edges : ∃ id : String → String,
    (∀ (i : Nat) (f : Function), r.functions.items[i]? = some f → id f.name = nodeId i) ∧
    chart.edges = r.functions.items.flatMap fun f => f.dependencies.items.map fun dep => (id f.name, id dep)
  edges_nodup : chart.edges.Nodup
  edges_length : chart.edges.length = r.summary.totalEdges
  /-- Both ends of an edge are declared. -/
  ends : ∀ edge ∈ chart.edges, edge.1 ∈ chart.nodes.map Prod.fst ∧ edge.2 ∈ chart.nodes.map Prod.fst

theorem Charted.draws {c : Classifier} {r : FileReport} (h : Charted c r) : (Flowchart.ofReport r).Draws c r where
  text := mermaid_eq_text h
  lines := fun _ hline hnewline => newline_in_line h hline hnewline
  labels := by
    refine ⟨fun b _ hquote => (mem_chartLabel hquote).1 rfl, fun node hnode => ?_⟩
    obtain ⟨p, hp, rfl⟩ := List.mem_map.mp ((nodes_perm h).mem_iff.mp hnode)
    exact (h.plain p.1 (List.fst_mem_of_mem_zipIdx hp)).2
  sorted := tags_sorted h
  filled := by
    rw [Flowchart.ofReport, List.map_map]
    refine List.map_congr_left fun p _ => ?_
    simp [Block.ofModule, Function.comp_def]
  declared := nodes_perm h
  ids := ids_nodup h
  placed := fun _ _ hf => exists_block h hf
  edges := ⟨idOf r.functions.items, fun _ _ hf => idOf_of_getElem? h.names hf, rfl⟩
  edges_nodup := edges_nodup h
  edges_length := length_edges h
  ends := by
    intro edge hedge
    obtain ⟨f, hf, dep, -, hdep, rfl⟩ := exists_of_mem_edges h hedge
    exact ⟨idOf_mem_ids h (List.mem_map_of_mem hf), idOf_mem_ids h hdep⟩

/-- **The text of every report** is a chart of its functions and their dependencies. -/
theorem mermaid_draws {cfg : Config} {path : String} {content : Bytes} {r : FileResult}
    (h : analyze cfg path content = .ok r) :
    ∃ chart : Flowchart, chart.Draws (Classifier.ofConfig cfg) r.report := by
  rw [eq_resultOf_of_analyze h]
  exact ⟨_, (charted_resultOf cfg path content).draws⟩

/-- Two modules, the tag of one of which has a quote. -/
def quotedModule : Config :=
  { Config.default with modules := some [⟨"io \x22fast\x22", some ["load"]⟩, ⟨"core", some ["main"]⟩] }

theorem mermaid_draws_quotedModule :
    let t := Bytes.ofString "function main() \x7b load() \x7d\nfunction load() \x7b\x7d"
    ∃ r, analyze quotedModule "app.js" t = .ok r ∧
      mermaid r.report = "graph LR\n  subgraph m_core[\x22core\x22]\n    f0[\x22main\x22]\n  end\n" ++
        "  subgraph m_io__fast_[\x22io #quot;fast#quot;\x22]\n    f1[\x22load\x22]\n  end\n  f0 --> f1\n" ∧
      ∃ chart : Flowchart, chart.Draws (Classifier.ofConfig quotedModule) r.report := by
  intro t
  have hvalid : Utf8.isValid t = true := by decide +kernel
  have hr : analyze quotedModule "app.js" t = .ok (resultOf quotedModule "app.js" t) := if_pos hvalid
  exact ⟨_, hr, by decide +kernel, mermaid_draws hr⟩

end ScriptSplit
