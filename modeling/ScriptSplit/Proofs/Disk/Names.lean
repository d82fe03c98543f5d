import Mathlib
import ScriptSplit.Proofs.Disk.Resolved
import ScriptSplit.Proofs.Text.Sorted

/-!
# Names in a tree

The entries of a directory have names of their own, so that lists of names and the paths that they give
stand for each other. In a tree without links a path of names leads to where the names say.

* `Node.WellNamed`: the entries of every directory have names of their own.
* `Path.Names`, `Path.along`: names that lead down, and the path along them.
* **`Path.rel?_along`**, `Path.along_inj`: a path along names gives the names back.
* **`Disk.find_absolute`**, `Disk.read_absolute`: what is found at a path of names in a tree without links.
-/

namespace ScriptSplit

mutual

/-- The entries of every directory in the tree have names of their own. -/
def Node.WellNamed : Node → Prop
  | .dir entries => (entries.map Prod.fst).Nodup ∧ WellNamedEntries entries
  | _ => True

/-- The entries have names, and the trees below them are well named. -/
def WellNamedEntries : List (String × Node) → Prop
  | [] => True
  | (name, n) :: rest => (Path.IsName name ∧ name ≠ "..") ∧ n.WellNamed ∧ WellNamedEntries rest

end

theorem WellNamedEntries.of_mem {entries : List (String × Node)} (h : WellNamedEntries entries) {name : String}
    {n : Node} (hmem : (name, n) ∈ entries) : (Path.IsName name ∧ name ≠ "..") ∧ n.WellNamed := by
  induction entries with
  | nil => cases hmem
  | cons e rest ih =>
    rw [WellNamedEntries] at h
    rcases List.mem_cons.mp hmem with rfl | hmem
    · exact ⟨h.1, h.2.1⟩
    · exact ih h.2.2 hmem

/-- Every name leads down. -/
def Path.Names (names : List String) : Prop := ∀ s ∈ names, Path.IsName s ∧ s ≠ ".."

/-- Names that lead somewhere in a well named tree lead down, and to a well named tree. -/
theorem Node.WellNamed.names_and {n leaf : Node} (h : n.WellNamed) {below : List String}
    (hfound : n.at? below = some leaf) : Path.Names below ∧ leaf.WellNamed := by
  induction below generalizing n with
  | nil => exact ⟨fun s hs => absurd hs List.not_mem_nil, Option.some.inj hfound ▸ h⟩
  | cons name rest ih =>
    obtain ⟨m, hm, hrest⟩ := Option.bind_eq_some_iff.mp hfound
    cases n with
    | file t => cases hm
    | link target => cases hm
    | dir entries =>
      rw [WellNamed] at h
      obtain ⟨hname, hwell⟩ := h.2.of_mem ((Dict.lookup_eq_some_iff_mem h.1).mp hm)
      obtain ⟨hnames, hleaf⟩ := ih hwell hrest
      exact ⟨List.forall_mem_cons.mpr ⟨hname, hnames⟩, hleaf⟩

theorem Node.WellNamed.names {n leaf : Node} (h : n.WellNamed) {below : List String}
    (hfound : n.at? below = some leaf) : Path.Names below := (h.names_and hfound).1

theorem Node.WellNamed.of_at? {n leaf : Node} (h : n.WellNamed) {below : List String}
    (hfound : n.at? below = some leaf) : leaf.WellNamed := (h.names_and hfound).2

namespace Path

theorem Names.append {names names' : List String} (h : Names names) (h' : Names names') :
    Names (names ++ names') :=
  fun s hs => (List.mem_append.mp hs).elim (h s) (h' s)

theorem names_singleton {name : String} (h : IsName name ∧ name ≠ "..") : Names [name] :=
  fun _ hs => List.mem_singleton.mp hs ▸ h

theorem Names.parts {names : List String} (h : Names names) (hne : names ≠ []) :
    Path.parts ("/".intercalate names) = names :=
  parts_intercalate hne fun s hs => (h s hs).1.2.2

theorem Names.descends {names : List String} (h : Names names) (hne : names ≠ []) :
    Descends ("/".intercalate names) := by
  unfold Descends
  rw [h.parts hne]
  exact h

/-- The path that names lead to from a directory; without names it is the directory as it was given. -/
def along (dir : String) (names : List String) : String :=
  if names = [] then dir else ofSegments (isAbs dir) (segments dir ++ names)

section Along

variable {dir : String} {names : List String} (h : Names names)
include h

theorem along_eq_join (hne : names ≠ []) : along dir names = join dir ("/".intercalate names) := by
  rw [along, if_neg hne, (h.descends hne).join, h.parts hne]

theorem segments_along : segments (along dir names) = segments dir ++ names := by
  unfold along
  split_ifs with hnil
  · rw [hnil, List.append_nil]
  · exact segments_ofSegments (kept_append (kept_segments dir) h)

theorem isAbs_along : isAbs (along dir names) = isAbs dir := by
  unfold along
  split_ifs
  · rfl
  · exact isAbs_ofSegments (kept_append (kept_segments dir) h)

theorem rel?_along (hne : names ≠ []) : rel? dir (along dir names) = some ("/".intercalate names) :=
  rel?_of_below (isAbs_along h) hne (segments_along h)

theorem along_ne (hne : names ≠ []) : along dir names ≠ dir := by
  intro heq
  have hsegments : segments (along dir names) = segments dir ++ names := segments_along h
  rw [heq] at hsegments
  exact hne (List.self_eq_append_right.mp hsegments)

theorem along_inj {names' : List String} (h' : Names names') (heq : along dir names = along dir names') :
    names = names' := by
  have hsegments := congrArg segments heq
  rw [segments_along h, segments_along h'] at hsegments
  exact List.append_cancel_left hsegments

end Along

theorem join_along {dir name : String} {above : List String} (habove : Names above) (hname : IsName name ∧ name ≠ "..") :
    join (along dir above) name = along dir (above ++ [name]) := by
  have hdescends := (names_singleton hname).descends (List.cons_ne_nil name [])
  have hparts := (names_singleton hname).parts (List.cons_ne_nil name [])
  rw [String.intercalate_singleton] at hdescends hparts
  rw [hdescends.join, hparts, isAbs_along habove, segments_along habove, List.append_assoc]
  simp [along]

/-- The extension of a path is that of its last name. -/
theorem ext_along {dir name : String} {above : List String} (h : Names (above ++ [name])) :
    ext (along dir (above ++ [name])) = ext name := by
  have hkept := kept_append (kept_segments dir) h
  have hne : segments dir ++ (above ++ [name]) ≠ [] := by simp
  have hslash : '/' ∉ name.toList := (h name (by simp)).1.2.2
  have hone : parts name = [name] := by
    have hone := (names_singleton (h name (by simp))).parts (List.cons_ne_nil name [])
    rwa [String.intercalate_singleton] at hone
  have hlast : afterLastSlash (along dir (above ++ [name])) = afterLastSlash name := by
    unfold afterLastSlash
    rw [along, if_neg (by simp), parts_ofSegments hkept hne, hone, ← List.append_assoc, ← List.append_assoc]
    simp
  rw [ext, hlast, ext]

end Path

/-- The absolute path of names. -/
def Path.absolute (names : List String) : String := Path.ofSegments true names

section Absolute

variable {names : List String} (h : Path.Names names)
include h

theorem Path.Names.kept : Path.Kept true names.reverse := by
  have hnil : Path.Kept true ([] : List String).reverse := trivial
  exact List.nil_append names ▸ Path.kept_append hnil h

theorem Path.clean_absolute : Path.clean (Path.absolute names) = Path.absolute names := Path.clean_ofSegments h.kept

theorem Path.isAbs_absolute : Path.isAbs (Path.absolute names) = true := Path.isAbs_ofSegments h.kept

theorem Path.segments_absolute : Path.segments (Path.absolute names) = names := Path.segments_ofSegments h.kept

theorem Path.abs_absolute (cwd : String) : Path.abs cwd (Path.absolute names) = Path.absolute names := by
  rw [Path.abs, if_pos (Path.isAbs_absolute h), Path.clean_absolute h]

theorem Path.join_absolute {below : List String} (hbelow : Path.Names below) (hne : below ≠ []) :
    Path.join (Path.absolute names) ("/".intercalate below) = Path.absolute (names ++ below) := by
  rw [(hbelow.descends hne).join, hbelow.parts hne, Path.isAbs_absolute h, Path.segments_absolute h, Path.absolute]

end Absolute

/-- The content of the file that names lead to. -/
def Node.content? (n : Node) (names : List String) : Option Bytes :=
  match n.at? names with
  | some (.file t) => some t
  | _ => none

/-! ## Trees without links -/

/-- A directory is without links if its entries are. -/
theorem Node.linkless_dir {entries : List (String × Node)} (h : ∀ e ∈ entries, e.2.Linkless) :
    (Node.dir entries).Linkless := by
  intro place target hlink
  cases place with
  | nil => cases hlink
  | cons name rest =>
    obtain ⟨n, hn, hrest⟩ := Option.bind_eq_some_iff.mp hlink
    exact h (name, n) (Dict.mem_of_lookup hn) rest target hrest

namespace Disk


section Linkless

variable {d : Disk} {names : List String} (hlinkless : d.root.Linkless) (hnames : Path.Names names) (hne : names ≠ [])
include hnames hne

theorem steps_absolute : d.steps (Path.absolute names) = "" :: names := by
  rw [Path.absolute, d.steps_ofSegments hnames.kept hne]
  rfl

theorem absolute_ne_empty : Path.absolute names ≠ "" := Path.ofSegments_ne_empty hnames.kept hne

include hlinkless

/-- A path of names leads to the place that they say. -/
theorem place_absolute {n : Node} (h : d.root.at? names = some n) (last : LastStep) :
    d.place last (Path.absolute names) = .ok names := by
  obtain ⟨entries, hroot⟩ : ∃ entries, d.root.at? [] = some (.dir entries) :=
    Node.exists_dir_of_append hne (List.nil_append names ▸ h)
  rw [place_eq_walk (absolute_ne_empty hnames hne), steps_absolute hnames hne, walk_stay hroot (.inl rfl)]
  exact walk_to (fun below target => hlinkless _ target) (fun s hs => ⟨(hnames s hs).1.1, (hnames s hs).1.2.1, (hnames s hs).2⟩) h

theorem eq_of_place_absolute {last : LastStep} {place : List String}
    (h : d.place last (Path.absolute names) = .ok place) : place = names := by
  rw [place_eq_walk (absolute_ne_empty hnames hne), steps_absolute hnames hne] at h
  obtain ⟨entries, hroot⟩ := exists_dir_of_walk (List.cons_ne_nil _ _) h
  rw [walk_stay hroot (.inl rfl)] at h
  exact walk_names (fun below target => hlinkless _ target)
    (fun s hs => ⟨(hnames s hs).1.1, (hnames s hs).1.2.1, (hnames s hs).2⟩) h

/-- **What is found at a path of names** is what stands there. -/
theorem find_absolute {n : Node} : d.find .follow (Path.absolute names) = .ok n ↔ d.root.at? names = some n := by
  constructor
  · intro h
    obtain ⟨place, hplace, hn⟩ := find_eq_ok_iff.mp h
    rwa [eq_of_place_absolute hlinkless hnames hne hplace] at hn
  · intro h
    exact find_eq_ok_iff.mpr ⟨names, place_absolute hlinkless hnames hne h .follow, h⟩

theorem isDir_absolute : d.isDir (Path.absolute names) = (d.root.at? names).any Node.isDir := by
  unfold isDir
  cases hfind : d.find .follow (Path.absolute names) with
  | ok n => simp [(find_absolute hlinkless hnames hne).mp hfind]
  | error e =>
    cases hat : d.root.at? names with
    | none => rfl
    | some n =>
      rw [(find_absolute hlinkless hnames hne).mpr hat] at hfind
      cases hfind

theorem read_absolute : (d.read (Path.absolute names)).toOption = d.root.content? names := by
  unfold read Node.content?
  cases hfind : d.find .follow (Path.absolute names) with
  | ok n =>
    rw [(find_absolute hlinkless hnames hne).mp hfind]
    cases n <;> rfl
  | error e =>
    cases hat : d.root.at? names with
    | none => rfl
    | some n =>
      rw [(find_absolute hlinkless hnames hne).mpr hat] at hfind
      cases hfind

end Linkless

end Disk

end ScriptSplit
