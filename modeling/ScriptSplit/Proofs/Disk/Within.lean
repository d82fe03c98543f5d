import Mathlib
import ScriptSplit.Disk.Links
import ScriptSplit.Proofs.Disk.Path

/-!
# Paths in a directory

A path lies in a directory if its text goes on after that of the directory and a slash. For clean paths this
says the same as that the names go on, but for the top of all: its path ends with a slash already, and no path
goes on after two of them.

* `Path.pieces`: the names of a path, as they stand between its slashes.
* **`isWithin_iff`**: when a path of names lies in a directory; `isWithin_clean`: paths are compared clean.
* **`isWithin_iff_pieces`**: when an absolute path does; `isWithin_top_iff`: what lies in the top of all.
-/

namespace ScriptSplit

/-! ## The names of a path -/

namespace Path

/-- The texts between the slashes of a path, empty ones left out. -/
def pieces (path : String) : List String := (parts path).filter (· ≠ "")

theorem pieces_append_slash (a b : String) : pieces (a ++ "/" ++ b) = pieces a ++ pieces b := by
  rw [pieces, parts_append_slash, List.filter_append]
  rfl

theorem pieces_top : pieces "/" = [] := by decide

theorem pieces_ofSegments {segs : List String} (h : Kept true segs.reverse) :
    pieces (ofSegments true segs) = segs := by
  by_cases hnil : segs = []
  · rw [hnil]
    exact pieces_top
  · have hfull : ∀ s ∈ segs, decide (s ≠ "") = true := fun s hs =>
      decide_eq_true (isName_of_kept_reverse h s hs).1
    have hparts : parts (ofSegments true segs) = [""] ++ segs := parts_ofSegments h hnil
    rw [pieces, hparts, List.filter_append, List.filter_eq_self.mpr hfull]
    rfl

/-- The names of the cleaned path are the segments that cleaning keeps. -/
theorem pieces_clean {path : String} (habs : isAbs path = true) : pieces (clean path) = segments path := by
  have hkept : Kept true (segments path).reverse := habs ▸ kept_segments path
  rw [clean, habs, pieces_ofSegments hkept]

theorem clean_eq_top_iff {path : String} (habs : isAbs path = true) : clean path = "/" ↔ segments path = [] := by
  constructor
  · intro htop
    rw [← pieces_clean habs, htop, pieces_top]
  · intro hnil
    rw [clean, habs, hnil]
    decide

end Path

/-! ## Names that go on -/

theorem exists_append_of_startsWith {s start : String} (h : s.startsWith start = true) : ∃ t, s = start ++ t := by
  obtain ⟨rest, hrest⟩ := String.startsWith_string_iff.mp h
  refine ⟨String.ofList rest, ?_⟩
  rw [← String.toList_inj, String.toList_append, String.toList_ofList, hrest]

section Within

variable {cwd : String} {names place : List String} (hnames : Path.Kept true names.reverse)
include hnames

/-- Nothing goes on after two slashes: the second text between slashes would be empty. -/
theorem eq_nil_of_append_slash {t : String} (h : Path.ofSegments true names = Path.ofSegments true [] ++ "/" ++ t) :
    names = [] := by
  by_contra hne
  have hparts := congrArg Path.parts h
  rw [Path.parts_append_slash, Path.parts_ofSegments hnames hne] at hparts
  have htop : Path.parts (Path.ofSegments true []) = ["", ""] := by decide
  obtain ⟨first, rest, rfl⟩ := List.exists_cons_of_ne_nil hne
  rw [htop] at hparts
  have hfirst : first = "" := (List.cons.inj (List.cons.inj hparts).2).1
  exact (Path.isName_of_kept_reverse hnames first List.mem_cons_self).1 hfirst

variable (hplace : Path.Kept true place.reverse)
include hplace

/-- **A path of names lies in a directory** if its names go on after those of the directory. In the top of all
lies only the top. -/
theorem isWithin_iff : isWithin cwd (Path.ofSegments true names) (Path.ofSegments true place) = true ↔
    place <+: names ∧ (place = [] → names = []) := by
  have habs : Path.abs cwd (Path.ofSegments true names) = Path.ofSegments true names := by
    rw [Path.abs, if_pos (Path.isAbs_ofSegments hnames), Path.clean_ofSegments hnames]
  unfold isWithin
  rw [habs, Path.clean_ofSegments hnames, Path.clean_ofSegments hplace, Bool.or_eq_true, decide_eq_true_iff]
  constructor
  · rintro (hstarts | hsame)
    · obtain ⟨t, ht⟩ := exists_append_of_startsWith hstarts
      refine ⟨⟨Path.pieces t, ?_⟩, fun hnil => eq_nil_of_append_slash hnames (hnil ▸ ht)⟩
      have hpieces := congrArg Path.pieces ht
      rw [Path.pieces_append_slash, Path.pieces_ofSegments hnames, Path.pieces_ofSegments hplace] at hpieces
      exact hpieces.symm
    · have hpieces := congrArg Path.pieces hsame
      rw [Path.pieces_ofSegments hnames, Path.pieces_ofSegments hplace] at hpieces
      rw [hpieces]
      exact ⟨List.prefix_rfl, id⟩
  · rintro ⟨⟨rest, rfl⟩, htop⟩
    by_cases hrest : rest = []
    · exact .inr (by rw [hrest, List.append_nil])
    · have hne : place ≠ [] := fun hnil => hrest (List.append_eq_nil_iff.mp (htop hnil)).2
      refine .inl (String.startsWith_string_iff.mpr ⟨("/".intercalate rest).toList, ?_⟩)
      rw [← String.toList_append, String.toList_inj]
      unfold Path.ofSegments
      rw [if_pos rfl, if_pos rfl, String.intercalate_append_of_ne_nil hne hrest]
      simp only [String.append_assoc]

end Within

/-! ## All absolute paths -/

/-- Only what the paths are when they are cleaned matters. -/
theorem isWithin_clean {cwd path root : String} (hpath : Path.isAbs path = true) :
    isWithin cwd path root = isWithin cwd (Path.clean path) (Path.clean root) := by
  have habs : Path.isAbs (Path.clean path) = true := by rw [Path.isAbs_clean, hpath]
  unfold isWithin Path.abs
  rw [if_pos hpath, if_pos habs, Path.clean_clean, Path.clean_clean, Path.clean_clean]

section Absolute

variable {cwd path root : String} (hpath : Path.isAbs path = true)
include hpath

theorem isWithin_iff_segments (hroot : Path.isAbs root = true) : isWithin cwd path root = true ↔
    Path.segments root <+: Path.segments path ∧ (Path.segments root = [] → Path.segments path = []) := by
  have hnames : Path.Kept true (Path.segments path).reverse := hpath ▸ Path.kept_segments path
  have hplace : Path.Kept true (Path.segments root).reverse := hroot ▸ Path.kept_segments root
  rw [isWithin_clean hpath, Path.clean, Path.clean, hpath, hroot]
  exact isWithin_iff hnames hplace

/-- In the top of all lies only the top itself. -/
theorem isWithin_top_iff : isWithin cwd path "/" = true ↔ Path.clean path = "/" := by
  have htop : Path.segments "/" = [] := by decide
  rw [isWithin_iff_segments hpath (by decide), htop, Path.clean_eq_top_iff hpath]
  exact ⟨fun h => h.2 rfl, fun h => ⟨List.nil_prefix, fun _ => h⟩⟩

/-- **A path lies in a directory** exactly if the names of the cleaned directory are the first names of the
cleaned path, and, if the directory is the top of all, the path is the top too. -/
theorem isWithin_iff_pieces (hroot : Path.isAbs root = true) : isWithin cwd path root = true ↔
    Path.pieces (Path.clean root) <+: Path.pieces (Path.clean path) ∧
      (Path.clean root = "/" → Path.clean path = "/") := by
  rw [Path.pieces_clean hpath, Path.pieces_clean hroot, Path.clean_eq_top_iff hpath,
    Path.clean_eq_top_iff hroot]
  exact isWithin_iff_segments hpath hroot

end Absolute

/-- Points, steps upwards and a slash at the end do not matter, and a directory whose name goes on after that of
another is not taken for it. -/
theorem isWithin_iff_pieces_src :
    Path.isAbs "/app/lib/../src/x.js" = true ∧ Path.isAbs "/app/src2/x.js" = true ∧
    Path.isAbs "/app/./src/" = true ∧ isWithin "/" "/app/lib/../src/x.js" "/app/./src/" = true ∧
    isWithin "/" "/app/src2/x.js" "/app/./src/" = false := by
  have hpath : Path.isAbs "/app/lib/../src/x.js" = true := by decide
  have hbeside : Path.isAbs "/app/src2/x.js" = true := by decide
  have hroot : Path.isAbs "/app/./src/" = true := by decide
  refine ⟨hpath, hbeside, hroot, (isWithin_iff_pieces hpath hroot).mpr (by decide +kernel), ?_⟩
  rw [Bool.eq_false_iff, Ne, isWithin_iff_pieces hbeside hroot]
  decide +kernel

/-- **No file lies in the top of all**, although the top has no names and every path goes on after none. -/
theorem isWithin_top : Path.isAbs "/a.js" = true ∧ Path.isAbs "/" = true ∧
    Path.pieces (Path.clean "/") <+: Path.pieces (Path.clean "/a.js") ∧ isWithin "/" "/a.js" "/" = false := by
  refine ⟨by decide, by decide, by decide, ?_⟩
  rw [Bool.eq_false_iff, Ne, isWithin_top_iff (by decide)]
  decide

end ScriptSplit
