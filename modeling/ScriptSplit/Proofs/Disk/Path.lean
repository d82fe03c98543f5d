import Mathlib
import ScriptSplit.Disk.Path

/-!
# Clean paths

The segments of a cleaned path are names, with steps upwards only in front of a path that does not
start at the root; cleaning a path again changes nothing.

* `Path.IsName`, `Path.Kept`: the segments that cleaning keeps; `kept_segments`.
* **`segments_ofSegments`**, `segments_clean`, `isAbs_clean`: a cleaned path has the same segments.
* `Path.dir_ofSegments`: the directory of a clean path.
* `Path.Descends`: a path names one thing below the other; **`Descends.join`**: it goes on after a directory.
* `Path.Below`: a path lies below a directory.
* **`rel?_of_below`**: such a path, as seen from the directory, is what the directory leaves of it.
-/

namespace ScriptSplit.Path

/-! ## Texts between slashes -/

theorem parts_intercalate {segs : List String} (hne : segs ≠ []) (hs : ∀ s ∈ segs, '/' ∉ s.toList) :
    parts ("/".intercalate segs) = segs := by
  have hsplit : (("/".intercalate segs).toList).splitOn '/' = segs.map String.toList := by
    rw [String.toList_intercalate]
    refine List.splitOn_intercalate '/' ?_ (by simpa using hne)
    intro l hl
    obtain ⟨s, hmem, rfl⟩ := List.mem_map.mp hl
    exact hs s hmem
  rw [parts, hsplit, List.map_map]
  simp

theorem parts_slash (s : String) : parts ("/" ++ s) = "" :: parts s := by
  have hlist : ("/" ++ s).toList = '/' :: s.toList := by simp
  rw [parts, hlist, List.splitOn_cons_eq_if_modifyHead, if_pos (beq_self_eq_true '/')]
  rfl

theorem parts_append_slash (a b : String) : parts (a ++ "/" ++ b) = parts a ++ parts b := by
  have hlist : (a ++ "/" ++ b).toList = a.toList ++ '/' :: b.toList := by simp
  rw [parts, hlist, List.splitOn_append_cons_self, List.map_append]
  rfl

theorem parts_ne_nil (path : String) : parts path ≠ [] := by
  rw [parts, Ne, List.map_eq_nil_iff]
  exact List.splitOn_ne_nil '/' path.toList

theorem intercalate_parts (path : String) : "/".intercalate (parts path) = path := by
  rw [← String.toList_inj, String.toList_intercalate, parts, List.map_map]
  have hid : (String.toList ∘ String.ofList) = id := by
    funext l
    simp
  rw [hid, List.map_id]
  exact List.intercalate_splitOn '/'

theorem parts_injective : Function.Injective parts := by
  intro a b h
  rw [← intercalate_parts a, h, intercalate_parts]

theorem not_mem_of_mem_splitOn {c : Char} {t l : List Char} (h : l ∈ t.splitOn c) : c ∉ l := by
  induction t generalizing l with
  | nil =>
    rw [List.splitOn_nil, List.mem_singleton] at h
    exact h ▸ List.not_mem_nil
  | cons x t ih =>
    rw [List.splitOn_cons_eq_if_modifyHead] at h
    split_ifs at h with hx
    · obtain rfl | h := List.mem_cons.mp h
      · exact List.not_mem_nil
      · exact ih h
    · cases hsplit : t.splitOn c with
      | nil => exact absurd hsplit (List.splitOn_ne_nil c t)
      | cons first rest =>
        rw [hsplit, List.modifyHead_cons] at h
        obtain rfl | h := List.mem_cons.mp h
        · have hfirst : c ∉ first := ih (hsplit ▸ List.mem_cons_self)
          rw [List.mem_cons, not_or]
          exact ⟨fun hc => hx (beq_iff_eq.mpr hc.symm), hfirst⟩
        · exact ih (hsplit ▸ List.mem_cons_of_mem first h)

theorem not_slash_of_mem_parts {path s : String} (h : s ∈ parts path) : '/' ∉ s.toList := by
  obtain ⟨l, hl, rfl⟩ := List.mem_map.mp h
  rw [String.toList_ofList]
  exact not_mem_of_mem_splitOn hl

/-! ## The segments that are kept -/

/-- A segment that cleaning keeps. -/
def IsName (s : String) : Prop := s ≠ "" ∧ s ≠ "." ∧ '/' ∉ s.toList

/-- Segments in reverse as cleaning leaves them: steps upwards stand in front of all names, and there
are none after the root. -/
def Kept (rooted : Bool) : List String → Prop
  | [] => True
  | s :: rest => IsName s ∧ Kept rooted rest ∧ (s = ".." → rooted = false ∧ ∀ t ∈ rest, t = "..")

theorem Kept.isName {rooted : Bool} {kept : List String} (h : Kept rooted kept) : ∀ s ∈ kept, IsName s := by
  induction kept with
  | nil => exact fun s hs => absurd hs List.not_mem_nil
  | cons x rest ih =>
    intro s hs
    obtain rfl | hs := List.mem_cons.mp hs
    · exact h.1
    · exact ih h.2.1 s hs

theorem pushSegment_up {rooted : Bool} {kept : List String} : pushSegment rooted kept ".." =
    match kept with
    | [] => if rooted then [] else [".."]
    | last :: rest => if last = ".." then ".." :: last :: rest else rest := rfl

theorem pushSegment_name {rooted : Bool} {kept : List String} {segment : String} (h : IsName segment)
    (hup : segment ≠ "..") : pushSegment rooted kept segment = segment :: kept := by
  unfold pushSegment
  rw [if_neg (by simp [h.1, h.2.1]), if_neg hup]

theorem Kept.pushSegment {rooted : Bool} {kept : List String} (h : Kept rooted kept) {segment : String}
    (hs : '/' ∉ segment.toList) : Kept rooted (pushSegment rooted kept segment) := by
  by_cases hdot : segment = "" ∨ segment = "."
  · unfold Path.pushSegment
    rw [if_pos (by simpa using hdot)]
    exact h
  have hname : IsName segment := ⟨fun h => hdot (.inl h), fun h => hdot (.inr h), hs⟩
  by_cases hup : segment = ".."
  · subst hup
    rw [pushSegment_up]
    cases kept with
    | nil =>
      cases rooted with
      | true => exact trivial
      | false => exact ⟨hname, trivial, fun _ => ⟨rfl, fun t ht => absurd ht List.not_mem_nil⟩⟩
    | cons last rest =>
      by_cases hlast : last = ".."
      · obtain ⟨hrooted, hrest⟩ := h.2.2 hlast
        simp only [if_pos hlast]
        refine ⟨hname, h, fun _ => ⟨hrooted, fun t ht => ?_⟩⟩
        obtain rfl | ht := List.mem_cons.mp ht
        · exact hlast
        · exact hrest t ht
      · simp only [if_neg hlast]
        exact h.2.1
  · rw [pushSegment_name hname hup]
    exact ⟨hname, h, fun hcontra => absurd hcontra hup⟩

theorem kept_foldl {rooted : Bool} {segs kept : List String} (h : Kept rooted kept)
    (hs : ∀ s ∈ segs, '/' ∉ s.toList) : Kept rooted (segs.foldl (pushSegment rooted) kept) := by
  induction segs generalizing kept with
  | nil => exact h
  | cons s segs ih =>
    exact ih (h.pushSegment (hs s List.mem_cons_self)) fun t ht => hs t (List.mem_cons_of_mem s ht)

theorem kept_segments (path : String) : Kept (isAbs path) (segments path).reverse := by
  rw [segments, List.reverse_reverse]
  exact kept_foldl trivial fun s hs => not_slash_of_mem_parts hs

/-- A segment after kept ones is kept as it is. -/
theorem pushSegment_of_kept {rooted : Bool} {s : String} {rest : List String}
    (h : Kept rooted (s :: rest)) : pushSegment rooted rest s = s :: rest := by
  obtain ⟨hname, -, hup⟩ := h
  by_cases hs : s = ".."
  · obtain ⟨rfl, hrest⟩ := hup hs
    subst hs
    rw [pushSegment_up]
    cases rest with
    | nil => rfl
    | cons t rest =>
      obtain rfl : t = ".." := hrest t List.mem_cons_self
      rfl
  · exact pushSegment_name hname hs

theorem foldl_of_kept {rooted : Bool} {kept : List String} (h : Kept rooted kept) :
    kept.reverse.foldl (pushSegment rooted) [] = kept := by
  induction kept with
  | nil => rfl
  | cons s rest ih =>
    rw [List.reverse_cons, List.foldl_append, ih h.2.1]
    exact pushSegment_of_kept h

/-! ## Clean paths -/

section Clean

variable {rooted : Bool} {segs : List String} (h : Kept rooted segs.reverse)
include h

theorem isName_of_kept_reverse : ∀ s ∈ segs, IsName s := fun s hs => h.isName s (List.mem_reverse.mpr hs)

theorem isAbs_intercalate : isAbs ("/".intercalate segs) = false := by
  cases segs with
  | nil => decide
  | cons s rest =>
    obtain ⟨hne, -, hslash⟩ := isName_of_kept_reverse h s List.mem_cons_self
    obtain ⟨c, cs, hcs⟩ : ∃ c cs, s.toList = c :: cs :=
      List.exists_cons_of_ne_nil fun hnil => hne (String.toList_inj.mp hnil)
    have hhead : ∃ tail, ("/".intercalate (s :: rest)).toList = c :: tail := by
      cases rest with
      | nil => exact ⟨cs, by rw [String.intercalate_singleton, hcs]⟩
      | cons t rest => exact ⟨_, by rw [String.intercalate_cons_cons, String.append_assoc, String.toList_append, hcs]; rfl⟩
    obtain ⟨tail, htail⟩ := hhead
    rw [isAbs, htail, List.head?_cons, decide_eq_false_iff_not, Option.some_inj]
    rintro rfl
    rw [hcs] at hslash
    exact hslash List.mem_cons_self

theorem isAbs_ofSegments : isAbs (ofSegments rooted segs) = rooted := by
  unfold ofSegments
  cases rooted with
  | true =>
    rw [if_pos rfl, isAbs, String.toList_append]
    rfl
  | false =>
    rw [if_neg Bool.false_ne_true]
    split_ifs
    · decide
    · exact isAbs_intercalate h

/-- **The segments of a path are the ones it was made of.** -/
theorem segments_ofSegments : segments (ofSegments rooted segs) = segs := by
  have hfold : segs.foldl (pushSegment rooted) [] = segs.reverse := by
    have := foldl_of_kept h
    rwa [List.reverse_reverse] at this
  have hslash : ∀ s ∈ segs, '/' ∉ s.toList := fun s hs => (isName_of_kept_reverse h s hs).2.2
  unfold segments
  rw [isAbs_ofSegments h]
  by_cases hnil : segs = []
  · subst hnil
    cases rooted with
    | true => decide
    | false => decide
  cases rooted with
  | true =>
    have hparts : parts (ofSegments true segs) = "" :: segs := by
      rw [ofSegments, if_pos rfl, parts_slash, parts_intercalate hnil hslash]
    rw [hparts, List.foldl_cons]
    change (segs.foldl (pushSegment true) []).reverse = segs
    rw [hfold, List.reverse_reverse]
  | false =>
    have hparts : parts (ofSegments false segs) = segs := by
      rw [ofSegments, if_neg Bool.false_ne_true, if_neg (by simpa using hnil), parts_intercalate hnil hslash]
    rw [hparts, hfold, List.reverse_reverse]

end Clean

theorem isAbs_clean (path : String) : isAbs (clean path) = isAbs path :=
  isAbs_ofSegments (kept_segments path)

theorem segments_clean (path : String) : segments (clean path) = segments path :=
  segments_ofSegments (kept_segments path)

theorem Kept.of_append {rooted : Bool} {later earlier : List String} (h : Kept rooted (later ++ earlier)) :
    Kept rooted earlier := by
  induction later with
  | nil => exact h
  | cons s later ih => exact ih h.2.1

theorem Kept.front {rooted : Bool} {first rest : List String} (h : Kept rooted (first ++ rest).reverse) :
    Kept rooted first.reverse := by
  rw [List.reverse_append] at h
  exact h.of_append

theorem parts_ofSegments {rooted : Bool} {segs : List String} (h : Kept rooted segs.reverse) (hne : segs ≠ []) :
    parts (ofSegments rooted segs) = (if rooted then [""] else []) ++ segs := by
  have hslash : ∀ s ∈ segs, '/' ∉ s.toList := fun s hs => (isName_of_kept_reverse h s hs).2.2
  cases rooted with
  | true =>
    rw [ofSegments, if_pos rfl, parts_slash, parts_intercalate hne hslash]
    rfl
  | false =>
    rw [ofSegments, if_neg Bool.false_ne_true, if_neg (by simpa using hne), parts_intercalate hne hslash]
    rfl

theorem ofSegments_ne_empty {rooted : Bool} {segs : List String} (h : Kept rooted segs.reverse) (hne : segs ≠ []) :
    ofSegments rooted segs ≠ "" := by
  intro hempty
  have hsegments := segments_ofSegments h
  rw [hempty] at hsegments
  exact hne (hsegments.symm.trans (by decide))

theorem clean_ofSegments {rooted : Bool} {segs : List String} (h : Kept rooted segs.reverse) :
    clean (ofSegments rooted segs) = ofSegments rooted segs := by
  rw [clean, isAbs_ofSegments h, segments_ofSegments h]

theorem clean_clean (path : String) : clean (clean path) = clean path := clean_ofSegments (kept_segments path)

theorem clean_append_slash {path : String} (hne : path ≠ "") : clean (path ++ "/") = clean path := by
  have habs : isAbs (path ++ "/") = isAbs path := by
    obtain ⟨c, cs, hcs⟩ : ∃ c cs, path.toList = c :: cs :=
      List.exists_cons_of_ne_nil fun hnil => hne (String.toList_inj.mp hnil)
    simp [isAbs, hcs]
  have hparts : parts (path ++ "/") = parts path ++ [""] := by
    have happend := parts_append_slash path ""
    rwa [String.append_empty] at happend
  have hsegments : segments (path ++ "/") = segments path := by
    rw [segments, habs, hparts, List.foldl_append]
    rfl
  rw [clean, habs, hsegments, clean]

/-- **The directory of a clean path** drops the last segment. -/
theorem dir_ofSegments {rooted : Bool} {above : List String} {name : String}
    (h : Kept rooted (above ++ [name]).reverse) :
    dir (ofSegments rooted (above ++ [name])) = ofSegments rooted above := by
  have habove : Kept rooted above.reverse := h.front
  have hparts : (parts (ofSegments rooted (above ++ [name]))).dropLast =
      (if rooted then [""] else []) ++ above := by
    rw [parts_ofSegments h (by simp), ← List.append_assoc, List.dropLast_concat]
  cases above with
  | nil =>
    unfold dir
    rw [hparts]
    cases rooted <;> decide
  | cons first rest =>
    obtain ⟨hfirst, -⟩ := isName_of_kept_reverse habove first List.mem_cons_self
    have htext : "/".intercalate ((if rooted then [""] else []) ++ first :: rest) =
        ofSegments rooted (first :: rest) := by
      cases rooted with
      | true => exact (String.intercalate_cons_cons ..).trans (by rw [String.empty_append]; rfl)
      | false => rfl
    have hne := ofSegments_ne_empty habove (List.cons_ne_nil first rest)
    unfold dir
    rw [hparts]
    split
    · rename_i hnil
      simp at hnil
    · -- the one segment before the last would have no letters
      rename_i hempty
      cases rooted with
      | true => simp at hempty
      | false => exact absurd (List.cons.inj hempty).1 hfirst
    · rw [htext, clean_append_slash hne, clean_ofSegments habove]

/-! ## Paths that lead down -/

/-- The path names one thing below the other: no step of it stays or leads upwards. -/
def Descends (path : String) : Prop := ∀ s ∈ parts path, IsName s ∧ s ≠ ".."

theorem foldl_names {rooted : Bool} {names kept : List String} (h : ∀ s ∈ names, IsName s ∧ s ≠ "..") :
    names.foldl (pushSegment rooted) kept = names.reverse ++ kept := by
  induction names generalizing kept with
  | nil => rfl
  | cons s names ih =>
    obtain ⟨hname, hup⟩ := h s List.mem_cons_self
    rw [List.foldl_cons, pushSegment_name hname hup, ih fun t ht => h t (List.mem_cons_of_mem s ht)]
    simp

theorem kept_append {rooted : Bool} {segs names : List String} (h : Kept rooted segs.reverse)
    (hnames : ∀ s ∈ names, IsName s ∧ s ≠ "..") : Kept rooted (segs ++ names).reverse := by
  have hfold := kept_foldl h fun s hs => (hnames s hs).1.2.2
  rwa [foldl_names hnames, ← List.reverse_append] at hfold

theorem Descends.isAbs {name : String} (h : Descends name) : Path.isAbs name = false := by
  have hkept : Kept false (parts name).reverse := by
    have hfold : Kept false ((parts name).foldl (pushSegment false) []) :=
      kept_foldl trivial fun s hs => (h s hs).1.2.2
    rwa [foldl_names h, List.append_nil] at hfold
  rw [← intercalate_parts name]
  exact isAbs_intercalate hkept

/-- **A path that leads down**, joined to a directory, goes on after its segments. -/
theorem Descends.join {name : String} (h : Descends name) (dir : String) :
    Path.join dir name = ofSegments (Path.isAbs dir) (segments dir ++ parts name) := by
  have hname : name ≠ "" := by
    rintro rfl
    exact (h "" (by decide)).1.1 rfl
  have hjoin : Path.join dir name = clean ("/".intercalate ([dir, name].filter (· ≠ ""))) := by
    unfold Path.join joinAll
    rw [if_neg (by simp [hname])]
  rw [hjoin]
  by_cases hdir : dir = ""
  · subst hdir
    have hparts : [("" : String), name].filter (· ≠ "") = [name] := by simp [hname]
    have hsegments : segments name = parts name := by
      rw [segments, foldl_names h, List.append_nil, List.reverse_reverse]
    rw [hparts, String.intercalate_singleton, clean, h.isAbs, hsegments]
    rfl
  · have hparts : [dir, name].filter (· ≠ "") = [dir, name] := by simp [hname, hdir]
    have habs : Path.isAbs (dir ++ "/" ++ name) = Path.isAbs dir := by
      obtain ⟨c, cs, hcs⟩ : ∃ c cs, dir.toList = c :: cs :=
        List.exists_cons_of_ne_nil fun hnil => hdir (String.toList_inj.mp hnil)
      simp [Path.isAbs, hcs]
    have hsegments : segments (dir ++ "/" ++ name) = segments dir ++ parts name := by
      rw [segments, habs, parts_append_slash, List.foldl_append, foldl_names h, List.reverse_append,
        List.reverse_reverse]
      rfl
    rw [hparts, String.intercalate_cons_cons, String.intercalate_singleton, clean, habs, hsegments]

theorem Descends.segments_join {name : String} (h : Descends name) (dir : String) :
    segments (Path.join dir name) = segments dir ++ parts name := by
  rw [h.join, segments_ofSegments (kept_append (kept_segments dir) h)]

theorem Descends.isAbs_join {name : String} (h : Descends name) (dir : String) :
    Path.isAbs (Path.join dir name) = Path.isAbs dir := by
  rw [h.join, isAbs_ofSegments (kept_append (kept_segments dir) h)]

/-! ## Paths below a directory -/

/-- The path lies below the directory `root`: its segments go on after those of `root`, and not
upwards. -/
def Below (root path : String) : Prop :=
  isAbs path = isAbs root ∧
    ∃ rest, rest ≠ [] ∧ rest.head? ≠ some ".." ∧ segments path = segments root ++ rest

/-- A path that goes on after another one lies below it, wherever both start. -/
theorem Descends.below_join {name inner : String} {rest : List String} (hname : Descends name) (hinner : Descends inner)
    (hne : rest ≠ []) (hparts : parts inner = parts name ++ rest) (dir : String) :
    Below (Path.join dir name) (Path.join dir inner) := by
  refine ⟨by rw [hname.isAbs_join, hinner.isAbs_join], rest, hne, ?_, ?_⟩
  · intro hup
    have hmem : ".." ∈ parts inner := hparts ▸ List.mem_append_right _ (List.mem_of_head? hup)
    exact (hinner _ hmem).2 rfl
  · rw [hname.segments_join, hinner.segments_join, hparts, List.append_assoc]

theorem dropShared_append (shared rest : List String) : dropShared shared (shared ++ rest) = ([], rest) := by
  induction shared with
  | nil => cases rest <;> rfl
  | cons s shared ih => rw [List.cons_append, dropShared, if_pos rfl, ih]

theorem intercalate_ne_dot {segs : List String} (hne : segs ≠ []) (h : ∀ s ∈ segs, IsName s) :
    "/".intercalate segs ≠ "." := by
  intro hdot
  have hparts := parts_intercalate hne fun s hs => (h s hs).2.2
  rw [hdot] at hparts
  have hmem : "." ∈ segs := by
    rw [← hparts]
    decide
  exact (h _ hmem).2.1 rfl

section Below

variable {root path : String} {rest : List String} (habs : isAbs path = isAbs root) (hne : rest ≠ [])
  (hsegs : segments path = segments root ++ rest)
include hsegs

theorem isName_of_below : ∀ s ∈ rest, IsName s := by
  intro s hs
  have hkept := kept_segments path
  rw [hsegs] at hkept
  exact isName_of_kept_reverse hkept s (List.mem_append_right _ hs)

include habs hne

/-- **A path below a directory**, as seen from it. -/
theorem rel?_of_below : rel? root path = some ("/".intercalate rest) := by
  have hnames := isName_of_below hsegs
  have hclean : clean root ≠ clean path := by
    intro heq
    have hsame := congrArg segments heq
    rw [segments_clean, segments_clean, hsegs] at hsame
    exact hne (List.self_eq_append_right.mp hsame)
  have hdot : clean path ≠ "." := by
    intro heq
    have hnil := congrArg segments heq
    rw [segments_clean, hsegs] at hnil
    exact hne (List.append_eq_nil_iff.mp (hnil.trans (by decide))).2
  unfold rel?
  rw [if_neg hclean, isAbs_clean, isAbs_clean, if_neg (by simp [habs])]
  simp only [if_neg hdot, segments_clean, hsegs, dropShared_append]
  rfl

/-- A clean path below a directory starts with what the directory gives. -/
theorem eq_append_of_below (hclean : clean path = path) :
    path = (if isAbs root then "/" else "") ++
      (if segments root = [] then "" else "/".intercalate (segments root) ++ "/") ++ "/".intercalate rest := by
  have hjoin : "/".intercalate (segments root ++ rest) =
      (if segments root = [] then "" else "/".intercalate (segments root) ++ "/") ++ "/".intercalate rest := by
    split_ifs with hroot
    · rw [hroot, List.nil_append, String.empty_append]
    · exact String.intercalate_append_of_ne_nil hroot hne
  rw [String.append_assoc, ← hjoin, ← hsegs]
  conv_lhs => rw [← hclean, clean, ofSegments, habs]
  have hsome : segments path ≠ [] := by simp [hsegs, hne]
  split_ifs with hrooted hnil
  · rfl
  · exact absurd (List.isEmpty_iff.mp hnil) hsome
  · rw [String.empty_append]

end Below

end ScriptSplit.Path
