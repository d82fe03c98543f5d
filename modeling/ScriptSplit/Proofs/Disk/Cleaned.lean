import Mathlib
import ScriptSplit.Proofs.Disk.Frame

/-!
# Paths that are cleaned

A directory is often given by a path that is cleaned before something is looked up in it. Where the path
ends in a name, so does the cleaned path. They lead to one place when the path has no steps upwards; after
a link a step upwards may lead elsewhere.

* `Path.EndsInName`: a path that ends in a name, with or without slashes after it.
* `exists_steps`: the steps of such a path as it is written, without the slashes at its end, and cleaned.
* `walk_append_stay`: a step that stays may be left out.
* **`place_clean`**: without steps upwards the cleaned path leads to the same place.
-/

namespace ScriptSplit

/-! ## Slashes at the end -/

namespace Path

theorem head?_parts {path : String} (h : isAbs path = true) : (parts path).head? = some "" := by
  obtain ⟨rest, hrest⟩ : ∃ rest, path.toList = '/' :: rest := by
    cases hchars : path.toList with
    | nil => simp [isAbs, hchars] at h
    | cons c rest =>
      rw [isAbs, hchars, List.head?_cons, decide_eq_true_eq, Option.some.injEq] at h
      exact ⟨rest, by rw [h]⟩
  have hpath : path = "/" ++ String.ofList rest := by
    rw [← String.toList_inj, hrest]
    simp
  rw [hpath, parts_slash]
  rfl

/-- The path ends in a name, with or without slashes after it. -/
def EndsInName (path : String) : Prop := Disk.Proper (afterLastSlash (withoutTrailingSlashes path))

instance (path : String) : Decidable (EndsInName path) := by
  unfold EndsInName Disk.Proper
  infer_instance

theorem exists_slashes (path : String) :
    ∃ count, path = withoutTrailingSlashes path ++ String.ofList (List.replicate count '/') := by
  obtain ⟨front, slashes, hsplit, hfront, hall⟩ : ∃ front slashes, path.toList.reverse = slashes ++ front ∧
      path.toList.reverse.dropWhile (· = '/') = front ∧ ∀ c ∈ slashes, c = '/' :=
    ⟨_, _, List.takeWhile_append_dropWhile.symm, rfl, fun c hc => by simpa using List.mem_takeWhile_imp hc⟩
  refine ⟨slashes.length, ?_⟩
  rw [← List.eq_replicate_of_mem hall, ← String.toList_inj, String.toList_append, withoutTrailingSlashes,
    String.toList_ofList, String.toList_ofList, hfront, ← List.reverse_reverse path.toList, hsplit,
    List.reverse_append, List.eq_replicate_of_mem hall, List.reverse_replicate]

theorem parts_slashes (path : String) (count : Nat) :
    parts (path ++ String.ofList (List.replicate count '/')) = parts path ++ List.replicate count "" := by
  induction count with
  | zero => simp
  | succ count ih =>
    have hnext : path ++ String.ofList (List.replicate (count + 1) '/') =
        path ++ String.ofList (List.replicate count '/') ++ "/" ++ "" := by
      rw [← String.toList_inj]
      simp [List.replicate_succ']
    rw [hnext, parts_append_slash, ih, List.append_assoc, List.replicate_succ']
    rfl

theorem exists_parts (path : String) : ∃ blanks, parts path = parts (withoutTrailingSlashes path) ++ blanks ∧
    ∀ s ∈ blanks, s = "" := by
  obtain ⟨count, hcount⟩ := exists_slashes path
  refine ⟨List.replicate count "", ?_, fun s hs => List.eq_of_mem_replicate hs⟩
  rw [← parts_slashes, ← hcount]

namespace EndsInName

variable {path : String} (h : EndsInName path)
include h

theorem exists_last : ∃ above name, parts (withoutTrailingSlashes path) = above ++ [name] ∧ Disk.Proper name := by
  have hne := parts_ne_nil (withoutTrailingSlashes path)
  have hlast : afterLastSlash (withoutTrailingSlashes path) = (parts (withoutTrailingSlashes path)).getLast hne := by
    rw [afterLastSlash, List.getLastD_eq_getLast?, List.getLast?_eq_some_getLast hne, Option.getD_some]
  refine ⟨(parts (withoutTrailingSlashes path)).dropLast, afterLastSlash (withoutTrailingSlashes path), ?_, h⟩
  rw [hlast, List.dropLast_append_getLast hne]

theorem withoutTrailingSlashes_ne_empty : withoutTrailingSlashes path ≠ "" := by
  intro hempty
  rw [EndsInName, hempty] at h
  exact h.1 (by decide)

theorem ne_empty : path ≠ "" := by
  rintro rfl
  exact h.withoutTrailingSlashes_ne_empty (by decide)

theorem isAbs_withoutTrailingSlashes : isAbs (withoutTrailingSlashes path) = isAbs path := by
  obtain ⟨count, hcount⟩ := exists_slashes path
  obtain ⟨c, cs, hcs⟩ : ∃ c cs, (withoutTrailingSlashes path).toList = c :: cs :=
    List.exists_cons_of_ne_nil fun hnil => h.withoutTrailingSlashes_ne_empty (String.toList_inj.mp hnil)
  have hlist : path.toList = c :: (cs ++ List.replicate count '/') := by
    rw [hcount, String.toList_append, hcs, String.toList_ofList]
    rfl
  rw [isAbs, isAbs, hcs, hlist]
  rfl

end EndsInName

end Path

namespace Disk

theorem steps_eq (d : Disk) (path : String) :
    d.steps path = (if Path.isAbs path then [] else Path.parts d.cwd) ++ Path.parts path := by
  unfold steps
  split_ifs with habs
  · rfl
  · exact Path.parts_append_slash _ _

/-- **The steps of a path that ends in a name**: its last step is the name, which is also the last one
that is kept when the path is cleaned. -/
theorem exists_steps {dir : String} (h : Path.EndsInName dir) (d : Disk) : ∃ above cleaned name blanks, Proper name ∧
    (∀ s ∈ blanks, s = "") ∧ d.steps dir = above ++ name :: blanks ∧
    d.steps (Path.withoutTrailingSlashes dir) = above ++ [name] ∧ d.dirSteps dir = cleaned ++ [name] ∧
    d.steps (Path.clean dir) = cleaned ++ [name] := by
  obtain ⟨above, name, hlast, hname⟩ := h.exists_last
  obtain ⟨blanks, hparts, hblanks⟩ := Path.exists_parts dir
  rw [hlast] at hparts
  have hsegments : ∃ segs, Path.segments dir = segs ++ [name] := by
    have hmem : name ∈ Path.parts dir := by
      rw [hparts]
      simp
    have hslash : '/' ∉ name.toList := Path.not_slash_of_mem_parts hmem
    have hstay : ∀ kept, blanks.foldl (Path.pushSegment (Path.isAbs dir)) kept = kept := by
      intro kept
      clear hparts
      induction blanks with
      | nil => rfl
      | cons s blanks ih =>
        obtain rfl := hblanks s List.mem_cons_self
        exact ih fun t ht => hblanks t (List.mem_cons_of_mem _ ht)
    refine ⟨(above.foldl (Path.pushSegment (Path.isAbs dir)) []).reverse, ?_⟩
    rw [Path.segments, hparts, List.foldl_append, hstay, List.foldl_append, List.foldl_cons, List.foldl_nil,
      Path.pushSegment_name ⟨hname.1, hname.2.1, hslash⟩ hname.2.2, List.reverse_cons]
  obtain ⟨segs, hsegs⟩ := hsegments
  have hdirSteps : d.dirSteps dir = d.origin (Path.isAbs dir) ++ segs ++ [name] := by
    rw [dirSteps, hsegs, List.append_assoc]
  refine ⟨(if Path.isAbs dir then [] else Path.parts d.cwd) ++ above, d.origin (Path.isAbs dir) ++ segs, name,
    blanks, hname, hblanks, ?_, ?_, hdirSteps, ?_⟩
  · rw [steps_eq, hparts]
    simp
  · rw [steps_eq, h.isAbs_withoutTrailingSlashes, hlast, List.append_assoc]
  · rw [← hdirSteps]
    exact steps_ofSegments d (Path.kept_segments dir) (by simp [hsegs])

/-! ## Steps that stay -/

theorem walk_of_not_dir {root : Node} {last : LastStep} {links : Nat} {here : List String} {segment : String}
    {rest : List String} (h : ∀ entries, root.at? here ≠ some (.dir entries)) :
    walk root last links here (segment :: rest) = .error .notDirectory := by
  rw [walk]
  split
  · rename_i hdir
    exact absurd hdir (h _)
  · rfl

/-- **A step that stays** may be left out, if it is not the last one. -/
theorem walk_append_stay {root : Node} {last : LastStep} {stay : String} (hstay : stay = "" ∨ stay = ".")
    {rest : List String} (hrest : rest ≠ []) : ∀ (links : Nat) (here first : List String),
    walk root last links here (first ++ stay :: rest) = walk root last links here (first ++ rest)
  | links, here, [] => by
    by_cases hdir : ∃ entries, root.at? here = some (.dir entries)
    · obtain ⟨entries, hdir⟩ := hdir
      exact walk_stay hdir hstay
    · have hnot : ∀ entries, root.at? here ≠ some (.dir entries) := fun entries h => hdir ⟨entries, h⟩
      obtain ⟨segment, rest, rfl⟩ := List.exists_cons_of_ne_nil hrest
      rw [List.nil_append, List.nil_append, walk_of_not_dir hnot, walk_of_not_dir hnot]
  | links, here, segment :: first => by
    by_cases hdir : ∃ entries, root.at? here = some (.dir entries)
    swap
    · have hnot : ∀ entries, root.at? here ≠ some (.dir entries) := fun entries h => hdir ⟨entries, h⟩
      rw [List.cons_append, List.cons_append, walk_of_not_dir hnot, walk_of_not_dir hnot]
    obtain ⟨entries, hdir⟩ := hdir
    rw [List.cons_append, List.cons_append]
    have hempty : (first ++ stay :: rest).isEmpty = (first ++ rest).isEmpty := by
      cases first with
      | nil => simp [hrest]
      | cons s first => rfl
    by_cases hsegment : segment = "" ∨ segment = "."
    · rw [walk_stay hdir hsegment, walk_stay hdir hsegment]
      exact walk_append_stay hstay hrest links here first
    by_cases hup : segment = ".."
    · subst hup
      rw [walk_up hdir, walk_up hdir]
      exact walk_append_stay hstay hrest links here.dropLast first
    have hproper : Proper segment := ⟨fun h => hsegment (.inl h), fun h => hsegment (.inr h), hup⟩
    cases hchild : root.at? (here ++ [segment]) with
    | none => rw [walk_missing hproper hdir hchild, walk_missing hproper hdir hchild, hempty]
    | some n =>
      by_cases hlink : ∃ target, n = .link target
      · obtain ⟨target, rfl⟩ := hlink
        have hmore : last = .follow ∨ first ++ stay :: rest ≠ [] := .inr (by simp)
        have hmore' : last = .follow ∨ first ++ rest ≠ [] := .inr (by simp [hrest])
        cases links with
        | zero => rw [walk_link_zero hproper hchild hmore, walk_link_zero hproper hchild hmore']
        | succ links =>
          rw [walk_link hproper hchild hmore, walk_link hproper hchild hmore', ← List.append_assoc,
            ← List.append_assoc]
          exact walk_append_stay hstay hrest links _ (Path.parts target ++ first)
      · have hn : ∀ target, n ≠ .link target := fun target heq => hlink ⟨target, heq⟩
        rw [walk_down hproper hchild hn, walk_down hproper hchild hn]
        exact walk_append_stay hstay hrest links (here ++ [segment]) first
termination_by links _ first => (links, first.length)

/-- The segment does not stay. -/
def moves (segment : String) : Bool := segment ≠ "" && segment ≠ "."

theorem walk_filter {root : Node} {last : LastStep} {links : Nat} {here rest : List String} (hrest : rest ≠ [])
    (first todo : List String) : walk root last links here (first ++ (todo ++ rest)) =
      walk root last links here (first ++ (todo.filter moves ++ rest)) := by
  induction todo generalizing first with
  | nil => rfl
  | cons segment todo ih =>
    by_cases hmoves : moves segment = true
    · rw [List.filter_cons_of_pos hmoves]
      have hnext := ih (first ++ [segment])
      rw [List.append_assoc, List.append_assoc] at hnext
      exact hnext
    · rw [List.filter_cons_of_neg hmoves, ← ih first]
      have hstay : segment = "" ∨ segment = "." := by
        simp only [moves, Bool.and_eq_true, decide_eq_true_eq, not_and_or, not_not] at hmoves
        exact hmoves
      exact walk_append_stay hstay (by simp [hrest]) links here first

theorem foldl_pushSegment_filter {rooted : Bool} {segs kept : List String} (hup : ".." ∉ segs) :
    segs.foldl (Path.pushSegment rooted) kept = (segs.filter moves).reverse ++ kept := by
  induction segs generalizing kept with
  | nil => rfl
  | cons s segs ih =>
    have hs : s ≠ ".." := fun h => hup (h ▸ List.mem_cons_self)
    rw [List.foldl_cons, ih fun h => hup (List.mem_cons_of_mem s h)]
    unfold Path.pushSegment
    by_cases hstay : s = "" ∨ s = "."
    · rw [if_pos (by simpa using hstay), List.filter_cons_of_neg (by rcases hstay with rfl | rfl <;> decide)]
    · rw [if_neg (by simpa using hstay), if_neg hs, List.filter_cons_of_pos (by simpa [moves] using hstay)]
      simp

/-- **Without steps upwards** a path that ends in a name leads to the same place when it is cleaned. -/
theorem place_clean {dir : String} (h : Path.EndsInName dir) (hup : ".." ∉ Path.parts dir) (d : Disk) (last : LastStep) :
    d.place last (Path.clean dir) = d.place last (Path.withoutTrailingSlashes dir) := by
  obtain ⟨above, name, hlast, hname⟩ := h.exists_last
  obtain ⟨blanks, hparts, hblanks⟩ := Path.exists_parts dir
  have hblanks' : blanks.filter moves = [] := by
    refine List.filter_eq_nil_iff.mpr fun s hs => ?_
    rw [hblanks s hs]
    decide
  have hsegments : Path.segments dir = above.filter moves ++ [name] := by
    have hfilter : [name].filter moves = [name] := by simp [moves, hname.1, hname.2.1]
    rw [Path.segments, foldl_pushSegment_filter hup, List.append_nil, List.reverse_reverse, hparts, hlast,
      List.filter_append, List.filter_append, hblanks', List.append_nil, hfilter]
  have hclean : d.steps (Path.clean dir) = d.origin (Path.isAbs dir) ++ (above.filter moves ++ [name]) := by
    rw [← hsegments]
    exact steps_ofSegments d (Path.kept_segments dir) (by simp [hsegments])
  rw [place_eq_walk (clean_ne_empty dir), place_eq_walk h.withoutTrailingSlashes_ne_empty, hclean,
    ← walk_filter (List.cons_ne_nil name []), steps_eq, h.isAbs_withoutTrailingSlashes, hlast]
  cases habs : Path.isAbs dir with
  | false => rfl
  | true =>
    -- the empty step in front of an absolute path, which leads to the root, is one that stays
    obtain ⟨above', rfl⟩ : ∃ above', above = "" :: above' := by
      have hfront : (Path.parts (Path.withoutTrailingSlashes dir)).head? = some "" :=
        Path.head?_parts (h.isAbs_withoutTrailingSlashes.trans habs)
      rw [hlast] at hfront
      cases above with
      | nil => exact absurd (Option.some.inj hfront) hname.1
      | cons s above => exact ⟨above, congrArg (· :: above) (Option.some.inj hfront)⟩
    exact walk_append_stay (.inl rfl) (by simp) maxLinks [] [""]

end Disk

end ScriptSplit
