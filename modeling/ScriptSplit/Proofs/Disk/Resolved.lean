import Mathlib
import ScriptSplit.Disk.Links
import ScriptSplit.Proofs.Disk.Below

/-!
# Resolved paths

A path that leads somewhere has a resolved form, which names the same place without links.

* **`Disk.evalLinksFrom_of_walk`**, `Disk.evalLinks_of_place`: what a walk finds has a resolved form.
* `Disk.exists_resolved`: a resolved form is the path of names.
-/

namespace ScriptSplit

namespace Path

theorem isAbs_abs {cwd : String} (hcwd : isAbs cwd = true) (path : String) : isAbs (abs cwd path) = true := by
  unfold abs
  split_ifs with habs
  · rw [isAbs_clean, habs]
  have hne : cwd ≠ "" := by
    rintro rfl
    exact absurd hcwd (by decide)
  obtain ⟨c, cs, hcs⟩ : ∃ c cs, cwd.toList = c :: cs :=
    List.exists_cons_of_ne_nil fun hnil => hne (String.toList_inj.mp hnil)
  unfold join joinAll
  rw [if_neg (by simp [hne]), isAbs_clean]
  by_cases hpath : path = ""
  · simpa [hne, hpath] using hcwd
  · have hlist : ("/".intercalate ([cwd, path].filter (· ≠ ""))).toList = c :: (cs ++ '/' :: path.toList) := by
      simp [hne, hpath, hcs, String.intercalate_cons_cons]
    rw [isAbs, hcs, List.head?_cons] at hcwd
    rw [isAbs, hlist, List.head?_cons, hcwd]

end Path

namespace Disk

/-! ## Steps towards a resolved form -/

section Step

variable {root : Node} {links : Nat} {dest rest : List String} {segment : String}

theorem evalLinksFrom_stay (hsegment : segment = "" ∨ segment = ".") :
    evalLinksFrom root links dest (segment :: rest) = evalLinksFrom root links dest rest := by
  rw [evalLinksFrom, if_pos (by simpa using hsegment)]

theorem evalLinksFrom_up :
    evalLinksFrom root links dest (".." :: rest) = evalLinksFrom root links dest.dropLast rest := by
  rw [evalLinksFrom, if_neg (by decide), if_pos rfl]

variable (hsegment : Proper segment)
include hsegment

theorem evalLinksFrom_link {target : String} (hlink : root.at? (dest ++ [segment]) = some (.link target)) :
    evalLinksFrom root (links + 1) dest (segment :: rest) =
      evalLinksFrom root links (if Path.isAbs target then [] else dest) (Path.parts target ++ rest) := by
  rw [evalLinksFrom, if_neg (by simp [hsegment.1, hsegment.2.1]), if_neg hsegment.2.2]
  simp only [hlink]

theorem evalLinksFrom_dir {entries : List (String × Node)}
    (hdir : root.at? (dest ++ [segment]) = some (.dir entries)) :
    evalLinksFrom root links dest (segment :: rest) = evalLinksFrom root links (dest ++ [segment]) rest := by
  rw [evalLinksFrom, if_neg (by simp [hsegment.1, hsegment.2.1]), if_neg hsegment.2.2]
  simp only [hdir]

theorem evalLinksFrom_file {t : Bytes} (hfile : root.at? (dest ++ [segment]) = some (.file t)) :
    evalLinksFrom root links dest [segment] = .ok (dest ++ [segment]) := by
  rw [evalLinksFrom, if_neg (by simp [hsegment.1, hsegment.2.1]), if_neg hsegment.2.2]
  simp only [hfile]
  rfl

end Step

/-! ## What a walk finds -/

/-- **What a walk finds has a resolved form**, as long as no fewer links may be followed. -/
theorem evalLinksFrom_of_walk {root : Node} {place : List String} : ∀ (links links' : Nat) (here todo : List String),
    links ≤ links' → walk root .follow links here todo = .ok place →
      evalLinksFrom root links' here todo = .ok place
  | links, links', here, [], _, h => by
    rw [walk] at h
    rw [evalLinksFrom]
    exact congrArg Except.ok (Except.ok.inj h)
  | links, links', here, segment :: rest, hle, h => by
    rcases walk_cons_cases (.inl rfl) h with ⟨entries, -, hstay, hwalk⟩ | ⟨entries, -, rfl, hwalk⟩ |
      ⟨target, fewer, hsegment, hlink, rfl, hwalk⟩ | ⟨hsegment, ⟨n, hn, hsolid⟩, hwalk⟩
    · rw [evalLinksFrom_stay hstay]
      exact evalLinksFrom_of_walk links links' here rest hle hwalk
    · rw [evalLinksFrom_up]
      exact evalLinksFrom_of_walk links links' here.dropLast rest hle hwalk
    · obtain ⟨fewer', rfl⟩ : ∃ fewer', links' = fewer' + 1 := ⟨links' - 1, by omega⟩
      rw [evalLinksFrom_link hsegment hlink]
      exact evalLinksFrom_of_walk fewer fewer' _ _ (by omega) hwalk
    · cases n with
      | link target => exact absurd rfl (hsolid target)
      | dir entries =>
        rw [evalLinksFrom_dir hsegment hn]
        exact evalLinksFrom_of_walk links links' (here ++ [segment]) rest hle hwalk
      | file t =>
        -- nothing comes after a file
        cases rest with
        | nil =>
          rw [walk] at hwalk
          rw [evalLinksFrom_file hsegment hn]
          exact congrArg Except.ok (Except.ok.inj hwalk)
        | cons next rest =>
          obtain ⟨entries, hdir⟩ := exists_dir_of_walk (List.cons_ne_nil next rest) hwalk
          rw [hn] at hdir
          cases hdir
termination_by links _ _ todo => (links, todo.length)

theorem evalLinks_of_place {d : Disk} {path : String} {place : List String} (hcwd : Path.isAbs d.cwd = true)
    (h : d.place .follow (Path.abs d.cwd path) = .ok place) :
    d.evalLinks path = .ok (Path.ofSegments true place) := by
  have hwalk : walk d.root .follow maxLinks [] (Path.parts (Path.abs d.cwd path)) = .ok place := by
    rw [place_eq_walk (ne_empty_of_place h), steps, if_pos (Path.isAbs_abs hcwd path)] at h
    exact h
  rw [evalLinks, evalLinksFrom_of_walk maxLinks 255 [] _ (by decide) hwalk]
  rfl

/-! ## Resolved forms -/

theorem kept_dropLast {dest : List String} (h : Path.Kept true dest.reverse) :
    Path.Kept true dest.dropLast.reverse := by
  by_cases hnil : dest = []
  · rw [hnil]
    exact trivial
  · rw [← List.dropLast_append_getLast hnil] at h
    exact h.front

theorem kept_concat {dest : List String} {segment : String} (h : Path.Kept true dest.reverse)
    (hsegment : Proper segment) (hslash : '/' ∉ segment.toList) : Path.Kept true (dest ++ [segment]).reverse :=
  Path.kept_append h fun _ hs => List.mem_singleton.mp hs ▸ ⟨⟨hsegment.1, hsegment.2.1, hslash⟩, hsegment.2.2⟩

/-- A resolved form has no steps upwards: every name is kept. -/
theorem kept_of_evalLinksFrom {root : Node} {links : Nat} {dest todo place : List String}
    (hdest : Path.Kept true dest.reverse) (htodo : ∀ s ∈ todo, '/' ∉ s.toList)
    (h : evalLinksFrom root links dest todo = .ok place) : Path.Kept true place.reverse := by
  fun_induction evalLinksFrom root links dest todo with
  | case1 links dest => exact Except.ok.inj h ▸ hdest
  | case2 links dest segment rest _ ih =>
    exact ih hdest (fun s hs => htodo s (List.mem_cons_of_mem segment hs)) h
  | case3 links dest rest _ ih =>
    exact ih (kept_dropLast hdest) (fun s hs => htodo s (List.mem_cons_of_mem ".." hs)) h
  | case4 => cases h
  | case5 => cases h
  | case6 dest segment rest _ _ next target _ links ih =>
    refine ih ?_ (fun s hs => ?_) h
    · split_ifs
      · exact trivial
      · exact hdest
    · rcases List.mem_append.mp hs with hs | hs
      · exact Path.not_slash_of_mem_parts hs
      · exact htodo s (List.mem_cons_of_mem segment hs)
  | case7 links dest segment rest hstay hup next t _ _ =>
    have hsegment : Proper segment := by simp_all [Proper]
    exact Except.ok.inj h ▸ kept_concat hdest hsegment (htodo segment List.mem_cons_self)
  | case8 => cases h
  | case9 links dest segment rest hstay hup next entries _ ih =>
    have hsegment : Proper segment := by simp_all [Proper]
    exact ih (kept_concat hdest hsegment (htodo segment List.mem_cons_self))
      (fun s hs => htodo s (List.mem_cons_of_mem segment hs)) h

/-- A resolved form is the path of names. -/
theorem exists_resolved {d : Disk} {path target : String} (h : d.evalLinks path = .ok target) :
    ∃ names, Path.Kept true names.reverse ∧ target = Path.ofSegments true names := by
  unfold evalLinks at h
  cases heval : evalLinksFrom d.root 255 [] (Path.parts (Path.abs d.cwd path)) with
  | error e =>
    rw [heval] at h
    cases h
  | ok names =>
    rw [heval] at h
    refine ⟨names, kept_of_evalLinksFrom ?_ (fun s hs => Path.not_slash_of_mem_parts hs) heval,
      (Except.ok.inj h).symm⟩
    exact trivial

end Disk

end ScriptSplit
