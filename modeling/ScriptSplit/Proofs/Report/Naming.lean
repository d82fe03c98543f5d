import Mathlib
import ScriptSplit.Proofs.Disk.Path
import ScriptSplit.Report.Naming

/-!
# Names of report files are distinct and lead down

No name is given twice, whatever the paths are: of one more numbered names than names are taken, one is
free. Every name leads from the report directory down into the directory of the report files. Of a path
only the slashes, points and colons matter, so its letters may be read as characters or as bytes.

* `freshName_not_mem`, **`nodup_assignNames`**: names do not collide.
* `EndsAfter`, **`exists_endsAfter`**: the numbering ends at the first name that is free.
* `parts_freshName`, **`parts_of_mem_assignNames`**: the steps of a name.
* **`assignNames_named`**: all of this together for the names of a list of paths.
-/

namespace ScriptSplit

/-! ## Free names -/

theorem numberedName_injective (stem : String) : Function.Injective (numberedName stem) := by
  intro a b h
  have hlists := congrArg String.toList h
  simp only [numberedName, String.toList_append, List.append_assoc] at hlists
  have hdigits := List.append_cancel_left (List.append_cancel_left hlists)
  have hdigits := List.append_cancel_right hdigits
  have hvalue := congrArg (fun ds => Nat.ofDigitChars 10 ds 0) hdigits
  simpa [Nat.toString_eq_ofList_toDigits] using hvalue

/-- If the name that was found is taken, so are all that were tried. -/
theorem taken_of_freshFrom_mem {stem : String} {taken : List String} {fuel n : Nat}
    (h : freshFrom stem taken fuel n ∈ taken) : ∀ i ≤ fuel, numberedName stem (n + i) ∈ taken := by
  induction fuel generalizing n with
  | zero =>
    intro i hi
    obtain rfl : i = 0 := by omega
    exact h
  | succ fuel ih =>
    rw [freshFrom] at h
    split_ifs at h with htaken
    · intro i hi
      cases i with
      | zero => exact List.contains_iff_mem.mp htaken
      | succ i =>
        have hmem := ih h i (by omega)
        rwa [Nat.add_right_comm, Nat.add_assoc] at hmem
    · exact absurd (List.contains_iff_mem.mpr h) htaken

/-- One of the numbered names is free, since there is one more of them than names are taken. -/
theorem freshFrom_not_mem (stem : String) (taken : List String) (n : Nat) :
    freshFrom stem taken taken.length n ∉ taken := by
  intro h
  have htaken := taken_of_freshFrom_mem h
  have hsubset : (List.range (taken.length + 1)).map (fun i => numberedName stem (n + i)) ⊆ taken := by
    intro name hname
    obtain ⟨i, hi, rfl⟩ := List.mem_map.mp hname
    exact htaken i (Nat.lt_succ_iff.mp (List.mem_range.mp hi))
  have hnodup : ((List.range (taken.length + 1)).map fun i => numberedName stem (n + i)).Nodup :=
    List.nodup_range.map fun i j hij => Nat.add_left_cancel (numberedName_injective stem hij)
  have hlength := (List.subperm_of_subset hnodup hsubset).length_le
  rw [List.length_map, List.length_range] at hlength
  omega

theorem freshName_not_mem (stem : String) (taken : List String) : freshName stem taken ∉ taken := by
  unfold freshName
  split_ifs with htaken
  · exact freshFrom_not_mem stem taken 1
  · exact fun h => htaken (List.contains_iff_mem.mpr h)

theorem length_assignNames (taken paths : List String) : (assignNames taken paths).length = paths.length := by
  induction paths generalizing taken with
  | nil => rfl
  | cons path paths ih => rw [assignNames, List.length_cons, List.length_cons, ih]

theorem assignNames_not_mem {taken paths : List String} {name : String} (h : name ∈ assignNames taken paths) :
    name ∉ taken := by
  induction paths generalizing taken with
  | nil => cases h
  | cons path paths ih =>
    obtain rfl | h := List.mem_cons.mp h
    · exact freshName_not_mem _ taken
    · exact fun hmem => ih h (List.mem_cons_of_mem _ hmem)

/-- **Names do not collide.** -/
theorem nodup_assignNames (taken paths : List String) : (assignNames taken paths).Nodup := by
  induction paths generalizing taken with
  | nil => exact List.nodup_nil
  | cons path paths ih =>
    rw [assignNames, List.nodup_cons]
    exact ⟨fun h => assignNames_not_mem h List.mem_cons_self, ih _⟩

/-! ## The numbering -/

/-- The name that is tried after some rounds of the numbering. -/
def candidateName (stem : String) : (round : Nat) → String
  | 0 => stem ++ ".json"
  | round + 1 => numberedName stem (round + 1)

theorem candidateName_injective (stem : String) : Function.Injective (candidateName stem) := by
  have hplain : ∀ n, stem ++ ".json" ≠ numberedName stem n := by
    intro n h
    have hlists := congrArg String.toList h
    simp only [numberedName, String.toList_append, List.append_assoc] at hlists
    exact absurd (List.cons.inj (List.append_cancel_left hlists)).1 (by decide)
  intro a b h
  cases a with
  | zero =>
    cases b with
    | zero => rfl
    | succ b => exact absurd h (hplain _)
  | succ a =>
    cases b with
    | zero => exact absurd h.symm (hplain _)
    | succ b => exact numberedName_injective stem h

/-- The numbering of a stem ends after some rounds: what was tried before is taken, and the name that it
ends at is free. -/
structure EndsAfter (stem : String) (taken : List String) (rounds : Nat) (name : String) : Prop where
  tried : ∀ round < rounds, candidateName stem round ∈ taken
  ends : candidateName stem rounds = name
  free : name ∉ taken

/-- The numbering ends at one name, which depends on nothing but what is taken. -/
theorem EndsAfter.unique {stem name name' : String} {taken taken' : List String} {rounds rounds' : Nat}
    (h : EndsAfter stem taken rounds name) (h' : EndsAfter stem taken' rounds' name')
    (hsame : ∀ name, name ∈ taken ↔ name ∈ taken') : rounds = rounds' ∧ name = name' := by
  obtain ⟨htried, rfl, hfree⟩ := h
  obtain ⟨htried', rfl, hfree'⟩ := h'
  obtain hlt | rfl | hgt := lt_trichotomy rounds rounds'
  · exact absurd ((hsame _).mpr (htried' rounds hlt)) hfree
  · exact ⟨rfl, rfl⟩
  · exact absurd ((hsame _).mp (htried rounds' hgt)) hfree'

theorem freshFrom_eq (stem : String) (taken : List String) (fuel n : Nat) :
    ∃ k, freshFrom stem taken fuel n = numberedName stem (n + k) ∧
      ∀ i < k, numberedName stem (n + i) ∈ taken := by
  induction fuel generalizing n with
  | zero => exact ⟨0, rfl, fun i hi => absurd hi (Nat.not_lt_zero i)⟩
  | succ fuel ih =>
    rw [freshFrom]
    split_ifs with htaken
    · obtain ⟨k, hk, htried⟩ := ih (n + 1)
      refine ⟨k + 1, by rw [hk, Nat.add_right_comm, Nat.add_assoc], fun i hi => ?_⟩
      cases i with
      | zero => exact List.contains_iff_mem.mp htaken
      | succ i =>
        have hmem := htried i (by omega)
        rwa [Nat.add_right_comm, Nat.add_assoc] at hmem
    · exact ⟨0, rfl, fun i hi => absurd hi (Nat.not_lt_zero i)⟩

/-- **The numbering ends** whatever is taken, after no more rounds than names are taken. -/
theorem exists_endsAfter (stem : String) (taken : List String) :
    ∃ rounds ≤ taken.length, EndsAfter stem taken rounds (freshName stem taken) := by
  obtain ⟨rounds, hrounds, htried⟩ : ∃ rounds, freshName stem taken = candidateName stem rounds ∧
      ∀ round < rounds, candidateName stem round ∈ taken := by
    unfold freshName
    split_ifs with htaken
    · obtain ⟨k, hk, htried⟩ := freshFrom_eq stem taken taken.length 1
      refine ⟨k + 1, by rw [hk, Nat.add_comm, candidateName], fun round hround => ?_⟩
      cases round with
      | zero => exact List.contains_iff_mem.mp htaken
      | succ round =>
        have hmem := htried round (by omega)
        rwa [Nat.add_comm] at hmem
    · exact ⟨0, rfl, fun round hround => absurd hround (Nat.not_lt_zero round)⟩
  refine ⟨rounds, ?_, htried, hrounds.symm, freshName_not_mem stem taken⟩
  -- what was tried is taken, and no name was tried twice
  have hsubset : (List.range rounds).map (candidateName stem) ⊆ taken := by
    intro name hname
    obtain ⟨round, hround, rfl⟩ := List.mem_map.mp hname
    exact htried round (List.mem_range.mp hround)
  have hnodup : ((List.range rounds).map (candidateName stem)).Nodup :=
    List.nodup_range.map (candidateName_injective stem)
  have hlength := (List.subperm_of_subset hnodup hsubset).length_le
  rwa [List.length_map, List.length_range] at hlength

/-- A name depends on what is taken, in whatever order it is listed. -/
theorem freshName_congr (stem : String) {taken taken' : List String} (hsame : ∀ name, name ∈ taken ↔ name ∈ taken') :
    freshName stem taken = freshName stem taken' := by
  obtain ⟨rounds, -, h⟩ := exists_endsAfter stem taken
  obtain ⟨rounds', -, h'⟩ := exists_endsAfter stem taken'
  exact (h.unique h' hsame).2

theorem freshName_of_free {path : String} {taken : List String} (h : reportName path ∉ taken) :
    freshName (reportStem path) taken = reportName path := by
  unfold freshName
  exact if_neg fun htaken => h (List.contains_iff_mem.mp htaken)

/-! ## The steps of a name -/

/-- A name is its stem with a number, if any, and the ending of a report file. -/
theorem freshName_eq (stem : String) (taken : List String) :
    ∃ number, freshName stem taken = stem ++ (number ++ ".json") ∧ '/' ∉ number.toList := by
  unfold freshName
  split_ifs
  · obtain ⟨k, hk, -⟩ := freshFrom_eq stem taken taken.length 1
    have hdigits : '/' ∉ Nat.toDigits 10 (1 + k) := by
      intro hmem
      have hdigit := Nat.isDigit_of_mem_toDigits (b := 10) (by decide) (by decide) hmem
      exact absurd hdigit (by decide)
    refine ⟨"~" ++ toString (1 + k), ?_, ?_⟩
    · rw [hk, numberedName]
      simp only [String.append_assoc]
    · simpa [Nat.toString_eq_ofList_toDigits] using hdigits
  · exact ⟨"", by rw [String.empty_append], by decide⟩

/-- A text without a slash that is more than points is a name below its directory. -/
theorem isName_of_mem {s : String} {c : Char} (hslash : '/' ∉ s.toList) (hc : c ∈ s.toList) (hpoint : c ≠ '.') :
    Path.IsName s ∧ s ≠ ".." := by
  refine ⟨⟨?_, ?_, hslash⟩, ?_⟩
  · rintro rfl
    exact absurd hc List.not_mem_nil
  · rintro rfl
    exact hpoint (by simpa using hc)
  · rintro rfl
    exact hpoint (by simpa using hc)

theorem isName_reportSegment {segment s : String} (hslash : '/' ∉ segment.toList)
    (h : reportSegment? segment = some s) : Path.IsName s ∧ s ≠ ".." := by
  unfold reportSegment? at h
  split_ifs at h with hdot hup
  · cases h
    exact isName_of_mem (c := 'u') (by decide) (by decide) (by decide)
  -- where there is no underscore in the result, the segment is as it was
  have hsame : ∀ t : String, '_' ∉ t.toList → s = t → segment = t := by
    rintro t ht rfl
    cases h
    have hcolon : ∀ c ∈ segment.toList, (if c = ':' then '_' else c) = c := by
      intro c hc
      split_ifs with heq
      · refine absurd ?_ ht
        rw [String.toList_ofList, List.mem_map]
        exact ⟨c, hc, if_pos heq⟩
      · rfl
    rw [List.map_congr_left hcolon, List.map_id', String.ofList_toList]
  simp only [Bool.or_eq_true, decide_eq_true_eq, not_or] at hdot
  refine ⟨⟨fun hs => hdot.1 (hsame _ (by decide) hs), fun hs => hdot.2 (hsame _ (by decide) hs), ?_⟩,
    fun hs => hup (hsame _ (by decide) hs)⟩
  cases h
  rw [String.toList_ofList, List.mem_map]
  rintro ⟨c, hc, heq⟩
  split_ifs at heq with hcolon
  · cases heq
  · exact hslash (heq ▸ hc)

theorem isName_reportSegments {path s : String} (h : s ∈ reportSegments path) :
    Path.IsName s ∧ s ≠ ".." := by
  unfold reportSegments at h
  simp only at h
  split_ifs at h
  · rw [List.mem_singleton] at h
    subst h
    exact isName_of_mem (c := '_') (by decide) (by decide) (by decide)
  · obtain ⟨segment, hsegment, hs⟩ := List.mem_filterMap.mp h
    exact isName_reportSegment (Path.not_slash_of_mem_parts hsegment) hs

theorem reportSegments_ne_nil (path : String) : reportSegments path ≠ [] := by
  unfold reportSegments
  simp only
  split_ifs with hnil
  · exact List.cons_ne_nil _ _
  · simpa using hnil

/-- **The steps of a name**: the directory of the report files, the directories of its path and a name that
ends like that of a report file. -/
theorem parts_freshName (path : String) (taken : List String) : ∃ last : String,
    Path.parts (freshName (reportStem path) taken) =
      filesDir :: ((reportSegments path).dropLast ++ [last ++ ".json"]) ∧
    ∀ s ∈ (reportSegments path).dropLast ++ [last ++ ".json"], Path.IsName s ∧ s ≠ ".." := by
  obtain ⟨number, hname, hslash⟩ := freshName_eq (reportStem path) taken
  obtain ⟨front, last, hsegments⟩ : ∃ front last, reportSegments path = front ++ [last] :=
    ⟨_, _, (List.dropLast_append_getLast (reportSegments_ne_nil path)).symm⟩
  have hmem : ∀ s ∈ front ++ [last], Path.IsName s ∧ s ≠ ".." := by
    intro s hs
    exact isName_reportSegments (hsegments ▸ hs)
  have hlast : Path.IsName (last ++ number ++ ".json") ∧ last ++ number ++ ".json" ≠ ".." := by
    refine isName_of_mem (c := 'j') ?_ ?_ (by decide)
    · simp only [String.toList_append, List.mem_append, not_or]
      exact ⟨⟨(hmem last (by simp)).1.2.2, hslash⟩, by decide⟩
    · rw [String.toList_append]
      exact List.mem_append_right _ (by decide)
  have hall : ∀ s ∈ front ++ [last ++ number ++ ".json"], Path.IsName s ∧ s ≠ ".." := by
    intro s hs
    obtain hs | hs := List.mem_append.mp hs
    · exact hmem s (List.mem_append_left _ hs)
    · rw [List.mem_singleton.mp hs]
      exact hlast
  have hjoin : reportStem path ++ (number ++ ".json") =
      "/".intercalate ((filesDir :: front) ++ [last ++ number ++ ".json"]) := by
    rw [reportStem, hsegments, ← List.cons_append,
      String.intercalate_append_of_ne_nil (List.cons_ne_nil _ _) (List.cons_ne_nil _ _),
      String.intercalate_append_of_ne_nil (List.cons_ne_nil _ _) (List.cons_ne_nil _ _),
      String.intercalate_singleton, String.intercalate_singleton]
    simp only [String.append_assoc]
  have hnoslash : ∀ s ∈ (filesDir :: front) ++ [last ++ number ++ ".json"], '/' ∉ s.toList := by
    intro s hs
    obtain rfl | hs := List.mem_cons.mp hs
    · decide
    · exact (hall s hs).1.2.2
  rw [hsegments, List.dropLast_concat]
  refine ⟨last ++ number, ?_, hall⟩
  rw [hname, hjoin, Path.parts_intercalate (by simp) hnoslash, List.cons_append]

/-! ## The names of a list of paths -/

/-- The names that are given later are those for what was taken by then. -/
theorem assignNames_append (taken before after : List String) : assignNames taken (before ++ after) =
    assignNames taken before ++ assignNames ((assignNames taken before).reverse ++ taken) after := by
  induction before generalizing taken with
  | nil => rfl
  | cons path before ih =>
    rw [List.cons_append, assignNames, assignNames, ih, List.cons_append, List.reverse_cons, List.append_assoc]
    rfl

/-- A path is given the name that is free among those before it. -/
theorem getElem?_assignNames {paths : List String} {i : Nat} {path : String} (h : paths[i]? = some path) :
    (assignNames [] paths)[i]? = some (freshName (reportStem path) ((assignNames [] paths).take i)) := by
  obtain ⟨hi, rfl⟩ := List.getElem?_eq_some_iff.mp h
  obtain ⟨before, after, hpaths, hbefore⟩ : ∃ before after, paths = before ++ paths[i] :: after ∧
      before.length = i :=
    ⟨paths.take i, paths.drop (i + 1), by rw [← List.drop_eq_getElem_cons hi, List.take_append_drop],
      by rw [List.length_take]; omega⟩
  generalize paths[i] = path at hpaths ⊢
  have hlength : (assignNames [] before).length = i := (length_assignNames [] before).trans hbefore
  have hsame : ∀ name, name ∈ (assignNames [] before).reverse ++ [] ↔ name ∈ assignNames [] before := by simp
  rw [hpaths, assignNames_append, List.take_left' hlength, List.getElem?_append_right hlength.le, hlength,
    Nat.sub_self, assignNames, freshName_congr _ hsame]
  rfl

theorem exists_of_mem_assignNames {taken paths : List String} {name : String} (h : name ∈ assignNames taken paths) :
    ∃ path ∈ paths, ∃ taken', name = freshName (reportStem path) taken' := by
  induction paths generalizing taken with
  | nil => cases h
  | cons path paths ih =>
    obtain rfl | h := List.mem_cons.mp h
    · exact ⟨path, List.mem_cons_self, taken, rfl⟩
    · obtain ⟨path', hpath', taken', hname⟩ := ih h
      exact ⟨path', List.mem_cons_of_mem path hpath', taken', hname⟩

/-- **Names lead down** into the directory of the report files. -/
theorem parts_of_mem_assignNames {taken paths : List String} {name : String}
    (h : name ∈ assignNames taken paths) : ∃ inner, inner ≠ [] ∧ Path.parts name = filesDir :: inner ∧
      ∀ s ∈ inner, Path.IsName s ∧ s ≠ ".." := by
  obtain ⟨path, -, taken', rfl⟩ := exists_of_mem_assignNames h
  obtain ⟨last, hparts, hnames⟩ := parts_freshName path taken'
  exact ⟨_, by simp, hparts, hnames⟩

/-- A name stands below the directory of the report files, wherever the report directory is. -/
structure IsReportName (name : String) : Prop where
  form : ∃ inner, name = "files/" ++ inner ++ ".json"
  /-- There is no segment that is empty, stays or leads upwards. -/
  descends : Path.Descends name
  below : ∀ dir, Path.Below (Path.join dir filesDir) (Path.join dir name)

theorem isReportName_freshName (path : String) (taken : List String) :
    IsReportName (freshName (reportStem path) taken) := by
  obtain ⟨number, hname, -⟩ := freshName_eq (reportStem path) taken
  obtain ⟨last, hparts, hinner⟩ := parts_freshName path taken
  have hfiles : Path.Descends filesDir := by
    have hone : Path.parts filesDir = [filesDir] := by decide
    intro s hs
    rw [hone, List.mem_singleton] at hs
    rw [hs]
    exact isName_of_mem (c := 'f') (by decide) (by decide) (by decide)
  have hdescends : Path.Descends (freshName (reportStem path) taken) := by
    intro s hs
    rw [hparts] at hs
    obtain rfl | hs := List.mem_cons.mp hs
    · exact hfiles _ (by decide)
    · exact hinner s hs
  refine ⟨⟨"/".intercalate (reportSegments path) ++ number, ?_⟩, hdescends, fun dir => ?_⟩
  · rw [hname, reportStem, filesDir, String.intercalate_cons_of_ne_nil (reportSegments_ne_nil path)]
    simp only [String.append_assoc]
    rfl
  · have hne : (reportSegments path).dropLast ++ [last ++ ".json"] ≠ [] := by simp
    exact hfiles.below_join hdescends hne hparts dir

/-- The paths of files are given these names. -/
structure PathsNamed (paths names : List String) : Prop where
  length : names.length = paths.length
  distinct : names.Nodup
  below : ∀ name ∈ names, IsReportName name
  /-- Each path is given the name at which the numbering ends, given the names before it. -/
  numbered : ∀ i path, paths[i]? = some path → names[i]? = some (freshName (reportStem path) (names.take i))
  /-- A name that is free is kept. -/
  kept : ∀ i path, paths[i]? = some path → reportName path ∉ names.take i → names[i]? = some (reportName path)

/-- **The names of report files**: whatever the paths are, they are given names that are distinct and lead
down, and whatever is taken, the numbering ends. -/
theorem assignNames_named (paths : List String) : PathsNamed paths (assignNames [] paths) ∧
    ∀ stem taken, ∃ rounds ≤ taken.length, EndsAfter stem taken rounds (freshName stem taken) := by
  refine ⟨⟨length_assignNames [] paths, nodup_assignNames [] paths, fun name hname => ?_,
    fun i path hpath => getElem?_assignNames hpath, fun i path hpath hfree => ?_⟩, exists_endsAfter⟩
  · obtain ⟨path, -, taken, rfl⟩ := exists_of_mem_assignNames hname
    exact isReportName_freshName path taken
  · rw [getElem?_assignNames hpath, freshName_of_free hfree]

/-- A number that is taken by the name of another path is passed over. -/
example : assignNames [] ["a.js", "./a.js", "a.js.json~1", "..", "a.js"] =
    ["files/a.js.json", "files/a.js~1.json", "files/a.js.json~1.json", "files/_up.json", "files/a.js~2.json"] := by
  decide

end ScriptSplit
